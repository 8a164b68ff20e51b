import MasResearch.Core.Exec
import MasResearch.L2Dispatch.Assembly

/-!
# The coordinator's inbox (`core/bus.py`, `core/idempotency.py`)

One `XREADGROUP` delivers a batch of stream entries. The read loop takes them
one by one: it validates the payload, acknowledges the entry, and keeps the
reply when its `message_id` is new to the `IdempotentReceiver`. A payload that
does not validate, or an `XACK` that raises, ends the loop with the exception;
an `XACK` that raises may have reached the server.

`Mailbox.acked` is ghost: the acknowledged entries, newest first, each with
whether its reply was a duplicate when it was acknowledged.
-/
namespace MasResearch.L2

open MasResearch.L1

/-- The cached ids, least recently used first. The constructor rejects a size
of zero.
mirrors src/core/idempotency.py:15-22 -/
structure IdempotentReceiver where
  cacheSize : Nat
  seen : List String
  pos : 0 < cacheSize
  bounded : seen.length ≤ cacheSize

namespace IdempotentReceiver

def new (cacheSize : Nat) (h : 0 < cacheSize) : IdempotentReceiver := ⟨cacheSize, [], h, Nat.zero_le _⟩

/-- `move_to_end` on a known id; otherwise evict the oldest when full and insert.
mirrors src/core/idempotency.py:24-36 -/
def accept (r : IdempotentReceiver) (messageId : String) : Bool × IdempotentReceiver :=
  if h : messageId ∈ r.seen then
    (false, { r with
      seen := r.seen.erase messageId ++ [messageId]
      bounded := by
        have := List.length_erase_add_one h
        have := r.bounded
        simp only [List.length_append, List.length_singleton]; omega })
  else
    (true, { r with
      seen := (if r.cacheSize ≤ r.seen.length then r.seen.tail else r.seen) ++ [messageId]
      bounded := by
        have := r.bounded
        have := r.pos
        split <;> simp only [List.length_append, List.length_tail, List.length_singleton] <;> omega })

/-- `accept` answers whether the id was not cached. -/
theorem accept_fst (r : IdempotentReceiver) (messageId : String) :
    (r.accept messageId).1 = decide (messageId ∉ r.seen) := by
  unfold accept
  split <;> simp [*]

end IdempotentReceiver

/-- An `XACK` returned, or raised, in which case it may have taken effect. -/
inductive AckOutcome where
  | ok
  | failed (acked : Bool)
  deriving DecidableEq, Repr

/-- A stream entry; `none` is a payload `Message.model_validate_json` rejects. -/
structure Delivery where
  entryId : String
  payload : Option Message
  ack : AckOutcome := .ok

/-- One `XREADGROUP`: it raised, or returned a batch. -/
inductive Batch where
  | unavailable
  | entries (ds : List Delivery)

structure Acked where
  entryId : String
  reply : Message
  duplicate : Bool

structure Mailbox where
  receiver : IdempotentReceiver
  acked : List Acked := []

/-- `RedisStreamBus.ack`.
mirrors src/core/bus.py:82-84 -/
def busAck (d : Delivery) (reply : Message) : Exec Mailbox PyError Unit := do
  let m ← Exec.get
  let entry : Acked := ⟨d.entryId, reply, reply.messageId ∈ m.receiver.seen⟩
  match d.ack with
  | .ok => Exec.modify fun m => { m with acked := entry :: m.acked }
  | .failed true =>
    Exec.modify fun m => { m with acked := entry :: m.acked }
    Exec.raise .external
  | .failed false => Exec.raise .external

/-- `self._idempotency.accept(reply.message_id)`. -/
def acceptReply (reply : Message) : Exec Mailbox PyError Bool := do
  let m ← Exec.get
  Exec.modify fun m => { m with receiver := (m.receiver.accept reply.messageId).2 }
  pure (m.receiver.accept reply.messageId).1

/-- The entries of a batch; returns what `replies` holds after the loop.
mirrors src/agents/coordinator.py:180-185, src/core/bus.py:78-80 -/
def readEntries : List Delivery → Exec Mailbox PyError (List Message)
  | [] => pure []
  | d :: ds =>
    match d.payload with
    | none => Exec.raise .validationError
    | some reply => do
      busAck d reply
      let isNew ← acceptReply reply
      let replies ← readEntries ds
      pure (if isNew then reply :: replies else replies)

/-- mirrors src/agents/coordinator.py:179-185, src/core/bus.py:61-80 -/
def readInbox : Batch → Exec Mailbox PyError (List Message)
  | .unavailable => Exec.raise .external
  | .entries ds => readEntries ds

/-! ## What the read loop does -/

/-- The payload validates and the `XACK` returns. -/
def Delivery.Sound (d : Delivery) : Prop := d.payload.isSome ∧ d.ack = .ok

instance (d : Delivery) : Decidable d.Sound := inferInstanceAs (Decidable (_ ∧ _))

/-- The entries the read loop acknowledges, oldest first: up to the first one
that is not sound, and that one too when its `XACK` took effect before raising. -/
def ackedOf : IdempotentReceiver → List Delivery → List Acked
  | _, [] => []
  | r, d :: ds =>
    match d.payload with
    | none => []
    | some reply =>
      match d.ack with
      | .ok => ⟨d.entryId, reply, reply.messageId ∈ r.seen⟩ :: ackedOf (r.accept reply.messageId).2 ds
      | .failed true => [⟨d.entryId, reply, reply.messageId ∈ r.seen⟩]
      | .failed false => []

/-- The replies the loop keeps: the acknowledged ones that were new. -/
def keptOf (es : List Acked) : List Message := (es.filter fun e => !e.duplicate).map Acked.reply

/-- The loop acknowledges `ackedOf` and, when every entry is sound, returns the
new replies; otherwise it raises. -/
theorem run_readEntries : ∀ (ds : List Delivery) (m : Mailbox),
    ∃ r m', (readEntries ds).run m = (r, m') ∧ m'.acked = (ackedOf m.receiver ds).reverse ++ m.acked ∧
      (((∀ d ∈ ds, d.Sound) ∧ r = .ok (keptOf (ackedOf m.receiver ds))) ∨
        (¬ ∀ d ∈ ds, d.Sound) ∧ ∃ e, r = .error e)
  | [], m => ⟨_, m, rfl, rfl, .inl ⟨by simp, rfl⟩⟩
  | d :: ds, m => by
    rw [List.forall_mem_cons]
    cases hp : d.payload with
    | none =>
      have hns : ¬ d.Sound := fun h => by rw [Delivery.Sound, hp] at h; cases h.1
      refine ⟨.error .validationError, m, ?_, by simp [ackedOf, hp], .inr ⟨fun h => hns h.1, _, rfl⟩⟩
      simp only [readEntries, hp, Exec.run_raise]
    | some reply =>
      cases ha : d.ack with
      | failed acked =>
        have hns : ¬ d.Sound := fun h => by rw [Delivery.Sound, ha] at h; cases h.2
        cases acked <;>
          exact ⟨.error .external, _, by simp only [readEntries, hp, busAck, ha]; rfl,
            by simp [ackedOf, hp, ha], .inr ⟨fun h => hns h.1, _, rfl⟩⟩
      | ok =>
        have hs : d.Sound := ⟨by rw [hp]; rfl, ha⟩
        let entry : Acked := ⟨d.entryId, reply, reply.messageId ∈ m.receiver.seen⟩
        obtain ⟨r, m', h1, h2, h3⟩ := run_readEntries ds
          { receiver := (m.receiver.accept reply.messageId).2, acked := entry :: m.acked }
        have hrun : (readEntries (d :: ds)).run m = (do
            let replies ← readEntries ds
            pure (if (m.receiver.accept reply.messageId).1 then reply :: replies else replies) : Exec Mailbox _ _).run
              { receiver := (m.receiver.accept reply.messageId).2, acked := entry :: m.acked } := by
          simp only [readEntries, hp, busAck, ha]; rfl
        have hacked : ackedOf m.receiver (d :: ds) =
            entry :: ackedOf (m.receiver.accept reply.messageId).2 ds := by simp only [ackedOf, hp, ha]; rfl
        rw [hrun, Exec.run_bind, h1, hacked]
        rcases h3 with ⟨hall, rfl⟩ | ⟨hnot, e, rfl⟩
        · refine ⟨_, m', rfl, by rw [h2]; simp, .inl ⟨⟨hs, hall⟩, ?_⟩⟩
          rw [IdempotentReceiver.accept_fst]
          by_cases hseen : reply.messageId ∈ m.receiver.seen <;> simp [keptOf, entry, hseen]
        · exact ⟨_, m', rfl, by rw [h2]; simp, .inr ⟨fun h => hnot h.2, e, rfl⟩⟩

end MasResearch.L2
