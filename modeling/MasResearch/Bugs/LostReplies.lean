import MasResearch.L3Runs.Timers

/-!
# An acknowledged reply is lost when the read loop raises

A tick acknowledges and de-duplicates the entries of a batch one by one and routes
the replies only after the loop (src/agents/coordinator.py:178-192). When a later
entry's payload does not validate, or an XACK raises, the exception leaves the loop
and the replies kept so far are dropped: their entries are acknowledged and their
ids are cached, so neither redelivery nor a repetition brings them back.
`RedisStreamBus.ack` documents the opposite order: "Call only after the handler
finished successfully" (src/core/bus.py:82-84).

Counterexample (`acknowledged_reply_lost`): the transcriber's reply for a
registered task, followed by an entry whose payload is not a message.

`accounted_iff`: a tick accounts for every reply it acknowledged exactly when the
read loop does not raise, or the replies it acknowledged before raising are all
duplicates or for unregistered tasks.
-/
namespace MasResearch.Bugs.LostReplies

open MasResearch.L1 MasResearch.L2 MasResearch.L3 Relation

/-- Between `c` and `c'`, every reply whose entry was acknowledged is a
duplicate, belongs to no registered task, or was routed. -/
def Accounted (c c' : Coordinator) : Prop :=
  ∀ acked, c'.mailbox.acked = acked ++ c.mailbox.acked → ∀ e ∈ acked,
    e.duplicate = true ∨ c.tasks.get? e.reply.taskId = none ∨
      ∃ new, (c'.outside e.reply.taskId).history = new ++ (c.outside e.reply.taskId).history ∧
        Event.routed e.reply ∈ new

/-! ## Counterexample -/

/-- A coordinator that has submitted `lecture`. -/
def busy : Coordinator := next Env.faultless {} Coordinator.idle (.submit lecture 0)

/-- The transcriber's reply, then an entry that is not a message. -/
def batch : Batch :=
  .entries [{ entryId := "1-0", payload := some transcript }, { entryId := "2-0", payload := none }]

/-- **Counterexample.** -/
theorem acknowledged_reply_lost : (runs .any Env.faultless {}).Reachable busy ∧
    ¬ Accounted busy (next Env.faultless {} busy (.tick batch 1)) := by
  refine ⟨reachable_lecture .any trivial fun _ => trivial, fun h => ?_⟩
  rcases h [⟨"1-0", transcript, false⟩] rfl _ (List.mem_singleton.mpr rfl) with hd | hn | ⟨new, hh, hm⟩
  · cases hd
  · have hs : (busy.tasks.get? "t1").isSome = true := by decide +kernel
    have hn : busy.tasks.get? "t1" = none := hn
    rw [hn] at hs; cases hs
  · -- the tick raised before routing: the history is what it was
    have he : (busy.outside "t1").history = new ++ (busy.outside "t1").history := hh
    rw [List.self_eq_append_left.mp he] at hm
    cases hm

/-! ## When replies are accounted for -/

/-- The read loop does not raise, or no reply it acknowledges before raising is
new and for a registered task. -/
def Harmless (c : Coordinator) : Batch → Prop
  | .unavailable => True
  | .entries ds => (∀ d ∈ ds, d.Sound) ∨ ∀ e ∈ ackedOf c.mailbox.receiver ds,
      e.duplicate = true ∨ c.tasks.get? e.reply.taskId = none

variable {env : Env} {cfg : Config} {c : Coordinator} {now : ℚ}

/-- A tick that raised while reading routed nothing. -/
theorem accounted_unread {b : Batch} {e : PyError} {m : Mailbox} {new : List Acked}
    (hread : (readInbox b).run c.mailbox = (.error e, m)) (hm : m.acked = new ++ c.mailbox.acked) :
    Accounted c (next env cfg c (.tick b now)) ↔
      ∀ e ∈ new, e.duplicate = true ∨ c.tasks.get? e.reply.taskId = none := by
  have hn : next env cfg c (.tick b now) = { c with mailbox := m } := by
    rw [next, Action.coroutine, tick_unread env cfg now hread]
  rw [hn]
  constructor
  · intro h e he
    rcases h new hm e he with hd | hn | ⟨fresh, hh, hin⟩
    · exact .inl hd
    · exact .inr hn
    · have hh : (c.outside e.reply.taskId).history = fresh ++ (c.outside e.reply.taskId).history := hh
      rw [List.self_eq_append_left.mp hh] at hin
      cases hin
  · intro h acked ha e he
    have ha : m.acked = acked ++ c.mailbox.acked := ha
    rw [hm, List.append_cancel_right_eq] at ha
    rcases h e (ha ▸ he) with hd | hn
    · exact .inl hd
    · exact .inr (.inl hn)

/-- A tick that read its batch routed every new reply of a registered task. -/
theorem accounted_read (hk : Keyed c) {b : Batch} {m : Mailbox} {es : List Acked}
    (hread : (readInbox b).run c.mailbox = (.ok (keptOf es), m))
    (hm : m.acked = es.reverse ++ c.mailbox.acked) : Accounted c (next env cfg c (.tick b now)) := by
  obtain ⟨c', hrun, -, hbox, hslot⟩ := tick_slot env cfg now b c hk hread
  have hn : next env cfg c (.tick b now) = c' := by rw [next, Action.coroutine, hrun]
  rw [hn]
  intro acked ha e he
  rw [hbox, hm, List.append_cancel_right_eq] at ha
  rw [← ha, List.mem_reverse] at he
  cases hd : e.duplicate with
  | true => exact .inl rfl
  | false =>
    have hkept : e.reply ∈ (keptOf es).filter fun r => r.taskId = e.reply.taskId :=
      List.mem_filter.mpr ⟨List.mem_map_of_mem (List.mem_filter.mpr ⟨he, by rw [hd]; rfl⟩), by simp⟩
    cases hs : c.tasks.get? e.reply.taskId with
    | none => exact .inr (.inl rfl)
    | some s =>
      obtain ⟨new, hh, hin, -⟩ := slotTick_history env cfg now
        ((keptOf es).filter fun r => r.taskId = e.reply.taskId) (l := c.slot e.reply.taskId)
        (hk e.reply.taskId) hs
      have hout : (c'.outside e.reply.taskId).history = new ++ (c.outside e.reply.taskId).history := by
        have := congrArg (fun l => l.outside.history) (hslot e.reply.taskId)
        exact this.trans hh
      exact .inr (.inr ⟨new, hout, hin _ hkept⟩)

/-- **Which ticks account for what they acknowledge.** -/
theorem accounted_iff (env : Env) (cfg : Config) {c : Coordinator} (hr : (runs .any env cfg).Reachable c)
    (b : Batch) (now : ℚ) : Accounted c (next env cfg c (.tick b now)) ↔ Harmless c b := by
  cases b with
  | unavailable =>
    rw [accounted_unread rfl (List.nil_append c.mailbox.acked).symm]
    simp [Harmless]
  | entries ds =>
    obtain ⟨r, m, hread, hacked, hc⟩ := run_readEntries ds c.mailbox
    have hread : (readInbox (.entries ds)).run c.mailbox = (r, m) := hread
    rcases hc with ⟨hall, rfl⟩ | ⟨hnot, e, rfl⟩
    · exact ⟨fun _ => .inl hall, fun _ => accounted_read (keyed_of_reachable hr) hread hacked⟩
    · rw [accounted_unread hread hacked]
      simp only [List.mem_reverse, Harmless, hnot, false_or]

theorem accounted_iff_busy :
    Accounted busy (next Env.faultless {} busy
      (.tick (.entries [{ entryId := "1-0", payload := some transcript }]) 1)) :=
  (accounted_iff Env.faultless {} (reachable_lecture .any trivial fun _ => trivial) _ 1).mpr
    (.inl (by decide))

end MasResearch.Bugs.LostReplies
