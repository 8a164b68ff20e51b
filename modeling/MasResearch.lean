import MasResearch.Core.LTS
import MasResearch.Core.Dict
import MasResearch.Core.Exec
import MasResearch.Core.Transcript
import MasResearch.Core.Interleaving
import MasResearch.Core.Equations
import MasResearch.Core.Keys
import MasResearch.Core.Firsts
import MasResearch.Core.Recency
import MasResearch.Core.Ranking
import MasResearch.Core.Rounding
import MasResearch.Core.Rates
import MasResearch.Core.Grouping
import MasResearch.Core.Table
import MasResearch.Core.Text
import MasResearch.Core.Paths
import MasResearch.Core.Join
import MasResearch.Core.Json
import MasResearch.Core.JsonFuel
import MasResearch.L1Domain.Schemas
import MasResearch.L1Domain.Plan
import MasResearch.L1Domain.Payloads
import MasResearch.L1Domain.DagEquations
import MasResearch.L2Dispatch.TaskState
import MasResearch.L2Dispatch.Assembly
import MasResearch.L2Dispatch.World
import MasResearch.L2Dispatch.Dispatch
import MasResearch.L2Dispatch.Moves
import MasResearch.L2Dispatch.Inbox
import MasResearch.L2Dispatch.Receiver
import MasResearch.L2Dispatch.Coordinator
import MasResearch.L2Dispatch.Steps
import MasResearch.L2Dispatch.Finalize
import MasResearch.L2Dispatch.Enrol
import MasResearch.L2Adapters.Pages
import MasResearch.L2Adapters.Spacy
import MasResearch.L2Adapters.Whisper
import MasResearch.L2Agents.AgentBase
import MasResearch.L2Agents.Corpus
import MasResearch.L2Agents.Papers
import MasResearch.L2Agents.Recommender
import MasResearch.L2Agents.LlmJson
import MasResearch.L2Agents.LlmCalls
import MasResearch.L2Agents.Summarizer
import MasResearch.L2Agents.Summaries
import MasResearch.L2Agents.Quiz
import MasResearch.L2Agents.Quizzes
import MasResearch.L2Agents.Terms
import MasResearch.L2Agents.Terminology
import MasResearch.L2Agents.TermRequests
import MasResearch.L2Evaluation.Intrinsic
import MasResearch.L2Evaluation.Wer
import MasResearch.L2Agents.Workers
import MasResearch.L2Store.Chunks
import MasResearch.L2Store.ResultRows
import MasResearch.L2Agents.Ingestion
import MasResearch.L2Store.Assembled
import MasResearch.L2Store.ResultStore
import MasResearch.L2Store.FormedRows
import MasResearch.L2Store.TaskRows
import MasResearch.L2Store.CreateTask
import MasResearch.L2Store.Uploads
import MasResearch.L2Store.Uploading
import MasResearch.L3Runs.Saves
import MasResearch.L3Runs.Slots
import MasResearch.L3Runs.Routings
import MasResearch.L3Runs.Runs
import MasResearch.L3Runs.Plays
import MasResearch.L3Runs.Timers
import MasResearch.L3Runs.Histories
import MasResearch.L3Runs.Audit
import MasResearch.L3Runs.WriteOnce
import MasResearch.L3Runs.Traffic
import MasResearch.L3Runs.Reloads
import MasResearch.L3Runs.Resumes
import MasResearch.L3Runs.Isolation
import MasResearch.L3Runs.Joins
import MasResearch.L3Runs.Confluence
import MasResearch.L3Runs.Artifacts
import MasResearch.L3Runs.Gauge
import MasResearch.L3Runs.Calls
import MasResearch.L3Runs.Startup
import MasResearch.L3Runs.Rows
import MasResearch.L3Runs.Views
import MasResearch.L3Runs.System
import MasResearch.L3Runs.Provenance
import MasResearch.L2Agents.Grounds
import MasResearch.L2Evaluation.Metrics
import MasResearch.L3Runs.Clients
import MasResearch.L3Runs.Deployment
import MasResearch.L3Runs.Evaluated
import MasResearch.L3Runs.Intake
import MasResearch.L3Runs.Grounding
import MasResearch.L3Runs.Served
import MasResearch.Bugs.StaleRefusal
import MasResearch.Bugs.LostReplies
import MasResearch.Bugs.RecoveryIsolation
import MasResearch.Bugs.DoubleRegistration
import MasResearch.Bugs.DoubleCharge
import MasResearch.Bugs.AbandonedArtifact
import MasResearch.Bugs.ChunkOrder
import MasResearch.Bugs.EmptyResults
import MasResearch.Bugs.LeftoverChunks
import MasResearch.Bugs.UnlinkedTerms
import MasResearch.Bugs.UnansweredAck
import MasResearch.Bugs.SplitTitles
import MasResearch.Bugs.DocumentOrder
import MasResearch.Bugs.RepeatedOperations
import MasResearch.Bugs.FencedValues
import MasResearch.Bugs.LaunderedIndices
import MasResearch.Bugs.ChainedForms
import MasResearch.Bugs.BlankStems
import MasResearch.L3Runs.Library
