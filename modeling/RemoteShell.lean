import RemoteShell.Assoc
import RemoteShell.Backoff
import RemoteShell.Cells
import RemoteShell.Circuit.Breaker
import RemoteShell.Circuit.Registry
import RemoteShell.Counts
import RemoteShell.Credential.Offer
import RemoteShell.Credential.Operator
import RemoteShell.Credential.Search
import RemoteShell.Dialogue
import RemoteShell.Elevation.Ascent
import RemoteShell.Elevation.Detection
import RemoteShell.Elevation.Engine
import RemoteShell.Elevation.Method
import RemoteShell.Elevation.Profile
import RemoteShell.Elevation.Query
import RemoteShell.Environment
import RemoteShell.Execution
import RemoteShell.Fault
import RemoteShell.Hub
import RemoteShell.Json
import RemoteShell.Json.Codec
import RemoteShell.Pool.Basic
import RemoteShell.Pool.Get
import RemoteShell.Pool.Removal
import RemoteShell.Rehearsal.Cabinet
import RemoteShell.Rehearsal.Job
import RemoteShell.Rehearsal.Journal
import RemoteShell.Rehearsal.Offline
import RemoteShell.Rehearsal.Script
import RemoteShell.Rehearsal.Session
import RemoteShell.Rehearsal.Stage
import RemoteShell.Rehearsal.Step
import RemoteShell.Rehearsal.World
import RemoteShell.Request
import RemoteShell.Setting
import RemoteShell.Shell
import RemoteShell.Target
import RemoteShell.Terminal
import RemoteShell.Text.Basic
import RemoteShell.Text.Case
import RemoteShell.Text.Classes
import RemoteShell.Text.Quoted
import RemoteShell.Time
import RemoteShell.Tool
import RemoteShell.Tunnel
import RemoteShell.Vault
import RemoteShell.Wait
import RemoteShell.Wire
import RemoteShell.Proofs.Cells.Exclusion
import RemoteShell.Proofs.Circuit.History
import RemoteShell.Proofs.Circuit.Probing
import RemoteShell.Proofs.Pool.Records
import RemoteShell.Proofs.Pool.Traffic
import RemoteShell.Proofs.Pool.Turns
import RemoteShell.Proofs.Pool.Soundness
import RemoteShell.Proofs.Pool.Exclusion
import RemoteShell.Proofs.Pool.Growth
import RemoteShell.Proofs.Pool.Returned
import RemoteShell.Proofs.Pool.Conservation
import RemoteShell.Proofs.Pool.Custody
import RemoteShell.Proofs.Shell.Words
import RemoteShell.Proofs.Tunnel.Closing
import RemoteShell.Proofs.Elevation.Traffic
import RemoteShell.Proofs.Elevation.Contract
import RemoteShell.Proofs.Elevation.Consistency
import RemoteShell.Proofs.Elevation.Soundness
import RemoteShell.Proofs.Elevation.Evidence
import RemoteShell.Proofs.Elevation.Trust
import RemoteShell.Proofs.Pool.Capacity
import RemoteShell.Proofs.Circuit.Hosts
import RemoteShell.Proofs.Execution.Traffic
import RemoteShell.Proofs.Execution.Turns
import RemoteShell.Proofs.Circuit.Replies
import RemoteShell.Proofs.Execution.Grounds
import RemoteShell.Proofs.Execution.Dealings
import RemoteShell.Proofs.Execution.Accounting
import RemoteShell.Proofs.Execution.Reflection
import RemoteShell.Proofs.Execution.Custody
import RemoteShell.Proofs.Elevation.Marks
import RemoteShell.Proofs.Elevation.Orderly
import RemoteShell.Proofs.Elevation.Skipping
import RemoteShell.Proofs.Elevation.Conduct
import RemoteShell.Proofs.Execution.Tries
import RemoteShell.Proofs.Pool.Departure
import RemoteShell.Proofs.Pool.Idleness
import RemoteShell.Proofs.Execution.Idleness
import RemoteShell.Proofs.Dialogue.Questions
import RemoteShell.Proofs.Elevation.Questions
import RemoteShell.Proofs.Credential.Questions
import RemoteShell.Proofs.Vault.Names
import RemoteShell.Proofs.Text.Lowering
import RemoteShell.Proofs.Credential.Routing
import RemoteShell.Proofs.Pool.Provenance
import RemoteShell.Proofs.Elevation.Moves
import RemoteShell.Proofs.Elevation.Turns
import RemoteShell.Proofs.Elevation.Serial
import RemoteShell.Proofs.Circuit.Refinement
import RemoteShell.Proofs.Terminal.Cleaning
import RemoteShell.Proofs.Elevation.Crashes
import RemoteShell.Proofs.Cells.Values
import RemoteShell.Proofs.Elevation.Sights
import RemoteShell.Proofs.Elevation.Likeness
import RemoteShell.Proofs.Elevation.Secrecy
import RemoteShell.Proofs.Backoff.Precision
import RemoteShell.Proofs.Backoff.Delays
import RemoteShell.Proofs.Execution.Pauses
import RemoteShell.Proofs.Cells.Queues
import RemoteShell.Proofs.Pool.Rest
import RemoteShell.Proofs.Pool.Eviction
import RemoteShell.Proofs.Cells.Handles
import RemoteShell.Proofs.Elevation.Faults
import RemoteShell.Proofs.Elevation.Aftermath
import RemoteShell.Proofs.Dialogue.Paths
import RemoteShell.Proofs.Elevation.Parts
import RemoteShell.Proofs.Elevation.Fallback
import RemoteShell.Proofs.Dialogue.Plays
import RemoteShell.Proofs.Credential.Surroundings
import RemoteShell.Proofs.Credential.Precedence
import RemoteShell.Proofs.Credential.Passphrases
import RemoteShell.Proofs.Execution.Waits
import RemoteShell.Proofs.Execution.Refusals
import RemoteShell.Proofs.Execution.Callers
import RemoteShell.Proofs.Execution.Cancelling
import RemoteShell.Proofs.Text.Numerals
import RemoteShell.Proofs.Target.Grammar
import RemoteShell.Proofs.Target.Agreement
import RemoteShell.Proofs.Tunnel.Lifetime
import RemoteShell.Proofs.Elevation.Quiescence
import RemoteShell.Proofs.Cells.Agreement
import RemoteShell.Proofs.Elevation.Isolation
import RemoteShell.Proofs.Elevation.Renewal
import RemoteShell.Proofs.Elevation.Clearing
import RemoteShell.Proofs.Circuit.Waiting
import RemoteShell.Proofs.Fault.Classification
import RemoteShell.Proofs.Elevation.Probes
import RemoteShell.Proofs.Pool.Overview
import RemoteShell.Proofs.Pool.Clearance
import RemoteShell.Proofs.Wire.RoundTrip
