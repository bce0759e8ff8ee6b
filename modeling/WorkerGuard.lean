import WorkerGuard.Alert
import WorkerGuard.Breaker.Board
import WorkerGuard.Breaker.Circuit
import WorkerGuard.Breaker.Condition
import WorkerGuard.Breaker.Handle
import WorkerGuard.Breaker.Row
import WorkerGuard.Breaker.Word
import WorkerGuard.Command.Arguments
import WorkerGuard.Command.Basic
import WorkerGuard.Command.Help
import WorkerGuard.Command.Listing
import WorkerGuard.Command.Run
import WorkerGuard.Command.Shell
import WorkerGuard.Degrade.Artifact
import WorkerGuard.Degrade.Log
import WorkerGuard.Error
import WorkerGuard.Failure.CallError
import WorkerGuard.Failure.Classification
import WorkerGuard.Failure.Kind
import WorkerGuard.Failure.Pattern
import WorkerGuard.FileError
import WorkerGuard.Json.Numeral
import WorkerGuard.Json.Record
import WorkerGuard.Json.Value
import WorkerGuard.Json.Written
import WorkerGuard.Keyed
import WorkerGuard.Lifecycle
import WorkerGuard.Main
import WorkerGuard.Name
import WorkerGuard.Number.Parts
import WorkerGuard.Number.Shortest
import WorkerGuard.Override
import WorkerGuard.Program
import WorkerGuard.Project.Files
import WorkerGuard.Project.Path
import WorkerGuard.Project.Session
import WorkerGuard.Proofs.Alert.Check
import WorkerGuard.Proofs.Alert.Count
import WorkerGuard.Proofs.Breaker.Caller
import WorkerGuard.Proofs.Breaker.Calls
import WorkerGuard.Proofs.Breaker.Cooldown
import WorkerGuard.Proofs.Breaker.Due
import WorkerGuard.Proofs.Breaker.Forecast
import WorkerGuard.Proofs.Breaker.Garbled
import WorkerGuard.Proofs.Breaker.Handles
import WorkerGuard.Proofs.Breaker.History
import WorkerGuard.Proofs.Breaker.Interplay
import WorkerGuard.Proofs.Breaker.Lineup
import WorkerGuard.Proofs.Breaker.Operation
import WorkerGuard.Proofs.Breaker.Outage
import WorkerGuard.Proofs.Breaker.Override
import WorkerGuard.Proofs.Breaker.Owned
import WorkerGuard.Proofs.Breaker.Packed
import WorkerGuard.Proofs.Breaker.Probe
import WorkerGuard.Proofs.Breaker.Race
import WorkerGuard.Proofs.Breaker.Recall
import WorkerGuard.Proofs.Breaker.Return
import WorkerGuard.Proofs.Breaker.Solo
import WorkerGuard.Proofs.Breaker.Step
import WorkerGuard.Proofs.Command.Accounts
import WorkerGuard.Proofs.Command.Calls
import WorkerGuard.Proofs.Command.Desk
import WorkerGuard.Proofs.Command.History
import WorkerGuard.Proofs.Command.Process
import WorkerGuard.Proofs.Degrade.Appended
import WorkerGuard.Proofs.Degrade.Artifact
import WorkerGuard.Proofs.Degrade.Log
import WorkerGuard.Proofs.Degrade.Torn
import WorkerGuard.Proofs.Failure.Pattern
import WorkerGuard.Proofs.Failure.Wording
import WorkerGuard.Proofs.Json.Numeral
import WorkerGuard.Proofs.Json.Torn
import WorkerGuard.Proofs.Json.Written
import WorkerGuard.Proofs.Number.Digits
import WorkerGuard.Proofs.Number.Magnitude
import WorkerGuard.Proofs.Number.Shortest
import WorkerGuard.Proofs.Program.Abides
import WorkerGuard.Proofs.Program.Alike
import WorkerGuard.Proofs.Program.Effect
import WorkerGuard.Proofs.Program.Marked
import WorkerGuard.Proofs.Program.Passage
import WorkerGuard.Proofs.Program.Path
import WorkerGuard.Proofs.Program.Schedule
import WorkerGuard.Proofs.Program.Steady
import WorkerGuard.Proofs.Program.Trail
import WorkerGuard.Proofs.Project.Files
import WorkerGuard.Proofs.Project.Path
import WorkerGuard.Proofs.Registry.Alive
import WorkerGuard.Proofs.Registry.Ceilings
import WorkerGuard.Proofs.Registry.Columns
import WorkerGuard.Proofs.Registry.Crowd
import WorkerGuard.Proofs.Registry.Enrolled
import WorkerGuard.Proofs.Registry.Filed
import WorkerGuard.Proofs.Registry.Forest
import WorkerGuard.Proofs.Registry.Heartbeat
import WorkerGuard.Proofs.Registry.Kin
import WorkerGuard.Proofs.Registry.Life
import WorkerGuard.Proofs.Registry.Listing
import WorkerGuard.Proofs.Registry.Mirror
import WorkerGuard.Proofs.Registry.Punctual
import WorkerGuard.Proofs.Registry.Record
import WorkerGuard.Proofs.Registry.Refused
import WorkerGuard.Proofs.Registry.Registered
import WorkerGuard.Proofs.Registry.Row
import WorkerGuard.Proofs.Registry.Silent
import WorkerGuard.Proofs.Registry.Sweep
import WorkerGuard.Proofs.Retry.Account
import WorkerGuard.Proofs.Retry.Attempts
import WorkerGuard.Proofs.Retry.Calls
import WorkerGuard.Proofs.Retry.Delays
import WorkerGuard.Proofs.Retry.Growth
import WorkerGuard.Proofs.Retry.Judgement
import WorkerGuard.Proofs.Retry.Schedule
import WorkerGuard.Proofs.Simulation.Alone
import WorkerGuard.Proofs.Simulation.Answers
import WorkerGuard.Proofs.Simulation.Served
import WorkerGuard.Proofs.Simulation.View
import WorkerGuard.Proofs.Spawn.Calls
import WorkerGuard.Proofs.Spawn.Decision
import WorkerGuard.Proofs.Spawn.Granted
import WorkerGuard.Proofs.Spawn.Verdict
import WorkerGuard.Proofs.Task.Action
import WorkerGuard.Proofs.Task.ActionStep
import WorkerGuard.Proofs.Task.Agreement
import WorkerGuard.Proofs.Task.Budget
import WorkerGuard.Proofs.Task.Calls
import WorkerGuard.Proofs.Task.Closing
import WorkerGuard.Proofs.Task.Degradations
import WorkerGuard.Proofs.Task.Ending
import WorkerGuard.Proofs.Task.Events
import WorkerGuard.Proofs.Task.Garbled
import WorkerGuard.Proofs.Task.Generations
import WorkerGuard.Proofs.Task.Head
import WorkerGuard.Proofs.Task.Judged
import WorkerGuard.Proofs.Task.Keeping
import WorkerGuard.Proofs.Task.LeftOut
import WorkerGuard.Proofs.Task.Machine
import WorkerGuard.Proofs.Task.Marked
import WorkerGuard.Proofs.Task.Onward
import WorkerGuard.Proofs.Task.Outage
import WorkerGuard.Proofs.Task.Pressure
import WorkerGuard.Proofs.Task.Pruned
import WorkerGuard.Proofs.Task.Spared
import WorkerGuard.Proofs.Task.Standing
import WorkerGuard.Proofs.Task.Stopped
import WorkerGuard.Proofs.Task.Told
import WorkerGuard.Proofs.Task.Value
import WorkerGuard.Proofs.Task.Warrant
import WorkerGuard.Proofs.Task.Yields
import WorkerGuard.Proofs.Time.Age
import WorkerGuard.Proofs.Time.Calendar
import WorkerGuard.Proofs.Time.Stamp
import WorkerGuard.Proofs.Watch.Converge
import WorkerGuard.Proofs.Watch.Held
import WorkerGuard.Proofs.Watch.Stops
import WorkerGuard.Registry.Database
import WorkerGuard.Registry.Memory
import WorkerGuard.Registry.RawRow
import WorkerGuard.Registry.Request
import WorkerGuard.Registry.Stored
import WorkerGuard.Retry.Engine
import WorkerGuard.Retry.Policy
import WorkerGuard.Settings.Basic
import WorkerGuard.Settings.Check
import WorkerGuard.Settings.Load
import WorkerGuard.Settings.Members
import WorkerGuard.Settings.Read
import WorkerGuard.Settings.Text
import WorkerGuard.Simulation.Host
import WorkerGuard.Simulation.Move
import WorkerGuard.Simulation.Step
import WorkerGuard.Simulation.Timeline
import WorkerGuard.Simulation.Trouble
import WorkerGuard.Spawn
import WorkerGuard.Task.Decision
import WorkerGuard.Task.Machine
import WorkerGuard.Task.Runner
import WorkerGuard.Text.Blank
import WorkerGuard.Text.Column
import WorkerGuard.Text.LowerCase
import WorkerGuard.Text.Quoted
import WorkerGuard.Text.Range
import WorkerGuard.Text.Shown
import WorkerGuard.Text.WordChar
import WorkerGuard.Time.Calendar
import WorkerGuard.Time.Duration
import WorkerGuard.Time.Instant
import WorkerGuard.Time.Stamp
import WorkerGuard.Toml.Document
import WorkerGuard.Toml.Scalar
import WorkerGuard.Toml.Table
import WorkerGuard.Vocabulary
import WorkerGuard.Watch
import WorkerGuard.Worker.Record
