import Sequencer.Backend.Order
import Sequencer.Instruction.Format
import Sequencer.Json.Reader
import Sequencer.Json.Writer
import Sequencer.Main
import Sequencer.Operation
import Sequencer.Proofs.Card.Content
import Sequencer.Proofs.Run.Sequential
import Sequencer.Proofs.Run.StartOrder
import Sequencer.Proofs.Session.History
import Sequencer.Proofs.Timeline.Playback
import Sequencer.Proofs.Session.Freshness
import Sequencer.Proofs.Timeline.Acceptance
import Sequencer.Proofs.Run.Teardown
import Sequencer.Proofs.Run.Progress
import Sequencer.Proofs.Run.Faults
import Sequencer.Proofs.Session.Names
import Sequencer.Proofs.Session.Atomic
import Sequencer.Proofs.Session.OperationsAtomic
import Sequencer.Proofs.Session.AllOrNothing
import Sequencer.Proofs.Session.Changes
import Sequencer.Proofs.Session.Effects
import Sequencer.Proofs.Session.Soundness
import Sequencer.Proofs.Session.Resets
import Sequencer.Proofs.Session.Roles
import Sequencer.Proofs.Session.CompileFaults
import Sequencer.Proofs.Session.Devices
import Sequencer.Proofs.Card.Numbering
import Sequencer.Proofs.Card.ClosingEdge
import Sequencer.Proofs.Session.Outcome
import Sequencer.Proofs.Session.InsertionOrder
import Sequencer.Proofs.Session.Alike
import Sequencer.Proofs.Run.Resume
import Sequencer.Proofs.Run.Token
import Sequencer.Proofs.Run.Repetitions
import Sequencer.Proofs.Session.Accounting
import Sequencer.Proofs.Card.Outline
import Sequencer.Proofs.Session.Parallel
import Sequencer.Proofs.Session.Twins
import Sequencer.Proofs.Timeline.Complement
import Sequencer.Proofs.Session.Inverted
import Sequencer.Proofs.Float.Nearest
import Sequencer.Proofs.Float.Rounding
import Sequencer.Proofs.Float.Packing
import Sequencer.Proofs.Float.Operations
import Sequencer.Proofs.Float.Laws
import Sequencer.Proofs.Signal.Sweep
import Sequencer.Proofs.Signal.Sampling
import Sequencer.Proofs.Timeline.Reset
import Sequencer.Proofs.Session.ResetSpec
import Sequencer.Proofs.Session.ResetPlayback
import Sequencer.Proofs.Session.ResetSplit
import Sequencer.Proofs.Session.StartTriggers
import Sequencer.Proofs.Session.TriggerDrift
import Sequencer.Proofs.Run.FirstError
import Sequencer.Proofs.Session.Outdating
import Sequencer.Proofs.Timeline.Chain
import Sequencer.Proofs.Session.Chaining
import Sequencer.Proofs.Card.Addresses
import Sequencer.Proofs.Session.Registrations
import Sequencer.Proofs.Table
import Sequencer.Proofs.Card.Renewal
import Sequencer.Proofs.Session.CardReset
import Sequencer.Proofs.Backend.Replay
import Sequencer.Proofs.Run.Audience
import Sequencer.Proofs.Timeline.Overlaps
