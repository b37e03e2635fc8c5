import Interposition.Concurrent.Trial
import Interposition.Session.Run
import Interposition.Operation
import Interposition.Proofs.Concurrent.Writes
import Interposition.Proofs.Concurrent.Outcome
import Interposition.Proofs.Concurrent.Frame
import Interposition.Proofs.Concurrent.Stages
import Interposition.Proofs.Concurrent.Moves
import Interposition.Proofs.Concurrent.History
import Interposition.Proofs.Concurrent.Orderly
import Interposition.Proofs.Concurrent.Explained
import Interposition.Proofs.Concurrent.Linearizability
import Interposition.Proofs.Concurrent.Publication
import Interposition.Proofs.Concurrent.Handlers
import Interposition.Proofs.Concurrent.Installation
import Interposition.Proofs.Concurrent.Conservation
import Interposition.Proofs.Registry.Put
import Interposition.Proofs.Takeover.Registrations
import Interposition.Proofs.Takeover.Clearing
import Interposition.Proofs.Takeover.Repetition
import Interposition.Proofs.Concurrent.Alone
import Interposition.Proofs.Concurrent.Pursuit
import Interposition.Proofs.Concurrent.Custody
import Interposition.Proofs.Hook.Undo
import Interposition.Proofs.Operation.Unloading
import Interposition.Proofs.Hook.Denial
import Interposition.Proofs.Takeover.Ending
import Interposition.Proofs.Session.Supersede
import Interposition.Proofs.Registry.Evolution
import Interposition.Proofs.Operation.Deeds
import Interposition.Proofs.Operation.Reading
import Interposition.Proofs.Operation.Meaning
import Interposition.Proofs.Operation.Isolation
import Interposition.Proofs.Operation.Republishing
import Interposition.Proofs.Operation.Audit
import Interposition.Proofs.Concurrent.Order
import Interposition.Proofs.Concurrent.Passes
import Interposition.Proofs.Concurrent.Retries
import Interposition.Proofs.Concurrent.Contention
import Interposition.Proofs.Concurrent.Turns
import Interposition.Proofs.Concurrent.Attempts
import Interposition.Proofs.Concurrent.Completion
import Interposition.Proofs.Eviction.Without
import Interposition.Proofs.Hook.Batch
import Interposition.Proofs.Eviction.Exact
import Interposition.Proofs.Eviction.Independence
import Interposition.Proofs.Eviction.Redefinition
import Interposition.Proofs.Operation.Forcing
import Interposition.Proofs.Hook.Wrapping
import Interposition.Proofs.Operation.Sparing
import Interposition.Proofs.Hook.Chain
import Interposition.Proofs.DenyList.Items
import Interposition.Proofs.DenyList.Membership
import Interposition.Proofs.DenyList.Forms
