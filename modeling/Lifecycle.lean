import Lifecycle.Log.Console
import Lifecycle.Memory.Access
import Lifecycle.Proofs.Table.Soundness
import Lifecycle.Proofs.Yield
import Lifecycle.Scheduling.Blocking
import Lifecycle.Scheduling.Executor
import Lifecycle.Session.Script
import Lifecycle.Proofs.Table.Insertion
import Lifecycle.Proofs.Table.Removal
import Lifecycle.Proofs.Table.Joining
import Lifecycle.Proofs.Table.Adoption
import Lifecycle.Proofs.Table.Termination
import Lifecycle.Proofs.Kernel.Demand
import Lifecycle.Proofs.Kernel.Calls
import Lifecycle.Proofs.Kernel.Run
import Lifecycle.Proofs.Kernel.Delivery
import Lifecycle.Proofs.Table.Parking
import Lifecycle.Proofs.Kernel.Wakeup
import Lifecycle.Proofs.Kernel.Requests
import Lifecycle.Proofs.Kernel.Users
import Lifecycle.Proofs.Kernel.Counting
import Lifecycle.Proofs.Kernel.Loads
import Lifecycle.Proofs.Kernel.Admission
import Lifecycle.Proofs.Kernel.Stopping
import Lifecycle.Proofs.Kernel.Withdrawal
import Lifecycle.Proofs.Kernel.Attempts
import Lifecycle.Proofs.Kernel.Statuses
import Lifecycle.Proofs.Kernel.Reissue
import Lifecycle.Proofs.Kernel.Usurpation
import Lifecycle.Proofs.Kernel.Slots
import Lifecycle.Proofs.Kernel.Binding
import Lifecycle.Proofs.Kernel.Instances
import Lifecycle.Proofs.Kernel.Seclusion
import Lifecycle.Proofs.Kernel.Contest
import Lifecycle.Proofs.Kernel.Numbering
import Lifecycle.Proofs.Table.Endings
import Lifecycle.Proofs.Kernel.Interchange
import Lifecycle.Proofs.Memory
import Lifecycle.Proofs.Arguments
import Lifecycle.Proofs.Kernel.Passing
import Lifecycle.Proofs.Table.Ancestry
import Lifecycle.Proofs.Kernel.Awaiting
import Lifecycle.Proofs.Losses
import Lifecycle.Proofs.Kernel.Service
import Lifecycle.Proofs.Kernel.Discards
import Lifecycle.Proofs.Kernel.Aftermath
import Lifecycle.Proofs.Scheduling.RunQueue
import Lifecycle.Proofs.Session.Leads
import Lifecycle.Proofs.Session.Tending
import Lifecycle.Proofs.Session.Calls
import Lifecycle.Proofs.Session.Tasks
import Lifecycle.Proofs.Session.Scripts
import Lifecycle.Proofs.Session.Joins
import Lifecycle.Proofs.Kernel.Succession
import Lifecycle.Proofs.Table.Restoration
import Lifecycle.Proofs.Kernel.Spawning
import Lifecycle.Proofs.Kernel.Launching
import Lifecycle.Proofs.Kernel.Collecting
import Lifecycle.Proofs.Kernel.Verdict
import Lifecycle.Proofs.Copying
import Lifecycle.Proofs.Scheduling.Jobs
import Lifecycle.Proofs.Scheduling.Ledger
import Lifecycle.Proofs.Scheduling.Executor
import Lifecycle.Proofs.Scheduling.Idling
import Lifecycle.Proofs.Scheduling.Rounds
import Lifecycle.Proofs.Scheduling.Waiting
import Lifecycle.Proofs.Scheduling.Work
import Lifecycle.Proofs.Table.Guest
import Lifecycle.Proofs.Pairing
import Lifecycle.Proofs.Table.Hosting
import Lifecycle.Proofs.Kernel.Hosting
import Lifecycle.Proofs.Kernel.Guests
import Lifecycle.Proofs.Kernel.Abandonment
import Lifecycle.Proofs.Transfers
import Lifecycle.Proofs.Loans
import Lifecycle.Proofs.Encoding
import Lifecycle.Proofs.Access
