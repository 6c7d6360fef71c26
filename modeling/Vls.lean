import Vls.Channel.Correctness.Phases
import Vls.Channel.Correctness.SecretGuard
import Vls.Channel.Correctness.Signatures
import Vls.Channel.Correctness.Sweeps
import Vls.Channel.Correctness.LastNumber
import Vls.Channel.Correctness.Failures
import Vls.Node.Correctness.Balance
import Vls.Node.Correctness.Fulfilment
import Vls.Node.Correctness.PaidOnce
import Vls.Storage.Correctness.SharedHmac
import Vls.Storage.Correctness.Acknowledgement
import Vls.Storage.Correctness.StoredBatches
import Vls.Storage.Correctness.SledHistory
import Vls.Storage.Correctness.Backends
import Vls.Storage.Correctness.StoredValues
import Vls.Storage.Correctness.Isolation
import Vls.Node.Correctness.Durability
import Vls.Node.Correctness.Restart
import Vls.Enforcement.Correctness.Storage
import Vls.Enforcement.Correctness.Summaries
import Vls.Node.Correctness.Buckets
import Vls.Node.Correctness.Entries
import Vls.Node.Correctness.Pruning
import Vls.Node.Correctness.Retries
import Vls.Node.Correctness.Velocity
import Vls.Channel.Correctness.CloseInputs
import Vls.Channel.Correctness.Classification
import Vls.Node.Onchain
import Vls.Policy.Correctness.Fees
import Vls.Keys.Correctness.Counted
import Vls.Proxy.Correctness.Revisions
import Vls.Client.Identity
import Vls.Locks.Deadlock
import Vls.Chain.Correctness.Closing
import Vls.Chain.Correctness.Crashes
import Vls.Chain.Correctness.Reversal
import Vls.Persist.Correctness.Views
import Vls.Persist.Correctness.PowerLoss
