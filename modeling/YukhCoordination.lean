import YukhCoordination.Client.Verified
import YukhCoordination.ClientAuth.Bootstrap
import YukhCoordination.Conformance.Python.Normalize
import YukhCoordination.Coordination.JetStreamKV.Lease
import YukhCoordination.Coordination.JetStreamKV.Ledger
import YukhCoordination.Coordination.JetStreamKV.Nonce
import YukhCoordination.Coordination.Memory.Store
import YukhCoordination.Primitives.Capability
import YukhCoordination.Relay.Audit.Documents
import YukhCoordination.Relay.Audit.Sqlite.Fencing
import YukhCoordination.Relay.Audit.Sqlite.Retry
import YukhCoordination.Relay.Identity.Audited
import YukhCoordination.Relay.Identity.Epochs
import YukhCoordination.Relay.Identity.Migration
import YukhCoordination.Relay.Service.Agreement
import YukhCoordination.Relay.Service.Stored
import YukhCoordination.Relay.Sqlite.Completion
import YukhCoordination.Relay.Sqlite.Reads
import YukhCoordination.Relay.Sqlite.Retention
