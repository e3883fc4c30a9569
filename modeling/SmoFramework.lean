import SmoFramework.Crypto.ShamirSecrecy
import SmoFramework.Packet.ReplayProtector
import SmoFramework.Cbor.Safety
import SmoFramework.Governance.Outcome
import SmoFramework.Governance.Intersection
import SmoFramework.Genesis.RecoveryRun
import SmoFramework.Genesis.ShamirPackage
import SmoFramework.Network.Liveness
import SmoFramework.Session.Table
import SmoFramework.Select.Grammar
import SmoFramework.Enroll.TokenAccess
import SmoFramework.Authority.Lifecycle
import SmoFramework.Join.Unsigned
import SmoFramework.Join.CrlSync
import SmoFramework.Join.MessageWire
import SmoFramework.Join.SyncRoundTrip
import SmoFramework.Transport.Delivery
import SmoFramework.Governance.Persistence
import SmoFramework.Genesis.RootSession
import SmoFramework.Discovery.RecordReading
import SmoFramework.Sync.GossipEngine
import SmoFramework.Federation.MessageAccess
import SmoFramework.Federation.Exchange
import SmoFramework.Federation.PolicyDelta
import SmoFramework.Federation.RoutingTable
import SmoFramework.Federation.CrossMeshRouter
import SmoFramework.Sync.MerkleRoot
import SmoFramework.Genesis.SlotLifecycle
import SmoFramework.Compiler.GraphBuilder
import SmoFramework.Runtime.RetryBudget
import SmoFramework.Network.Heartbeat
import SmoFramework.Trust.DigestMerge
import SmoFramework.Trust.WitnessSelector
import SmoFramework.Fsm.Timeout
import SmoFramework.Cbor.Schema
import SmoFramework.Cbor.Contract
import SmoFramework.Cbor.IntegerRange
import SmoFramework.Opcode.Consistency
import SmoFramework.Runtime.EventStore
import SmoFramework.Runtime.ExecutionRecord
import SmoFramework.Compiler.WasmIndices
import SmoFramework.Compiler.WasmLocals
import SmoFramework.Network.StunClient
import SmoFramework.Network.TurnClient
import SmoFramework.Runtime.ContractManager
import SmoFramework.Session.Recovery
import SmoFramework.Transport.Framing
import SmoFramework.Governance.DefaultQuorum
import SmoFramework.Crypto.Sha256
