import Jwtlet.RustCollections
import Jwtlet.RustText
import Jwtlet.Utf8Order
import Jwtlet.PercentEncoding
import Jwtlet.WhitespaceWords
import Jwtlet.KeyedAccumulation
import Jwtlet.MachineRuns
import Jwtlet.SingleAccess
import Jwtlet.PrimaryKeyTable
import Jwtlet.FallibleSteps
import Jwtlet.FaultyRuns
import Jwtlet.JsonValue
import Jwtlet.Http
import Jwtlet.Resource
import Jwtlet.PolicyModel
import Jwtlet.ResourceMem
import Jwtlet.ResourcePostgres
import Jwtlet.StoreEquivalence
import Jwtlet.ResourceService
import Jwtlet.BatchCreation
import Jwtlet.ScopeTransactions
import Jwtlet.ScopeTransactionInvariant
import Jwtlet.ScopeReplay
import Jwtlet.ScopeLinearization
import Jwtlet.ResolveInterleaving
import Jwtlet.ServiceOperations
import Jwtlet.PolicyHistory
import Jwtlet.TokenExchange
import Jwtlet.ExchangeApi
import Jwtlet.ExchangePhases
import Jwtlet.TokenForm
import Jwtlet.EnumerationOracle
import Jwtlet.ReservedClaimErasure
import Jwtlet.K8sTokenReview
import Jwtlet.TokenCache
import Jwtlet.ReviewInterleaving
import Jwtlet.Config
import Jwtlet.IssuedPayload
import Jwtlet.PolicyValidity
import Jwtlet.ScopeParameter
import Jwtlet.ScopeExpansion
import Jwtlet.LeastPrivilege
import Jwtlet.ManagementCodec
import Jwtlet.ManagementApi
import Jwtlet.ManagementSteps
import Jwtlet.PolicyExport
import Jwtlet.RoleNoninterference
import Jwtlet.AuditTrail
import Jwtlet.Server
import Jwtlet.RequestOperations
import Jwtlet.ServerHistory
import Jwtlet.TokenProvenance
import Jwtlet.ConcurrentServer
import Jwtlet.ServerEquivalence
import Jwtlet.OperationRequests
import Jwtlet.PolicyReach
import Jwtlet.ClusterServer
import Jwtlet.TokenRotation
import Jwtlet.Assembly
import Jwtlet.StartedServer
import Jwtlet.ServerProcess
import Jwtlet.DatabaseFailures
