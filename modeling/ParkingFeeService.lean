import ParkingFeeService.Lts
import ParkingFeeService.UpdateState
import ParkingFeeService.UpdateTasks
import ParkingFeeService.Pool
import ParkingFeeService.UpdateWorld
import ParkingFeeService.UpdateSingleRunning
import ParkingFeeService.UpdateLifecycle
import ParkingFeeService.UpdateContainers
import ParkingFeeService.UpdateJobs
import ParkingFeeService.UpdateHistory
import ParkingFeeService.UpdateOffload
import ParkingFeeService.Broadcast
import ParkingFeeService.UpdateWatch
import ParkingFeeService.UpdateSettled
import ParkingFeeService.UpdateImages
import ParkingFeeService.UpdateIds
import ParkingFeeService.UpdateCandidates
import ParkingFeeService.UpdateReinstall
import ParkingFeeService.GatewayHandler
import ParkingFeeService.GatewayVehicleFormat
import ParkingFeeService.BinaryFloat
import ParkingFeeService.LockingBroker
import ParkingFeeService.LockingProcess
import ParkingFeeService.LockingAgreement
import ParkingFeeService.LockingWrites
import ParkingFeeService.VehicleCommandLanguage
import ParkingFeeService.LockingMetadata
import ParkingFeeService.LockingMainLoop
import ParkingFeeService.GatewayServer
import ParkingFeeService.GatewayStoreRuns
import ParkingFeeService.PercentDecoding
import ParkingFeeService.GatewayRouting
import ParkingFeeService.Noninterference
import ParkingFeeService.GatewayIsolation
import ParkingFeeService.AdaptorEventLoop
import ParkingFeeService.AdaptorGrpc
import ParkingFeeService.AdaptorStartReply
import ParkingFeeService.Toggle
import ParkingFeeService.AdaptorAutomaton
import ParkingFeeService.AdaptorSessionActive
import ParkingFeeService.OperatorClient
import ParkingFeeService.AdaptorOperatorAgreement
import ParkingFeeService.OperatorProtocol
import ParkingFeeService.FeeConvex
import ParkingFeeService.FeeDistance
import ParkingFeeService.FeeOperators
import ParkingFeeService.GatewayTimers
import ParkingFeeService.LockingLanguage
import ParkingFeeService.TelemetryLoop
import ParkingFeeService.FeeCoordinates
import ParkingFeeService.OperatorBilling
import ParkingFeeService.Subscription
import ParkingFeeService.Subjects
import ParkingFeeService.LockingHistory
import ParkingFeeService.VehicleClient
import ParkingFeeService.VehicleLockingFormat
import ParkingFeeService.RemoteVehicle
import ParkingFeeService.GatewayOrigins
import ParkingFeeService.RemoteCommand
import ParkingFeeService.LockSignal
import ParkingFeeService.AdaptorAnswered
import ParkingFeeService.AutonomousParking
import ParkingFeeService.AdaptorBilling
import ParkingFeeService.Feed
import ParkingFeeService.VehicleTelemetry
import ParkingFeeService.VehicleReport
import ParkingFeeService.UpdateReclaim
import ParkingFeeService.AdaptorCalls
import ParkingFeeService.UpdateThreads
import ParkingFeeService.UpdateView
