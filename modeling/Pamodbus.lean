import Pamodbus.Accumulator
import Pamodbus.Addresses
import Pamodbus.Agreement
import Pamodbus.Boundaries
import Pamodbus.BuilderBounds
import Pamodbus.BusAgreement
import Pamodbus.BusProgress
import Pamodbus.Conveyed
import Pamodbus.CrcErrors
import Pamodbus.Deliveries
import Pamodbus.Detection
import Pamodbus.EndToEnd
import Pamodbus.Exceptions
import Pamodbus.FailedRequests
import Pamodbus.FifoQueue
import Pamodbus.FileReads
import Pamodbus.FileWrites
import Pamodbus.HistoryIndependence
import Pamodbus.HostPolls
import Pamodbus.IdleTimeout
import Pamodbus.InBounds
import Pamodbus.Isolation
import Pamodbus.LastError
import Pamodbus.LastWrites
import Pamodbus.Lib.Commuting
import Pamodbus.Lib.Routing
import Pamodbus.LineErrors
import Pamodbus.LinkRuns
import Pamodbus.MaskWrites
import Pamodbus.MasterResults
import Pamodbus.Multidrop
import Pamodbus.ParseBounds
import Pamodbus.Progress
import Pamodbus.RawChunks
import Pamodbus.RawRoundTrip
import Pamodbus.ReadWriteRequest
import Pamodbus.ReceiveErrors
import Pamodbus.Reentrancy
import Pamodbus.Refinement
import Pamodbus.ScanDispatch
import Pamodbus.SecondAddress
import Pamodbus.SendRawLimits
import Pamodbus.SerialLink
import Pamodbus.SerialPort
import Pamodbus.Serving
import Pamodbus.SlaveId
import Pamodbus.TcpReceiver
import Pamodbus.TcpRoundTrip
import Pamodbus.TransactionIds
import Pamodbus.Transactions
import Pamodbus.TxBuffer
import Pamodbus.UnwrapBounds
import Pamodbus.WriteConfirmed
import Pamodbus.WriteRequests
