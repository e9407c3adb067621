import KongjaExpress.Library.Run
import KongjaExpress.Library.Automaton
import KongjaExpress.Library.Memory
import KongjaExpress.Library.BigEndian
import KongjaExpress.Library.Framing
import KongjaExpress.Library.LinkedCells
import KongjaExpress.Library.Placement
import KongjaExpress.Library.ByteMemory
import KongjaExpress.Utils.CircBuffer
import KongjaExpress.Utils.ListHead
import KongjaExpress.Utils.ByteFifo
import KongjaExpress.Utils.SbufQueue
import KongjaExpress.Utils.BHashMap
import KongjaExpress.Utils.RequestBook
import KongjaExpress.Utils.ConfigParams
import KongjaExpress.Utils.JsonRoundTrip
import KongjaExpress.Utils.JsonMinify
import KongjaExpress.Utils.JsonBuffered
import KongjaExpress.Utils.JsonSafety
import KongjaExpress.Protocols.TelnetTransparency
import KongjaExpress.Core.Watcher
import KongjaExpress.Core.TaskMessaging
import KongjaExpress.Core.LogPrints
import KongjaExpress.Stream.Drain
import KongjaExpress.Stream.TxFailure
import KongjaExpress.Modbus.Adu
import KongjaExpress.Modbus.Correlation
import KongjaExpress.Modbus.Crc
import KongjaExpress.Modbus.FrameIsolation
import KongjaExpress.Modbus.MbapResync
import KongjaExpress.Modbus.TcpServer
import KongjaExpress.Modbus.ReadAgreement
import KongjaExpress.Modbus.WriteAgreement
import KongjaExpress.Modbus.WriteReadAgreement
import KongjaExpress.Modbus.ExceptionStore
import KongjaExpress.Modbus.RtuOverlong
import KongjaExpress.Modbus.RtuLink
import KongjaExpress.Modbus.RtuBusRounds
import KongjaExpress.Modbus.BufferBounds
import KongjaExpress.Modbus.TcpRegisters
import KongjaExpress.Modbus.SlaveVisits
import KongjaExpress.Modbus.MbapRoundTrip
import KongjaExpress.Library.Tokens
import KongjaExpress.Cli.SessionIsolation
import KongjaExpress.Net.ConnectorCustody
import KongjaExpress.Net.ConnectorStop
import KongjaExpress.Modbus.MasterLifecycle
import KongjaExpress.Modbus.ConnectionIsolation
import KongjaExpress.Modbus.CrcErrors
import KongjaExpress.Modbus.BitFields
import KongjaExpress.Modbus.ResponseValidator
import KongjaExpress.Modbus.ReadQuantity
import KongjaExpress.Modbus.MasterEncoder
import KongjaExpress.Cli.LineEditing
import KongjaExpress.Cli.Dispatch
import KongjaExpress.Cli.CliLines
import KongjaExpress.Utils.ConfigFile
