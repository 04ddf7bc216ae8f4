import BillCounter.Storage.Corruption
import BillCounter.Image.PowerFail
import BillCounter.Lib.RecordLog
import BillCounter.Lib.Lfsr
import BillCounter.Crc16
import BillCounter.Serial.Lifecycle
import BillCounter.Shell.Frame
import BillCounter.Shell.Durability
import BillCounter.Shell.Auth
import BillCounter.Server.Receipt
import BillCounter.Server.Stream
import BillCounter.Server.Delivery
import BillCounter.Server.Sockets
import BillCounter.Server.Link
import BillCounter.Server.Ownership
import BillCounter.Counter.Duplicates
import BillCounter.Counter.Shutdown
import BillCounter.Storage.Boot
import BillCounter.Shell.Addressing
import BillCounter.Shell.MacAddress
import BillCounter.Shell.PortNumber
import BillCounter.Shell.StoredStrings
import BillCounter.Driver.KL1850
import BillCounter.Driver.Dispatch
import BillCounter.Driver.Resync
import BillCounter.Driver.Table
import BillCounter.Driver.Poll
import BillCounter.Device.Pipeline
import BillCounter.Device.EndToEnd
import BillCounter.Image.Verified
import BillCounter.Ethernet.Transmit
import BillCounter.Ethernet.Receive
import BillCounter.Ethernet.Drain
import BillCounter.Trace.Callers
import BillCounter.Heap.Guarantees
import BillCounter.Serial.Writers
import BillCounter.Shell.TypedBack
import BillCounter.Shell.Secrecy
