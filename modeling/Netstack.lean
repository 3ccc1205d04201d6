import Netstack.AcceptOrder
import Netstack.AtomicObject
import Netstack.Atomics
import Netstack.BsdCalls
import Netstack.BsdLibrary
import Netstack.ClientPort
import Netstack.Connections
import Netstack.Drain
import Netstack.EndOfFile
import Netstack.HypercallLocks
import Netstack.Independence
import Netstack.Monitor
import Netstack.MsgPort
import Netstack.NetdevRegistry
import Netstack.NetdevRing
import Netstack.Network
import Netstack.NetworkCalls
import Netstack.OsalClock
import Netstack.PeerLinks
import Netstack.PortOwner
import Netstack.Punctuality
import Netstack.Refinement
import Netstack.Reservations
import Netstack.Restart
import Netstack.RpcProgress
import Netstack.Shutdown
import Netstack.SlotTables
import Netstack.SocketNet
import Netstack.StaleEntry
import Netstack.TestCv
import Netstack.TestCvCalls
import Netstack.TestCvQueue
import Netstack.TestCvRuns
import Netstack.ThreadRecords
import Netstack.Threads
import Netstack.WaiterFifo
