import Ctcp.Wire
import Ctcp.State
import Ctcp.Send
import Ctcp.Receive
import Ctcp.Read
import Ctcp.Timer
import Ctcp.Engine
import Ctcp.Teardown
import Ctcp.SendWindow
import Ctcp.RecvWindow
import Ctcp.Retransmit
import Ctcp.Registry
import Ctcp.Network
import Ctcp.Framing
import Ctcp.Timing
import Ctcp.Effects
import Ctcp.Exchange
import Ctcp.Transfer
import Ctcp.Window
import Ctcp.Lifecycle
import Ctcp.LossyClose
import Ctcp.Duplex
