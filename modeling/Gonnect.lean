import Gonnect.Dns.Bodies
import Gonnect.Dns.Client
import Gonnect.Firewall.Optimize
import Gonnect.Firewall.PacketConn
import Gonnect.Loopback.AcceptCallbacks
import Gonnect.Loopback.Deadlines
import Gonnect.Loopback.Dial
import Gonnect.Loopback.Shutdown
import Gonnect.Loopback.Stream
import Gonnect.Network.Detachable
import Gonnect.Network.Router
import Gonnect.Routing.MentionedSlots
import Gonnect.Routing.SplitAgreement
import Gonnect.Sniffer.BufferBound
import Gonnect.Sniffer.RequestHeaders
import Gonnect.Sniffer.Sniff
import Gonnect.Sniffer.TlsRecords
import Gonnect.Subnet.CombinedComplete
import Gonnect.Subnet.CombinedReservations
import Gonnect.Subnet.RangeBounds
import Gonnect.TlsPolicy.ServerPolicy
import Gonnect.Tun.BatchSizes
import Gonnect.Tun.FirewallBatches
import Gonnect.Tun.JoinerClock
import Gonnect.Tun.JoinerFragments
import Gonnect.Tun.JoinerRead
import Gonnect.Tun.PacketIO
import Gonnect.Tun.ReaderLoop
import Gonnect.Subnet.CombinedFamilies
