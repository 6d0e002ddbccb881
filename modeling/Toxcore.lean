import Toxcore.NetCrypto.KeyAgreement
import Toxcore.NetCrypto.Delivery
import Toxcore.BsListMap
import Toxcore.Onion.RoundTrip
import Toxcore.Onion.DataDelivery
import Toxcore.Tcp.Relaying
import Toxcore.Messenger.FileIdentity
import Toxcore.Av.CallThreads
import Toxcore.Av.Agreement
import Toxcore.Tcp.StreamRuns
import Toxcore.Av.CallTableRuns
import Toxcore.NetCrypto.Draining
import Toxcore.NetCrypto.RequestTimes
import Toxcore.Groups.Timeouts
import Toxcore.DHT.Reviving
import Toxcore.DHT.Replacing
import Toxcore.Onion.AnnounceStore
import Toxcore.Onion.NodeLists
import Toxcore.Groups.LossyPackets
import Toxcore.Messenger.SendingFiles
import Toxcore.Groups.ReferenceCounting
import Toxcore.Util.RingBuffer
import Toxcore.Av.RtpBounds
import Toxcore.Util.StateSections
import Toxcore.Tcp.RefusedRelays
import Toxcore.Tcp.Handshake
import Toxcore.Groups.ClosestPeers
import Toxcore.NetCrypto.BudgetRuns
import Toxcore.Tcp.KilledConnections
import Toxcore.Av.JitterShift
import Toxcore.Av.MsiCodec
import Toxcore.Av.Muting
import Toxcore.Av.Announcing
import Toxcore.Dns.DottedStrings
import Toxcore.DHT.ToPing
import Toxcore.DHT.AssocTable
import Toxcore.DHT.ClosestEntries
import Toxcore.DHT.CryptoRequests
import Toxcore.Groups.Spreading
import Toxcore.Messenger.EncryptedSave
import Toxcore.Messenger.ProfileAgreement
import Toxcore.Messenger.ReceivedRequests
