import Manafont.Library.Program
import Manafont.Library.Positional
import Manafont.Library.Async
import Manafont.Library.RelyGuarantee
import Manafont.Library.Machine
import Manafont.Library.Log
import Manafont.Library.PrefixCode
import Manafont.DotNet.Runtime
import Manafont.DotNet.IntegerType
import Manafont.DotNet.Stream
import Manafont.Packets.IO.StreamReadBuffer
import Manafont.Packets.IO.PacketStreamExtensions
import Manafont.Packets.IO.NetworkNumbers
import Manafont.Packets.IO.AnsiCString
import Manafont.Packets.IO.PacketBuffer
import Manafont.Packets.IO.SequentialWindow
import Manafont.Packets.IO.PacketSerializer
import Manafont.Packets.IO.RoundTrip
import Manafont.Packets.IO.ServiceCollection
import Manafont.Packets.IO.PacketIO
import Manafont.Packets.IO.Coherence
import Manafont.Packets.Handling.PacketHandlerManager
import Manafont.Packets.Handling.Dispatch
import Manafont.Packets.Handling.Processing
import Manafont.Session.AuthPacketSerializer
import Manafont.Session.AuthPacketCodec
import Manafont.Session.Strides
import Manafont.Game.Program
import Manafont.Game.Framing
import Manafont.Game.Processing
import Manafont.Game.Splitting
import Manafont.Game.Truncation
import Manafont.Game.Fragments
import Manafont.Game.Decodable
import Manafont.Game.Common.CertUtils
import Manafont.Game.Client.ClientConnection
import Manafont.Game.Client.Link
import Manafont.Game.Client.Wire
import Manafont.Db.Model
import Manafont.Session.ManafontSessionManager
import Manafont.Session.AllOrNothing
import Manafont.Session.OneRedemption
import Manafont.Session.OneSession
import Manafont.Session.HandOver
import Manafont.Session.History
import Manafont.Session.Ledger
import Manafont.Game.Server.ServerConnection
import Manafont.Game.Server.Gate
import Manafont.Game.Server.FailedConnection
import Manafont.Game.Server.NoSession
import Manafont.Game.Server.Waiting
import Manafont.Game.Server.Shutdown
import Manafont.Game.Server.LateAccept
import Manafont.Game.Server.Dispose
import Manafont.Web.AccountPages
import Manafont.Web.AccountRuns
import Manafont.Web.Tokens
import Manafont.Web.Disclosure
