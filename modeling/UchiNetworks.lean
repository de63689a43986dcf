import UchiNetworks.Stcp.Fin
import UchiNetworks.Stcp.Shift
import UchiNetworks.Stcp.Teardown
import UchiNetworks.Stcp.Handshake
import UchiNetworks.Stcp.Close
import UchiNetworks.Stcp.Replay
import UchiNetworks.Stcp.Reassembly
import UchiNetworks.Stcp.Scan
import UchiNetworks.Stcp.Listed
import UchiNetworks.Stcp.Outstanding
import UchiNetworks.Stcp.MysockEnds
import UchiNetworks.Stcp.NetworkIo
import UchiNetworks.Stcp.Stack
import UchiNetworks.Stcp.TcpSum
import UchiNetworks.Chirc.Overlong
import UchiNetworks.Chirc.Splitter
import UchiNetworks.Chirc.MemberStatus
import UchiNetworks.Chirc.UserExit
import UchiNetworks.Chirc.LineSent
import UchiNetworks.Chirc.Locking
import UchiNetworks.Chirc.Authority
import UchiNetworks.Chirc.Members
import UchiNetworks.Chirc.Registered
import UchiNetworks.Chirc.Unregistered
import UchiNetworks.Chirc.Registration
import UchiNetworks.Chirc.Traces
import UchiNetworks.Chirc.ChannelModes
import UchiNetworks.Chirc.UserModes
import UchiNetworks.Chirc.NickRace
import UchiNetworks.Chirc.Descriptors
import UchiNetworks.Chirc.PrivmsgOrder
import UchiNetworks.Chirc.Deadlock
import UchiNetworks.Router.Release
import UchiNetworks.Router.Forward
import UchiNetworks.Router.Requests
import UchiNetworks.Router.NullPointer
import UchiNetworks.Router.GiveUp
import UchiNetworks.Router.Routes
import UchiNetworks.Router.Checksum
import UchiNetworks.Router.Sha1Digest
import UchiNetworks.Router.Session
import UchiNetworks.Router.Lockstep
import UchiNetworks.Simclist.Refine
import UchiNetworks.Stcp.Rto
import UchiNetworks.Stcp.Datagram
import UchiNetworks.Router.Echo
import UchiNetworks.Router.Ttl
import UchiNetworks.Router.Sources
import UchiNetworks.Router.HostUnreach
import UchiNetworks.Router.QueueFlush
import UchiNetworks.Router.Bounds
import UchiNetworks.Router.Placeholders
