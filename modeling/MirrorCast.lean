import MirrorCast.Library.Java
import MirrorCast.Library.Machine
import MirrorCast.Library.Pieces
import MirrorCast.Library.AnnexB
import MirrorCast.Library.Rfc6184
import MirrorCast.Library.MpegTs
import MirrorCast.Program.MediaClient
import MirrorCast.Program.MediaServer
import MirrorCast.Program.AvcUtils
import MirrorCast.Program.RTPSender
import MirrorCast.Program.TSPacketizer
import MirrorCast.Verification.Ts.Encoding
import MirrorCast.Verification.Ts.Emission
import MirrorCast.Verification.Ts.Calls
import MirrorCast.Verification.Avc.Splitting
import MirrorCast.Verification.Avc.Packing
import MirrorCast.Verification.Avc.Packetization
import MirrorCast.Verification.Avc.Sending
import MirrorCast.Verification.Udp.Datagrams
import MirrorCast.Verification.Udp.Assembly
import MirrorCast.Verification.Udp.Outcomes
import MirrorCast.Verification.Udp.Splicing
import MirrorCast.Verification.Udp.Abandonment
import MirrorCast.Verification.Ts.Packetizing
import MirrorCast.Program.MediaSender
import MirrorCast.Verification.Ts.Routing
import MirrorCast.Library.Framing
import MirrorCast.Library.JavaString
import MirrorCast.Program.ANetworkSession
import MirrorCast.Verification.Net.Decoding
import MirrorCast.Verification.Net.Messages
import MirrorCast.Verification.Net.Reading
import MirrorCast.Verification.Net.Sending
import MirrorCast.Program.WifiDisplaySource
import MirrorCast.Verification.Net.RoundTrip
import MirrorCast.Program.MyJni
import MirrorCast.Program.PlayerActivity
import MirrorCast.Verification.Udp.Trailers
import MirrorCast.Library.BlockingQueue
import MirrorCast.Verification.PlayQueue.Order
import MirrorCast.Verification.PlayQueue.Groups
import MirrorCast.Library.Audit
import MirrorCast.Program.RtcpFeedback
import MirrorCast.Verification.Rtcp.Retransmission
import MirrorCast.Verification.Rtcp.Safety
import MirrorCast.Verification.Rtcp.Datagrams
import MirrorCast.Program.VideoFormats
import MirrorCast.Verification.Video.Specifications
import MirrorCast.Verification.Video.Sharing
import MirrorCast.Verification.Video.Negotiation
import MirrorCast.Library.LinkedStack
import MirrorCast.Program.AMessage
import MirrorCast.Verification.Pool.Holding
import MirrorCast.Verification.Pool.Invariant
import MirrorCast.Verification.Pool.Steps
import MirrorCast.Verification.Pool.Privacy
import MirrorCast.Program.NetworkThread
import MirrorCast.Verification.Thread.Entries
import MirrorCast.Verification.Thread.Survival
import MirrorCast.Program.Parameters
import MirrorCast.Program.PlaybackSession
import MirrorCast.Program.WifiDisplaySource.Fields
import MirrorCast.Program.WifiDisplaySource.Requests
import MirrorCast.Program.WifiDisplaySource.Responses
import MirrorCast.Program.WifiDisplaySource.Handlers
import MirrorCast.Library.Outcomes
import MirrorCast.Verification.Source.Frames
import MirrorCast.Verification.Source.Negotiation
import MirrorCast.Verification.Source.Playing
import MirrorCast.Program.Native.MediaData
import MirrorCast.Verification.Net.Incremental
import MirrorCast.Library.C
import MirrorCast.Program.Native.MediaCodec
import MirrorCast.Verification.Native.Dropping
import MirrorCast.Verification.Native.Configuration
import MirrorCast.Library.Chunked
import MirrorCast.Program.Native.MediaServer
import MirrorCast.Verification.Native.Stream
import MirrorCast.Program.Native.MediaClient
import MirrorCast.Verification.Native.ShortWrites
import MirrorCast.Library.ModifiedUtf8
import MirrorCast.Program.MediaClientService
import MirrorCast.Verification.Native.Handshake
import MirrorCast.Verification.Native.Orientation
import MirrorCast.Program.Native.Encoding
import MirrorCast.Verification.Native.Rotation
import MirrorCast.Verification.Thread.Wakeups
import MirrorCast.Program.Native.Accepting
import MirrorCast.Verification.Native.Ownership
import MirrorCast.Verification.Source.Strangers
import MirrorCast.Program.RTPReceiver
import MirrorCast.Verification.Receiver.Queue
import MirrorCast.Verification.Receiver.Jitter
import MirrorCast.Verification.Receiver.Numbers
import MirrorCast.Program.RTPAssembler
import MirrorCast.Verification.Receiver.Assembly
import MirrorCast.Verification.Receiver.Parts
import MirrorCast.Verification.Receiver.Units
import MirrorCast.Library.Arrivals
import MirrorCast.Verification.Sender.Merging
import MirrorCast.Verification.Udp.Hostile
import MirrorCast.Library.ReusePool
import MirrorCast.Program.RTPSender.Queueing
import MirrorCast.Verification.Sender.Ownership
import MirrorCast.Verification.Sender.Operations
import MirrorCast.Verification.Sender.History
import MirrorCast.Verification.PlayQueue.Draining
import MirrorCast.Program.Native.Waiting
import MirrorCast.Verification.Native.Wakeups
import MirrorCast.Program.Native.Decoding
import MirrorCast.Verification.Native.Backpressure
import MirrorCast.Library.Callbacks
import MirrorCast.Verification.Source.Matching
import MirrorCast.Verification.Rtcp.Exactness
import MirrorCast.Verification.Net.HeaderBlocks
import MirrorCast.Verification.Net.Boundaries
import MirrorCast.Verification.Source.Validation
import MirrorCast.Verification.Native.Recovery
import MirrorCast.Verification.Sender.Packets
import MirrorCast.Verification.Ts.Continuity
import MirrorCast.Library.Crc
import MirrorCast.Library.Psi
import MirrorCast.Verification.Ts.Sections
import MirrorCast.Verification.Ts.Tables
import MirrorCast.Library.FirstMax
import MirrorCast.Verification.Video.Choosing
import MirrorCast.Verification.Video.Capabilities
import MirrorCast.Verification.Ts.Clock
import MirrorCast.Library.Adts
import MirrorCast.Verification.Ts.Adts
import MirrorCast.Library.Timers
import MirrorCast.Program.PlaybackSession.Extracting
import MirrorCast.Verification.Playback.Pulling
import MirrorCast.Verification.Source.AudioModes
import MirrorCast.Verification.Net.Parameters
import MirrorCast.Verification.Sender.Stamps
import MirrorCast.Verification.Receiver.Times
import MirrorCast.Library.Rfc3550
import MirrorCast.Program.RTPReceiver.Reports
import MirrorCast.Verification.Receiver.Reports
import MirrorCast.Program.VideoEncoder
import MirrorCast.Verification.Video.Scaling
import MirrorCast.Verification.Source.Handlers
import MirrorCast.Library.Delays
import MirrorCast.Program.WifiDisplaySource.Delays
import MirrorCast.Verification.Source.Liveness
import MirrorCast.Verification.Source.Reaping
import MirrorCast.Library.BitString
import MirrorCast.Library.Rbsp
import MirrorCast.Library.ExpGolomb
import MirrorCast.Program.ABitReader
import MirrorCast.Program.NALBitReader
import MirrorCast.Verification.Bits.Reading
import MirrorCast.Verification.Bits.Reservoir
import MirrorCast.Verification.Bits.Sequences
import MirrorCast.Verification.Bits.Remaining
import MirrorCast.Program.AvcUtils.Parsing
import MirrorCast.Verification.Bits.Codes
import MirrorCast.Program.TSPacketizer.Checksum
import MirrorCast.Verification.Ts.Checksums
import MirrorCast.Program.Native.Receiving
import MirrorCast.Verification.Native.Reading
import MirrorCast.Verification.Native.ClientInfo
import MirrorCast.Verification.Native.ParameterSets
import MirrorCast.Verification.Native.Bounds
import MirrorCast.Verification.Net.Rendering
import MirrorCast.Verification.Source.Texts
import MirrorCast.Verification.Source.Speaking
import MirrorCast.Library.Looper
import MirrorCast.Program.PlaybackSession.Mirroring
import MirrorCast.Verification.Playback.Stages
import MirrorCast.Verification.Playback.Threads
import MirrorCast.Verification.Playback.Establishing
import MirrorCast.Verification.Playback.Sessions
import MirrorCast.Verification.Playback.Messages
import MirrorCast.Verification.Playback.Teardown
