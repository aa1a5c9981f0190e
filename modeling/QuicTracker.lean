import QuicTracker.Lemmas.Common
import QuicTracker.Lemmas.Streams
import QuicTracker.Lemmas.Reassembly
import QuicTracker.Lemmas.Frames.Payload
import QuicTracker.Lemmas.Frames.Direction
import QuicTracker.Lemmas.Frames.Wire
import QuicTracker.Lemmas.Headers
import QuicTracker.Lemmas.HeaderCodec
import QuicTracker.Lemmas.Ack
import QuicTracker.Lemmas.Agents.Parse
import QuicTracker.Lemmas.Agents.Receive
import QuicTracker.Lemmas.Agents.Send
import QuicTracker.Lemmas.Agents.SendRuns
import QuicTracker.Lemmas.Agents.SendSize
import QuicTracker.Lemmas.Agents.Recovery
import QuicTracker.Lemmas.Agents.Response
import QuicTracker.Lemmas.Agents.Answer
import QuicTracker.Lemmas.Agents.PeerStreams
import QuicTracker.Lemmas.Agents.Framing
import QuicTracker.Impl.Client
import QuicTracker.Impl.Agents.Handshake
import QuicTracker.Lemmas.Agents.Handshake
import QuicTracker.Lemmas.Agents.Restart
import QuicTracker.Impl.Agents.Buffer
import QuicTracker.Lemmas.Agents.Buffer
import QuicTracker.Impl.Agents.Tls
import QuicTracker.Lemmas.Agents.Tls
import QuicTracker.Impl.Agents.Retransmit
import QuicTracker.Impl.Session
import QuicTracker.Lemmas.PacketNumbers
import QuicTracker.Lemmas.Session
import QuicTracker.Lemmas.StreamOffsets
import QuicTracker.Lemmas.GapList
import QuicTracker.Lemmas.Agents.Retransmit
import QuicTracker.Lemmas.StreamTransfer
import QuicTracker.Impl.Scenarii.FlowControl
import QuicTracker.Impl.Scenarii.SimpleGetAndWait
import QuicTracker.Lemmas.Scenarii.FlowControl
import QuicTracker.Lemmas.Scenarii.SimpleGetAndWait
import QuicTracker.Lemmas.HeaderLength
import QuicTracker.Lemmas.PacketEncoding
import QuicTracker.Lemmas.VersionNegotiation
import QuicTracker.Lemmas.Http3Codec
import QuicTracker.Lemmas.InitialLength
import QuicTracker.Impl.Agents.Socket
import QuicTracker.Lemmas.Agents.Socket
import QuicTracker.Impl.Agents.Loop
import QuicTracker.Impl.Agents.SendTimers
import QuicTracker.Lemmas.Agents.Loop
import QuicTracker.Impl.Agents.Rtt
import QuicTracker.Impl.Scenarii.ConnectionIDs
import QuicTracker.Impl.Scenarii.Exchanges
import QuicTracker.Impl.Scenarii.FirstFlight
import QuicTracker.Impl.Scenarii.Paths
import QuicTracker.Impl.Scenarii.UniStreams
import QuicTracker.Lemmas.Agents.Rtt
import QuicTracker.Lemmas.Scenarii.Scenario
import QuicTracker.Lemmas.Scenarii.ConnectionIDs
import QuicTracker.Lemmas.Scenarii.Exchanges
import QuicTracker.Lemmas.Scenarii.FirstFlight
import QuicTracker.Lemmas.Scenarii.Paths
import QuicTracker.Lemmas.Scenarii.UniStreams
import QuicTracker.Lemmas.TransportParameters
import QuicTracker.Impl.Agents.Requests
import QuicTracker.Lemmas.Agents.RequestFrames
import QuicTracker.Impl.Agents.Arrivals
import QuicTracker.Lemmas.Agents.Arrivals
import QuicTracker.Lemmas.Agents.TlsRuns
