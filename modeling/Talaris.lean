import Talaris.Ws.Chunking
import Talaris.Ws.ChunkEnd
import Talaris.Ws.Session
import Talaris.Ws.Variants
import Talaris.Ws.Reassembly
import Talaris.Pool.Groups
import Talaris.Pool.Lifecycle
import Talaris.Pool.Lifetime
import Talaris.Pool.Buffers
import Talaris.Pool.Backpressure
import Talaris.Pool.Farewell
import Talaris.Ws.Settling
import Talaris.Ws.Streaming
import Talaris.Ws.Negotiation
import Talaris.Http.Grammar
import Talaris.Connection.Egress
import Talaris.Basis.Circle
import Talaris.Connection.Loans
import Talaris.CursorBuf
import Talaris.Observability.Histograms
import Talaris.Connection.Latency
import Talaris.Connection.Ring
import Talaris.Pool.Driving
import Talaris.Pool.Sending
import Talaris.Pool.Api
import Talaris.Pool.Stream
import Talaris.Pool.Messages
import Talaris.Pool.Arming
import Talaris.Connection.Plaintext
