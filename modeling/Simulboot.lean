import Simulboot.Library.Text
import Simulboot.Library.Run
import Simulboot.Library.Utf8
import Simulboot.Library.Numerals
import Simulboot.Library.SocketAddr
import Simulboot.Library.Http
import Simulboot.Library.UniqueReading
import Simulboot.Library.Xml
import Simulboot.Library.XmlDelivery
import Simulboot.Library.XmlNesting
import Simulboot.Library.XmlCut
import Simulboot.Library.XmlSchema
import Simulboot.Library.XmlReader
import Simulboot.Library.XmlTypes
import Simulboot.Library.XmlWriting
import Simulboot.Library.Float
import Simulboot.Library.ExactFloat
import Simulboot.Library.Sha256
import Simulboot.Library.Framing
import Simulboot.Library.StableSort
import Simulboot.Library.Pointwise
import Simulboot.Library.Future
import Simulboot.Library.Bounded
import Simulboot.Library.Checked
import Simulboot.Library.Gregorian
import Simulboot.Library.Joined
import Simulboot.Library.Family
import Simulboot.Library.Tiling
import Simulboot.Library.Lane
import Simulboot.Library.Postcard
import Simulboot.Wire
import Simulboot.Wire.Format
import Simulboot.Wire.Frames
import Simulboot.Session
import Simulboot.Session.Steps
import Simulboot.Session.Foreign
import Simulboot.Session.Schema
import Simulboot.Session.Escaping
import Simulboot.Session.Canonical
import Simulboot.Session.Document
import Simulboot.Session.RoundTrip
import Simulboot.Session.NormalForm
import Simulboot.Session.Namespace
import Simulboot.Session.Conformance
import Simulboot.Session.Clash
import Simulboot.Session.Surfaces
import Simulboot.Session.Parts
import Simulboot.Session.CutOff
import Simulboot.Coefficients
import Simulboot.Coefficients.Order
import Simulboot.Coefficients.Meaning
import Simulboot.Galois
import Simulboot.Galois.Connection
import Simulboot.Galois.Document
import Simulboot.Galois.RoundTrip
import Simulboot.Galois.Invariant
import Simulboot.Galois.Order
import Simulboot.Galois.Embedding
import Simulboot.Galois.Conformance
import Simulboot.Galois.Meaning
import Simulboot.Errors
import Simulboot.Channel
import Simulboot.Client.Fetch
import Simulboot.Client.Conn
import Simulboot.Client.Resume
import Simulboot.Client.Rebinding
import Simulboot.Client.Restore
import Simulboot.Client.Exchange
import Simulboot.Client.Parking
import Simulboot.Client.Identity
import Simulboot.Client.Paths
import Simulboot.Client.Verified
import Simulboot.Client.Suspending
import Simulboot.Client.Strip
import Simulboot.Client.Render
import Simulboot.Client.Live
import Simulboot.Client.Keys
import Simulboot.Client.Checkpoint
import Simulboot.Client.Operations
import Simulboot.Client.Projection
import Simulboot.Client.Handover
import Simulboot.Client.Geometry
import Simulboot.Client.Hits
import Simulboot.Client.Suspension
import Simulboot.Client.Timestamp
import Simulboot.Client.Saved
import Simulboot.Client.Order
import Simulboot.Client.Confluence
import Simulboot.Channel.Progress
import Simulboot.Connection
import Simulboot.Connection.Buffers
import Simulboot.Connection.Calls
import Simulboot.Connection.Coherence
import Simulboot.Connection.Conformance
import Simulboot.Connection.Acknowledgement
import Simulboot.Connection.Work
import Simulboot.Connection.Quiescence
import Simulboot.Connection.Completion
import Simulboot.Connection.Links
import Simulboot.Content.Datagram
import Simulboot.Content
import Simulboot.Content.Accounting
import Simulboot.Content.Diagnostics
import Simulboot.Content.Interference
import Simulboot.Content.Progress
import Simulboot.Host.Announce
import Simulboot.Broker
import Simulboot.Broker.Standalone
import Simulboot.Broker.Serving
import Simulboot.Broker.Answers
