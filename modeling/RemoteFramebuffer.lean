import RemoteFramebuffer.Pixel.Format
import RemoteFramebuffer.Canvas
import RemoteFramebuffer.Text.Utf8
import RemoteFramebuffer.Text.Printable
import RemoteFramebuffer.Wire.Transport
import RemoteFramebuffer.Message
import RemoteFramebuffer.Security.Des
import RemoteFramebuffer.Handshake.Init
import RemoteFramebuffer.Handshake.Security
import RemoteFramebuffer.Deflate.Decoder
import RemoteFramebuffer.Encoding.Set
import RemoteFramebuffer.Encoding.Update
import RemoteFramebuffer.Recording.Player
import RemoteFramebuffer.Recording.Recorder
import RemoteFramebuffer.Recording.Playback
import RemoteFramebuffer.Session
import RemoteFramebuffer.Session.State
import RemoteFramebuffer.Session.Picture
import RemoteFramebuffer.Session.Router
import RemoteFramebuffer.Bench.Script
import RemoteFramebuffer.Config.Settings
import RemoteFramebuffer.CommandLine
import RemoteFramebuffer.Main
import RemoteFramebuffer.Proofs.Encoding.Capture
import RemoteFramebuffer.Proofs.Message.Field
import RemoteFramebuffer.Proofs.Encoding.Relay
import RemoteFramebuffer.Proofs.Geometry
import RemoteFramebuffer.Proofs.Raster
import RemoteFramebuffer.Proofs.Canvas.Call
import RemoteFramebuffer.Proofs.Canvas.Overlay
import RemoteFramebuffer.Proofs.Canvas.Access
import RemoteFramebuffer.Proofs.Canvas.Picture
import RemoteFramebuffer.Proofs.Encoding.Follows
import RemoteFramebuffer.Proofs.Encoding.Walks
import RemoteFramebuffer.Proofs.Encoding.Zrle
import RemoteFramebuffer.Proofs.Encoding.Tight
import RemoteFramebuffer.Proofs.Encoding.Agreement
import RemoteFramebuffer.Proofs.Encoding.Frame
import RemoteFramebuffer.Proofs.Encoding.Painting
import RemoteFramebuffer.Proofs.Encoding.CompactPixel
import RemoteFramebuffer.Proofs.Encoding.Zrle.Coding
import RemoteFramebuffer.Proofs.Encoding.Zrle.Picture
import RemoteFramebuffer.Proofs.Encoding.Hextile
import RemoteFramebuffer.Proofs.Encoding.Tight.Basic
import RemoteFramebuffer.Proofs.Encoding.Tight.Picture
import RemoteFramebuffer.Proofs.Encoding.Tight.Gradient
import RemoteFramebuffer.Proofs.Handshake.Conversation
import RemoteFramebuffer.Proofs.Handshake.Security
import RemoteFramebuffer.Proofs.Handshake.Acceptance
import RemoteFramebuffer.Proofs.Wire.Buffered
import RemoteFramebuffer.Proofs.Message.Framing
import RemoteFramebuffer.Proofs.Session.Delivery
import RemoteFramebuffer.Proofs.Session.Upstream
import RemoteFramebuffer.Proofs.Text.Utf8
import RemoteFramebuffer.Proofs.Recording.Replay
import RemoteFramebuffer.Proofs.Canvas.Changes
import RemoteFramebuffer.Proofs.Session.Opening
import RemoteFramebuffer.Proofs.Session.Bookkeeping
import RemoteFramebuffer.Proofs.Session.Picture
import RemoteFramebuffer.Proofs.Recording.Reopening
import RemoteFramebuffer.Proofs.Handshake.Version
import RemoteFramebuffer.Proofs.Message.Failures
import RemoteFramebuffer.Proofs.Session.Palette
import RemoteFramebuffer.Proofs.StreamDecoder
import RemoteFramebuffer.Proofs.Encoding.Inflation
import RemoteFramebuffer.Proofs.Recording.Showing
import RemoteFramebuffer.Proofs.Raster.Drawing
import RemoteFramebuffer.Proofs.Raster.Copying
import RemoteFramebuffer.Proofs.Encoding.Subrects
import RemoteFramebuffer.Proofs.Encoding.Cursor
import RemoteFramebuffer.Proofs.Geometry.Intersection
import RemoteFramebuffer.Proofs.Geometry.Tiling
import RemoteFramebuffer.Proofs.Pixel.Recoding
import RemoteFramebuffer.Proofs.Config.Address
import RemoteFramebuffer.Proofs.Config.Target
import RemoteFramebuffer.Proofs.Pixel.Value
