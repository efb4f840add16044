import SlcRtld.Effect.Prog
import SlcRtld.Effect.Rel
import SlcRtld.Effect.Run
import SlcRtld.Config
import SlcRtld.Json.Jsmn
import SlcRtld.Json.Message
import SlcRtld.Tree.Hedge
import SlcRtld.Json.Forest
import SlcRtld.Json.Rfc8259
import SlcRtld.Json.Scan
import SlcRtld.Json.Layout
import SlcRtld.Json.Lookup
import SlcRtld.Libc.Double
import SlcRtld.Libc.Text
import SlcRtld.Json.Numeral
import SlcRtld.Libc.Convert
import SlcRtld.Libc.Endian
import SlcRtld.Auth.Sha256
import SlcRtld.Auth.Verify
import SlcRtld.Vita.Packet
import SlcRtld.Vita.Table
import SlcRtld.Vita.Stream
import SlcRtld.Vita.Context
import SlcRtld.Rtl.Bridge
import SlcRtld.Rtl.Radio
import SlcRtld.Control.Reply
import SlcRtld.Control.State
import SlcRtld.Control.Ops
import SlcRtld.Control.Commands
import SlcRtld.Control.Session
import SlcRtld.Control.Outcome
import SlcRtld.Control.Handlers
import SlcRtld.Control.Frame
import SlcRtld.Control.Received
import SlcRtld.Property.Ownership
import SlcRtld.Property.Accounting
import SlcRtld.Property.Observer
import SlcRtld.Property.Unlock
import SlcRtld.Property.Gate
import SlcRtld.Property.Limits
import SlcRtld.Property.Truthful
import SlcRtld.Property.Failure
import SlcRtld.Property.TreeLookup
import SlcRtld.Control.Parametric
import SlcRtld.Json.Inside
import SlcRtld.Property.TokenBounds
import SlcRtld.Control.Protocol
import SlcRtld.Control.Conformance
import SlcRtld.Control.Pool
import SlcRtld.Control.Turn
import SlcRtld.Property.Reader
import SlcRtld.Crypto.Blocks
import SlcRtld.Crypto.Fips180
import SlcRtld.Auth.Standard
import SlcRtld.Auth.KeyLines
import SlcRtld.Property.KeyFile
import SlcRtld.Property.Keygen
import SlcRtld.Control.Hardware
import SlcRtld.Property.Throttle
import SlcRtld.Property.BiasTee
import SlcRtld.Property.GainMode
import SlcRtld.Dns.Wire
import SlcRtld.Mdns.Builtin
import SlcRtld.Mdns.Packet
import SlcRtld.Property.Announce
import SlcRtld.Mdns.Query
import SlcRtld.Property.Questions
import SlcRtld.Property.Answered
import SlcRtld.Property.VitaWire
import SlcRtld.Property.Overload
import SlcRtld.Control.Text
import SlcRtld.Property.Replies
import SlcRtld.Json.Compact
import SlcRtld.Json.Reading
import SlcRtld.Property.DeviceName
import SlcRtld.Property.Exactness
import SlcRtld.Property.Exclusive
import SlcRtld.Property.Notices
import SlcRtld.Property.Calibration
import SlcRtld.Wire.Framing
import SlcRtld.Control.Sockets
import SlcRtld.Control.Mutexes
import SlcRtld.Property.Writers
import SlcRtld.Property.Broadcasts
import SlcRtld.Property.Progress
import SlcRtld.Control.Intake
import SlcRtld.Property.Isolation
import SlcRtld.Libc.Format
import SlcRtld.Property.Parameters
import SlcRtld.Property.Published
import SlcRtld.Property.Answers
import SlcRtld.Json.Datum
import SlcRtld.Property.Spelling
