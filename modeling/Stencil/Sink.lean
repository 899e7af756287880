import Stencil.Text
import Stencil.Transfer

/-!
# Sinks

A sink takes bytes after those that it holds. Some sinks have room for a number of bytes only,
and some are broken. A broken stream can still be given nothing.
-/
namespace Stencil

inductive SinkKind
  | unlimited
  /-- Takes so many more bytes, and then none. -/
  | limited (room : Nat)
  | brokenStream
  | brokenFormatter
deriving DecidableEq, Repr

structure Sink where
  kind : SinkKind
  held : ByteArray

namespace Sink

/-- Writes a text, or as much of it as the sink takes. A broken sink takes nothing, and a broken
stream does not even notice a text that is empty. -/
def write (sink : Sink) (text : Text) : Sink × Option TransferFault :=
  let bytes := (String.ofList text).toByteArray
  match sink.kind with
  | .unlimited => ({ sink with held := sink.held ++ bytes }, none)
  | .limited room =>
    let taken := bytes.extract 0 room
    (⟨.limited (room - bytes.size), sink.held ++ taken⟩,
      if bytes.size ≤ room then none else some .writeZero)
  | .brokenStream => (sink, if text.isEmpty then none else some .brokenPipe)
  | .brokenFormatter => (sink, some .other)

end Sink

end Stencil
