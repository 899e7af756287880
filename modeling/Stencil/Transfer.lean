/-!
# Transfer faults

What can go wrong between a template engine and the files and sinks around it.
-/
namespace Stencil

inductive TransferFault
  | notFound
  | notADirectory
  /-- Links lead to links without an end, as far as the system follows them. -/
  | tooManyLinks
  /-- What was read or is to be written is not text, or a text could not be made. -/
  | invalidData
  /-- The sink takes no more bytes, while some of the text is left. -/
  | writeZero
  | brokenPipe
  | other
deriving DecidableEq, Repr

/-- The wording of a fault, where it does not come from the system underneath. There it is of no
fixed form. -/
def TransferFault.message? : TransferFault → Option String
  | .notFound => none
  | .notADirectory => none
  | .tooManyLinks => none
  | .invalidData => some "stream did not contain valid UTF-8"
  | .writeZero => some "failed to write whole buffer"
  | .brokenPipe => some "broken pipe"
  | .other => some "other error"

end Stencil
