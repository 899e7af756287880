import Stencil.FilePath

/-!
# Settings

Where templates are loaded from, and how the files are named.
-/
namespace Stencil

structure Settings where
  directory : Text
  ending : Text

namespace Settings

def default : Settings := ⟨"templates".toList, ".tmpl".toList⟩

/-- Directories are the same when their parts are, and extensions when their characters are. -/
def same (a b : Settings) : Bool :=
  FilePath.parts a.directory == FilePath.parts b.directory && a.ending == b.ending

end Settings

end Stencil
