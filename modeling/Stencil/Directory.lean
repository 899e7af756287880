import Stencil.Settings
import Stencil.TemplateMap
import Stencil.Transfer

/-!
# Loading directories

The templates of a directory are its regular files whose name ends with the extension and
has something before it. Their names in the map are what stands before the extension. A
listing may come in any order; only the first unreadable file could tell orders apart, and
every unreadable file fails in the same way.

Reading itself is left to the system: a directory is given by the listing that reading it results
in, or by the failure to read it.
-/
namespace Stencil

inductive DirectoryItem
  | file (content : ByteArray)
  | directory
  | link (target : Text)

/-- An entry of a directory as the system lists it. A name is missing when its bytes are not
text. -/
structure DirectoryEntry where
  name : Option Text
  item : DirectoryItem

abbrev Directory := List DirectoryEntry

/-- The text of some bytes in UTF-8, if they are the form of one. Nothing is replaced or skipped. -/
def decodeText? (bytes : ByteArray) : Option Text :=
  (String.fromUTF8? bytes).map String.toList

namespace DirectoryEntry

/-- The template name and the content of a file that is to be loaded. Directories, links and other
names are passed over. -/
def selected? (ending : Text) (entry : DirectoryEntry) : Option (Text × ByteArray) :=
  match entry.item, entry.name.bind (Text.stripTail? ending) with
  | .file content, some (c :: name) => some (c :: name, content)
  | _, _ => none

end DirectoryEntry

namespace Directory

/-- Loads the selected files in the order of the listing, up to the first that is not text. -/
def loadEntries (ending : Text) : Directory → Except TransferFault (List (Text × Template))
  | [] => .ok []
  | entry :: rest =>
    match entry.selected? ending with
    | none => loadEntries ending rest
    | some (name, content) =>
      match decodeText? content with
      | none => .error .invalidData
      | some source => (loadEntries ending rest).map ((name, .new source) :: ·)

def load (ending : Text) (directory : Directory) : Except TransferFault TemplateMap :=
  (loadEntries ending directory).map .ofList

def find? (directory : Directory) (name : Text) : Option DirectoryItem :=
  (List.find? (fun entry : DirectoryEntry => entry.name == some name) directory).map
    DirectoryEntry.item

/-- Where a path has led so far, as far as the listing of one directory can tell. -/
inductive Place
  /-- The listed directory. -/
  | top
  /-- A directory in the listed one. What it holds is not known, and it counts as empty. -/
  | inner
  /-- A directory somewhere above, of which nothing is known. Only a way back down would tell. -/
  | outside
  | file
deriving DecidableEq, Repr

/-- Follows the parts of a path, which can only go on from a directory. The target of a link takes
the link's place in the path, and links are followed at most `limit` times. -/
def walk (directory : Directory) (limit : Nat) (place : Place) (parts : List PathPart) :
    Except TransferFault Place :=
  match parts with
  | [] => .ok place
  | part :: rest =>
    match place, part with
    | .file, _ => .error .notADirectory
    | _, .root => directory.walk limit .outside rest
    | _, .current => directory.walk limit place rest
    | .inner, .parent => directory.walk limit .top rest
    | _, .parent => directory.walk limit .outside rest
    | .top, .name name =>
      match directory.find? name with
      | none => .error .notFound
      | some (.file _) => directory.walk limit .file rest
      | some .directory => directory.walk limit .inner rest
      | some (.link target) =>
        match limit with
        | 0 => .error .tooManyLinks
        | limit + 1 => directory.walk limit .top (FilePath.parts target ++ rest)
    | _, .name _ => .error .notFound
termination_by (limit, parts.length)

/-- The listing that a path from the listed directory leads to. Links are followed part by part, at
most `limit` of them. -/
def enter (directory : Directory) (limit : Nat) (path : Text) : Except TransferFault Directory :=
  match directory.walk limit .top (FilePath.parts path) with
  | .error fault => .error fault
  | .ok .top => .ok directory
  | .ok .file => .error .notADirectory
  | .ok .inner => .ok []
  | .ok .outside => .ok []

end Directory

end Stencil
