import Stencil.Compile

/-!
# The arena of a template

The tree of a compiled template is also laid out flat: its substitutions, its bodies and the
joinings of its substitutions are numbered from zero in the order in which they open in the
source, and refer to each other by number. Body 0 is the root. The links of a dotted name are
neighbours, share one joining and have the first of them as their origin, and a body of its
own holds each link after the first.
-/
namespace Stencil

inductive NodeKind
  | value
  | insert
  | comment
deriving DecidableEq, Repr

inductive NodeTarget
  | own
  | inline (body : Nat)
  | named (name : Text)
deriving DecidableEq, Repr

structure Node where
  kind : NodeKind
  name : Text
  rewind : Nat
  shared : Nat
  origin : Nat
  leading : Text
  trailing : Text
  target : NodeTarget
  span : Span
deriving DecidableEq, Repr

/-- Literal text with substitutions between: literal `i` stands before substitution `i`. A last
literal may stand after all of them. -/
structure BodyEntry where
  statics : List Text
  substitutions : List Nat
deriving DecidableEq, Repr

structure Arena where
  nodes : List Node
  bodies : List BodyEntry
  shared : List Joining
deriving DecidableEq, Repr

namespace Arena

def empty : Arena := ⟨[], [], []⟩

def append (a b : Arena) : Arena :=
  ⟨a.nodes ++ b.nodes, a.bodies ++ b.bodies, a.shared ++ b.shared⟩

end Arena

/-- How many nodes, bodies and joinings there are already, which gives the numbers of the next
ones. -/
structure Counts where
  nodes : Nat
  bodies : Nat
  shared : Nat
deriving DecidableEq, Repr

def Counts.after (counts : Counts) (arena : Arena) : Counts where
  nodes := counts.nodes + arena.nodes.length
  bodies := counts.bodies + arena.bodies.length
  shared := counts.shared + arena.shared.length

/-- What the nodes of one substitution have in common: their joining, their first node and the place
in the source. -/
structure Chain where
  shared : Nat
  origin : Nat
  span : Span

/-- The first node of a substitution. It alone has the dots and the texts around the whole name. -/
def Chain.head (chain : Chain) (kind : NodeKind) (name : Text) (rewind : Nat) (place : Placement) :
    Node where
  kind := kind
  name := name
  rewind := rewind
  shared := chain.shared
  origin := chain.origin
  leading := place.leading
  trailing := place.trailing
  target := .own
  span := chain.span

mutual

/-- The entry of a body and what its substitutions add to an arena that holds `counts`. Numbers are
given out in the order of the source. -/
def Body.lay (counts : Counts) : Body → BodyEntry × Arena
  | .tail literal => (⟨if literal.isEmpty then [] else [literal], []⟩, .empty)
  | .piece literal place action rest =>
    let first := action.lay place counts
    let (entry, others) := rest.lay (counts.after first)
    (⟨literal :: entry.statics, counts.nodes :: entry.substitutions⟩, first.append others)

def Action.lay (place : Placement) (counts : Counts) : Action → Arena
  | .comment =>
    let chain : Chain := ⟨counts.shared, counts.nodes, place.span⟩
    ⟨[chain.head .comment [] 0 place], [], [place.joining]⟩
  | .insert rewind name =>
    let chain : Chain := ⟨counts.shared, counts.nodes, place.span⟩
    ⟨[chain.head .insert name rewind place], [], [place.joining]⟩
  | .value rewind name target =>
    let chain : Chain := ⟨counts.shared, counts.nodes, place.span⟩
    let links := target.lay chain (chain.head .value name rewind place)
      { counts with shared := counts.shared + 1 }
    { links with shared := place.joining :: links.shared }

/-- Lays out the link `node` with its target. The body of an inline template comes right after the
node. -/
def Target.lay (chain : Chain) (node : Node) (counts : Counts) : Target → Arena
  | .own => ⟨[node], [], []⟩
  | .named name => ⟨[{ node with target := .named name }], [], []⟩
  | .inline body =>
    let (entry, inner) := body.lay ⟨counts.nodes + 1, counts.bodies + 1, counts.shared⟩
    ⟨{ node with target := .inline counts.bodies } :: inner.nodes, entry :: inner.bodies,
      inner.shared⟩
  | .link name target =>
    let next : Node :=
      { node with name := name, rewind := 0, leading := [], trailing := [], target := .own }
    let inner := target.lay chain next ⟨counts.nodes + 1, counts.bodies + 1, counts.shared⟩
    ⟨{ node with target := .inline counts.bodies } :: inner.nodes,
      ⟨[[]], [counts.nodes + 1]⟩ :: inner.bodies, inner.shared⟩

end

/-- The arena that holds a body and everything in it, as an extension of one with `counts`. The body
itself comes first. -/
def Body.arena (counts : Counts) (body : Body) : Arena :=
  let (entry, inner) := body.lay { counts with bodies := counts.bodies + 1 }
  { inner with bodies := entry :: inner.bodies }

def Compiled.arena (compiled : Compiled) : Arena :=
  compiled.root.arena ⟨0, 0, 0⟩

/-- Whether two templates have the same source and the same arena, down to every number and span. -/
def Compiled.same (a b : Compiled) : Bool :=
  decide (a.source = b.source) && decide (a.arena = b.arena)

namespace BodyEntry

def sizeHint (entry : BodyEntry) : Nat :=
  Text.bytes entry.statics.flatten

/-- Each literal with the substitution after it. A last literal stands alone and is left out when
it is empty, and a missing literal is empty. -/
def pairs : BodyEntry → List (Text × Option Nat)
  | ⟨literal :: statics, sub :: subs⟩ => (literal, some sub) :: pairs ⟨statics, subs⟩
  | ⟨[], subs⟩ => subs.map fun sub => ([], some sub)
  | ⟨literal :: _, []⟩ => if literal.isEmpty then [] else [(literal, none)]

end BodyEntry

namespace Arena

/-- The raw text of the substitution that node `id` belongs to, with its braces. All links of a name
have the same. -/
def raw (arena : Arena) (source : Text) (id : Nat) : Text :=
  match arena.nodes[id]? with
  | none => []
  | some node => ((arena.nodes[node.origin]?.getD node).span).slice source

end Arena

end Stencil
