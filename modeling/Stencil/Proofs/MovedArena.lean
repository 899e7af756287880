import Stencil.Proofs.GrowingArena
import Stencil.Proofs.Relocation

/-!
# Arenas moved as a whole

A template that is compiled into an arena with others is there as it is alone, with all numbers
moved by what was there before and all spans moved to where its source starts.
-/
namespace Stencil

/-! ### Moving numbers and spans -/

def Counts.add (counts before : Counts) : Counts :=
  ⟨counts.nodes + before.nodes, counts.bodies + before.bodies, counts.shared + before.shared⟩

def NodeTarget.moved (before : Counts) : NodeTarget → NodeTarget
  | .own => .own
  | .inline body => .inline (body + before.bodies)
  | .named name => .named name

def Node.moved (before : Counts) (k : Nat) (node : Node) : Node :=
  { node with
    shared := node.shared + before.shared
    origin := node.origin + before.nodes
    target := node.target.moved before
    span := ⟨node.span.start + k, node.span.stop + k⟩ }

def BodyEntry.moved (before : Counts) (entry : BodyEntry) : BodyEntry :=
  { entry with substitutions := entry.substitutions.map (· + before.nodes) }

namespace Arena

/-- The same arena after others that hold `before`, for a source that starts `k` bytes later.
Joinings have no numbers in them and stay. -/
def moved (before : Counts) (k : Nat) (arena : Arena) : Arena where
  nodes := arena.nodes.map (Node.moved before k)
  bodies := arena.bodies.map (BodyEntry.moved before)
  shared := arena.shared

theorem moved_append (before : Counts) (k : Nat) (a b : Arena) :
    (a.append b).moved before k = (a.moved before k).append (b.moved before k) := by
  simp [moved, append]

end Arena

theorem Counts.after_moved (counts before : Counts) (k : Nat) (arena : Arena) :
    (counts.add before).after (arena.moved before k) = (counts.after arena).add before := by
  simp [after, add, Arena.moved, Nat.add_right_comm]

theorem Counts.inside_add (counts before : Counts) :
    (⟨(counts.add before).nodes + 1, (counts.add before).bodies + 1,
      (counts.add before).shared⟩ : Counts) =
      Counts.add ⟨counts.nodes + 1, counts.bodies + 1, counts.shared⟩ before := by
  simp [add, Nat.add_right_comm]

theorem Counts.shared_add (counts before : Counts) :
    ({ counts.add before with shared := (counts.add before).shared + 1 } : Counts) =
      Counts.add { counts with shared := counts.shared + 1 } before := by
  simp [add, Nat.add_right_comm]

/-! ### Laying out what was moved -/

mutual

/-- A body that is laid out after others is moved by them. The induction is on the body, and the
three kinds of parts are proved together. -/
theorem Body.lay_moved (before : Counts) (k : Nat) (counts : Counts) (body : Body) :
    (body.shift k).lay (counts.add before) =
      ((body.lay counts).1.moved before, (body.lay counts).2.moved before k) := by
  cases body with
  | tail literal =>
    rw [Body.shift, Body.lay, Body.lay]
    rfl
  | piece literal place action rest =>
    rw [Body.shift, Body.lay, Body.lay, Action.lay_moved, Counts.after_moved, Body.lay_moved,
      Arena.moved_append]
    rfl

theorem Action.lay_moved (before : Counts) (k : Nat) (place : Placement) (counts : Counts)
    (action : Action) :
    (action.shift k).lay (place.shift k) (counts.add before) =
      (action.lay place counts).moved before k := by
  cases action with
  | comment =>
    rw [Action.shift, Action.lay, Action.lay]
    rfl
  | insert rewind name =>
    rw [Action.shift, Action.lay, Action.lay]
    rfl
  | value rewind name target =>
    let chain : Chain := ⟨counts.shared, counts.nodes, place.span⟩
    have htarget := Target.lay_moved before k chain
      ⟨(counts.add before).shared, (counts.add before).nodes, (place.shift k).span⟩
      (chain.head .value name rewind place) { counts with shared := counts.shared + 1 } target
    rw [Action.shift, Action.lay, Action.lay, Counts.shared_add]
    exact congrArg (fun links : Arena => { links with shared := place.joining :: links.shared })
      htarget

theorem Target.lay_moved (before : Counts) (k : Nat) (chain chain' : Chain) (node : Node)
    (counts : Counts) (target : Target) :
    (target.shift k).lay chain' (node.moved before k) (counts.add before) =
      (target.lay chain node counts).moved before k := by
  cases target with
  | own =>
    rw [Target.shift, Target.lay, Target.lay]
    rfl
  | named name =>
    rw [Target.shift, Target.lay, Target.lay]
    rfl
  | inline body =>
    rw [Target.shift, Target.lay, Target.lay, Counts.inside_add, Body.lay_moved]
    rfl
  | link name target =>
    have hnext : (counts.add before).nodes + 1 = counts.nodes + 1 + before.nodes :=
      Nat.add_right_comm counts.nodes before.nodes 1
    have hinner := Target.lay_moved before k chain chain' (node.follow name)
      ⟨counts.nodes + 1, counts.bodies + 1, counts.shared⟩ target
    rw [Target.shift, Target.lay, Target.lay, Counts.inside_add, hnext]
    exact congrArg (fun inner : Arena => Arena.mk
      ({ node.moved before k with target := .inline (counts.bodies + before.bodies) } ::
        inner.nodes)
      (⟨[[]], [counts.nodes + 1 + before.nodes]⟩ :: inner.bodies) inner.shared) hinner

end

/-! ### Compiling into an arena -/

/-- Compiling alone is compiling into an arena that holds nothing, so that the layout is what the
compiler builds. -/
theorem Arena.compileBody_empty (source : Text) :
    Arena.empty.compileBody 0 source =
      (compile source).map fun compiled => (0, compiled.arena) := by
  rw [Text.grows, compile]
  cases (compileSource 0 source).result with
  | error error => rfl
  | ok body => rfl

/-- A source is compiled into any arena and from any byte on exactly when it compiles alone. It adds
what it is alone, moved as a whole, and gives the number of the first new body. Otherwise its error
moves with it. -/
theorem Arena.compileBody_relocates (arena : Arena) (base : Nat) (source : Text) :
    arena.compileBody base source =
      ((compile source).map fun compiled => (arena.bodies.length,
        arena.append (compiled.arena.moved arena.counts base))).mapError
          (SyntaxError.shift base) := by
  have hshift := compileSource_shift base 0 source
  rw [Nat.zero_add] at hshift
  rw [Text.grows, hshift, compile, Draft.shift]
  cases (compileSource 0 source).result with
  | error error => rfl
  | ok body =>
    have hcounts : ({ arena.counts with bodies := arena.counts.bodies + 1 } : Counts) =
        Counts.add ⟨0, 1, 0⟩ arena.counts := by
      simp [Counts.add, Nat.add_comm]
    have harena : (body.shift base).arena arena.counts =
        (body.arena ⟨0, 0, 0⟩).moved arena.counts base := by
      rw [Body.arena, hcounts, Body.lay_moved]
      rfl
    exact congrArg (fun built => Except.ok (arena.bodies.length, arena.append built)) harena

end Stencil
