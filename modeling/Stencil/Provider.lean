import Stencil.JsonValue
import Stencil.Template

/-!
# Providers

A provider is what a template is filled with. Under any number of wrappers it is a text, a
sequence, a map or empty, and some wrappers and maps carry a template of their own. Taking
the wrappers off yields the core and the outermost own template on the way.

Which kind of list, map or pointer a value is made of cannot be seen in a fill, so there is one
constructor for all kinds. A callback or a delegate always returns the same value, and only a
counter returns another one each time.
-/
namespace Stencil

/-- A template that a provider carries. Copies of the provider share the cell, and so they share
the compiled form. -/
structure OwnTemplate where
  cell : Nat
  template : Template

inductive Provider
  | scalar (text : Text)
  | sequence (items : List Provider)
  | map (own : Option OwnTemplate) (entries : List (Text × Provider))
  /-- An optional value that is missing, which no template can be filled with. -/
  | absent
  /-- An optional value that is there, which stands for the value inside of it. -/
  | present (inner : Provider)
  | pointer (inner : Provider)
  | callback (inner : Provider)
  | delegate (own : Option OwnTemplate) (inner : Provider)
  /-- A callback whose `k`-th invocation returns `k`, so that it shows how often values are asked
  for. -/
  | counter (id : Nat)
  | json (value : JsonValue)
deriving Inhabited

/-- How often each counter was invoked so far. This is all that one fill hands on to the next. -/
structure Tally where
  counts : List (Nat × Nat)
deriving DecidableEq

namespace Tally

def empty : Tally := ⟨[]⟩

def count (tally : Tally) (id : Nat) : Nat :=
  (tally.counts.lookup id).getD 0

def bumpCount (id : Nat) : List (Nat × Nat) → List (Nat × Nat)
  | [] => [(id, 1)]
  | (key, n) :: rest => if key = id then (key, n + 1) :: rest else (key, n) :: bumpCount id rest

def bump (tally : Tally) (id : Nat) : Tally :=
  ⟨bumpCount id tally.counts⟩

theorem lookup_bumpCount (id other : Nat) (counts : List (Nat × Nat)) :
    ((bumpCount id counts).lookup other).getD 0 =
      (counts.lookup other).getD 0 + if other = id then 1 else 0 := by
  induction counts with
  | nil =>
    by_cases h : other = id
    · simp [bumpCount, h]
    · have hbeq : (other == id) = false := by simpa using h
      simp [bumpCount, List.lookup_cons, hbeq, h]
  | cons head rest ih =>
    obtain ⟨key, n⟩ := head
    unfold bumpCount
    by_cases ho : other = key
    · subst ho
      by_cases hk : other = id <;> simp [hk]
    · have hbeq : (other == key) = false := by simpa using ho
      by_cases hk : key = id
      · subst hk
        simp [List.lookup_cons, hbeq, ho]
      · simpa [List.lookup_cons, hbeq, hk] using ih

theorem count_bump (tally : Tally) (id other : Nat) :
    (tally.bump id).count other = tally.count other + if other = id then 1 else 0 :=
  lookup_bumpCount id other tally.counts

end Tally

/-- A provider without its wrappers: what can be a scope of names. Taking wrappers off is what
invokes callbacks. -/
inductive Core
  | scalar (text : Text)
  | sequence (items : List Provider)
  | map (own : Option OwnTemplate) (entries : List (Text × Provider))

namespace Core

def toProvider : Core → Provider
  | .scalar text => .scalar text
  | .sequence items => .sequence items
  | .map own entries => .map own entries

def own : Core → Option OwnTemplate
  | .map own _ => own
  | _ => none

/-- The empty name stands for the provider itself. Only maps know other names: a scalar has no
parts, and those of a sequence have no names. -/
def lookup (core : Core) (name : Text) : Option Provider :=
  match name, core with
  | [], _ => some core.toProvider
  | _ :: _, .map _ entries => entries.lookup name
  | _ :: _, _ => none

end Core

/-- The core of a provider, and the outermost template that the provider and its wrappers carry.
Templates further in do not count. -/
structure Unwrapped where
  core : Core
  own : Option OwnTemplate

def Unwrapped.ofCore (core : Core) : Unwrapped :=
  ⟨core, core.own⟩

/-- The decimal text of an integer, with a sign only when it is negative. -/
def integerText : Int → Text
  | .ofNat n => Nat.toDigits 10 n
  | .negSucc n => '-' :: Nat.toDigits 10 (n + 1)

def boolText (value : Bool) : Text :=
  (if value then "true" else "false").toList

/-- The core of a JSON value, unless it is null. Truth values and numbers become the texts that they
are written as. -/
def JsonValue.core : JsonValue → Option Core
  | .null => none
  | .bool value => some (.scalar (boolText value))
  | .integer value => some (.scalar (integerText value))
  | .double bits =>
    some (.scalar (FloatFormat.json.write (FloatLayout.double.decode bits.toNat)))
  | .string value => some (.scalar value)
  | .array items => some (.sequence (items.map .json))
  | .object members => some (.map none (members.map fun member => (member.1, .json member.2)))

/-- Takes the wrappers off. There is nothing under them when an optional value is missing. A
counter on the way is invoked once. -/
def Provider.unwrap (tally : Tally) : Provider → Option Unwrapped × Tally
  | .scalar text => (some (.ofCore (.scalar text)), tally)
  | .sequence items => (some (.ofCore (.sequence items)), tally)
  | .map own entries => (some (.ofCore (.map own entries)), tally)
  | .absent => (none, tally)
  | .present inner => inner.unwrap tally
  | .pointer inner => inner.unwrap tally
  | .callback inner => inner.unwrap tally
  | .delegate own inner =>
    let (found, tally) := inner.unwrap tally
    (found.map fun u => { u with own := own <|> u.own }, tally)
  | .counter id =>
    let tally := tally.bump id
    (some (.ofCore (.scalar (integerText (tally.count id)))), tally)
  | .json value => (value.core.map .ofCore, tally)

end Stencil
