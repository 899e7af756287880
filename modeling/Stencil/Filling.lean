import Stencil.FillError
import Stencil.Provider

/-!
# Fillings

A filling is a computation that may invoke counters, may fail, and keeps notes of the
templates that it asked for and of the names that it found in outer scopes. The notes and the
invocations made before a failure remain.
-/
namespace Stencil

/-- Where a template is kept: under a name in the map, or in the data. It has one form there,
whoever asks for it. -/
inductive Site
  | named (name : Text)
  | own (cell : Nat)
deriving DecidableEq

inductive Note
  /-- The compiled form of a template was asked for. The first such note of a site is when the
  template was compiled. -/
  | used (site : Site) (template : Template)
  /-- A name was found after passing over `depth` scopes, those that dots lead out of among them. -/
  | outer (name : Text) (depth : Nat)

/-- Why there is no text: an error of the template or its data, or a limit that was too low. -/
inductive Stop
  | failed (error : FillError)
  /-- The templates are nested more deeply than the limit allows. A higher limit may give a text or
  an error. -/
  | tooDeep
deriving DecidableEq

structure Report (α : Type) where
  result : Except Stop α
  notes : List Note
  tally : Tally

structure Filling (α : Type) where
  run : Tally → Report α

namespace Filling

@[ext] theorem ext {α : Type} {p q : Filling α} (h : ∀ tally, p.run tally = q.run tally) :
    p = q := by
  cases p
  cases q
  congr
  exact funext h

def done {α : Type} (a : α) : Filling α :=
  ⟨fun tally => ⟨.ok a, [], tally⟩⟩

def andThen {α β : Type} (p : Filling α) (next : α → Filling β) : Filling β :=
  ⟨fun tally =>
    let first := p.run tally
    match first.result with
    | .error stop => ⟨.error stop, first.notes, first.tally⟩
    | .ok a =>
      let second := (next a).run first.tally
      ⟨second.result, first.notes ++ second.notes, second.tally⟩⟩

/-- Changes the value that there is at the end, and neither the notes nor the counters. -/
def map {α β : Type} (f : α → β) (p : Filling α) : Filling β :=
  ⟨fun tally =>
    let report := p.run tally
    ⟨report.result.map f, report.notes, report.tally⟩⟩

instance : Monad Filling where
  pure := done
  bind := andThen
  map := map

def stop {α : Type} (reason : Stop) : Filling α :=
  ⟨fun tally => ⟨.error reason, [], tally⟩⟩

def fail {α : Type} (error : FillError) : Filling α :=
  stop (.failed error)

def note (n : Note) : Filling Unit :=
  ⟨fun tally => ⟨.ok (), [n], tally⟩⟩

/-- Goes on with the value of an `Except`, or stops with its error. Nothing is noted or counted. -/
def ofExcept {α : Type} : Except FillError α → Filling α
  | .ok a => pure a
  | .error e => fail e

/-- Takes the wrappers off a provider, which invokes the callbacks and counters among them. -/
def unwrap (provider : Provider) : Filling (Option Unwrapped) :=
  ⟨fun tally => ⟨.ok (provider.unwrap tally).1, [], (provider.unwrap tally).2⟩⟩

@[simp] theorem run_pure {α : Type} (a : α) (tally : Tally) :
    (pure a : Filling α).run tally = ⟨.ok a, [], tally⟩ := rfl

@[simp] theorem run_stop {α : Type} (reason : Stop) (tally : Tally) :
    (stop reason : Filling α).run tally = ⟨.error reason, [], tally⟩ := rfl

theorem run_bind {α β : Type} (p : Filling α) (next : α → Filling β) (tally : Tally) :
    (p >>= next).run tally =
      match (p.run tally).result with
      | .error reason => ⟨.error reason, (p.run tally).notes, (p.run tally).tally⟩
      | .ok a =>
        ⟨((next a).run (p.run tally).tally).result,
          (p.run tally).notes ++ ((next a).run (p.run tally).tally).notes,
          ((next a).run (p.run tally).tally).tally⟩ := rfl

@[simp] theorem run_map {α β : Type} (f : α → β) (p : Filling α) (tally : Tally) :
    (f <$> p).run tally =
      ⟨(p.run tally).result.map f, (p.run tally).notes, (p.run tally).tally⟩ := rfl

theorem pure_bind {α β : Type} (a : α) (next : α → Filling β) : (pure a >>= next) = next a := rfl

theorem bind_pure {α : Type} (p : Filling α) : (p >>= pure) = p := by
  ext tally
  rw [run_bind]
  cases h : p.run tally with
  | mk result notes tally => cases result <;> simp

theorem map_eq_bind {α β : Type} (f : α → β) (p : Filling α) :
    f <$> p = p >>= fun a => pure (f a) := by
  ext tally
  rw [run_map, run_bind]
  cases p.run tally with
  | mk result notes tally => cases result <;> simp [Except.map]

theorem bind_assoc {α β γ : Type} (p : Filling α) (f : α → Filling β) (g : β → Filling γ) :
    ((p >>= f) >>= g) = (p >>= fun a => f a >>= g) := by
  ext tally
  simp only [run_bind]
  cases p.run tally with
  | mk result notes tally =>
    cases result with
    | error reason => rfl
    | ok a =>
      simp only
      cases (f a).run tally with
      | mk result notes tally => cases result <;> simp

instance : LawfulMonad Filling :=
  LawfulMonad.mk' Filling (fun p => (map_eq_bind id p).trans (bind_pure p))
    (fun a f => pure_bind a f) (fun p f g => bind_assoc p f g) (fun _ _ => rfl) (fun _ _ => rfl)
    (fun _ _ => rfl) (fun f p => (map_eq_bind f p).symm)

end Filling

end Stencil
