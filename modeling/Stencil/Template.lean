import Stencil.Compile

/-!
# Templates

A template is a source with its compiled form, once it has one. Only a successful
compilation is kept, so a template without a form may also be one that does not compile.
-/
namespace Stencil

structure Template where
  source : Text
  form : Option Compiled

namespace Template

def new (source : Text) : Template := ⟨source, none⟩

/-- The kept form, or else the result of compiling the source. Both agree as long as the form was
made from the source. -/
def compile (template : Template) : Except SyntaxError Compiled :=
  match template.form with
  | some compiled => .ok compiled
  | none => Stencil.compile template.source

/-- The template with its form, if it compiles. A failure is not kept, and the source is compiled
again the next time. -/
def prepare (template : Template) : Template :=
  { template with form := template.compile.toOption }

def isCompiled (template : Template) : Bool :=
  template.form.isSome

@[simp] theorem source_prepare (template : Template) :
    template.prepare.source = template.source := rfl

@[simp] theorem compile_prepare (template : Template) :
    template.prepare.compile = template.compile := by
  unfold prepare
  cases h : template.compile with
  | ok compiled => rfl
  | error e =>
    unfold compile at h ⊢
    split at h
    · cases h
    · exact h

end Template

end Stencil
