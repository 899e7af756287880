import Stencil.Compile
import Mathlib.Tactic.Common

/-!
# Induction on a compilation

Sources, outlines and data sections are compiled by functions that call each other, and each call is
about a smaller text. What holds of every draft follows from one rule for each step.
-/
namespace Stencil

/-- What is to be shown of the drafts of sources, of outlines and of data sections, with one rule
for each step of a compilation. -/
structure CompileRules (onSource : Nat → Text → Draft Body → Prop)
    (onOutline : Bool → Text → Outline → Draft Body → Prop)
    (onTarget : Nat → Option DataClause → Draft Target → Prop) : Prop where
  source {start : Nat} {source : Text} {draft : Draft Body} :
    onOutline true (Outline.ofSource start source).1 (Outline.ofSource start source).2 draft →
    onSource start source draft
  done (atStart : Bool) (literal : Text) :
    onOutline atStart literal .done (.done (.tail literal))
  broken (atStart : Bool) (literal : Text) (error : SyntaxError) :
    onOutline atStart literal (.broken error) (.fail error)
  comment {atStart : Bool} {literal raw next : Text} {start : Nat} {rest : Outline}
    {draft : Draft Body} : Directive.read raw = .comment → onOutline false next rest draft →
    onOutline atStart literal (.body raw start next rest)
      (.visit ⟨start + 2, raw⟩
        (draft.map (.piece literal (.ofComment (.ofBody raw start)) .comment)))
  fault {atStart : Bool} {literal raw next : Text} {start : Nat} {rest : Outline}
    {clauses : Clauses} {fault : SyntaxFault} : Directive.read raw = .substitution clauses →
    clauses.fault? = some fault →
    onOutline atStart literal (.body raw start next rest)
      (.visit ⟨start + 2, raw⟩ (.fail ⟨fault, start⟩))
  insert {atStart : Bool} {literal raw next : Text} {start : Nat} {rest : Outline}
    {clauses : Clauses} {draft : Draft Body} : Directive.read raw = .substitution clauses →
    clauses.fault? = none → clauses.insert = true →
    onOutline false (Margin.cutTrailing clauses.after next).2 rest draft →
    onOutline atStart literal (.body raw start next rest)
      (.visit ⟨start + 2, raw⟩ (draft.map
        (.piece (Margin.cutLeading clauses.before atStart literal).1
          (clauses.place (.ofBody raw start) atStart literal next)
          (.insert clauses.rewind clauses.path))))
  value {atStart : Bool} {literal raw next : Text} {start : Nat} {rest : Outline}
    {clauses : Clauses} {data : Draft Target} {draft : Draft Body} :
    Directive.read raw = .substitution clauses →
    clauses.fault? = none → clauses.insert = false →
    onTarget (start + 2) clauses.data data →
    onOutline false (Margin.cutTrailing clauses.after next).2 rest draft →
    onOutline atStart literal (.body raw start next rest)
      (.visit ⟨start + 2, raw⟩ (data.andThen fun target => draft.map
        (.piece (Margin.cutLeading clauses.before atStart literal).1
          (clauses.place (.ofBody raw start) atStart literal next)
          (.value clauses.rewind clauses.components.1 (.ofLinks clauses.components.2 target)))))
  own (start : Nat) {data : Option DataClause} : data = none ∨ data = some (.named []) →
    onTarget start data (.done .own)
  named (start : Nat) (c : Char) (name : Text) :
    onTarget start (some (.named (c :: name))) (.done (.named (c :: name)))
  inline {start offset : Nat} {source : Text} {draft : Draft Body} :
    onSource (start + offset) source draft →
    onTarget start (some (.inline source offset)) (draft.map .inline)

namespace CompileRules

variable {onSource : Nat → Text → Draft Body → Prop}
  {onOutline : Bool → Text → Outline → Draft Body → Prop}
  {onTarget : Nat → Option DataClause → Draft Target → Prop}
  (rules : CompileRules onSource onOutline onTarget)

include rules

mutual

theorem compileSource (start : Nat) (source : Text) :
    onSource start source (compileSource start source) := by
  have := Outline.weight_ofSource_le start source
  rw [Stencil.compileSource]
  exact rules.source (compileOutline true _ _)
termination_by 3 * source.length + 1

theorem compileOutline (atStart : Bool) (literal : Text) (outline : Outline) :
    onOutline atStart literal outline (compileOutline atStart literal outline) := by
  match outline with
  | .done =>
    rw [Stencil.compileOutline]
    exact rules.done atStart literal
  | .broken error =>
    rw [Stencil.compileOutline]
    exact rules.broken atStart literal error
  | .body raw start next rest =>
    cases hread : Directive.read raw with
    | comment =>
      rw [compileOutline_comment hread]
      exact rules.comment hread (compileOutline false next rest)
    | substitution clauses =>
      have := Directive.inlineLength_le hread
      cases hfault : clauses.fault? with
      | some fault =>
        rw [compileOutline_fault hread hfault]
        exact rules.fault hread hfault
      | none =>
        have hrest := compileOutline false (Margin.cutTrailing clauses.after next).2 rest
        cases hinsert : clauses.insert with
        | true =>
          rw [compileOutline_insert hread hfault hinsert]
          exact rules.insert hread hfault hinsert hrest
        | false =>
          rw [compileOutline_value hread hfault hinsert]
          exact rules.value hread hfault hinsert (compileTarget (start + 2) clauses.data) hrest
termination_by 3 * outline.weight
decreasing_by all_goals simp only [Outline.weight]; omega

theorem compileTarget (start : Nat) (data : Option DataClause) :
    onTarget start data (compileTarget start data) := by
  match data with
  | none =>
    rw [Stencil.compileTarget]
    exact rules.own start (.inl rfl)
  | some (.named []) =>
    rw [Stencil.compileTarget]
    exact rules.own start (.inr rfl)
  | some (.named (c :: name)) =>
    rw [Stencil.compileTarget]
    · exact rules.named start c name
    · simp
  | some (.inline source offset) =>
    rw [Stencil.compileTarget]
    exact rules.inline (compileSource (start + offset) source)
termination_by 3 * DataClause.inlineLength data + 2
decreasing_by simp only [DataClause.inlineLength]; omega

end

end CompileRules

end Stencil
