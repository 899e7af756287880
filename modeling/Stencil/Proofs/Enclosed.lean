import Stencil.Proofs.Cutting
import Stencil.Proofs.Heads
import Stencil.Proofs.Resemblance

/-!
# A single substitution

A source that holds a single substitution, alone or between two plain texts, compiles to a body with
a single piece. As the inline template of another substitution it is read in full.
-/
namespace Stencil

@[simp] theorem cutLeading_nil (mark : Option Mark) (atStart : Bool) :
    Margin.cutLeading mark atStart [] = ([], []) := by
  rcases mark with _ | _ | _ <;> cases atStart <;> rfl

@[simp] theorem cutTrailing_nil (mark : Option Mark) : Margin.cutTrailing mark [] = ([], []) := by
  rcases mark with _ | _ | _ <;> rfl

/-- A single substitution with plain text around it compiles to two literals and its action between
them. -/
theorem compileSource_between {raw before after : Text} (hraw : raw.IsBody)
    (hbefore : before.Braceless) (hlast : before.getLast? ≠ some '\\') (hafter : after.Braceless)
    {clauses : Clauses} {action : Action} {start : Nat}
    (hread : Directive.read raw = .substitution clauses) (hfault : clauses.fault? = none)
    (haction : clauses.Compiles (start + Text.bytes before) action) :
    (compileSource start (before ++ (enclose raw ++ after))).result = .ok
      (.piece (Margin.cutLeading clauses.before true before).1
        (clauses.place (.ofBody raw (start + Text.bytes before)) true before after) action
        (.tail (Margin.cutTrailing clauses.after after).2)) := by
  rw [compileSource, Outline.ofSource_between hraw start hbefore hlast hafter]
  refine compileOutline_body_eq_ok.2 (.inr ⟨clauses, action, _, hread, hfault, haction, ?_, rfl⟩)
  rw [compileOutline]
  rfl

/-- The inline template that is a substitution alone compiles to that substitution and nothing
around it. -/
theorem compileSource_enclose {raw : Text} (hraw : raw.IsBody) {clauses : Clauses} {action : Action}
    {start : Nat} (hread : Directive.read raw = .substitution clauses)
    (hfault : clauses.fault? = none) (haction : clauses.Compiles start action) :
    (compileSource start (enclose raw)).result = .ok
      (.piece [] ⟨.ofBody raw start, clauses.joining, [], []⟩ action (.tail [])) := by
  have hnone : Text.Braceless [] := by simp [Text.Braceless]
  have h := compileSource_between hraw hnone (by simp) hnone hread hfault haction
  simpa [Clauses.place] using h

/-- A comment alone writes nothing, and its body is not read any further. -/
theorem compileSource_enclose_comment {raw : Text} (hraw : raw.IsBody) (start : Nat)
    (hread : Directive.read raw = .comment) :
    (compileSource start (enclose raw)).result = .ok
      (.piece [] (.ofComment (.ofBody raw start)) .comment (.tail [])) := by
  have hnone : Text.Braceless [] := by simp [Text.Braceless]
  have hcut := Outline.ofSource_enclose hraw start []
  rw [List.append_nil, (Outline.ofSource_plain hnone _).1] at hcut
  rw [compileSource, hcut]
  refine compileOutline_body_eq_ok.2 (.inl ⟨hread, .tail [], ?_, rfl⟩)
  rw [compileOutline]
  rfl

/-- A substitution alone that is unusable fails at its opening braces. -/
theorem compileSource_enclose_fault {raw : Text} (hraw : raw.IsBody) (start : Nat)
    {clauses : Clauses} {fault : SyntaxFault} (hread : Directive.read raw = .substitution clauses)
    (hfault : clauses.fault? = some fault) :
    (compileSource start (enclose raw)).result = .error ⟨fault, start⟩ := by
  have hcut := Outline.ofSource_enclose hraw start []
  rw [List.append_nil] at hcut
  rw [compileSource, hcut, compileOutline_fault hread hfault]
  rfl

theorem firm_brace : Text.Firm '}' := ⟨by decide, by decide, by decide⟩

theorem enclose_append (raw rest : Text) :
    enclose raw ++ rest = ('{' :: '{' :: raw ++ ['}']) ++ '}' :: rest := by
  simp [enclose]

theorem unescapeTail_enclose (raw : Text) : unescapeTail (enclose raw) = enclose raw := by
  have htrim : Text.trimEnd (enclose raw) = enclose raw := by
    rw [← List.append_nil (enclose raw), enclose_append, Text.trimEnd_append_cons firm_brace.1]
    rfl
  unfold unescapeTail
  rw [htrim]
  split
  · rename_i front hend
    simp [enclose] at hend
  · rfl

end Stencil
