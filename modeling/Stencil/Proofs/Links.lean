import Stencil.Proofs.Pieces
import Stencil.Proofs.Resemblance

/-!
# The links of a substitution

A value substitution is a chain of links, one for each component of its dotted name, and each link
is a substitution of its own. The clauses of the substitution say how the elements of a sequence are
joined at any of its links.
-/
namespace Stencil

/-- A link of a substitution: the place that it is filled at, its dots, its name and its target.
Later links have no dots. -/
inductive Body.Piece.Link (piece : Body.Piece) : Placement → Nat → Text → Target → Prop
  | first {dots : Nat} {name : Text} {target : Target} :
    piece.action = .value dots name target → Link piece piece.place dots name target
  | next {place : Placement} {dots : Nat} {name other : Text} {target : Target} :
    Link piece place dots name (.link other target) → Link piece place.inner 0 other target

theorem Body.Piece.Link.joining_eq {piece : Body.Piece} {place : Placement} {dots : Nat}
    {name : Text} {target : Target} (h : piece.Link place dots name target) :
    place.joining = piece.place.joining := by
  induction h with
  | first _ => rfl
  | next _ ih => exact ih

theorem Body.Piece.Link.action_ne {piece : Body.Piece} {place : Placement} {dots : Nat}
    {name : Text} {target : Target} (h : piece.Link place dots name target) :
    piece.action ≠ .comment := by
  induction h with
  | first haction => simp [haction]
  | next _ ih => exact ih

/-- A piece has the joining that its clauses give, whatever text is before it. -/
theorem compileOutline_joining {atStart : Bool} {literal : Text} {outline : Outline} {body : Body}
    (h : (compileOutline atStart literal outline).result = .ok body) (before : Text) :
    ∀ (i : Nat) (piece : Body.Piece), body.pieces[i]? = some piece → piece.action ≠ .comment →
      ∃ whole raw clauses, (outline.pieces before)[i]? = some (whole, raw) ∧
        Directive.read raw = .substitution clauses ∧ piece.place.joining = clauses.joining := by
  induction outline generalizing atStart literal body before with
  | done =>
    rw [compileOutline] at h
    cases h
    intro i piece hi
    simp [Body.pieces] at hi
  | broken error =>
    rw [compileOutline] at h
    cases h
  | body raw start next rest ih =>
    intro i piece hi haction
    rcases compileOutline_body_eq_ok.1 h with ⟨-, after, hafter, rfl⟩ |
      ⟨clauses, action, after, hread, -, -, hafter, rfl⟩
    · cases i with
      | zero =>
        cases hi
        exact absurd rfl haction
      | succ i => exact ih hafter next i piece hi haction
    · cases i with
      | zero =>
        cases hi
        exact ⟨before, raw, clauses, rfl, hread, rfl⟩
      | succ i => exact ih hafter next i piece hi haction

/-- A link has the joining that the clauses of its substitution give, also in inline templates and
also when it is a later link. -/
theorem compile_joining {source : Text} {compiled : Compiled} {body : Body} {piece : Body.Piece}
    {i : Nat} {place : Placement} {dots : Nat} {name : Text} {target : Target}
    (hcompile : compile source = .ok compiled) (hbody : compiled.root.Holds body)
    (hpiece : body.pieces[i]? = some piece) (hlink : piece.Link place dots name target) :
    ∃ text start whole raw clauses, source.Holds text ∧
      (compileSource start text).result = .ok body ∧ text.pieces[i]? = some (whole, raw) ∧
      Directive.read raw = .substitution clauses ∧ place.joining = clauses.joining := by
  obtain ⟨-, hroot⟩ := compile_eq_ok.1 hcompile
  obtain ⟨text, start, htext, hsource⟩ := exists_text_of_holds hroot hbody
  have hjoining := hsource
  rw [compileSource] at hjoining
  obtain ⟨whole, raw, clauses, hraw, hread, heq⟩ :=
    compileOutline_joining hjoining _ i piece hpiece hlink.action_ne
  rw [Outline.pieces_ofSource] at hraw
  exact ⟨text, start, whole, raw, clauses, htext, hsource, hraw, hread, hlink.joining_eq.trans heq⟩

end Stencil
