import Stencil.Compile
import Mathlib.Tactic.Common

/-!
# Relocation

Where a source starts in the outermost one shows in its compiled form only by the bytes of its
spans: a source that starts `k` bytes later has the same body with all spans `k` bytes later, and
its errors and visits move along.
-/
namespace Stencil

/-! ### Moving what holds an offset -/

def SyntaxError.shift (k : Nat) (error : SyntaxError) : SyntaxError :=
  { error with offset := error.offset + k }

def Token.shift (k : Nat) : Token → Token
  | .literal run => .literal run
  | .brace b => .brace b
  | .body raw start => .body raw (start + k)

def Scan.shift (k : Nat) (scan : Scan) : Scan :=
  ⟨scan.tokens.map (Token.shift k), scan.failure.map (SyntaxError.shift k)⟩

def Outline.shift (k : Nat) : Outline → Outline
  | .done => .done
  | .broken error => .broken (error.shift k)
  | .body raw start literal rest => .body raw (start + k) literal (rest.shift k)

def Visit.shift (k : Nat) (visit : Visit) : Visit :=
  { visit with offset := visit.offset + k }

def Placement.shift (k : Nat) (place : Placement) : Placement :=
  { place with span := ⟨place.span.start + k, place.span.stop + k⟩ }

mutual

def Body.shift (k : Nat) : Body → Body
  | .tail literal => .tail literal
  | .piece literal place action rest =>
    .piece literal (place.shift k) (action.shift k) (rest.shift k)

def Action.shift (k : Nat) : Action → Action
  | .comment => .comment
  | .insert rewind name => .insert rewind name
  | .value rewind name target => .value rewind name (target.shift k)

def Target.shift (k : Nat) : Target → Target
  | .own => .own
  | .named name => .named name
  | .inline body => .inline (body.shift k)
  | .link name target => .link name (target.shift k)

end

@[simp] theorem Placement.shift_zero (place : Placement) : place.shift 0 = place := rfl

mutual

@[simp] theorem Body.shift_zero (body : Body) : body.shift 0 = body := by
  cases body with
  | tail literal => rfl
  | piece literal place action rest =>
    simp [Body.shift, Action.shift_zero action, Body.shift_zero rest]

theorem Action.shift_zero (action : Action) : action.shift 0 = action := by
  cases action with
  | comment => rfl
  | insert rewind name => rfl
  | value rewind name target => simp [Action.shift, Target.shift_zero target]

theorem Target.shift_zero (target : Target) : target.shift 0 = target := by
  cases target with
  | own => rfl
  | named name => rfl
  | inline body => simp [Target.shift, Body.shift_zero body]
  | link name target => simp [Target.shift, Target.shift_zero target]

end

/-- A draft whose offsets move, and whose result is changed by `f`. Errors and visits have offsets,
too. -/
def Draft.shift {α : Type} (k : Nat) (f : α → α) (draft : Draft α) : Draft α where
  visits := draft.visits.map (Visit.shift k)
  result := (draft.result.map f).mapError (SyntaxError.shift k)

theorem Target.shift_ofLinks (k : Nat) (names : List Text) (target : Target) :
    (Target.ofLinks names target).shift k = .ofLinks names (target.shift k) := by
  induction names with
  | nil => rfl
  | cons name names ih => exact congrArg (Target.link name) ih

namespace Draft

variable {α β : Type} (k : Nat)

@[simp] theorem shift_visit (f : α → α) (v : Visit) (draft : Draft α) :
    (visit v draft).shift k f = visit (v.shift k) (draft.shift k f) := rfl

theorem shift_map (f : α → α) (g : β → β) (change change' : α → β)
    (h : ∀ a, g (change a) = change' (f a)) (draft : Draft α) :
    (draft.map change).shift k g = (draft.shift k f).map change' := by
  obtain ⟨visits, result⟩ := draft
  cases result with
  | error e => rfl
  | ok a => simp [map, shift, Except.map, Except.mapError, h]

theorem shift_andThen (f : α → α) (g : β → β) (next next' : α → Draft β)
    (h : ∀ a, (next a).shift k g = next' (f a)) (draft : Draft α) :
    (draft.andThen next).shift k g = (draft.shift k f).andThen next' := by
  obtain ⟨visits, result⟩ := draft
  cases result with
  | error e => rfl
  | ok a =>
    simp only [andThen, shift, Except.map, Except.mapError, ← h]
    simp

theorem shift_piece (literal : Text) (place : Placement) (action : Action) (draft : Draft Body) :
    (draft.map (.piece literal place action)).shift k (Body.shift k) =
      (draft.shift k (Body.shift k)).map (.piece literal (place.shift k) (action.shift k)) := by
  apply shift_map
  intro body
  rfl

end Draft

theorem Placement.shift_ofComment (k : Nat) (raw : Text) (start : Nat) :
    (ofComment (.ofBody raw start)).shift k = ofComment (.ofBody raw (start + k)) := by
  simp [shift, ofComment, Span.ofBody, Nat.add_right_comm _ k]

theorem Clauses.shift_place (k : Nat) (clauses : Clauses) (raw : Text) (start : Nat)
    (atStart : Bool) (literal next : Text) :
    (clauses.place (.ofBody raw start) atStart literal next).shift k =
      clauses.place (.ofBody raw (start + k)) atStart literal next := by
  simp [Placement.shift, place, Span.ofBody, Nat.add_right_comm _ k]

/-! ### Cutting -/

@[simp] theorem Scan.shift_cons (k : Nat) (token : Token) (scan : Scan) :
    (cons token scan).shift k = cons (token.shift k) (scan.shift k) := rfl

theorem Scan.shift_ofLexemes (k start : Nat) (ls : List Lexeme) :
    (ofLexemes start ls).shift k = ofLexemes (start + k) ls := by
  have hmove (n : Nat) : start + n + k = start + k + n := by omega
  fun_induction ofLexemes start ls with
  | case1 =>
    rw [ofLexemes]
    rfl
  | case2 start b rest ih =>
    rw [ofLexemes, ← hmove, ← ih (fun n => by omega)]
    rfl
  | case3 =>
    rw [ofLexemes]
    rfl
  | case4 start rest hclose =>
    rw [ofLexemes]
    split <;> simp_all [shift, SyntaxError.shift]
  | case5 start rest body after hclose _ raw ih =>
    have hend : start + raw.bytes + 4 + k = start + k + raw.bytes + 4 := by omega
    have hih := ih (fun n => by omega)
    rw [hend] at hih
    rw [ofLexemes]
    split
    · simp_all
    · rename_i b a hclose'
      obtain ⟨rfl, rfl⟩ : body = b ∧ after = a := by simpa [hclose] using hclose'
      rw [shift_cons, hih]
      rfl
  | case6 start c rest _ run after hstray =>
    rw [ofLexemes, if_pos hstray, ← hmove]
    rfl
  | case7 start c rest _ run after hstray ih =>
    rw [ofLexemes, if_neg hstray, ← hmove, ← ih (fun n => by omega)]
    rfl

theorem Outline.shift_ofTokens (k : Nat) (failure : Option SyntaxError) (tokens : List Token) :
    ofTokens (failure.map (SyntaxError.shift k)) (tokens.map (Token.shift k)) =
      ((ofTokens failure tokens).1, (ofTokens failure tokens).2.shift k) := by
  induction tokens with
  | nil => cases failure <;> rfl
  | cons token tokens ih => cases token <;> simp [ofTokens, Token.shift, Outline.shift, ih]

theorem Outline.shift_ofSource (k start : Nat) (source : Text) :
    ofSource (start + k) source =
      ((ofSource start source).1, (ofSource start source).2.shift k) := by
  rw [ofSource, Scan.ofSource, ← Scan.shift_ofLexemes]
  exact Outline.shift_ofTokens k _ _

/-! ### Compiling -/

mutual

/-- A source that starts `k` bytes later is compiled to the same body, `k` bytes later, or fails
with the same error there. -/
theorem compileSource_shift (k start : Nat) (source : Text) :
    compileSource (start + k) source = (compileSource start source).shift k (Body.shift k) := by
  have := Outline.weight_ofSource_le start source
  rw [compileSource, compileSource, Outline.shift_ofSource]
  exact compileOutline_shift k true _ _
termination_by 3 * source.length + 1

theorem compileOutline_shift (k : Nat) (atStart : Bool) (literal : Text) (outline : Outline) :
    compileOutline atStart literal (outline.shift k) =
      (compileOutline atStart literal outline).shift k (Body.shift k) := by
  match outline with
  | .done =>
    rw [Outline.shift, compileOutline]
    rfl
  | .broken error =>
    rw [Outline.shift, compileOutline, compileOutline]
    rfl
  | .body raw start next rest =>
    have hvisit : (⟨start + k + 2, raw⟩ : Visit) = Visit.shift k ⟨start + 2, raw⟩ := by
      simp [Visit.shift, Nat.add_right_comm]
    rw [Outline.shift]
    cases hread : Directive.read raw with
    | comment =>
      rw [compileOutline_comment hread, compileOutline_comment hread, hvisit, Draft.shift_visit,
        compileOutline_shift, Draft.shift_piece, Placement.shift_ofComment]
      rfl
    | substitution clauses =>
      have := Directive.inlineLength_le hread
      cases hfault : clauses.fault? with
      | some fault =>
        rw [compileOutline_fault hread hfault, compileOutline_fault hread hfault, hvisit]
        rfl
      | none =>
        cases hinsert : clauses.insert with
        | true =>
          rw [compileOutline_insert hread hfault hinsert,
            compileOutline_insert hread hfault hinsert, hvisit, Draft.shift_visit,
            compileOutline_shift, Draft.shift_piece, Clauses.shift_place]
          rfl
        | false =>
          rw [compileOutline_value hread hfault hinsert,
            compileOutline_value hread hfault hinsert, hvisit, Draft.shift_visit,
            Nat.add_right_comm, compileTarget_shift]
          refine congrArg _ (Draft.shift_andThen k (Target.shift k) (Body.shift k) _ _ ?_ _).symm
          intro target
          rw [← Target.shift_ofLinks, compileOutline_shift, Draft.shift_piece, Clauses.shift_place]
          rfl
termination_by 3 * outline.weight
decreasing_by all_goals simp only [Outline.weight]; omega

theorem compileTarget_shift (k start : Nat) (data : Option DataClause) :
    compileTarget (start + k) data = (compileTarget start data).shift k (Target.shift k) := by
  match data with
  | none =>
    rw [compileTarget, compileTarget]
    rfl
  | some (.named []) =>
    rw [compileTarget, compileTarget]
    rfl
  | some (.named (c :: name)) =>
    rw [compileTarget, compileTarget]
    rfl
    all_goals simp
  | some (.inline source offset) =>
    have hmove : start + k + offset = start + offset + k := by omega
    rw [compileTarget, compileTarget, hmove, compileSource_shift]
    exact (Draft.shift_map k (Body.shift k) (Target.shift k) .inline .inline (fun _ => rfl) _).symm
termination_by 3 * DataClause.inlineLength data + 2
decreasing_by simp only [DataClause.inlineLength]; omega

end

/-- The body of an inline template is that of its source alone, moved to its place, whatever is
around it. -/
theorem compileTarget_inline_eq_ok {source : Text} {offset start : Nat} {target : Target} :
    (compileTarget start (some (.inline source offset))).result = .ok target ↔
      ∃ root, (compileSource 0 source).result = .ok root ∧
        target = .inline (root.shift (start + offset)) := by
  have hshift := compileSource_shift (start + offset) 0 source
  rw [Nat.zero_add] at hshift
  rw [compileTarget, Draft.result_map_eq_ok, hshift]
  cases hroot : (compileSource 0 source).result with
  | error e => simp [Draft.shift, hroot, Except.map, Except.mapError]
  | ok root => simp [Draft.shift, hroot, Except.map, Except.mapError, eq_comm]

end Stencil
