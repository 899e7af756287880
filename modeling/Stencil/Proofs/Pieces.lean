import Stencil.Proofs.Relocation

/-!
# The pieces of a template

A source is cut into pieces, each a literal with the substitution after it, and so is the body that
it compiles to. Piece by piece, a literal of the source is what the substitution before it takes,
then what stays, and then what the substitution after it takes. The same holds of every inline
template, because each body of a template is compiled from a text of its own.
-/
namespace Stencil

/-- The raw bodies of the outermost substitutions, each after the literal before it, as they are in
the source. -/
def Outline.pieces (literal : Text) : Outline → List (Text × Text)
  | .done => []
  | .broken _ => []
  | .body raw _ next rest => (literal, raw) :: rest.pieces next

def Text.pieces (source : Text) : List (Text × Text) :=
  (Outline.ofSource 0 source).2.pieces (Outline.ofSource 0 source).1

theorem Outline.pieces_shift (k : Nat) (literal : Text) (outline : Outline) :
    (outline.shift k).pieces literal = outline.pieces literal := by
  induction outline generalizing literal with
  | done => rfl
  | broken error => rfl
  | body raw start next rest ih => exact congrArg ((literal, raw) :: ·) (ih next)

/-- Where a source starts makes no difference to its pieces, as they have no offsets. -/
theorem Outline.pieces_ofSource (start : Nat) (source : Text) :
    (ofSource start source).2.pieces (ofSource start source).1 = source.pieces := by
  have hshift := shift_ofSource start 0 source
  rw [Nat.zero_add] at hshift
  rw [hshift, Text.pieces, pieces_shift]

structure Body.Piece where
  /-- The literal that is always written, without what the substitutions on its two sides take. -/
  kept : Text
  place : Placement
  action : Action

def Body.pieces : Body → List Body.Piece
  | .tail _ => []
  | .piece literal place action rest => ⟨literal, place, action⟩ :: rest.pieces

/-- What the substitution before piece `i` takes of the literal between them. There is none before
the first piece. -/
def Body.takenBefore (body : Body) (i : Nat) : Text :=
  ([] :: body.pieces.map fun piece => piece.place.trailing).getD i []

/-! ### Templates in templates -/

/-- The inline template that a value is filled into, at the end of a dotted name if it has several
components. -/
def Target.inline? : Target → Option Body
  | .own => none
  | .named _ => none
  | .inline body => some body
  | .link _ target => target.inline?

def Action.inline? : Action → Option Body
  | .comment => none
  | .insert _ _ => none
  | .value _ _ target => target.inline?

@[simp] theorem Target.inline?_ofLinks (names : List Text) (target : Target) :
    (Target.ofLinks names target).inline? = target.inline? := by
  induction names with
  | nil => rfl
  | cons name names ih => exact ih

/-- The bodies of a template: its root body and the inline templates at any depth. -/
inductive Body.Holds (root : Body) : Body → Prop
  | self : Holds root root
  | inline {body inner : Body} {piece : Body.Piece} : Holds root body → piece ∈ body.pieces →
    piece.action.inline? = some inner → Holds root inner

/-- The texts of the templates in a source: the source and the inline templates at any depth, as
they are read. -/
inductive Text.Holds (source : Text) : Text → Prop
  | self : Holds source source
  | inline {text literal raw inner : Text} {clauses : Clauses} {offset : Nat} :
    Holds source text → (literal, raw) ∈ text.pieces →
    Directive.read raw = .substitution clauses →
    clauses.data = some (.inline inner offset) → Holds source inner

/-! ### Compiled pieces -/

/-- What a directive makes of the literal before it, as far as the directive before it has left
that. -/
def Directive.Gives (atStart : Bool) (piece : Body.Piece) : Directive → Prop
  | .comment => piece.action = .comment
  | .substitution clauses => (∃ start, clauses.Compiles start piece.action) ∧
    piece.place.leading =
      (Margin.cutLeading clauses.before atStart (piece.kept ++ piece.place.leading)).2

/-- The substitutions of a body are those of its outline, one by one. `taken` is what the
substitution before `literal` has taken. -/
theorem compileOutline_pieces (taken : Text) {atStart : Bool} {literal : Text} {outline : Outline}
    {body : Body} (h : (compileOutline atStart literal outline).result = .ok body) :
    body.pieces.length = (outline.pieces (taken ++ literal)).length ∧
    ∀ i whole raw, (outline.pieces (taken ++ literal))[i]? = some (whole, raw) →
      ∃ piece, body.pieces[i]? = some piece ∧
        whole = (taken :: body.pieces.map fun piece => piece.place.trailing).getD i [] ++
          (piece.kept ++ piece.place.leading) ∧
        (Directive.read raw).Gives (atStart && decide (i = 0)) piece := by
  induction outline generalizing atStart taken literal body with
  | done =>
    rw [compileOutline] at h
    cases h
    exact ⟨rfl, fun i whole raw hi => by simp [Outline.pieces] at hi⟩
  | broken error =>
    rw [compileOutline] at h
    cases h
  | body raw start next rest ih =>
    rcases compileOutline_body_eq_ok.1 h with ⟨hread, after, hafter, rfl⟩ |
      ⟨clauses, action, after, hread, hfault, haction, hafter, rfl⟩
    · obtain ⟨hlength, hpieces⟩ := ih [] hafter
      refine ⟨congrArg (· + 1) hlength, fun i whole raw' hi => ?_⟩
      cases i with
      | zero =>
        cases hi
        refine ⟨_, rfl, by simp [Placement.ofComment], ?_⟩
        rw [hread]
        rfl
      | succ i =>
        obtain ⟨piece, hpiece, hwhole, hgives⟩ := hpieces i whole raw' hi
        exact ⟨piece, hpiece, hwhole, by simpa using hgives⟩
    · have hnext := Margin.cutTrailing_join clauses.after next
      obtain ⟨hlength, hpieces⟩ := ih (Margin.cutTrailing clauses.after next).1 hafter
      rw [hnext] at hlength hpieces
      refine ⟨congrArg (· + 1) hlength, fun i whole raw' hi => ?_⟩
      cases i with
      | zero =>
        cases hi
        have hliteral := Margin.cutLeading_join clauses.before atStart literal
        refine ⟨_, rfl, by simp [Clauses.place, hliteral], ?_⟩
        rw [hread]
        exact ⟨⟨start, haction⟩, by simp [Clauses.place, hliteral]⟩
      | succ i =>
        obtain ⟨piece, hpiece, hwhole, hgives⟩ := hpieces i whole raw' hi
        exact ⟨piece, hpiece, hwhole, by simpa using hgives⟩

/-- The pieces of a source that compiles are those of its body, one by one and with the literals
divided as the markers say. -/
theorem compileSource_pieces {start : Nat} {source : Text} {body : Body}
    (h : (compileSource start source).result = .ok body) :
    body.pieces.length = source.pieces.length ∧
    ∀ i whole raw, source.pieces[i]? = some (whole, raw) →
      ∃ piece, body.pieces[i]? = some piece ∧
        whole = body.takenBefore i ++ (piece.kept ++ piece.place.leading) ∧
        (Directive.read raw).Gives (decide (i = 0)) piece := by
  rw [compileSource] at h
  have hpieces := compileOutline_pieces [] h
  rw [List.nil_append, Outline.pieces_ofSource] at hpieces
  simpa [Body.takenBefore] using hpieces

/-- An inline template is compiled from the source in its data section, and moved to where that
stands. -/
theorem Clauses.Compiles.inline {clauses : Clauses} {opening : Nat} {action : Action} {inner : Body}
    (h : clauses.Compiles opening action) (hinner : action.inline? = some inner) :
    ∃ source offset start, clauses.data = some (.inline source offset) ∧
      (compileSource start source).result = .ok inner := by
  rcases h with ⟨-, rfl⟩ | ⟨-, target, htarget, rfl⟩
  · cases hinner
  rw [Action.inline?, Target.inline?_ofLinks] at hinner
  cases hdata : clauses.data with
  | none =>
    rw [hdata, compileTarget] at htarget
    cases htarget
    cases hinner
  | some data =>
    cases data with
    | named name =>
      rw [hdata] at htarget
      cases name with
      | nil =>
        rw [compileTarget] at htarget
        cases htarget
        cases hinner
      | cons c name =>
        rw [compileTarget] at htarget
        · cases htarget
          cases hinner
        · simp
    | inline source offset =>
      rw [hdata, compileTarget] at htarget
      obtain ⟨body, hbody, rfl⟩ := Draft.result_map_eq_ok.1 htarget
      obtain rfl : body = inner := Option.some.inj hinner
      exact ⟨source, offset, _, rfl, hbody⟩

/-- Each body of a template is what one of the texts in its source compiles to. The induction is on
how deep the body is. -/
theorem exists_text_of_holds {source : Text} {root body : Body}
    (hroot : (compileSource 0 source).result = .ok root) (h : root.Holds body) :
    ∃ text start, source.Holds text ∧ (compileSource start text).result = .ok body := by
  induction h with
  | self => exact ⟨source, 0, .self, hroot⟩
  | @inline body inner piece _ hpiece hinner ih =>
    obtain ⟨text, start, htext, hbody⟩ := ih
    obtain ⟨hlength, hpieces⟩ := compileSource_pieces hbody
    obtain ⟨i, hi⟩ := List.getElem?_of_mem hpiece
    obtain ⟨hlt, -⟩ := List.getElem?_eq_some_iff.1 hi
    cases hraw : text.pieces[i]? with
    | none =>
      rw [List.getElem?_eq_none_iff] at hraw
      omega
    | some pair =>
      obtain ⟨whole, raw⟩ := pair
      obtain ⟨found, hfound, -, hgives⟩ := hpieces i whole raw hraw
      obtain rfl : piece = found := Option.some.inj (hi.symm.trans hfound)
      cases hread : Directive.read raw with
      | comment =>
        rw [hread] at hgives
        rw [show piece.action = .comment from hgives] at hinner
        cases hinner
      | substitution clauses =>
        rw [hread] at hgives
        obtain ⟨⟨opening, hcompiles⟩, -⟩ := hgives
        obtain ⟨inline, offset, at', hdata, hinline⟩ := hcompiles.inline hinner
        exact ⟨inline, at', .inline htext (List.mem_of_getElem? hraw) hread hdata, hinline⟩

end Stencil
