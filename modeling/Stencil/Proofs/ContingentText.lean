import Stencil.Proofs.BlankLines

/-!
# Contingent text

Compilation divides each literal of a text between its two neighbours: the substitution before it
takes the start, the substitution after it takes the end of what is left, and the rest stays. Put
together again the three parts are the literal, whatever the markers are, so no text gets lost and
none is written twice. Where the cuts are depends on the markers alone.
-/
namespace Stencil

/-! ### Where the cuts are -/

namespace Margin

/-- `taken` reaches to the first newline of `run` and takes it too, or is all of `run` when there is
none. -/
def IsFirstLine (run taken : Text) : Prop :=
  ∃ rest, run = taken ++ rest ∧ (IsLine taken ∨ '\n' ∉ taken ∧ rest = [])

/-- `taken` is what follows the last newline of `run`, or all of it when there is none. The newline
itself stays. -/
def IsLastLine (run taken : Text) : Prop :=
  ∃ front, run = front ++ taken ∧ EndsLine front ∧ '\n' ∉ taken

/-- `taken` reaches over the first line of `run` and over all blank lines that follow it at once,
each with its newline. -/
def IsFirstLines (run taken : Text) : Prop :=
  ∃ (first : Text) (lines : List Text), taken = first ++ lines.flatten ∧ IsFirstLine run first ∧
    taken <+: run ∧ (∀ line ∈ lines, IsBlankLine line) ∧
      ∀ more : List Text, (∀ line ∈ more, IsBlankLine line) → first ++ more.flatten <+: run →
        more.flatten <+: lines.flatten

/-- What a substitution with this marker at its end takes of the literal after it, given as a
property of the two texts. -/
def IsTrailing (run taken : Text) : Option Mark → Prop
  | none => taken = []
  | some .line => IsFirstLine run taken
  | some .lines => IsFirstLines run taken

/-- What a substitution with this marker at its start takes of the literal before it, given as a
property of the two texts. -/
def IsLeading (run taken : Text) : Option Mark → Prop
  | none => taken = []
  | some .line => IsLastLine run taken
  | some .lines => IsBlankEnd True run taken

theorem wholeLines_lines_append {lines : List Text} (h : ∀ line ∈ lines, IsLine line) (t : Text) :
    wholeLines (lines.flatten ++ t) = (lines ++ (wholeLines t).1, (wholeLines t).2) := by
  induction lines with
  | nil => rfl
  | cons line lines ih =>
    obtain ⟨hline, hlines⟩ := List.forall_mem_cons.1 h
    rw [List.flatten_cons, List.append_assoc, wholeLines_line_append hline, ih hlines]
    rfl

/-- Without a whole line, there is no newline, and the text is all of its last line. -/
theorem notMem_of_wholeLines {run last : Text} (h : wholeLines run = ([], last)) :
    run = last ∧ '\n' ∉ run := by
  have hjoin := wholeLines_join run
  have hlast := (wholeLines_isLine run).2
  rw [h] at hjoin hlast
  obtain rfl : last = run := hjoin
  exact ⟨rfl, hlast⟩

theorem isFirstLine_of_notMem {run : Text} (h : '\n' ∉ run) : IsFirstLine run run :=
  ⟨[], (List.append_nil run).symm, .inr ⟨h, rfl⟩⟩

theorem isFirstLines_of_notMem {run : Text} (h : '\n' ∉ run) : IsFirstLines run run := by
  refine ⟨run, [], (List.append_nil run).symm, isFirstLine_of_notMem h, List.prefix_refl run,
    fun _ hline => absurd hline List.not_mem_nil, fun more _ hmore => ?_⟩
  have hlength := hmore.length_le
  rw [List.length_append] at hlength
  rw [List.eq_nil_of_length_eq_zero (by omega : more.flatten.length = 0)]
  exact List.prefix_refl _

/-- Cut after its first line, a text has that line and the lines after it, which have their newlines
only at their ends. -/
theorem isFirstLine_of_cons {run line last : Text} {more : List Text}
    (h : wholeLines run = (line :: more, last)) :
    IsLine line ∧ run = line ++ (more.flatten ++ last) ∧ ∀ line ∈ more, IsLine line := by
  have hjoin := wholeLines_join run
  obtain ⟨hlines, -⟩ := wholeLines_isLine run
  rw [h] at hjoin hlines
  obtain ⟨hline, hmore⟩ := List.forall_mem_cons.1 hlines
  exact ⟨hline, by rw [← hjoin]; simp, hmore⟩

theorem isFirstLines_of_cons {run line last : Text} {more : List Text}
    (h : wholeLines run = (line :: more, last)) :
    IsFirstLines run (line ++ (more.takeWhile Text.isAllBlank).flatten) := by
  obtain ⟨hline, hrun, hmore⟩ := isFirstLine_of_cons h
  have hsplit : more.takeWhile Text.isAllBlank ++ more.dropWhile Text.isAllBlank = more :=
    List.takeWhile_append_dropWhile
  refine ⟨line, _, rfl, ⟨_, hrun, .inl hline⟩, ?_, fun other hother => ?_,
    fun blank hblank hprefix => ?_⟩
  · refine ⟨(more.dropWhile Text.isAllBlank).flatten ++ last, ?_⟩
    rw [hrun, ← hsplit, List.flatten_append]
    simp [List.append_assoc]
  · have hmem := (List.takeWhile_prefix _).subset hother
    exact isBlankLine_iff.2 ⟨hmore other hmem, List.mem_takeWhile_imp hother⟩
  · -- the lines of the text start with the blank lines, so all of these are taken
    obtain ⟨rest, hrest⟩ := hprefix
    have hlines : ∀ other ∈ line :: blank, IsLine other :=
      List.forall_mem_cons.2 ⟨hline, fun _ hmem => (isBlankLine_iff.1 (hblank _ hmem)).1⟩
    have hwhole := wholeLines_lines_append hlines rest
    rw [List.flatten_cons, hrest, h] at hwhole
    obtain ⟨hcons, -⟩ := Prod.mk.inj hwhole
    obtain rfl : more = blank ++ (wholeLines rest).1 := (List.cons.inj hcons).2
    rw [List.takeWhile_append_of_pos fun _ hmem => (isBlankLine_iff.1 (hblank _ hmem)).2,
      List.flatten_append]
    exact List.prefix_append _ _

theorem cutTrailing_isTrailing (mark : Option Mark) (run : Text) :
    IsTrailing run (cutTrailing mark run).1 mark := by
  match mark with
  | none => rfl
  | some mark =>
    cases hlines : wholeLines run with
    | mk lines last =>
      cases lines with
      | nil =>
        obtain ⟨rfl, hrun⟩ := notMem_of_wholeLines hlines
        cases mark with
        | line => simpa [cutTrailing, hlines, IsTrailing] using isFirstLine_of_notMem hrun
        | lines => simpa [cutTrailing, hlines, IsTrailing] using isFirstLines_of_notMem hrun
      | cons line more =>
        cases mark with
        | line =>
          obtain ⟨hline, hrun, -⟩ := isFirstLine_of_cons hlines
          have hfirst : IsFirstLine run line := ⟨_, hrun, .inl hline⟩
          simpa [cutTrailing, hlines, IsTrailing] using hfirst
        | lines => simpa [cutTrailing, hlines, IsTrailing] using isFirstLines_of_cons hlines

theorem cutLeading_isLeading (mark : Option Mark) (atStart : Bool) (run : Text) :
    IsLeading run (cutLeading mark atStart run).2 mark := by
  match mark with
  | none => rfl
  | some .line =>
    obtain ⟨hlines, hlast⟩ := wholeLines_isLine run
    refine ⟨_, (wholeLines_join run).symm, ?_, hlast⟩
    rcases List.eq_nil_or_concat (wholeLines run).1 with hnil | ⟨_, _, hcons⟩
    · exact .inl (by rw [hnil]; rfl)
    · exact .inr (getLast?_flatten_lines hlines (by simp [hcons]))
  | some .lines => exact (cutLeading_isBlankEnd atStart run).mono fun _ => trivial

end Margin

/-! ### Literals -/

/-- The literals before, between and after the outermost substitutions, one more than there are
substitutions. -/
def Outline.literals (literal : Text) : Outline → List Text
  | .done => [literal]
  | .broken _ => [literal]
  | .body _ _ next rest => literal :: rest.literals next

def Text.literals (source : Text) : List Text :=
  (Outline.ofSource 0 source).2.literals (Outline.ofSource 0 source).1

/-- What the substitution after literal `i` takes of it, with its marker at the start. -/
def Body.takenAfter (body : Body) (i : Nat) : Text :=
  (body.pieces.map fun piece => piece.place.leading).getD i []

namespace Outline

theorem literals_shift (k : Nat) (literal : Text) (outline : Outline) :
    (outline.shift k).literals literal = outline.literals literal := by
  induction outline generalizing literal with
  | done => rfl
  | broken error => rfl
  | body raw start next rest ih => exact congrArg (literal :: ·) (ih next)

/-- Where a source starts makes no difference to its literals, as only the offsets depend on it. -/
theorem literals_ofSource (start : Nat) (source : Text) :
    (ofSource start source).2.literals (ofSource start source).1 = source.literals := by
  have hshift := shift_ofSource start 0 source
  rw [Nat.zero_add] at hshift
  rw [hshift, Text.literals, literals_shift]

/-- Each piece is a literal with the substitution after it, and one more literal comes last, after
all substitutions. -/
theorem literals_eq_pieces (literal : Text) (outline : Outline) :
    ∃ last, outline.literals literal = (outline.pieces literal).map Prod.fst ++ [last] := by
  induction outline generalizing literal with
  | done => exact ⟨literal, rfl⟩
  | broken error => exact ⟨literal, rfl⟩
  | body raw start next rest ih =>
    obtain ⟨last, hlast⟩ := ih next
    exact ⟨last, congrArg (literal :: ·) hlast⟩

end Outline

namespace Directive

def before : Directive → Option Mark
  | .comment => none
  | .substitution clauses => clauses.before

def after : Directive → Option Mark
  | .comment => none
  | .substitution clauses => clauses.after

end Directive

/-! ### Compiled literals -/

/-- Each literal is what the substitution before it takes, what stays, and what the substitution
after it takes. `taken` is what was taken before `literal`. -/
theorem compileOutline_literals (taken : Text) {atStart : Bool} {literal : Text} {outline : Outline}
    {body : Body} (h : (compileOutline atStart literal outline).result = .ok body) :
    ∀ i run, (outline.literals (taken ++ literal))[i]? = some run →
      run = (taken :: body.pieces.map fun piece => piece.place.trailing).getD i [] ++
        (body.statics.getD i [] ++ body.takenAfter i) := by
  induction outline generalizing atStart taken literal body with
  | done =>
    rw [compileOutline] at h
    cases h
    intro i run hi
    cases i with
    | zero =>
      cases hi
      cases literal <;> simp [Body.statics, Body.takenAfter, Body.pieces]
    | succ i => simp [Outline.literals] at hi
  | broken error =>
    rw [compileOutline] at h
    cases h
  | body raw start next rest ih =>
    intro i run hi
    rcases compileOutline_body_eq_ok.1 h with ⟨-, after, hafter, rfl⟩ |
      ⟨clauses, action, after, -, -, -, hafter, rfl⟩
    · cases i with
      | zero =>
        cases hi
        simp [Body.statics, Body.takenAfter, Body.pieces, Placement.ofComment]
      | succ i => exact ih [] hafter i run hi
    · cases i with
      | zero =>
        cases hi
        have hliteral := Margin.cutLeading_join clauses.before atStart literal
        simp [Body.statics, Body.takenAfter, Body.pieces, Clauses.place, hliteral]
      | succ i =>
        refine ih (Margin.cutTrailing clauses.after next).1 hafter i run ?_
        rw [Margin.cutTrailing_join]
        exact hi

/-- Each substitution takes what its markers say of the literals on its two sides. What was taken of
the first literal before counts to it. -/
theorem compileOutline_cuts (taken : Text) {atStart : Bool} {literal : Text} {outline : Outline}
    {body : Body} (h : (compileOutline atStart literal outline).result = .ok body) :
    ∀ i whole raw, (outline.pieces (taken ++ literal))[i]? = some (whole, raw) →
      ∃ piece next, body.pieces[i]? = some piece ∧
        (outline.literals (taken ++ literal))[i + 1]? = some next ∧
        Margin.IsTrailing next piece.place.trailing (Directive.read raw).after ∧
        Margin.IsLeading (body.statics.getD i [] ++ piece.place.leading) piece.place.leading
          (Directive.read raw).before := by
  induction outline generalizing atStart taken literal body with
  | done => exact fun i whole raw hi => by simp [Outline.pieces] at hi
  | broken error => exact fun i whole raw hi => by simp [Outline.pieces] at hi
  | body raw start next rest ih =>
    intro i whole raw' hi
    have hnext : (rest.literals next)[0]? = some next := by cases rest <;> rfl
    rcases compileOutline_body_eq_ok.1 h with ⟨hread, after, hafter, rfl⟩ |
      ⟨clauses, action, after, hread, -, -, hafter, rfl⟩
    · cases i with
      | zero =>
        cases hi
        rw [hread]
        exact ⟨_, next, rfl, hnext, rfl, rfl⟩
      | succ i => exact ih [] hafter i whole raw' hi
    · cases i with
      | zero =>
        cases hi
        rw [hread]
        refine ⟨_, next, rfl, hnext, Margin.cutTrailing_isTrailing clauses.after next, ?_⟩
        have hjoin := Margin.cutLeading_join clauses.before atStart literal
        simpa [Body.statics, Clauses.place, hjoin, Directive.before] using
          Margin.cutLeading_isLeading clauses.before atStart literal
      | succ i =>
        have hjoin := Margin.cutTrailing_join clauses.after next
        have hrest := ih (Margin.cutTrailing clauses.after next).1 hafter i whole raw'
        rw [hjoin] at hrest
        exact hrest hi

/-- The body has the substitutions of the text, and divides all its literals between them and the
texts that are always written. -/
structure Body.Divides (body : Body) (text : Text) : Prop where
  substitutions : body.pieces.length = text.pieces.length
  literals : text.literals.length = text.pieces.length + 1
  /-- No part of a literal gets lost, and none is written twice, as the three parts of it are the
  literal again. -/
  join : ∀ i literal, text.literals[i]? = some literal →
    literal = body.takenBefore i ++ (body.statics.getD i [] ++ body.takenAfter i)
  cuts : ∀ i literal raw, text.pieces[i]? = some (literal, raw) →
    ∃ piece next, body.pieces[i]? = some piece ∧ text.literals[i]? = some literal ∧
      text.literals[i + 1]? = some next ∧
      Margin.IsTrailing next piece.place.trailing (Directive.read raw).after ∧
      Margin.IsLeading (body.statics.getD i [] ++ piece.place.leading) piece.place.leading
        (Directive.read raw).before

theorem compileSource_divides {start : Nat} {source : Text} {body : Body}
    (h : (compileSource start source).result = .ok body) : body.Divides source := by
  obtain ⟨last, hlast⟩ := Outline.literals_eq_pieces (Outline.ofSource 0 source).1
    (Outline.ofSource 0 source).2
  have hsubstitutions := (compileSource_pieces h).1
  rw [compileSource] at h
  have hjoin := compileOutline_literals [] h
  have hcuts := compileOutline_cuts [] h
  rw [List.nil_append, Outline.literals_ofSource] at hjoin hcuts
  rw [Outline.pieces_ofSource] at hcuts
  refine ⟨hsubstitutions, ?_, hjoin, fun i literal raw hi => ?_⟩
  · rw [Text.literals, hlast]
    simp [Text.pieces]
  · obtain ⟨piece, next, hpiece, hnext, htrailing, hleading⟩ := hcuts i literal raw hi
    refine ⟨piece, next, hpiece, ?_, hnext, htrailing, hleading⟩
    have hfirst : (source.pieces.map Prod.fst)[i]? = some literal := by
      rw [List.getElem?_map, hi]
      rfl
    obtain ⟨hlt, -⟩ := List.getElem?_eq_some_iff.1 hfirst
    rw [Text.literals, hlast]
    exact (List.getElem?_append_left hlt).trans hfirst

/-- Every body of a template, the root body and the inline ones at any depth, divides the literals
of the text that it is compiled from. -/
theorem compile_divides {source : Text} {compiled : Compiled}
    (h : compile source = .ok compiled) {body : Body} (hbody : compiled.root.Holds body) :
    ∃ text start, source.Holds text ∧ (compileSource start text).result = .ok body ∧
      body.Divides text := by
  obtain ⟨text, start, htext, htemplate⟩ := exists_text_of_holds (compile_eq_ok.1 h).2 hbody
  exact ⟨text, start, htext, htemplate, compileSource_divides htemplate⟩

/-- A list whose template has an escaped brace, a comment and a literal that two substitutions share
between them. -/
def sharedSource : Text :=
  "\x7b\x7bv|!\\\x7bk\x7b\x7ba>>\x7d\x7d-\n\n  z".toList ++
    "\x7b\x7b<b\x7d\x7d\x7b\x7b#c\x7d\x7d\n\x7d\x7d".toList

/-- The two substitutions share all of the literal between them, and the comment takes nothing of
those next to it. -/
theorem compile_divides_shared :
    ∃ compiled body, compile sharedSource = .ok compiled ∧ compiled.root.Holds body ∧
      body.statics = ["\x7bk".toList, [], [], "\n".toList] ∧
      body.pieces.map (fun piece => (piece.place.leading, piece.place.trailing)) =
        [([], "-\n\n".toList), ("  z".toList, []), ([], [])] ∧
      ∃ text start, sharedSource.Holds text ∧ (compileSource start text).result = .ok body ∧
        body.Divides text := by
  have hcompile : (compile sharedSource).toOption.isSome = true := by decide +kernel
  have hinline : ((compile sharedSource).toOption.bind fun compiled =>
      (compiled.root.pieces.head?.bind fun piece => piece.action.inline?).map fun body =>
        (body.statics, body.pieces.map fun piece => (piece.place.leading, piece.place.trailing))) =
      some (["\x7bk".toList, [], [], "\n".toList],
        [([], "-\n\n".toList), ("  z".toList, []), ([], [])]) := by decide +kernel
  obtain ⟨compiled, h⟩ := exists_compile hcompile
  rw [h] at hinline
  obtain ⟨body, hbody, hparts⟩ := Option.map_eq_some_iff.1 hinline
  obtain ⟨piece, hpiece, hinner⟩ := Option.bind_eq_some_iff.1 hbody
  obtain ⟨hstatics, hplaces⟩ := Prod.mk.inj hparts
  have hholds : compiled.root.Holds body := .inline .self (List.mem_of_head? hpiece) hinner
  exact ⟨compiled, body, h, hholds, hstatics, hplaces, compile_divides h hholds⟩

end Stencil
