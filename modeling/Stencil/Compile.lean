import Stencil.Body
import Stencil.Margin
import Stencil.Outline

/-!
# Compilation

A source is compiled along its outline. An inline template is compiled in the same way from
the part of the source that holds it, at that part's offset, so every span and every error
offset is one of the outermost source. Compilation also reports each substitution that it
meets, in the order of the source and up to the first error.
-/
namespace Stencil

/-- A substitution that compilation met: its raw body and the byte where the body starts in the
outermost source. -/
structure Visit where
  offset : Nat
  body : Text
deriving DecidableEq, Repr

/-- The visits of a compilation, and its result. The visits before an error are kept, as they are
told all the same. -/
structure Draft (α : Type) where
  visits : List Visit
  result : Except SyntaxError α

namespace Draft

def done {α : Type} (a : α) : Draft α :=
  ⟨[], .ok a⟩

def fail {α : Type} (error : SyntaxError) : Draft α :=
  ⟨[], .error error⟩

/-- Goes on with the result, unless there was an error. The visits of what follows come after those
of the draft. -/
def andThen {α β : Type} (draft : Draft α) (next : α → Draft β) : Draft β :=
  match draft.result with
  | .error error => ⟨draft.visits, .error error⟩
  | .ok a => ⟨draft.visits ++ (next a).visits, (next a).result⟩

def map {α β : Type} (f : α → β) (draft : Draft α) : Draft β :=
  ⟨draft.visits, draft.result.map f⟩

/-- Puts a visit before those of a draft, for a substitution that is met before what is inside
it. -/
def visit {α : Type} (v : Visit) (draft : Draft α) : Draft α :=
  ⟨v :: draft.visits, draft.result⟩

theorem result_map_eq_ok {α β : Type} {f : α → β} {draft : Draft α} {b : β} :
    (draft.map f).result = .ok b ↔ ∃ a, draft.result = .ok a ∧ f a = b := by
  cases h : draft.result <;> simp [map, h, Except.map]

theorem result_andThen_eq_ok {α β : Type} {draft : Draft α} {next : α → Draft β} {b : β} :
    (draft.andThen next).result = .ok b ↔
      ∃ a, draft.result = .ok a ∧ (next a).result = .ok b := by
  cases h : draft.result <;> simp [andThen, h]

end Draft

namespace Clauses

/-- How the elements are joined: a newline separates them unless the clauses give another
separator. -/
def joining (clauses : Clauses) : Joining where
  separator := clauses.join.elim ['\n'] JoinClause.text
  leading := clauses.join.elim false JoinClause.leading
  ignoreEmpty := clauses.before.isSome || clauses.after.isSome

/-- The components of the dotted path, the first one apart. Blanks around a component do not belong
to it. -/
def components (clauses : Clauses) : Text × List Text :=
  let (first, more) := Text.splitOn '.' clauses.path
  (first.trim, more.map Text.trim)

/-- What makes the clauses unusable, which is only the shape of an insertion or of a dotted name. -/
def fault? (clauses : Clauses) : Option SyntaxFault :=
  if clauses.insert then
    if clauses.join.isSome || clauses.data.isSome then some .insertData
    else if clauses.path.isEmpty then some .emptyName
    else none
  else
    let (first, more) := clauses.components
    if !more.isEmpty && (first :: more).any List.isEmpty then some .emptyName else none

end Clauses

/-- The characters of the inline template of a data section, and none when there is no such
template. Termination is counted in them. -/
def DataClause.inlineLength : Option DataClause → Nat
  | some (.inline source _) => source.length
  | some (.named _) => 0
  | none => 0

/-- The place of a comment, which writes nothing and takes nothing from the literals around it. -/
def Placement.ofComment (span : Span) : Placement :=
  ⟨span, ⟨[], false, false⟩, [], []⟩

/-- The span of the body `raw` with its braces, which open at byte `start`. They take two bytes on
each side. -/
def Span.ofBody (raw : Text) (start : Nat) : Span :=
  ⟨start, start + raw.bytes + 4⟩

/-- The place of a substitution between two literals, with what its markers take of each of them. -/
def Clauses.place (clauses : Clauses) (span : Span) (atStart : Bool) (literal next : Text) :
    Placement where
  span := span
  joining := clauses.joining
  leading := (Margin.cutLeading clauses.before atStart literal).2
  trailing := (Margin.cutTrailing clauses.after next).1

theorem Directive.inlineLength_le {raw : Text} {clauses : Clauses}
    (h : Directive.read raw = .substitution clauses) :
    DataClause.inlineLength clauses.data ≤ raw.length := by
  unfold DataClause.inlineLength
  split
  · exact Directive.length_inline_le h (by assumption)
  · exact Nat.zero_le _
  · exact Nat.zero_le _

mutual

/-- Compiles a source that starts at byte `start` of the outermost source. An inline template is
compiled by the same function. -/
def compileSource (start : Nat) (source : Text) : Draft Body :=
  have := Outline.weight_ofSource_le start source
  compileOutline true (Outline.ofSource start source).1 (Outline.ofSource start source).2
termination_by 3 * source.length + 1

/-- Compiles a literal and what follows it. `atStart` says that the literal starts the body, where
no line break is needed before it. -/
def compileOutline (atStart : Bool) (literal : Text) (outline : Outline) : Draft Body :=
  match outline with
  | .done => .done (.tail literal)
  | .broken error => .fail error
  | .body raw start next rest =>
    Draft.visit ⟨start + 2, raw⟩ <|
      match h : Directive.read raw with
      | .comment =>
        (compileOutline false next rest).map
          (.piece literal (.ofComment (.ofBody raw start)) .comment)
      | .substitution clauses =>
        have := Directive.inlineLength_le h
        let before := Margin.cutLeading clauses.before atStart literal
        let after := Margin.cutTrailing clauses.after next
        let place := clauses.place (.ofBody raw start) atStart literal next
        match clauses.fault? with
        | some fault => .fail ⟨fault, start⟩
        | none =>
          if clauses.insert then
            (compileOutline false after.2 rest).map
              (.piece before.1 place (.insert clauses.rewind clauses.path))
          else
            (compileTarget (start + 2) clauses.data).andThen fun target =>
              let (first, more) := clauses.components
              (compileOutline false after.2 rest).map
                (.piece before.1 place (.value clauses.rewind first (.ofLinks more target)))
termination_by 3 * outline.weight
decreasing_by all_goals simp only [Outline.weight]; omega

/-- Compiles the data section of a body that starts at byte `start`. A name of blanks only counts as
none. -/
def compileTarget (start : Nat) (data : Option DataClause) : Draft Target :=
  match data with
  | none => .done .own
  | some (.named []) => .done .own
  | some (.named name) => .done (.named name)
  | some (.inline source offset) => (compileSource (start + offset) source).map .inline
termination_by 3 * DataClause.inlineLength data + 2
decreasing_by simp only [DataClause.inlineLength]; omega

end

/-! ### One step of a compilation -/

section

variable {raw literal next : Text} {clauses : Clauses} {atStart : Bool} {start : Nat}
  {rest : Outline}

theorem compileOutline_comment (h : Directive.read raw = .comment) :
    compileOutline atStart literal (.body raw start next rest) =
      .visit ⟨start + 2, raw⟩ ((compileOutline false next rest).map
        (.piece literal (.ofComment (.ofBody raw start)) .comment)) := by
  rw [compileOutline]
  split
  · rfl
  · simp_all

theorem compileOutline_fault {fault : SyntaxFault} (h : Directive.read raw = .substitution clauses)
    (hfault : clauses.fault? = some fault) :
    compileOutline atStart literal (.body raw start next rest) =
      .visit ⟨start + 2, raw⟩ (.fail ⟨fault, start⟩) := by
  rw [compileOutline]
  split
  · simp_all
  · rename_i found hfound
    obtain rfl : clauses = found := by simpa [h] using hfound
    rw [hfault]

theorem compileOutline_insert (h : Directive.read raw = .substitution clauses)
    (hfault : clauses.fault? = none) (hinsert : clauses.insert = true) :
    compileOutline atStart literal (.body raw start next rest) =
      .visit ⟨start + 2, raw⟩
        ((compileOutline false (Margin.cutTrailing clauses.after next).2 rest).map
          (.piece (Margin.cutLeading clauses.before atStart literal).1
            (clauses.place (.ofBody raw start) atStart literal next)
            (.insert clauses.rewind clauses.path))) := by
  rw [compileOutline]
  split
  · simp_all
  · rename_i found hfound
    obtain rfl : clauses = found := by simpa [h] using hfound
    rw [hfault]
    simp only [hinsert, if_true]

theorem compileOutline_value (h : Directive.read raw = .substitution clauses)
    (hfault : clauses.fault? = none) (hinsert : clauses.insert = false) :
    compileOutline atStart literal (.body raw start next rest) =
      .visit ⟨start + 2, raw⟩
        ((compileTarget (start + 2) clauses.data).andThen fun target =>
          (compileOutline false (Margin.cutTrailing clauses.after next).2 rest).map
            (.piece (Margin.cutLeading clauses.before atStart literal).1
              (clauses.place (.ofBody raw start) atStart literal next)
              (.value clauses.rewind clauses.components.1
                (.ofLinks clauses.components.2 target)))) := by
  rw [compileOutline]
  split
  · simp_all
  · rename_i found hfound
    obtain rfl : clauses = found := by simpa [h] using hfound
    rw [hfault]
    simp only [hinsert, Bool.false_eq_true, if_false]

end

/-- What a substitution that starts at byte `start` does, when its clauses are in order and its
inline template compiles. -/
def Clauses.Compiles (clauses : Clauses) (start : Nat) (action : Action) : Prop :=
  (clauses.insert = true ∧ action = .insert clauses.rewind clauses.path) ∨
    (clauses.insert = false ∧ ∃ target,
      (compileTarget (start + 2) clauses.data).result = .ok target ∧
        action = .value clauses.rewind clauses.components.1 (.ofLinks clauses.components.2 target))

/-- All that a body of a source can become when the source compiles: a comment, an insertion or a
value, each with the rest after it. -/
theorem compileOutline_body_eq_ok {raw literal next : Text} {atStart : Bool} {start : Nat}
    {rest : Outline} {body : Body} :
    (compileOutline atStart literal (.body raw start next rest)).result = .ok body ↔
      (Directive.read raw = .comment ∧ ∃ after,
        (compileOutline false next rest).result = .ok after ∧
          body = .piece literal (.ofComment (.ofBody raw start)) .comment after) ∨
      ∃ clauses action after, Directive.read raw = .substitution clauses ∧
        clauses.fault? = none ∧ clauses.Compiles start action ∧
        (compileOutline false (Margin.cutTrailing clauses.after next).2 rest).result = .ok after ∧
        body = .piece (Margin.cutLeading clauses.before atStart literal).1
          (clauses.place (.ofBody raw start) atStart literal next) action after := by
  constructor
  · intro h
    cases hread : Directive.read raw with
    | comment =>
      rw [compileOutline_comment hread] at h
      obtain ⟨after, hafter, rfl⟩ := Draft.result_map_eq_ok.1 h
      exact .inl ⟨rfl, after, hafter, rfl⟩
    | substitution clauses =>
      refine .inr ⟨clauses, ?_⟩
      cases hfault : clauses.fault? with
      | some fault =>
        rw [compileOutline_fault hread hfault] at h
        cases h
      | none =>
        cases hinsert : clauses.insert with
        | true =>
          rw [compileOutline_insert hread hfault hinsert] at h
          obtain ⟨after, hafter, rfl⟩ := Draft.result_map_eq_ok.1 h
          exact ⟨_, after, rfl, rfl, .inl ⟨hinsert, rfl⟩, hafter, rfl⟩
        | false =>
          rw [compileOutline_value hread hfault hinsert] at h
          obtain ⟨target, htarget, h⟩ := Draft.result_andThen_eq_ok.1 h
          obtain ⟨after, hafter, rfl⟩ := Draft.result_map_eq_ok.1 h
          exact ⟨_, after, rfl, rfl, .inr ⟨hinsert, target, htarget, rfl⟩, hafter, rfl⟩
  · rintro (⟨hread, after, hafter, rfl⟩ |
      ⟨clauses, action, after, hread, hfault, haction, hafter, rfl⟩)
    · rw [compileOutline_comment hread]
      exact Draft.result_map_eq_ok.2 ⟨after, hafter, rfl⟩
    · rcases haction with ⟨hinsert, rfl⟩ | ⟨hinsert, target, htarget, rfl⟩
      · rw [compileOutline_insert hread hfault hinsert]
        exact Draft.result_map_eq_ok.2 ⟨after, hafter, rfl⟩
      · rw [compileOutline_value hread hfault hinsert]
        refine Draft.result_andThen_eq_ok.2 ⟨target, htarget, ?_⟩
        exact Draft.result_map_eq_ok.2 ⟨after, hafter, rfl⟩

/-- A compiled template: its source, which error reports quote, and its root body. The arena is laid
out from the body. -/
structure Compiled where
  source : Text
  root : Body

def compile (source : Text) : Except SyntaxError Compiled :=
  (compileSource 0 source).result.map (Compiled.mk source)

/-- The substitutions that compiling `source` meets before it ends, each before those of its inline
template. -/
def visits (source : Text) : List Visit :=
  (compileSource 0 source).visits

namespace Compiled

def names (compiled : Compiled) : List Text :=
  compiled.root.names

def hasName (compiled : Compiled) (name : Text) : Bool :=
  compiled.names.contains name

def references (compiled : Compiled) : List Text :=
  compiled.root.references

def sizeHint (compiled : Compiled) : Nat :=
  compiled.root.sizeHint

end Compiled

/-- The raw text of the substitution at `span`, with its braces, as errors quote it. -/
def Span.slice (span : Span) (source : Text) : Text :=
  source.slice span.start span.stop

end Stencil
