import Stencil.Proofs.Layout
import Stencil.Proofs.SequenceJoining

/-!
# Literals of the root

A filled template is the literals of its root body in their order, with what one substitution
contributes between two of them. A substitution contributes once, and what it contributes is empty
or stands between the texts around it. So the literals are a lower bound of the output.
-/
namespace Stencil

/-! ### Literals and contributions in turn -/

/-- The literals in order, each with one of the other texts after it. What is missing on one side is
empty. -/
def interleave (literals others : List Text) : Text :=
  (List.range (others.length + 1)).flatMap fun i => literals.getD i [] ++ others.getD i []

@[simp] theorem interleave_nil (literals : List Text) :
    interleave literals [] = literals.getD 0 [] := by
  simp [interleave]

@[simp] theorem interleave_cons (literal other : Text) (literals others : List Text) :
    interleave (literal :: literals) (other :: others) =
      literal ++ other ++ interleave literals others := by
  rw [interleave, List.length_cons, List.range_succ_eq_map, List.flatMap_cons, List.flatMap_map]
  rfl

/-- No literal gets lost if there is at most one after the last text, and no text if each of them
has a literal before it. -/
theorem bytes_interleave {literals others : List Text} (h : literals.length ≤ others.length + 1)
    (h' : others.length ≤ literals.length) :
    Text.bytes (interleave literals others) =
      Text.bytes literals.flatten + Text.bytes others.flatten := by
  induction others generalizing literals with
  | nil =>
    match literals with
    | [] => rfl
    | [literal] => simp
    | _ :: _ :: _ => simp at h
  | cons other others ih =>
    cases literals with
    | nil => simp at h'
    | cons literal literals =>
      simp only [List.length_cons] at h h'
      have ih := ih (Nat.le_of_succ_le_succ h) (Nat.le_of_succ_le_succ h')
      simp only [interleave_cons, List.flatten_cons, Text.bytes_append, ih]
      omega

theorem Text.bytes_eq_zero {t : Text} : t.bytes = 0 ↔ t = [] := by
  cases t with
  | nil => simp
  | cons c t =>
    have hc := c.utf8Size_pos
    simp only [bytes_cons, reduceCtorEq, iff_false]
    omega

/-- A walk over the pairs of a body comes to all its literals and substitutions in turn, the last
literal with no substitution. -/
theorem interleave_eq_pairs {entry : BodyEntry} {contributions : List Text}
    (hlength : contributions.length = entry.substitutions.length)
    (h : entry.substitutions.length ≤ entry.statics.length)
    (h' : entry.statics.length ≤ entry.substitutions.length + 1) :
    interleave entry.statics contributions =
      (List.zipWith (fun pair text => pair.1 ++ text) entry.pairs
        (contributions ++ [[]])).flatten := by
  obtain ⟨statics, substitutions⟩ := entry
  induction substitutions generalizing statics contributions with
  | nil =>
    obtain rfl : contributions = [] := List.eq_nil_of_length_eq_zero hlength
    match statics with
    | [] | [[]] | [c :: literal] => simp [BodyEntry.pairs]
    | _ :: _ :: _ => simp at h'
  | cons sub subs ih =>
    cases statics with
    | nil => simp at h
    | cons literal statics =>
      cases contributions with
      | nil => simp at hlength
      | cons text texts =>
        simp only [List.length_cons, Nat.add_right_cancel_iff] at hlength h h'
        have hrest := ih statics hlength (Nat.le_of_succ_le_succ h) (Nat.le_of_succ_le_succ h')
        rw [interleave_cons, hrest, BodyEntry.pairs]
        rfl

/-! ### Filling one substitution after another -/

section

variable (templates : TemplateMap) (enter : Enter) (source : Text) (scopes : Scopes)

/-- Each substitution is filled once, after those before it, and contributes the text that comes of
it with what stands around it. -/
inductive Contributes : List Body.Piece → Tally → List Text → Tally → Prop
  | nil {t : Tally} : Contributes [] t [] t
  | cons {piece : Body.Piece} {rest : List Body.Piece} {text : Text} {contributions : List Text}
      {notes : List Note} {t t' t'' : Tally} :
    (fillAction templates enter source piece.place scopes piece.action).run t =
      ⟨.ok text, notes, t'⟩ →
    Contributes rest t' contributions t'' →
    Contributes (piece :: rest) t (piece.place.wrap text :: contributions) t''

end

section

variable {templates : TemplateMap} {enter : Enter} {source : Text} {scopes : Scopes}

/-- What is contributed is written between the literals. The induction is on the body, and the
counters go along with it. -/
theorem exists_contributes {body : Body} {output : Text} {notes : List Note} {t t' : Tally}
    (h : (fillBody templates enter source scopes body).run t = ⟨.ok output, notes, t'⟩) :
    ∃ contributions, Contributes templates enter source scopes body.pieces t contributions t' ∧
      output = interleave body.statics contributions := by
  match body with
  | .tail literal =>
    rw [fillBody, Filling.run_pure] at h
    cases h
    refine ⟨[], .nil, ?_⟩
    cases output <;> simp [Body.statics]
  | .piece literal place action rest =>
    rw [fillBody] at h
    cases haction : (fillAction templates enter source place scopes action).run t with
    | mk result used mid =>
      cases result with
      | error reason =>
        rw [Filling.run_bind_of_error haction] at h
        simp at h
      | ok text =>
        rw [Filling.run_bind_of_ok haction, Filling.run_map] at h
        cases hrest : (fillBody templates enter source scopes rest).run mid with
        | mk result more last =>
          rw [hrest] at h
          cases result with
          | error reason => simp [Report.after, Except.map] at h
          | ok after =>
            obtain ⟨contributions, hcontributes, rfl⟩ := exists_contributes hrest
            simp only [Report.after, Except.map, Report.mk.injEq, Except.ok.injEq] at h
            obtain ⟨rfl, -, rfl⟩ := h
            refine ⟨_, .cons haction hcontributes, ?_⟩
            rw [Body.statics, interleave_cons]

theorem Contributes.length_eq {pieces : List Body.Piece} {contributions : List Text} {t t' : Tally}
    (h : Contributes templates enter source scopes pieces t contributions t') :
    contributions.length = pieces.length := by
  induction h with
  | nil => rfl
  | cons _ _ ih => simp [ih]

end

/-! ### The nodes of the root -/

theorem Target.nodes_lay (chain : Chain) (node : Node) (counts : Counts) (target : Target) :
    ∃ given more, (target.lay chain node counts).nodes = { node with target := given } :: more := by
  cases target with
  | own => exact ⟨node.target, [], rfl⟩
  | named name => exact ⟨.named name, [], rfl⟩
  | inline body => exact ⟨_, _, rfl⟩
  | link name target => exact ⟨_, _, rfl⟩

/-- The node shows what a substitution is and what stands around it, as far as this matters for what
it contributes. -/
structure Body.Piece.HasHead (piece : Body.Piece) (node : Node) : Prop where
  leading : node.leading = piece.place.leading
  trailing : node.trailing = piece.place.trailing
  comment : node.kind = .comment ↔ piece.action = .comment

theorem Body.Piece.exists_hasHead (piece : Body.Piece) (counts : Counts) :
    ∃ node more, (piece.action.lay piece.place counts).nodes = node :: more ∧
      piece.HasHead node := by
  obtain ⟨kept, place, action⟩ := piece
  cases action with
  | comment => exact ⟨_, [], rfl, rfl, rfl, by simp [Chain.head]⟩
  | insert rewind name => exact ⟨_, [], rfl, rfl, rfl, by simp [Chain.head]⟩
  | value rewind name target =>
    let chain : Chain := ⟨counts.shared, counts.nodes, place.span⟩
    obtain ⟨given, more, hnodes⟩ := target.nodes_lay chain (chain.head .value name rewind place)
      { counts with shared := counts.shared + 1 }
    exact ⟨_, more, hnodes, rfl, rfl, by simp [Chain.head]⟩

/-- The substitutions of a laid out body are those of the body, in the same order and with nodes
that show them. -/
theorem Arena.Holds.pieces {arena : Arena} {counts : Counts} {body : Body}
    (h : arena.Holds counts (body.lay counts).2) :
    List.Forall₂ (fun (piece : Body.Piece) id =>
        ∃ node, arena.nodes[id]? = some node ∧ piece.HasHead node)
      body.pieces (body.lay counts).1.substitutions := by
  match body with
  | .tail literal => exact .nil
  | .piece literal place action rest =>
    rw [Body.lay] at h ⊢
    obtain ⟨hfirst, hrest⟩ := h.append
    obtain ⟨node, more, hnodes, hhead⟩ :=
      Body.Piece.exists_hasHead ⟨literal, place, action⟩ counts
    have hprefix := hfirst.nodes
    rw [show (action.lay place counts).nodes = node :: more from hnodes] at hprefix
    exact .cons ⟨node, (cons_isPrefix_drop hprefix).1, hhead⟩ hrest.pieces

theorem Body.statics_lay (counts : Counts) (body : Body) :
    (body.lay counts).1.statics = body.statics := by
  cases body with
  | tail literal => cases literal <;> rfl
  | piece literal place action rest =>
    rw [Body.lay, Body.statics]
    exact congrArg (literal :: ·) (rest.statics_lay _)

/-! ### Filled templates -/

/-- What a node contributes to the output: nothing if it is a comment, and otherwise nothing or a
text that is not empty between the texts around it. -/
def Node.Writes (node : Node) (contribution : Text) : Prop :=
  contribution = [] ∨ node.kind ≠ .comment ∧
    ∃ middle, middle ≠ [] ∧ contribution = node.leading ++ middle ++ node.trailing

/-- A substitution contributes what its first node says, with the texts around it or not at all. -/
theorem Contributes.writes {templates : TemplateMap} {enter : Enter} {source : Text}
    {scopes : Scopes} {arena : Arena} {pieces : List Body.Piece} {ids : List Nat}
    {contributions : List Text} {t t' : Tally}
    (h : Contributes templates enter source scopes pieces t contributions t')
    (hids : List.Forall₂ (fun (piece : Body.Piece) id =>
      ∃ node, arena.nodes[id]? = some node ∧ piece.HasHead node) pieces ids) :
    List.Forall₂ (fun id contribution =>
      ∃ node, arena.nodes[id]? = some node ∧ node.Writes contribution) ids contributions := by
  induction h generalizing ids with
  | nil =>
    cases hids
    exact .nil
  | @cons piece rest text _ _ t t' _ hrun _ ih =>
    cases hids with
    | cons hfirst hrest =>
      obtain ⟨node, hnode, hhead⟩ := hfirst
      apply List.Forall₂.cons ⟨node, hnode, ?_⟩ (ih hrest)
      by_cases hcomment : piece.action = .comment
      · left
        rw [hcomment] at hrun
        cases hrun
        rfl
      · cases text with
        | nil => exact .inl rfl
        | cons c text =>
          right
          refine ⟨mt hhead.comment.1 hcomment, c :: text, List.cons_ne_nil c text, ?_⟩
          rw [hhead.leading, hhead.trailing]
          rfl

/-- The output is made of the literals of a body and of what its substitutions contribute, in the
order of the body. -/
structure BodyEntry.Interleaves (entry : BodyEntry) (arena : Arena) (contributions : List Text)
    (output : Text) : Prop where
  text : output = interleave entry.statics contributions
  /-- Each substitution contributes once, and as its node says. -/
  writes : List.Forall₂ (fun id contribution =>
      ∃ node, arena.nodes[id]? = some node ∧ node.Writes contribution)
    entry.substitutions contributions
  /-- A walk over the pairs of the body gives the same text, so that the pairs lose no literal and
  no substitution. -/
  pairs : output = (List.zipWith (fun pair text => pair.1 ++ text) entry.pairs
    (contributions ++ [[]])).flatten
  bytes : output.bytes = entry.sizeHint + Text.bytes contributions.flatten

theorem Compiled.interleaves {compiled : Compiled} {templates : TemplateMap} {enter : Enter}
    {source : Text} {scopes : Scopes} {contributions : List Text} {t t' : Tally}
    (h : Contributes templates enter source scopes compiled.root.pieces t contributions t') :
    ∃ entry, compiled.arena.bodies[0]? = some entry ∧ compiled.sizeHint = entry.sizeHint ∧
      entry.Interleaves compiled.arena contributions
        (interleave compiled.root.statics contributions) := by
  have hholds : compiled.arena.Holds ⟨0, 1, 0⟩ (compiled.root.lay ⟨0, 1, 0⟩).2 :=
    ⟨List.prefix_refl _, List.prefix_refl _, List.prefix_refl _⟩
  have hpieces := hholds.pieces
  have hstatics := compiled.root.statics_lay ⟨0, 1, 0⟩
  have halternates := compiled.root.alternates_lay ⟨0, 1, 0⟩
  have hlength := h.length_eq.trans hpieces.length_eq
  generalize hentry : (compiled.root.lay ⟨0, 1, 0⟩).1 = entry at *
  have hcounts : entry.substitutions.length ≤ entry.statics.length ∧
      entry.statics.length ≤ entry.substitutions.length + 1 := by
    rcases halternates with heq | ⟨heq, -⟩ <;> omega
  refine ⟨entry, by rw [← hentry]; rfl, ?_, ?_⟩
  · rw [Compiled.sizeHint, Body.sizeHint, BodyEntry.sizeHint, hstatics]
  rw [← hstatics]
  refine ⟨rfl, h.writes hpieces, interleave_eq_pairs hlength hcounts.1 hcounts.2, ?_⟩
  rw [bytes_interleave (by omega) (by omega)]
  rfl

/-- A fill that succeeds gives the root literals in their order, and between them what each
substitution contributes when it is filled in its turn. So the output is no shorter than the size
hint, and has that size only if no substitution contributes anything. -/
theorem fillWithin_interleaves {source : Text} {compiled : Compiled}
    (hcompile : compile source = .ok compiled) {templates : TemplateMap} {limit : Nat}
    {data : Provider} {t : Tally} {output : Text}
    (hfill : resultOf source limit templates data t = .ok output) :
    ∃ entry contributions, compiled.arena.bodies[0]? = some entry ∧
      entry.Interleaves compiled.arena contributions output ∧
      (∃ depth root mid last, limit = depth + 1 ∧ data.unwrap t = (some root, mid) ∧
        Contributes templates (fillPart templates depth) source [root.core] compiled.root.pieces mid
          contributions last) ∧
      compiled.sizeHint ≤ output.bytes ∧
      (compiled.sizeHint = output.bytes ↔ ∀ text ∈ contributions, text = []) := by
  rw [resultOf_of_compile hcompile, fillRoot] at hfill
  cases hunwrap : data.unwrap t with
  | mk found mid =>
    rw [Filling.run_unwrap_bind hunwrap] at hfill
    cases found with
    | none => cases hfill
    | some root =>
      cases limit with
      | zero => cases hfill
      | succ depth =>
        rw [part_of_compile hcompile] at hfill
        cases hrun : (fillBody templates (fillPart templates depth) source [root.core]
            compiled.root).run mid with
        | mk result notes last =>
          have hresult := congrArg Report.result hrun
          obtain rfl : result = .ok output := hresult.symm.trans hfill
          obtain ⟨contributions, hcontributes, rfl⟩ := exists_contributes hrun
          obtain ⟨entry, hentry, hhint, hinterleaves⟩ := Compiled.interleaves hcontributes
          have hbytes := hinterleaves.bytes
          refine ⟨entry, contributions, hentry, hinterleaves,
            ⟨depth, root, mid, last, rfl, rfl, hcontributes⟩, by omega, ?_⟩
          rw [← List.flatten_eq_nil_iff, ← Text.bytes_eq_zero, hhint]
          omega

/-- A comment, an empty value and a value, the last two with text around them that they take
along. -/
def marginSource : Text :=
  "a\n\x7b\x7b#c\x7d\x7db\n \x7b\x7b<x>\x7d\x7d!\n\x7b\x7b<y>\x7d\x7d z".toList

def marginData : Provider :=
  .map none [(['x'], .scalar []), (['y'], .scalar ['é'])]

/-- Only the second value contributes, and with it the text that it takes at its end. The rest of
the output is as long as the hint. -/
theorem fillWithin_interleaves_margin :
    ∃ compiled entry contributions, compile marginSource = .ok compiled ∧
      resultOf marginSource 9 .empty marginData .empty = .ok "a\nb\né z".toList ∧
      compiled.arena.bodies[0]? = some entry ∧
      entry.Interleaves compiled.arena contributions "a\nb\né z".toList ∧
      compiled.sizeHint = 4 ∧ Text.bytes "a\nb\né z".toList = 8 ∧
      ∃ text ∈ contributions, text ≠ [] := by
  have hfill : resultOf marginSource 9 .empty marginData .empty = .ok "a\nb\né z".toList := by
    decide +kernel
  have hhint : (compile marginSource).toOption.map Compiled.sizeHint = some 4 := by
    decide +kernel
  have hsome : (compile marginSource).toOption.isSome = true := by decide +kernel
  obtain ⟨compiled, hcompile⟩ := exists_compile hsome
  rw [hcompile] at hhint
  have hsize : compiled.sizeHint = 4 := Option.some.inj hhint
  have hbytes : Text.bytes "a\nb\né z".toList = 8 := by decide +kernel
  obtain ⟨entry, contributions, hentry, hinterleaves, -, -, hsame⟩ :=
    fillWithin_interleaves hcompile hfill
  refine ⟨compiled, entry, contributions, hcompile, hfill, hentry, hinterleaves, hsize, hbytes, ?_⟩
  by_contra hnone
  have hall : ∀ text ∈ contributions, text = [] := by
    intro text htext
    by_contra hne
    exact hnone ⟨text, htext, hne⟩
  have heq := hsame.2 hall
  omega

end Stencil
