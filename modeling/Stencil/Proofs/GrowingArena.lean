import Mathlib.Tactic.Common
import Stencil.Builder

/-!
# Growing an arena

A template that is compiled into an arena adds what its body is laid out as, at the end. What is
pushed and then written to again comes to the same as the layout: a node has its place around it
when the next literal is taken, a link its target when the next one has a body, and a body its
entry when its source ends.
-/
namespace Stencil

namespace Arena

variable (a b c : Arena)

@[simp] theorem append_empty : a.append .empty = a := by
  simp [append, empty]

theorem append_assoc : (a.append b).append c = a.append (b.append c) := by
  simp [append]

@[simp] theorem counts_append : (a.append b).counts = a.counts.after b := by
  simp [counts, append, Counts.after]

theorem pushNode_eq (node : Node) : a.pushNode node = a.append ⟨[node], [], []⟩ := by
  simp [pushNode, append]

theorem pushBody_append (entry : BodyEntry) :
    (a.append b).pushBody entry = a.append (b.pushBody entry) := by
  simp [pushBody, append]

/-- A node of the second part is written to in that part, and the first part stays as it is. -/
theorem updateNode_append (id : Nat) (change : Node → Node) :
    (a.append b).updateNode (a.nodes.length + id) change = a.append (b.updateNode id change) := by
  simp only [updateNode, append]
  rw [List.modify, List.modifyTailIdx_add]
  rfl

end Arena

/-! ### The text around a substitution -/

/-- A change to the first node of a substitution that is nothing to its other nodes: it neither sees
nor sets a target, and a later link does not have what it changes. -/
structure Node.IsOuter (change : Node → Node) : Prop where
  target (node : Node) (target : NodeTarget) :
    change { node with target := target } = { change node with target := target }
  next (node : Node) (name : Text) :
    ({ change node with
      name := name, rewind := 0, leading := [], trailing := [], target := .own } : Node) =
    { node with name := name, rewind := 0, leading := [], trailing := [], target := .own }

theorem Target.lay_change {change : Node → Node} (h : Node.IsOuter change) (chain : Chain)
    (node : Node) (counts : Counts) (target : Target) :
    target.lay chain (change node) counts = (target.lay chain node counts).updateNode 0 change := by
  cases target with
  | own => rfl
  | named name =>
    rw [lay, lay, ← h.target]
    rfl
  | inline body =>
    rw [lay, lay, ← h.target]
    rfl
  | link name target =>
    rw [lay, lay, ← h.target, h.next]
    rfl

/-- What stands around a substitution is kept with its first node, so that it can be written there
when all else is laid out. -/
theorem Action.lay_change {change : Node → Node} (h : Node.IsOuter change)
    {place place' : Placement} (hspan : place'.span = place.span)
    (hjoining : place'.joining = place.joining) (hhead : ∀ (chain : Chain) kind name rewind,
      chain.head kind name rewind place' = change (chain.head kind name rewind place))
    (counts : Counts) (action : Action) :
    action.lay place' counts = (action.lay place counts).updateNode 0 change := by
  cases action with
  | comment =>
    rw [lay, lay, hspan, hjoining, hhead]
    rfl
  | insert rewind name =>
    rw [lay, lay, hspan, hjoining, hhead]
    rfl
  | value rewind name target =>
    rw [lay, lay, hspan, hjoining, hhead, Target.lay_change h]
    rfl

theorem Action.lay_leading (place : Placement) (counts : Counts) (action : Action)
    (leading : Text) :
    action.lay { place with leading := leading } counts =
      (action.lay place counts).updateNode 0 fun node => { node with leading := leading } := by
  apply lay_change
  · exact ⟨fun _ _ => rfl, fun _ _ => rfl⟩
  · rfl
  · rfl
  · exact fun _ _ _ _ => rfl

theorem Action.lay_trailing (place : Placement) (counts : Counts) (action : Action)
    (trailing : Text) :
    action.lay { place with trailing := trailing } counts =
      (action.lay place counts).updateNode 0 fun node => { node with trailing := trailing } := by
  apply lay_change
  · exact ⟨fun _ _ => rfl, fun _ _ => rfl⟩
  · rfl
  · rfl
  · exact fun _ _ _ _ => rfl

/-! ### The links of a name -/

/-- The node of a later link of the same name, with nothing around it and no target yet. -/
def Node.follow (node : Node) (name : Text) : Node :=
  { node with name := name, rewind := 0, leading := [], trailing := [], target := .own }

theorem Target.lay_link (chain : Chain) (node : Node) (counts : Counts) (name : Text)
    (names : List Text) (target : Target) :
    (ofLinks (name :: names) target).lay chain node counts =
      Arena.append ⟨[{ node with target := .inline counts.bodies }],
          [⟨[[]], [counts.nodes + 1]⟩], []⟩
        ((ofLinks names target).lay chain (node.follow name)
          ⟨counts.nodes + 1, counts.bodies + 1, counts.shared⟩) := by
  rw [ofLinks, List.foldr_cons, lay]
  rfl

namespace Arena

/-- Links that were pushed one after another are given bodies up to the last one. What the last one
is filled into then belongs to the whole name. -/
theorem linkAll_eq (chain : Chain) (node : Node) (names : List Text) (arena : Arena)
    (hown : node.target = .own) :
    ∃ (last : Node) (before : Arena), last.target = .own ∧
      before.nodes.length = arena.nodes.length + names.length ∧
      linkAll (arena.append ⟨node :: names.map node.follow, [], []⟩)
        (List.range' arena.nodes.length (names.length + 1)) = before.pushNode last ∧
      ∀ target : Target, before.append (target.lay chain last before.counts) =
        arena.append ((Target.ofLinks names target).lay chain node arena.counts) := by
  -- The names are those of the links after `node`.
  induction names generalizing node arena with
  | nil => exact ⟨node, arena, hown, rfl, (pushNode_eq arena node).symm, fun _ => rfl⟩
  | cons name names ih =>
    let first : Arena := ⟨[{ node with target := .inline arena.bodies.length }],
      [⟨[[]], [arena.nodes.length + 1]⟩], []⟩
    have hcounts : (arena.append first).counts =
        ⟨arena.nodes.length + 1, arena.bodies.length + 1, arena.shared.length⟩ := by
      rw [counts_append]
      rfl
    obtain ⟨last, before, hlast, hlength, hbuilt, htarget⟩ :=
      ih (node.follow name) (arena.append first) rfl
    refine ⟨last, before, hlast, ?_, ?_, fun target => ?_⟩
    · rw [hlength]
      simp only [append, first, List.length_append, List.length_cons, List.length_nil]
      omega
    · have hnext : (arena.append first).nodes.length = arena.nodes.length + 1 := by
        simp [append, first]
      have hbodies : (arena.append
          ⟨node :: (name :: names).map node.follow, [], []⟩).bodies.length =
          arena.bodies.length := by
        simp [append]
      rw [← hbuilt, hnext, append_assoc, List.length_cons, List.range'_succ, List.range'_succ,
        linkAll, hbodies, pushBody_append]
      exact congrArg (fun built : Arena => built.linkAll _) (updateNode_append arena _ 0 _)
    · rw [htarget, Target.lay_link, ← append_assoc, hcounts]
      rfl

end Arena

/-! ### One substitution -/

/-- Wherever it starts, the source adds to any arena what its body is laid out as, and its body has
the next number. An error is the same as well. -/
def Text.Grows (source : Text) : Prop :=
  ∀ (arena : Arena) (base : Nat), arena.compileBody base source =
    (compileSource base source).result.map fun body =>
      (arena.bodies.length, arena.append (body.arena arena.counts))

/-- The inline template of a data section, if there is one, grows every arena. This is what the
induction gives for it. -/
def DataClause.Grows (data : Option DataClause) : Prop :=
  ∀ source offset, data = some (.inline source offset) → source.Grows

namespace Arena

variable (arena : Arena)

theorem updateNode_pushNode (node : Node) (part : Arena) (change : Node → Node) :
    ((arena.pushNode node).append part).updateNode arena.nodes.length change =
      arena.append { part with nodes := change node :: part.nodes } := by
  rw [pushNode_eq, append_assoc]
  exact updateNode_append arena _ 0 change

/-- The last link is pushed, and then it is written to it what it is filled into. An inline template
has grown the arena in between. -/
theorem compileData_eq (chain : Chain) {node : Node} (hown : node.target = .own) (start : Nat)
    {data : Option DataClause} (h : DataClause.Grows data) :
    (((arena.pushNode node).compileData start data).map fun (target, built) =>
        built.updateNode arena.nodes.length fun node => { node with target := target }) =
      (compileTarget start data).result.map fun target =>
        arena.append (target.lay chain node arena.counts) := by
  have hlast (target : NodeTarget) := arena.updateNode_pushNode node .empty fun node =>
    { node with target := target }
  simp only [append_empty] at hlast
  have hsame : { node with target := .own } = node := by
    rw [← hown]
  match data with
  | none =>
    rw [compileData, compileTarget]
    simp only [Except.map, Draft.done, hlast, hsame]
    rfl
  | some (.named []) =>
    rw [compileData, compileTarget]
    simp only [Except.map, Draft.done, hlast, hsame]
    rfl
  | some (.named (c :: name)) =>
    rw [compileData, compileTarget]
    · simp only [Except.map, Draft.done, hlast]
      rfl
    all_goals simp
  | some (.inline source offset) =>
    rw [compileData, compileTarget, h source offset rfl]
    simp only [Draft.map]
    cases (compileSource (start + offset) source).result with
    | error error => rfl
    | ok body =>
      simp only [Except.map, updateNode_pushNode]
      simp [Target.lay, Body.arena, pushNode, counts]

/-- Nodes that are pushed one after another are put at the end of the arena together. -/
theorem foldl_pushNode (nodes : List Node) :
    nodes.foldl pushNode arena = arena.append ⟨nodes, [], []⟩ := by
  induction nodes generalizing arena with
  | nil => exact (append_empty arena).symm
  | cons node nodes ih =>
    rw [List.foldl_cons, ih, pushNode_eq, append_assoc]
    rfl

theorem append_pushShared (joining : Joining) (part : Arena) :
    (arena.pushShared joining).append part =
      arena.append { part with shared := joining :: part.shared } := by
  simp [pushShared, append]

variable {arena} {clauses : Clauses} (span : Span)

theorem visitClauses_fault {fault : SyntaxFault} (hfault : clauses.fault? = some fault) :
    arena.visitClauses clauses span = .error ⟨fault, span.start⟩ := by
  rw [visitClauses, hfault]

theorem visitClauses_insert (hfault : clauses.fault? = none) (hinsert : clauses.insert = true) :
    arena.visitClauses clauses span = .ok (arena.append
      ((Action.insert clauses.rewind clauses.path).lay ⟨span, clauses.joining, [], []⟩
        arena.counts)) := by
  rw [visitClauses, hfault]
  simp only [hinsert, if_true, pushNode_eq, append_pushShared]
  rfl

theorem visitClauses_value (h : DataClause.Grows clauses.data) (hfault : clauses.fault? = none)
    (hinsert : clauses.insert = false) :
    arena.visitClauses clauses span =
      (compileTarget (span.start + 2) clauses.data).result.map fun target => arena.append
        ((Action.value clauses.rewind clauses.components.1
          (.ofLinks clauses.components.2 target)).lay ⟨span, clauses.joining, [], []⟩
            arena.counts) := by
  let chain : Chain := ⟨arena.shared.length, arena.nodes.length, span⟩
  let pushed := arena.pushShared clauses.joining
  let head : Node := { chain.link .value clauses.components.1 with rewind := clauses.rewind }
  let nodes := (clauses.components.1 :: clauses.components.2).map (chain.link .value)
  obtain ⟨last, before, hown, hlength, hbuilt, htarget⟩ :=
    linkAll_eq chain head clauses.components.2 pushed rfl
  have hlast : before.nodes.length = arena.nodes.length + clauses.components.2.length := hlength
  have hhead := updateNode_append pushed ⟨nodes, [], []⟩ 0
    fun node => { node with rewind := clauses.rewind }
  have hlinked : ((nodes.foldl pushNode pushed).updateNode arena.nodes.length fun node =>
      { node with rewind := clauses.rewind }).linkAll
        (List.range' arena.nodes.length (clauses.components.2.length + 1)) =
      before.pushNode last := by
    rw [foldl_pushNode]
    exact (congrArg (fun built : Arena => built.linkAll _) hhead).trans hbuilt
  have hdata := compileData_eq before chain hown (span.start + 2) h
  have hcounts : pushed.counts = { arena.counts with shared := arena.counts.shared + 1 } := by
    simp [pushed, counts, pushShared]
  rw [hlast] at hdata
  rw [visitClauses, hfault]
  simp only [hinsert, Bool.false_eq_true, if_false]
  rw [hlinked]
  refine hdata.trans (congrArg (fun f => Except.map f _) (funext fun target => ?_))
  rw [htarget, hcounts]
  exact append_pushShared arena clauses.joining _

end Arena

/-! ### The tokens of a source -/

namespace Builder

variable (builder : Builder)

/-- Ends the body with a part that was laid out after what there is, and writes its entry where it
belongs. -/
def close (arena : Arena) (laid : BodyEntry × Arena) : Arena :=
  (arena.append laid.2).setBody builder.body
    ⟨builder.statics ++ laid.1.statics, builder.substitutions ++ laid.1.substitutions⟩

/-- What comes of an outline, after a literal that was taken: the rest of the body is laid out, or
there is its error. -/
def settleOutline (taken : Text × Arena) (outline : Outline) : Except SyntaxError Arena :=
  (compileOutline builder.substitutions.isEmpty taken.1 outline).result.map fun body =>
    builder.close taken.2 (body.lay taken.2.counts)

/-- What comes of the rest of a source: its next literal and its outline after that, on top of what
was taken before. -/
def settle (literal : Text) (outline : Outline) : Except SyntaxError Arena :=
  builder.settleOutline { builder with literal := builder.literal ++ literal }.takeLiteral outline

/-- The body goes on after a substitution that was laid out at the end of the arena. -/
def laid (arena : Arena) (action : Action) (place : Placement) (kept : Text)
    (after : Option Mark) : Builder :=
  builder.next (arena.append (action.lay place arena.counts)) kept arena.nodes.length after

section

variable (arena : Arena) (action : Action) (place : Placement) (kept : Text) (after : Option Mark)

/-- The substitution that was laid out last gets what it takes of the next literal, as if it had
been laid out with it. -/
theorem takeLiteral_laid (literal : Text) (hnone : place.trailing = []) :
    { builder.laid arena action place kept after with literal := literal }.takeLiteral =
      ((Margin.cutTrailing after literal).2, arena.append (action.lay
        { place with trailing := (Margin.cutTrailing after literal).1 } arena.counts)) := by
  cases after with
  | none =>
    have hplace : { place with trailing := [] } = place := by rw [← hnone]
    simp only [takeLiteral, laid, next, Option.map_none, Margin.cutTrailing, hplace]
  | some mark =>
    rw [Action.lay_trailing place arena.counts action (Margin.cutTrailing (some mark) literal).1]
    exact Prod.ext rfl (Arena.updateNode_append arena _ 0 _)

theorem close_piece (built : Arena) (rest : Body) :
    (builder.next built kept arena.nodes.length after).close
        (arena.append (action.lay place arena.counts))
        (rest.lay (arena.append (action.lay place arena.counts)).counts) =
      builder.close arena ((Body.piece kept place action rest).lay arena.counts) := by
  rw [Body.lay, Arena.counts_append]
  simp [close, next, Arena.append_assoc, Arena.counts]

/-- A substitution that was laid out is a piece of the body, with the rest of the body after it. Its
trailing text is only known now. -/
theorem settle_laid (literal : Text) (outline : Outline) (hnone : place.trailing = []) :
    (builder.laid arena action place kept after).settle literal outline =
      ((compileOutline false (Margin.cutTrailing after literal).2 outline).map
        (Body.piece kept { place with trailing := (Margin.cutTrailing after literal).1 }
          action)).result.map fun body => builder.close arena (body.lay arena.counts) := by
  have hliteral := builder.takeLiteral_laid arena action place kept after literal hnone
  have hstart : (builder.substitutions ++ [arena.nodes.length]).isEmpty = false := by simp
  refine (congrArg (fun taken => settleOutline _ taken outline) hliteral).trans ?_
  rw [settleOutline]
  simp only [laid, next, hstart, Draft.map]
  cases (compileOutline false (Margin.cutTrailing after literal).2 outline).result with
  | error error => rfl
  | ok rest => exact congrArg Except.ok (builder.close_piece arena action _ kept after _ rest)

end

theorem visitBody_comment {raw : Text} (h : Directive.read raw = .comment) (start : Nat) :
    builder.visitBody raw start = .ok (builder.laid builder.takeLiteral.2 .comment
      (.ofComment (.ofBody raw start)) builder.takeLiteral.1 none) := by
  rw [visitBody]
  generalize builder.takeLiteral = taken
  obtain ⟨literal, arena⟩ := taken
  dsimp only
  split
  · simp only [Arena.pushNode_eq, Arena.append_pushShared]
    rfl
  · simp_all

theorem visitBody_substitution {raw : Text} {clauses : Clauses}
    (h : Directive.read raw = .substitution clauses) (start : Nat) :
    builder.visitBody raw start =
      (builder.takeLiteral.2.visitClauses clauses (.ofBody raw start)).map fun arena =>
        builder.next
          (arena.updateNode builder.takeLiteral.2.nodes.length fun node =>
            { node with leading := (Margin.cutLeading clauses.before
              builder.substitutions.isEmpty builder.takeLiteral.1).2 })
          (Margin.cutLeading clauses.before builder.substitutions.isEmpty
            builder.takeLiteral.1).1
          builder.takeLiteral.2.nodes.length clauses.after := by
  rw [visitBody]
  generalize builder.takeLiteral = taken
  obtain ⟨literal, arena⟩ := taken
  dsimp only
  split
  · simp_all
  · rename_i found hfound
    obtain rfl : clauses = found := by simpa [h] using hfound
    rfl

/-- A substitution gets its place: the end of the literal before it, which was taken with it, and
the start of the literal after it. -/
theorem settle_place (arena : Arena) (action : Action) (clauses : Clauses) (span : Span)
    (atStart : Bool) (before literal : Text) (outline : Outline) :
    (builder.next
        ((arena.append (action.lay ⟨span, clauses.joining, [], []⟩ arena.counts)).updateNode
          arena.nodes.length fun node =>
            { node with leading := (Margin.cutLeading clauses.before atStart before).2 })
        (Margin.cutLeading clauses.before atStart before).1
        arena.nodes.length clauses.after).settle literal outline =
      ((compileOutline false (Margin.cutTrailing clauses.after literal).2 outline).map
        (Body.piece (Margin.cutLeading clauses.before atStart before).1
          (clauses.place span atStart before literal) action)).result.map fun body =>
            builder.close arena (body.lay arena.counts) := by
  have hleading := Arena.updateNode_append arena
    (action.lay ⟨span, clauses.joining, [], []⟩ arena.counts) 0 fun node =>
      { node with leading := (Margin.cutLeading clauses.before atStart before).2 }
  rw [← Action.lay_leading, Nat.add_zero] at hleading
  rw [hleading]
  exact builder.settle_laid arena action _ _ clauses.after literal outline rfl

/-- A substitution is taken, and then the rest of the source. Together they come to the outline that
begins with this body. -/
theorem visitBody_bind {raw : Text}
    (h : ∀ clauses, Directive.read raw = .substitution clauses → DataClause.Grows clauses.data)
    (start : Nat) (literal : Text) (outline : Outline) :
    ((builder.visitBody raw start).bind fun builder => builder.settle literal outline) =
      builder.settleOutline builder.takeLiteral (.body raw start literal outline) := by
  generalize htaken : builder.takeLiteral = taken
  obtain ⟨kept, arena⟩ := taken
  cases hread : Directive.read raw with
  | comment =>
    rw [visitBody_comment builder hread, htaken, settleOutline, compileOutline_comment hread]
    exact builder.settle_laid arena .comment _ kept none literal outline rfl
  | substitution clauses =>
    rw [visitBody_substitution builder hread, htaken, settleOutline]
    cases hfault : clauses.fault? with
    | some fault =>
      rw [Arena.visitClauses_fault _ hfault, compileOutline_fault hread hfault]
      rfl
    | none =>
      cases hinsert : clauses.insert with
      | true =>
        rw [Arena.visitClauses_insert _ hfault hinsert, compileOutline_insert hread hfault hinsert]
        exact builder.settle_place arena _ clauses _ _ kept literal outline
      | false =>
        rw [Arena.visitClauses_value _ (h clauses hread) hfault hinsert,
          compileOutline_value hread hfault hinsert, Span.ofBody]
        simp only [Draft.visit, Draft.andThen]
        cases (compileTarget (start + 2) clauses.data).result with
        | error error => rfl
        | ok target => exact builder.settle_place arena _ clauses _ _ kept literal outline

theorem settle_nil (outline : Outline) :
    builder.settle [] outline = builder.settleOutline builder.takeLiteral outline := by
  rw [settle, List.append_nil]

/-- The tokens of a source are taken, with those before them taken already. The induction on them
carries all that was built so far. -/
theorem visitAll_eq (failure : Option SyntaxError) (tokens : List Token)
    (h : ∀ inline : Text, inline.length < Token.weight tokens → inline.Grows) :
    builder.visitAll failure tokens =
      builder.settle (Outline.ofTokens failure tokens).1 (Outline.ofTokens failure tokens).2 := by
  induction tokens generalizing builder with
  | nil =>
    cases failure with
    | none =>
      rw [visitAll, Outline.ofTokens, settle_nil, settleOutline, compileOutline]
      simp only [Draft.done, Except.map, Body.lay, close, Arena.append_empty, finish,
        List.append_nil]
      split_ifs with hempty
      · rw [List.append_nil]
      · rfl
    | some error =>
      rw [visitAll, Outline.ofTokens, settle_nil, settleOutline, compileOutline]
      rfl
  | cons token tokens ih =>
    cases token with
    | literal run =>
      rw [visitAll, ih _ h, settle, List.append_assoc]
      rfl
    | brace b =>
      rw [visitAll, ih _ h, settle, List.append_assoc]
      rfl
    | body raw start =>
      have hrest : ∀ inline : Text, inline.length < Token.weight tokens → inline.Grows :=
        fun inline hlt => h inline (by rw [Token.weight]; omega)
      have hdata : ∀ clauses, Directive.read raw = .substitution clauses →
          DataClause.Grows clauses.data := by
        intro clauses hread source offset hinline
        have hle := Directive.length_inline_le hread hinline
        exact h source (by rw [Token.weight]; omega)
      rw [visitAll]
      simp only [ih _ hrest]
      rw [visitBody_bind builder hdata, Outline.ofTokens, settle_nil]

/-- The entry of a body takes the place that was kept for it, so that its number is smaller than
those inside. -/
theorem close_pushBody (arena : Arena) (body : Body) (literal : Text) :
    (Builder.mk (arena.pushBody ⟨[], []⟩) arena.bodies.length literal none [] []).close
        (arena.pushBody ⟨[], []⟩) (body.lay (arena.pushBody ⟨[], []⟩).counts) =
      arena.append (body.arena arena.counts) := by
  have hcounts : (arena.pushBody ⟨[], []⟩).counts =
      { arena.counts with bodies := arena.counts.bodies + 1 } := by
    simp [Arena.counts, Arena.pushBody]
  rw [hcounts]
  simp [close, Body.arena, Arena.pushBody, Arena.append, Arena.setBody]

end Builder

/-- Wherever a source is compiled, the arena there grows by what its body is laid out as. The
induction is on the length of the source, as inline templates are shorter. -/
theorem Text.grows (source : Text) : source.Grows := by
  induction hlength : source.length using Nat.strongRecOn generalizing source with
  | ind n ih =>
    intro arena base
    have hweight := Scan.weight_ofSource_le base source
    have hinner : ∀ inline : Text,
        inline.length < Token.weight (Scan.ofSource base source).tokens → inline.Grows :=
      fun inline hlt => ih inline.length (by omega) inline rfl
    rw [Arena.compileBody, Builder.visitAll_eq _ _ _ hinner, compileSource, Builder.settle,
      Builder.settleOutline]
    show Except.map _ (Except.map _ (compileOutline true (Outline.ofSource base source).1
      (Outline.ofSource base source).2).result) = _
    cases (compileOutline true (Outline.ofSource base source).1
      (Outline.ofSource base source).2).result with
    | error error => rfl
    | ok body =>
      have hclose := Builder.close_pushBody arena body []
      exact congrArg (fun built => Except.ok (arena.bodies.length, built)) hclose

end Stencil
