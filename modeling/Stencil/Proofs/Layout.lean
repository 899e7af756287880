import Stencil.Arena
import Stencil.Proofs.SourceMap

/-!
# The layout of an arena

A compilation lays its substitutions out in regions. A region holds the substitutions of one body,
with all that is inside them, at consecutive numbers: first the links of a substitution with the
bodies between them, then the region of its inline template, then the region of what follows. A
region also belongs to a stretch of the outermost source and to the visits of the compilation there.
-/
namespace Stencil

@[simp] theorem Span.start_ofBody (raw : Text) (start : Nat) :
    (ofBody raw start).start = start := rfl

@[simp] theorem Span.stop_ofBody (raw : Text) (start : Nat) :
    (ofBody raw start).stop = start + raw.bytes + 4 := rfl

/-! ### What a directive makes of its nodes -/

namespace Directive

/-- The kind of the nodes of a substitution and the names of its links, which are read from its raw
body. -/
def links : Directive → NodeKind × List Text
  | .comment => (.comment, [[]])
  | .substitution clauses =>
    if clauses.insert then (.insert, [clauses.path])
    else (.value, clauses.components.1 :: clauses.components.2)

def rewind : Directive → Nat
  | .comment => 0
  | .substitution clauses => clauses.rewind

def joining : Directive → Joining
  | .comment => ⟨[], false, false⟩
  | .substitution clauses => clauses.joining

end Directive

/-- The node is link `i` of the substitution with body `raw` that opens at byte `start`, and the
first link was laid out after `counts`. -/
structure Node.IsLink (node : Node) (counts : Counts) (start : Nat) (raw : Text) (i : Nat) :
    Prop where
  kind : node.kind = (Directive.read raw).links.1
  name : (Directive.read raw).links.2[i]? = some node.name
  shared : node.shared = counts.shared
  origin : node.origin = counts.nodes
  span : node.span = .ofBody raw start
  first : i = 0 → node.rewind = (Directive.read raw).rewind
  later : 0 < i → node.rewind = 0 ∧ node.leading = [] ∧ node.trailing = []

namespace Arena

/-- The links of a substitution are in the arena after `counts`. All but the last of them are filled
into the next one, and the last one into `last`. -/
structure ChainAt (arena : Arena) (counts : Counts) (start : Nat) (raw : Text) (more : Nat)
    (last : NodeTarget) : Prop where
  shared : arena.shared[counts.shared]? = some (Directive.read raw).joining
  length : (Directive.read raw).links.2.length = more + 1
  link : ∀ i ≤ more, ∃ node, arena.nodes[counts.nodes + i]? = some node ∧
    node.IsLink counts start raw i ∧
      node.target = if i < more then .inline (counts.bodies + i) else last
  between : ∀ i < more, arena.bodies[counts.bodies + i]? = some ⟨[[]], [counts.nodes + i + 1]⟩

end Arena

/-- Each substitution comes after a literal, and a last literal is left out when it is empty. So
literals and substitutions alternate. -/
def BodyEntry.Alternates (entry : BodyEntry) : Prop :=
  entry.statics.length = entry.substitutions.length ∨
    entry.statics.length = entry.substitutions.length + 1 ∧
      ∃ literal, entry.statics.getLast? = some literal ∧ literal ≠ []

/-- The substitutions `subs` and all that is inside them were laid out between two counts. They are
those of the source from byte `lo` to byte `hi`, and compiling it met the visits. -/
inductive Arena.Region (arena : Arena) :
    Nat → Nat → Counts → Counts → List Nat → List Visit → Prop
  | nil {lo hi : Nat} {c : Counts} : lo ≤ hi → Region arena lo hi c c [] []
  | leaf {lo hi start more : Nat} {raw : Text} {last : NodeTarget} {c d : Counts} {subs : List Nat}
    {visits : List Visit} :
    lo ≤ start → arena.ChainAt c start raw more last → (∀ b, last ≠ .inline b) →
    Region arena (start + raw.bytes + 4) hi ⟨c.nodes + more + 1, c.bodies + more, c.shared + 1⟩ d
      subs visits →
    Region arena lo hi c d (c.nodes :: subs) (⟨start + 2, raw⟩ :: visits)
  | inline {lo hi start more : Nat} {raw : Text} {entry : BodyEntry} {c mid d : Counts}
    {subs : List Nat} {inner visits : List Visit} :
    lo ≤ start → arena.ChainAt c start raw more (.inline (c.bodies + more)) →
    arena.bodies[c.bodies + more]? = some entry → entry.Alternates →
    Region arena (start + 2) (start + raw.bytes + 2)
      ⟨c.nodes + more + 1, c.bodies + more + 1, c.shared + 1⟩ mid entry.substitutions inner →
    Region arena (start + raw.bytes + 4) hi mid d subs visits →
    Region arena lo hi c d (c.nodes :: subs) (⟨start + 2, raw⟩ :: (inner ++ visits))

namespace Arena

variable {arena : Arena}

theorem Region.widen {lo hi lo' hi' : Nat} {c d : Counts} {subs : List Nat} {visits : List Visit}
    (h : arena.Region lo hi c d subs visits) (hlo : lo' ≤ lo) (hhi : hi ≤ hi') :
    arena.Region lo' hi' c d subs visits := by
  induction h generalizing lo' with
  | nil hle => exact .nil (Nat.le_trans hlo (Nat.le_trans hle hhi))
  | leaf hstart hchain hlast _ ih =>
    exact .leaf (Nat.le_trans hlo hstart) hchain hlast (ih (Nat.le_refl _) hhi)
  | inline hstart hchain hbody halt hinner _ _ ih =>
    exact .inline (Nat.le_trans hlo hstart) hchain hbody halt hinner (ih (Nat.le_refl _) hhi)

/-! ### Parts of an arena -/

/-- A part that was laid out after `counts` is in the arena, at the numbers that follow them. -/
structure Holds (arena : Arena) (counts : Counts) (part : Arena) : Prop where
  nodes : part.nodes <+: arena.nodes.drop counts.nodes
  bodies : part.bodies <+: arena.bodies.drop counts.bodies
  shared : part.shared <+: arena.shared.drop counts.shared

theorem cons_isPrefix_drop {α : Type} {a : α} {as l : List α} {n : Nat} (h : a :: as <+: l.drop n) :
    l[n]? = some a ∧ as <+: l.drop (n + 1) := by
  obtain ⟨rest, hrest⟩ := h
  refine ⟨?_, rest, ?_⟩
  · rw [← List.head?_drop, ← hrest]
    rfl
  · rw [← List.tail_drop, ← hrest]
    rfl

theorem append_isPrefix_drop {α : Type} {as bs l : List α} {n : Nat} (h : as ++ bs <+: l.drop n) :
    as <+: l.drop n ∧ bs <+: l.drop (n + as.length) := by
  obtain ⟨rest, hrest⟩ := h
  refine ⟨⟨bs ++ rest, by rw [← hrest, List.append_assoc]⟩, rest, ?_⟩
  rw [← List.drop_drop, ← hrest, List.append_assoc, List.drop_left]

theorem Holds.append {c : Counts} {a b : Arena} (h : arena.Holds c (a.append b)) :
    arena.Holds c a ∧ arena.Holds (c.after a) b := by
  obtain ⟨hnodes, hnodes'⟩ := append_isPrefix_drop h.nodes
  obtain ⟨hbodies, hbodies'⟩ := append_isPrefix_drop h.bodies
  obtain ⟨hshared, hshared'⟩ := append_isPrefix_drop h.shared
  exact ⟨⟨hnodes, hbodies, hshared⟩, hnodes', hbodies', hshared'⟩

end Arena

theorem Body.alternates_lay (counts : Counts) (body : Body) : (body.lay counts).1.Alternates := by
  match body with
  | .tail literal =>
    rw [Body.lay]
    cases literal with
    | nil => exact .inl rfl
    | cons c literal => exact .inr ⟨rfl, c :: literal, rfl, List.cons_ne_nil c literal⟩
  | .piece literal place action rest =>
    rw [Body.lay]
    rcases rest.alternates_lay (counts.after (action.lay place counts)) with
      h | ⟨h, last, hlast, hne⟩
    · exact .inl (congrArg (· + 1) h)
    · refine .inr ⟨congrArg (· + 1) h, last, ?_, hne⟩
      rw [List.getLast?_cons, hlast]
      rfl

/-- What there is when link `i` of a substitution is laid out, with `counts` before link 0. Each
link before it has a body. -/
def Counts.link (counts : Counts) (i : Nat) : Counts :=
  ⟨counts.nodes + i, counts.bodies + i, counts.shared + 1⟩

theorem Counts.after_cons (c : Counts) (node : Node) (entry : BodyEntry) (part : Arena) :
    c.after ⟨node :: part.nodes, entry :: part.bodies, part.shared⟩ =
      Counts.after ⟨c.nodes + 1, c.bodies + 1, c.shared⟩ part := by
  simp [after, Nat.add_assoc, Nat.add_comm 1]

/-- The links of a dotted name are laid out one after another, with the bodies between them, up to
the one that has the target. -/
theorem Arena.Holds.ofLinks {arena : Arena} {c : Counts} {start : Nat} {raw : Text} {chain : Chain}
    {node : Node} {names : List Text} {target : Target} {i : Nat}
    (hnode : node.IsLink c start raw i) (hown : node.target = .own)
    (hnames : (Directive.read raw).links.2.drop (i + 1) = names)
    (h : arena.Holds (c.link i) ((Target.ofLinks names target).lay chain node (c.link i))) :
    (∀ j, i ≤ j → j < i + names.length →
      (∃ link, arena.nodes[c.nodes + j]? = some link ∧ link.IsLink c start raw j ∧
        link.target = .inline (c.bodies + j)) ∧
      arena.bodies[c.bodies + j]? = some ⟨[[]], [c.nodes + j + 1]⟩) ∧
    ∃ last, last.IsLink c start raw (i + names.length) ∧ last.target = .own ∧
      arena.Holds (c.link (i + names.length))
        (target.lay chain last (c.link (i + names.length))) ∧
      (c.link i).after ((Target.ofLinks names target).lay chain node (c.link i)) =
        (c.link (i + names.length)).after
          (target.lay chain last (c.link (i + names.length))) := by
  -- Link `i` is the one being laid out, and `names` are those of the links after it.
  induction names generalizing node i with
  | nil =>
    refine ⟨fun j hle hlt => ?_, node, hnode, hown, h, rfl⟩
    rw [List.length_nil] at hlt
    omega
  | cons name names ih =>
    rw [Target.ofLinks, List.foldr_cons, ← Target.ofLinks, Target.lay] at h ⊢
    obtain ⟨hfirst, hnodes⟩ := cons_isPrefix_drop h.nodes
    obtain ⟨hbody, hbodies⟩ := cons_isPrefix_drop h.bodies
    have hdrop := congrArg List.head? hnames
    rw [List.head?_drop] at hdrop
    have hnext : ({ node with
        name := name, rewind := 0, leading := [], trailing := [], target := .own } : Node).IsLink
        c start raw (i + 1) :=
      { hnode with
        name := hdrop
        first := fun h => by cases h
        later := fun _ => ⟨rfl, rfl, rfl⟩ }
    have htail : (Directive.read raw).links.2.drop (i + 1 + 1) = names := by
      rw [← List.drop_drop, hnames]
      rfl
    obtain ⟨hlinks, last, hlast, htarget, hholds, hafter⟩ :=
      ih hnext rfl htail ⟨hnodes, hbodies, h.shared⟩
    rw [List.length_cons, ← Nat.add_assoc, Nat.add_right_comm]
    refine ⟨fun j hle hlt => ?_, last, hlast, htarget, hholds, ?_⟩
    · rcases Nat.eq_or_lt_of_le hle with rfl | hlt'
      · exact ⟨⟨_, hfirst, { hnode with }, rfl⟩, hbody⟩
      · exact hlinks j hlt' hlt
    · rw [← hafter]
      exact Counts.after_cons _ _ _ _

/-! ### Bodies and targets -/

/-- Wherever it is laid out, the body becomes a region between the bytes `lo` and `hi`. -/
def Body.LaidOut (lo hi : Nat) (body : Body) (visits : List Visit) : Prop :=
  ∀ (arena : Arena) (c : Counts), arena.Holds c (body.lay c).2 →
    arena.Region lo hi c (c.after (body.lay c).2) (body.lay c).1.substitutions visits

/-- The body of a target becomes a region, and a target without a body has nothing to become. -/
inductive Target.LaidOut (lo hi : Nat) : Target → List Visit → Prop
  | own : LaidOut lo hi .own []
  | named (name : Text) : LaidOut lo hi (.named name) []
  | inline {body : Body} {visits : List Visit} : body.LaidOut lo hi visits →
    LaidOut lo hi (.inline body) visits

namespace Arena

variable {arena : Arena} {c d : Counts} {start : Nat} {raw : Text} {visits : List Visit}

/-- A substitution with all that is inside it was laid out between two counts, and its span is in
the arena. -/
inductive Stands (arena : Arena) (start : Nat) (raw : Text) (c : Counts) :
    Counts → List Visit → Prop
  | leaf {more : Nat} {last : NodeTarget} : arena.ChainAt c start raw more last →
    (∀ b, last ≠ .inline b) →
    Stands arena start raw c ⟨c.nodes + more + 1, c.bodies + more, c.shared + 1⟩ []
  | inline {more : Nat} {entry : BodyEntry} {d : Counts} {visits : List Visit} :
    arena.ChainAt c start raw more (.inline (c.bodies + more)) →
    arena.bodies[c.bodies + more]? = some entry → entry.Alternates →
    arena.Region (start + 2) (start + raw.bytes + 2)
      ⟨c.nodes + more + 1, c.bodies + more + 1, c.shared + 1⟩ d entry.substitutions visits →
    Stands arena start raw c d visits

theorem Stands.region_cons {mid : Counts} {lo hi : Nat} {subs : List Nat} {inner : List Visit}
    (h : arena.Stands start raw c mid inner) (hlo : lo ≤ start)
    (hrest : arena.Region (start + raw.bytes + 4) hi mid d subs visits) :
    arena.Region lo hi c d (c.nodes :: subs) (⟨start + 2, raw⟩ :: (inner ++ visits)) := by
  cases h with
  | leaf hchain hlast => exact .leaf hlo hchain hlast hrest
  | inline hchain hbody halt hinner => exact .inline hlo hchain hbody halt hinner hrest

/-- The last link of a substitution is filled into its target, and then all of the substitution
stands in the arena. -/
theorem Holds.stands {target : Target} {chain : Chain} {last : Node} {more : Nat}
    (hshared : arena.shared[c.shared]? = some (Directive.read raw).joining)
    (hlength : (Directive.read raw).links.2.length = more + 1)
    (hlinks : ∀ j < more,
      (∃ link, arena.nodes[c.nodes + j]? = some link ∧ link.IsLink c start raw j ∧
        link.target = .inline (c.bodies + j)) ∧
      arena.bodies[c.bodies + j]? = some ⟨[[]], [c.nodes + j + 1]⟩)
    (hlast : last.IsLink c start raw more) (hown : last.target = .own)
    (h : arena.Holds (c.link more) (target.lay chain last (c.link more)))
    (htarget : target.LaidOut (start + 2) (start + raw.bytes + 2) visits) :
    arena.Stands start raw c ((c.link more).after (target.lay chain last (c.link more)))
      visits := by
  -- Whatever the last link is filled into, the links before it are the same.
  have hchain {node : Node} (hnode : arena.nodes[c.nodes + more]? = some node)
      (hlink : node.IsLink c start raw more) : arena.ChainAt c start raw more node.target := by
    refine ⟨hshared, hlength, fun i hi => ?_, fun i hi => (hlinks i hi).2⟩
    rcases Nat.eq_or_lt_of_le hi with rfl | hlt
    · exact ⟨node, hnode, hlink, by rw [if_neg (Nat.lt_irrefl i)]⟩
    · obtain ⟨link, hget, hlink, heq⟩ := (hlinks i hlt).1
      exact ⟨link, hget, hlink, by rw [if_pos hlt, heq]⟩
  cases htarget with
  | own =>
    rw [Target.lay] at h ⊢
    have hnode := hchain (cons_isPrefix_drop h.nodes).1 hlast
    exact .leaf hnode fun b hb => by rw [hown] at hb; cases hb
  | named name =>
    rw [Target.lay] at h ⊢
    have hnode := hchain (cons_isPrefix_drop h.nodes).1 { hlast with }
    exact .leaf hnode fun b hb => by cases hb
  | @inline body _ hbody =>
    rw [Target.lay] at h ⊢
    obtain ⟨hfirst, hnodes⟩ := cons_isPrefix_drop h.nodes
    obtain ⟨hentry, hbodies⟩ := cons_isPrefix_drop h.bodies
    have hregion := hbody arena _ ⟨hnodes, hbodies, h.shared⟩
    rw [Counts.after_cons]
    exact .inline (hchain hfirst { hlast with }) hentry (body.alternates_lay _) hregion

/-- A substitution is its first link with what that one is filled into, be it one link or
several. -/
theorem Holds.stands_head {kind : NodeKind} {name : Text} {names : List Text} {rewind : Nat}
    {target : Target} {node : Node} {part : Arena} (place : Placement)
    (hlinks : (Directive.read raw).links = (kind, name :: names))
    (hrewind : (Directive.read raw).rewind = rewind)
    (hjoining : (Directive.read raw).joining = place.joining)
    (hspan : place.span = .ofBody raw start)
    (htarget : target.LaidOut (start + 2) (start + raw.bytes + 2) visits)
    (hnode : node = Chain.head ⟨c.shared, c.nodes, place.span⟩ kind name rewind place)
    (hpart : part = (Target.ofLinks names target).lay ⟨c.shared, c.nodes, place.span⟩ node
      (c.link 0))
    (h : arena.Holds c { part with shared := place.joining :: part.shared }) :
    arena.Stands start raw c (c.after { part with shared := place.joining :: part.shared })
      visits := by
  obtain ⟨hshared, hrest⟩ := cons_isPrefix_drop h.shared
  have hhead : node.IsLink c start raw 0 := by
    subst hnode
    refine ⟨?_, ?_, rfl, rfl, hspan, fun _ => hrewind.symm, fun h => absurd h (Nat.lt_irrefl 0)⟩
    · rw [hlinks]
      rfl
    · rw [hlinks]
      rfl
  have hown : node.target = .own := by
    rw [hnode]
    rfl
  have hcounts : (c.link 0).after part =
      c.after { part with shared := place.joining :: part.shared } := by
    simp [Counts.after, Counts.link, Nat.add_assoc, Nat.add_comm 1]
  have hholds : arena.Holds (c.link 0) part := ⟨h.nodes, h.bodies, hrest⟩
  rw [← hcounts]
  subst hpart
  obtain ⟨hbetween, last, hlast, hown, hholds, hafter⟩ :=
    hholds.ofLinks hhead hown (by rw [hlinks]; rfl)
  rw [Nat.zero_add] at hbetween hlast hholds hafter
  rw [hafter]
  exact hholds.stands (hjoining ▸ hshared) (by rw [hlinks]; rfl)
    (fun j hj => hbetween j (Nat.zero_le j) hj) hlast hown htarget

end Arena

theorem Counts.after_append (c : Counts) (a b : Arena) :
    c.after (a.append b) = (c.after a).after b := by
  simp [after, Arena.append, Nat.add_assoc]

theorem Body.laidOut_tail {lo hi : Nat} (literal : Text) (h : lo ≤ hi) :
    (Body.tail literal).LaidOut lo hi [] := by
  intro arena c _
  rw [Body.lay]
  exact .nil h

theorem Body.LaidOut.widen {lo hi lo' hi' : Nat} {body : Body} {visits : List Visit}
    (h : body.LaidOut lo hi visits) (hlo : lo' ≤ lo) (hhi : hi ≤ hi') :
    body.LaidOut lo' hi' visits :=
  fun arena c hholds => (h arena c hholds).widen hlo hhi

theorem Body.LaidOut.piece {lo hi start : Nat} {raw literal : Text} {place : Placement}
    {action : Action} {after : Body} {inner visits : List Visit} (hlo : lo ≤ start)
    (haction : ∀ (arena : Arena) (c : Counts), arena.Holds c (action.lay place c) →
      arena.Stands start raw c (c.after (action.lay place c)) inner)
    (hafter : after.LaidOut (start + raw.bytes + 4) hi visits) :
    (Body.piece literal place action after).LaidOut lo hi
      (⟨start + 2, raw⟩ :: (inner ++ visits)) := by
  intro arena c h
  rw [Body.lay] at h ⊢
  obtain ⟨hfirst, hrest⟩ := h.append
  rw [Counts.after_append]
  exact (haction arena c hfirst).region_cons hlo (hafter arena _ hrest)

/-! ### Stretches of the source -/

/-- The bodies of an outline lie one after another from byte `lo` to byte `hi`, with their
braces. -/
def Outline.Within (lo hi : Nat) : Outline → Prop
  | .done => lo ≤ hi
  | .broken _ => True
  | .body raw start _ rest => lo ≤ start ∧ rest.Within (start + raw.bytes + 4) hi

namespace Outline

theorem Within.widen {lo lo' hi : Nat} {outline : Outline} (h : outline.Within lo hi)
    (hlo : lo' ≤ lo) : outline.Within lo' hi := by
  cases outline with
  | done => exact Nat.le_trans hlo h
  | broken error => trivial
  | body raw start literal rest => exact ⟨Nat.le_trans hlo h.1, h.2⟩

theorem within_ofLexemes (start : Nat) (ls : List Lexeme) :
    (ofTokens (Scan.ofLexemes start ls).failure (Scan.ofLexemes start ls).tokens).2.Within start
      (start + Text.bytes (Lexeme.write ls)) := by
  fun_induction Scan.ofLexemes start ls with
  | case1 start => exact Nat.le_refl start
  | case3 | case4 | case6 => trivial
  | case2 start b rest ih =>
    rw [Nat.add_assoc] at ih
    rw [Lexeme.write_cons, Text.bytes_append, Lexeme.bytes_text_escaped]
    exact ih.widen (Nat.le_add_right start 2)
  | case5 start rest body after hclose _ raw ih =>
    have hbytes : start + Text.bytes (Lexeme.write (.opening :: rest)) =
        start + raw.bytes + 4 + Text.bytes (Lexeme.write after) := by
      rw [Lexeme.eq_append_of_closeBody hclose]
      simp only [Lexeme.write_cons, Lexeme.write_append, Text.bytes_append,
        Lexeme.bytes_text_opening, Lexeme.bytes_text_closing, raw]
      omega
    rw [hbytes]
    exact ⟨Nat.le_refl start, ih⟩
  | case7 start c rest _ run after _ ih =>
    have hwrite : Lexeme.write (.plain c :: rest) = run ++ Lexeme.write after := by
      rw [Lexeme.write_cons, ← Lexeme.write_plainRun rest]
      rfl
    rw [Nat.add_assoc, ← Text.bytes_append, ← hwrite] at ih
    exact ih.widen (Nat.le_add_right start _)

theorem within_ofSource (start : Nat) (source : Text) :
    (ofSource start source).2.Within start (start + source.bytes) := by
  have h := within_ofLexemes start (Lexeme.readAll source)
  rwa [Lexeme.write_readAll] at h

end Outline

theorem bytes_unescapeTail_le (inline : Text) :
    Text.bytes (unescapeTail inline) ≤ Text.bytes inline := by
  obtain hsame | ⟨front, tail, -, hinline, hresolved⟩ := unescapeTail_cases inline
  · exact Nat.le_of_eq (congrArg Text.bytes hsame)
  · rw [hresolved, hinline]
    simp only [Text.bytes_append, Text.bytes_cons]
    omega

/-- The inline template of a data section ends before the first `room` bytes of the body do. So
spans inside are inside. -/
def DataClause.Fits (room : Nat) (data : Option DataClause) : Prop :=
  ∀ source offset, data = some (.inline source offset) → offset + Text.bytes source ≤ room

theorem Clauses.fits_read (raw : Text) : DataClause.Fits raw.bytes (read raw).data := by
  intro source offset h
  obtain ⟨head, kept, after, hraw, rfl, rfl, -⟩ := inline_read h
  have hkept := bytes_unescapeTail_le kept
  have hbar : Char.utf8Size '|' = 1 := rfl
  have hbang : Char.utf8Size '!' = 1 := rfl
  rw [hraw]
  simp only [Text.bytes_append, Text.bytes_cons, hbar, hbang]
  omega

/-! ### Compiling -/

/-- A compilation lays out what it met: the visits of each part are what its region shows. -/
theorem laidOut_rules : CompileRules
    (fun start source draft => ∀ body, draft.result = .ok body →
      body.LaidOut start (start + source.bytes) draft.visits)
    (fun _ _ outline draft => ∀ lo hi body, outline.Within lo hi → draft.result = .ok body →
      body.LaidOut lo hi draft.visits)
    (fun start data draft => ∀ room target, DataClause.Fits room data →
      draft.result = .ok target → target.LaidOut start (start + room) draft.visits) where
  source {start source} _ h body hbody := h _ _ body (Outline.within_ofSource start source) hbody
  done _ literal lo hi body hle hbody := by
    cases hbody
    exact Body.laidOut_tail literal hle
  broken _ _ _ _ _ _ _ hbody := by cases hbody
  fault _ _ _ _ _ _ hbody := by cases hbody
  comment {_ _ raw _ start _ draft} hread h lo hi body hwithin hbody := by
    obtain ⟨after, hafter, rfl⟩ := Draft.result_map_eq_ok.1 hbody
    have hlinks : (Directive.read raw).links = (.comment, [[]]) := by
      rw [hread]
      rfl
    change Body.LaidOut lo hi _ (⟨start + 2, raw⟩ :: ([] ++ draft.visits))
    refine .piece hwithin.1 (fun arena c hholds => ?_) (h _ _ after hwithin.2 hafter)
    rw [Action.lay] at hholds ⊢
    exact Arena.Holds.stands_head (.ofComment (.ofBody raw start)) hlinks (by rw [hread]; rfl)
      (by rw [hread]; rfl) rfl .own rfl rfl hholds
  insert {_ _ raw _ start _ clauses draft} hread _ hinsert h lo hi body hwithin hbody := by
    obtain ⟨after, hafter, rfl⟩ := Draft.result_map_eq_ok.1 hbody
    have hlinks : (Directive.read raw).links = (.insert, [clauses.path]) := by
      rw [hread, Directive.links, if_pos hinsert]
    change Body.LaidOut lo hi _ (⟨start + 2, raw⟩ :: ([] ++ draft.visits))
    refine .piece hwithin.1 (fun arena c hholds => ?_) (h _ _ after hwithin.2 hafter)
    rw [Action.lay] at hholds ⊢
    exact Arena.Holds.stands_head (clauses.place _ _ _ _) hlinks (by rw [hread]; rfl)
      (by rw [hread]; rfl) rfl .own rfl rfl hholds
  value {_ _ raw _ start _ clauses data draft} hread _ hinsert hdata h lo hi body hwithin
      hbody := by
    obtain ⟨target, htarget, hbody⟩ := Draft.result_andThen_eq_ok.1 hbody
    obtain ⟨after, hafter, rfl⟩ := Draft.result_map_eq_ok.1 hbody
    have hlinks : (Directive.read raw).links =
        (.value, clauses.components.1 :: clauses.components.2) := by
      rw [hread, Directive.links, hinsert]
      rfl
    have hfits : DataClause.Fits raw.bytes clauses.data :=
      Directive.clauses_of_read hread ▸ Clauses.fits_read raw
    have hinner := hdata raw.bytes target hfits htarget
    rw [Nat.add_right_comm] at hinner
    rw [Draft.visit, Draft.andThen, htarget]
    refine .piece hwithin.1 (fun arena c hholds => ?_) (h _ _ after hwithin.2 hafter)
    rw [Action.lay] at hholds ⊢
    exact Arena.Holds.stands_head (clauses.place _ _ _ _) hlinks (by rw [hread]; rfl)
      (by rw [hread]; rfl) rfl hinner rfl rfl hholds
  own _ _ hdata room target _ htarget := by
    cases htarget
    exact .own
  named _ c name room target _ htarget := by
    cases htarget
    exact .named (c :: name)
  inline {start offset source _} h room target hfits htarget := by
    obtain ⟨body, hbody, rfl⟩ := Draft.result_map_eq_ok.1 htarget
    have hroom := hfits source offset rfl
    exact .inline ((h body hbody).widen (Nat.le_add_right start offset) (by omega))

/-- A compiled template is one region, and body 0 holds its substitutions. All that is said of
arenas is derived from this. -/
theorem Compiled.region {source : Text} {compiled : Compiled} (h : compile source = .ok compiled) :
    ∃ entry, compiled.arena.bodies[0]? = some entry ∧ entry.Alternates ∧
      compiled.arena.Region 0 source.bytes ⟨0, 1, 0⟩ ⟨compiled.arena.nodes.length,
        compiled.arena.bodies.length, compiled.arena.shared.length⟩ entry.substitutions
        (visits source) := by
  obtain ⟨-, hroot⟩ := compile_eq_ok.1 h
  have hlaid := laidOut_rules.compileSource 0 source compiled.root hroot
  have hregion := hlaid compiled.arena ⟨0, 1, 0⟩
    ⟨List.prefix_refl _, List.prefix_refl _, List.prefix_refl _⟩
  refine ⟨_, rfl, compiled.root.alternates_lay _, ?_⟩
  rw [Nat.zero_add] at hregion
  have hcounts : Counts.after ⟨0, 1, 0⟩ (compiled.root.lay ⟨0, 1, 0⟩).2 =
      ⟨compiled.arena.nodes.length, compiled.arena.bodies.length,
        compiled.arena.shared.length⟩ := by
    simp [Counts.after, Compiled.arena, Body.arena, Nat.add_comm 1]
  rwa [hcounts] at hregion

end Stencil
