import Stencil.Proofs.Layout
import Stencil.Proofs.NormalPaths

/-!
# Plain sources

A source is plain if no brace stands before the mark of an inline template, in any of its
substitutions. An inline template of a plain source then has all the braces of the body around it,
so that it can be cut to its end because the body was. What is left to reject are substitutions that
are malformed themselves, and the error is about the first one of them.
-/
namespace Stencil

open Lexeme

/-! ### The braces of an inline template -/

/-- Text without braces at the end leaves open what was open, and closes nothing. -/
theorem openAfter_append_braceless (x : Text) {y : Text} (hy : y.Braceless) (depth : Nat) :
    openAfter depth (readAll (x ++ y)) = openAfter depth (readAll x) := by
  have hseam : Seam x y := seam_of_head fun d hd => hy d (List.mem_of_mem_head? hd)
  rw [readAll_append hseam, openAfter_append, readAll_of_braceless hy]
  simp

theorem openAfter_unescapeTail (inline : Text) (depth : Nat) :
    openAfter depth (readAll (unescapeTail inline)) = openAfter depth (readAll inline) := by
  obtain hsame | ⟨front, tail, htail, hinline, hresolved⟩ := unescapeTail_cases inline
  · rw [hsame]
  · have hmarker : Text.Braceless ('>' :: tail) := List.forall_mem_cons.2 ⟨by decide, htail⟩
    have hescaped : Text.Braceless ('\\' :: '>' :: tail) :=
      List.forall_mem_cons.2 ⟨by decide, hmarker⟩
    rw [hresolved, hinline, openAfter_append_braceless front hmarker,
      openAfter_append_braceless front hescaped]

/-- What stands before the mark of an inline template in a body, if it has one. -/
def Text.headOfInline? (raw : Text) : Option Text :=
  match Directive.read raw with
  | .comment => none
  | .substitution clauses =>
    match clauses.data with
    | some (.inline _ offset) => some (raw.takeBytes (offset - 2))
    | some (.named _) => none
    | none => none

/-- No brace stands before the mark of an inline template, so that all braces of the body belong to
it. -/
def Text.HasPlainHead (raw : Text) : Prop :=
  ∀ head ∈ raw.headOfInline?, head.Braceless

instance (raw : Text) : Decidable raw.HasPlainHead :=
  inferInstanceAs (Decidable (∀ head ∈ raw.headOfInline?, Text.Braceless head))

theorem headOfInline?_read {raw inline : Text} {clauses : Clauses} {offset : Nat}
    (hread : Directive.read raw = .substitution clauses)
    (hdata : clauses.data = some (.inline inline offset)) :
    ∃ head kept after : Text, raw = head ++ '|' :: '!' :: (kept ++ after) ∧
      raw.headOfInline? = some head ∧ inline = unescapeTail kept ∧ after.Braceless := by
  have hhead : raw.headOfInline? = some (raw.takeBytes (offset - 2)) := by
    simp only [Text.headOfInline?, hread, hdata]
  rw [← Directive.clauses_of_read hread] at hdata
  obtain ⟨head, kept, after, hraw, rfl, hinline, hafter⟩ := Clauses.inline_read hdata
  refine ⟨head, kept, after, hraw, ?_, hinline, hafter⟩
  rw [hhead, hraw, Nat.add_sub_cancel, Text.takeBytes_bytes_append]

/-- After a plain head, an inline template has all the braces of the body, and is balanced because
the body is. -/
theorem balanced_inline {raw inline : Text} {clauses : Clauses} {offset : Nat}
    (hread : Directive.read raw = .substitution clauses)
    (hdata : clauses.data = some (.inline inline offset)) (hplain : raw.HasPlainHead)
    (h : Balanced (readAll raw)) : Balanced (readAll inline) := by
  obtain ⟨head, kept, after, hraw, hhead, rfl, hafter⟩ := headOfInline?_read hread hdata
  have hbar : Text.Braceless ['|', '!'] := by decide
  have hmark : Text.Braceless (head ++ ['|', '!']) :=
    List.forall_mem_append.2 ⟨hplain head hhead, hbar⟩
  have hlast : (head ++ ['|', '!']).getLast? ≠ some '\\' := by simp
  have hopen : openAfter 0 (readAll raw) = openAfter 0 (readAll (kept ++ after)) := by
    rw [hraw, show head ++ '|' :: '!' :: (kept ++ after) = head ++ ['|', '!'] ++ (kept ++ after) by
      simp, Text.readAll_braceless_append hmark hlast, openAfter_append, openAfter_plain]
    rfl
  rw [balanced_iff] at h ⊢
  rw [openAfter_unescapeTail, ← openAfter_append_braceless kept hafter, ← hopen, h]

/-! ### Substitutions at any depth -/

/-- The outline of an inline template, in a body that starts at byte `start`, with offsets in the
outermost source. -/
def DataClause.outline (start : Nat) : Option DataClause → Outline
  | some (.inline source offset) => (Outline.ofSource (start + offset) source).2
  | some (.named _) => .done
  | none => .done

/-- The outline of the inline template of a substitution that opens at byte `start`, and an empty
one if it has none. -/
def Directive.outline (start : Nat) : Directive → Outline
  | .comment => .done
  | .substitution clauses => DataClause.outline (start + 2) clauses.data

theorem Directive.outline_cases (start : Nat) (raw : Text) :
    (Directive.read raw).outline start = .done ∨ ∃ clauses source offset,
      Directive.read raw = .substitution clauses ∧ clauses.data = some (.inline source offset) ∧
        (Directive.read raw).outline start = (Outline.ofSource (start + 2 + offset) source).2 := by
  cases hread : Directive.read raw with
  | comment => exact .inl rfl
  | substitution clauses =>
    rw [outline]
    match hdata : clauses.data with
    | none => exact .inl rfl
    | some (.named name) => exact .inl rfl
    | some (.inline source offset) => exact .inr ⟨clauses, source, offset, rfl, hdata, rfl⟩

/-- A substitution with body `raw` opens at byte `start`, in the outline or in an inline template of
one of its substitutions. -/
inductive Outline.Opens : Outline → Nat → Text → Prop
  | here {raw literal : Text} {start : Nat} {rest : Outline} :
    Opens (.body raw start literal rest) start raw
  | inside {raw raw' literal : Text} {start start' : Nat} {rest : Outline} :
    Opens ((Directive.read raw).outline start) start' raw' →
    Opens (.body raw start literal rest) start' raw'
  | later {raw raw' literal : Text} {start start' : Nat} {rest : Outline} :
    Opens rest start' raw' → Opens (.body raw start literal rest) start' raw'

theorem Outline.forall_opens {p : Nat → Text → Prop} {raw literal : Text} {start : Nat}
    {rest : Outline} (hraw : p start raw)
    (hinside : ∀ start' raw', ((Directive.read raw).outline start).Opens start' raw' →
      p start' raw')
    (hrest : ∀ start' raw', rest.Opens start' raw' → p start' raw') :
    ∀ start' raw', (Outline.body raw start literal rest).Opens start' raw' → p start' raw' := by
  intro start' raw' h
  cases h with
  | here => exact hraw
  | inside h => exact hinside start' raw' h
  | later h => exact hrest start' raw' h

/-- A substitution of the source, or of an inline template in it, has the body `raw` and opens at
byte `start` of the source. -/
def Text.Opens (source : Text) : Nat → Text → Prop :=
  (Outline.ofSource 0 source).2.Opens

def Outline.Plain (outline : Outline) : Prop :=
  ∀ start raw, outline.Opens start raw → raw.HasPlainHead

theorem Outline.plain_done : Outline.done.Plain := by
  intro start raw hopens
  cases hopens

theorem Outline.plain_body {raw literal : Text} {start : Nat} {rest : Outline}
    (hraw : raw.HasPlainHead) (hinside : ((Directive.read raw).outline start).Plain)
    (hrest : rest.Plain) : (Outline.body raw start literal rest).Plain :=
  forall_opens hraw hinside hrest

/-- No brace stands before the mark of an inline template, at any depth. Comments are not read and
may have any braces. -/
def Text.Plain (source : Text) : Prop :=
  ∀ start raw, source.Opens start raw → raw.HasPlainHead

/-! ### Malformed substitutions -/

/-- What is wrong with a substitution, given by its clauses alone. What is inside of it does not
count. -/
inductive Clauses.Malformed (clauses : Clauses) : SyntaxFault → Prop
  | insertData : clauses.insert = true → clauses.join ≠ none ∨ clauses.data ≠ none →
    Malformed clauses .insertData
  | emptyInsertion : clauses.insert = true → clauses.join = none → clauses.data = none →
    clauses.path = [] → Malformed clauses .emptyName
  /-- A dotted name with a component of nothing but blanks, or of nothing at all. -/
  | emptyComponent {component : Text} : clauses.insert = false → '.' ∈ clauses.path →
    component ∈ List.splitOn '.' clauses.path → component.trim = [] →
    Malformed clauses .emptyName

def Directive.Malformed : Directive → SyntaxFault → Prop
  | .comment, _ => False
  | .substitution clauses, fault => clauses.Malformed fault

def Directive.WellFormed (directive : Directive) : Prop :=
  ∀ fault, ¬ directive.Malformed fault

theorem Text.splitOn_snd_eq_nil {sep : Char} {t : Text} : (splitOn sep t).2 = [] ↔ sep ∉ t := by
  induction t with
  | nil => simp [splitOn]
  | cons c rest ih =>
    by_cases hc : c = sep
    · simp [splitOn, hc]
    · have hne : sep ≠ c := fun h => hc h.symm
      simp [splitOn, hc, hne, ih]

namespace Clauses

/-- A dotted name has an empty component: this is what the test of the components comes to. -/
theorem any_components_isEmpty {clauses : Clauses} :
    (!clauses.components.2.isEmpty &&
        (clauses.components.1 :: clauses.components.2).any List.isEmpty) = true ↔
      '.' ∈ clauses.path ∧
        ∃ component ∈ List.splitOn '.' clauses.path, Text.trim component = [] := by
  have hdot : clauses.components.2 = [] ↔ '.' ∉ clauses.path := by
    rw [← Text.splitOn_snd_eq_nil]
    exact List.map_eq_nil_iff
  have hmap : clauses.components.1 :: clauses.components.2 =
      (List.splitOn '.' clauses.path).map Text.trim := by
    rw [← Text.splitOn_eq]
    rfl
  rw [hmap, Bool.and_eq_true]
  simp [hdot]

theorem fault?_of_value {clauses : Clauses} (hinsert : clauses.insert = false) :
    clauses.fault? =
      if !clauses.components.2.isEmpty &&
        (clauses.components.1 :: clauses.components.2).any List.isEmpty then some .emptyName
      else none := by
  rw [fault?, hinsert]
  rfl

/-- The check finds what is wrong, and finds nothing else. So it decides whether a substitution is
malformed. -/
theorem fault?_eq_some_iff {clauses : Clauses} {fault : SyntaxFault} :
    clauses.fault? = some fault ↔ clauses.Malformed fault := by
  have hsections : (clauses.join.isSome || clauses.data.isSome) = true ↔
      clauses.join ≠ none ∨ clauses.data ≠ none := by
    simp [Option.isSome_iff_ne_none]
  constructor
  · intro h
    cases hinsert : clauses.insert with
    | true =>
      rw [fault?, if_pos hinsert] at h
      split_ifs at h with hdata hpath
      · cases h
        exact .insertData hinsert (hsections.1 hdata)
      · cases h
        rw [hsections, not_or, not_not, not_not] at hdata
        exact .emptyInsertion hinsert hdata.1 hdata.2 (List.isEmpty_iff.1 hpath)
    | false =>
      rw [fault?_of_value hinsert] at h
      split_ifs at h with hempty
      cases h
      obtain ⟨hdot, component, hmem, htrim⟩ := any_components_isEmpty.1 hempty
      exact .emptyComponent hinsert hdot hmem htrim
  · intro h
    cases h with
    | insertData hinsert hdata => rw [fault?, if_pos hinsert, if_pos (hsections.2 hdata)]
    | emptyInsertion hinsert hjoin hnone hpath => simp [fault?, hinsert, hjoin, hnone, hpath]
    | emptyComponent hinsert hdot hmem htrim =>
      rw [fault?_of_value hinsert, if_pos (any_components_isEmpty.2 ⟨hdot, _, hmem, htrim⟩)]

end Clauses

theorem Directive.wellFormed_of_fault? {raw : Text} {clauses : Clauses}
    (hread : Directive.read raw = .substitution clauses) (h : clauses.fault? = none) :
    (Directive.read raw).WellFormed := by
  intro fault hfault
  rw [hread] at hfault
  have hsome := Clauses.fault?_eq_some_iff.2 hfault
  rw [h] at hsome
  cases hsome

/-- A well-formed insertion has no inline template, so that nothing is opened inside of it. -/
theorem Directive.outline_insert {raw : Text} {clauses : Clauses} (start : Nat)
    (hread : Directive.read raw = .substitution clauses) (h : clauses.fault? = none)
    (hinsert : clauses.insert = true) : (Directive.read raw).outline start = .done := by
  have hdata : clauses.data = none := by
    by_contra hdata
    have hsome := Clauses.fault?_eq_some_iff.2 (.insertData hinsert (.inr hdata))
    rw [h] at hsome
    cases hsome
  rw [hread, outline, hdata]
  rfl

/-! ### Order -/

/-- What holds of each body of an outline, with the byte where its braces open. Inline templates are
not meant. -/
def Outline.Each (p : Text → Nat → Prop) : Outline → Prop
  | .done => True
  | .broken _ => True
  | .body raw start _ rest => p raw start ∧ rest.Each p

namespace Outline

theorem each_ofTokens {p : Text → Nat → Prop} {failure : Option SyntaxError} {tokens : List Token}
    (h : ∀ raw start, .body raw start ∈ tokens → p raw start) :
    (ofTokens failure tokens).2.Each p := by
  induction tokens with
  | nil => cases failure <;> trivial
  | cons token tokens ih =>
    have hrest := ih fun raw start hmem => h raw start (List.mem_cons_of_mem token hmem)
    cases token with
    | literal run => exact hrest
    | brace b => exact hrest
    | body raw start => exact ⟨h raw start List.mem_cons_self, hrest⟩

/-- The bodies of a source are balanced, as cutting has found the braces that close them. -/
theorem balanced_ofSource (start : Nat) (source : Text) :
    (ofSource start source).2.Each fun raw _ => Balanced (readAll raw) :=
  each_ofTokens fun raw start hmem =>
    Scan.sound_ofLexemes (greedy_readAll source) (.body raw start) hmem

/-- The bodies of a source end before the source does, with their four braces. -/
theorem endsBy_ofSource (start : Nat) (source : Text) :
    (ofSource start source).2.Each fun raw offset =>
      offset + raw.bytes + 4 ≤ start + source.bytes := by
  apply each_ofTokens
  intro raw offset hmem
  have hstands := Scan.standsIn_ofLexemes start (readAll source) _ hmem
  rw [write_readAll] at hstands
  obtain ⟨_, rfl, before, after, rfl, rfl⟩ := hstands
  simp only [Text.bytes_append, bytes_enclose]
  omega

theorem Each.mono {p q : Text → Nat → Prop} {outline : Outline} (h : outline.Each p)
    (hpq : ∀ raw start, p raw start → q raw start) : outline.Each q := by
  induction outline with
  | done => trivial
  | broken error => trivial
  | body raw start literal rest ih => exact ⟨hpq raw start h.1, ih h.2⟩

/-- An inline template begins after the braces that open before it, and all that is inside of it
does. -/
theorem within_outline (start : Nat) (raw : Text) :
    ∃ hi, ((Directive.read raw).outline start).Within start hi := by
  obtain houtline | ⟨clauses, source, offset, -, -, houtline⟩ := Directive.outline_cases start raw
  · rw [houtline]
    exact ⟨start, Nat.le_refl start⟩
  · rw [houtline]
    exact ⟨_, (within_ofSource (start + 2 + offset) source).widen (by omega)⟩

/-- An inline template ends before the braces that close after it. So what is inside comes before
what follows the body. -/
theorem endsBy_outline (start : Nat) (raw : Text) :
    ((Directive.read raw).outline start).Each fun inner offset =>
      offset + inner.bytes + 4 ≤ start + raw.bytes + 2 := by
  obtain houtline | ⟨clauses, source, offset, hread, hdata, houtline⟩ :=
    Directive.outline_cases start raw
  · rw [houtline]
    trivial
  · have hfits := Clauses.fits_read raw source offset
    rw [Directive.clauses_of_read hread] at hfits
    have hroom := hfits hdata
    rw [houtline]
    apply (endsBy_ofSource (start + 2 + offset) source).mono
    intro inner offset h
    omega

theorem Within.le_of_opens {outline : Outline} {lo hi start : Nat} {raw : Text}
    (hwithin : outline.Within lo hi) (h : outline.Opens start raw) : lo ≤ start := by
  induction h generalizing lo hi with
  | here => exact hwithin.1
  | @inside raw _ _ start _ _ _ ih =>
    obtain ⟨hi', hinside⟩ := within_outline start raw
    exact Nat.le_trans hwithin.1 (ih hinside)
  | later _ ih =>
    have hle := ih hwithin.2
    have hlo := hwithin.1
    omega

theorem Each.lt_of_opens {outline : Outline} {hi start : Nat} {raw : Text}
    (heach : outline.Each fun raw offset => offset + raw.bytes + 4 ≤ hi)
    (h : outline.Opens start raw) : start < hi := by
  induction h generalizing hi with
  | here =>
    have hle := heach.1
    omega
  | @inside raw _ _ start _ _ _ ih =>
    have hlt := ih (endsBy_outline start raw)
    have hle := heach.1
    omega
  | later _ ih => exact ih heach.2

/-! ### How a compilation ends -/

/-- The error at the end of an outline, which is that of the cut. -/
def failure? : Outline → Option SyntaxError
  | .done => none
  | .broken error => some error
  | .body _ _ _ rest => rest.failure?

theorem failure?_ofTokens (failure : Option SyntaxError) (tokens : List Token) :
    (ofTokens failure tokens).2.failure? = failure := by
  induction tokens with
  | nil => cases failure <;> rfl
  | cons token tokens ih => cases token <;> exact ih

theorem failure?_ofSource (start : Nat) (source : Text) :
    (ofSource start source).2.failure? = (Scan.ofSource start source).failure :=
  failure?_ofTokens _ _

/-- After a plain head, an inline template can be cut to its end, so that no error comes from
there. -/
theorem failure?_outline {raw : Text} (hraw : Balanced (readAll raw)) (hplain : raw.HasPlainHead)
    (start : Nat) : ((Directive.read raw).outline start).failure? = none := by
  obtain houtline | ⟨clauses, source, offset, hread, hdata, houtline⟩ :=
    Directive.outline_cases start raw
  · rw [houtline]
    rfl
  · rw [houtline, failure?_ofSource]
    exact (Scan.verdict_ofLexemes _ _).eq_none_iff.2 (balanced_inline hread hdata hplain hraw)

/-- Every substitution is well-formed, at any depth. This is what a compilation that succeeds has
seen. -/
def WellFormed (outline : Outline) : Prop :=
  ∀ start raw, outline.Opens start raw → (Directive.read raw).WellFormed

/-- The compilation of an outline ends where the outline does, unless a substitution is malformed.
Then it ends at the first one. -/
inductive Ends {α : Type} (outline : Outline) : Except SyntaxError α → Prop
  | whole {a : α} : outline.failure? = none → outline.WellFormed → Ends outline (.ok a)
  | cut {error : SyntaxError} : outline.failure? = some error → outline.WellFormed →
    Ends outline (.error error)
  | malformed {error : SyntaxError} {raw : Text} : outline.Opens error.offset raw →
    (Directive.read raw).Malformed error.fault →
    (∀ start raw, outline.Opens start raw → start < error.offset →
      (Directive.read raw).WellFormed) →
    Ends outline (.error error)

theorem Ends.map {α β : Type} {outline : Outline} {result : Except SyntaxError α}
    (h : outline.Ends result) (f : α → β) : outline.Ends (result.map f) := by
  cases h with
  | whole hnone hwell => exact .whole hnone hwell
  | cut hsome hwell => exact .cut hsome hwell
  | malformed hopens hmalformed hbefore => exact .malformed hopens hmalformed hbefore

/-- A substitution that is well-formed, with all that is inside, makes no difference to how the
compilation ends. -/
theorem Ends.body {α : Type} {raw : Text} {start : Nat} {rest : Outline}
    {result : Except SyntaxError α} (h : rest.Ends result)
    (hraw : (Directive.read raw).WellFormed)
    (hinside : ((Directive.read raw).outline start).WellFormed) (literal : Text) :
    (Outline.body raw start literal rest).Ends result := by
  cases h with
  | whole hnone hwell => exact .whole hnone (forall_opens hraw hinside hwell)
  | cut hsome hwell => exact .cut hsome (forall_opens hraw hinside hwell)
  | malformed hopens hmalformed hbefore =>
    apply Ends.malformed (.later hopens) hmalformed
    apply forall_opens
    · exact fun _ => hraw
    · exact fun start' raw' hopens' _ => hinside start' raw' hopens'
    · exact hbefore

theorem wellFormed_done : Outline.done.WellFormed := by
  intro start raw hopens
  cases hopens

end Outline

/-- One step of the compilation of a plain source: each part of it ends as its outline does or at
the first malformed substitution. -/
theorem ends_rules : CompileRules
    (fun start source draft => (Outline.ofSource start source).2.Plain →
      (Outline.ofSource start source).2.Ends draft.result)
    (fun _ _ outline draft => ∀ lo hi, outline.Within lo hi →
      (outline.Each fun raw _ => Balanced (readAll raw)) → outline.Plain →
        outline.Ends draft.result)
    (fun start data draft => (DataClause.outline start data).Plain →
      (DataClause.outline start data).Ends draft.result) where
  source {start source} _ h hplain :=
    h _ _ (Outline.within_ofSource start source) (Outline.balanced_ofSource start source) hplain
  done _ _ _ _ _ _ _ := .whole rfl Outline.wellFormed_done
  broken _ _ _ _ _ _ _ _ := .cut rfl fun _ _ hopens => by cases hopens
  comment hread h _ _ hwithin hbalanced hplain := by
    have hrest := h _ _ hwithin.2 hbalanced.2 fun _ _ hopens => hplain _ _ (.later hopens)
    apply (hrest.map _).body
    · rw [hread]
      exact fun _ hfault => hfault
    · rw [hread]
      exact Outline.wellFormed_done
  fault {_ _ raw _ start _ clauses fault} hread hfault lo hi hwithin _ _ := by
    have hmalformed : (Directive.read raw).Malformed fault := by
      rw [hread]
      exact Clauses.fault?_eq_some_iff.1 hfault
    obtain ⟨_, hinside⟩ := Outline.within_outline start raw
    show Outline.Ends _ (.error ⟨fault, start⟩)
    refine Outline.Ends.malformed .here hmalformed ?_
    apply Outline.forall_opens
    · exact fun hlt => absurd hlt (Nat.lt_irrefl start)
    · exact fun _ _ hopens hlt => absurd hlt (Nat.not_lt.2 (hinside.le_of_opens hopens))
    · intro start' raw' hopens (hlt : start' < start)
      have hle := hwithin.2.le_of_opens hopens
      omega
  insert hread hfault hinsert h _ _ hwithin hbalanced hplain := by
    have hrest := h _ _ hwithin.2 hbalanced.2 fun _ _ hopens => hplain _ _ (.later hopens)
    apply (hrest.map _).body (Directive.wellFormed_of_fault? hread hfault)
    rw [Directive.outline_insert _ hread hfault hinsert]
    exact Outline.wellFormed_done
  value {_ _ raw _ start _ clauses data _} hread hfault _ hdata h _ _ hwithin hbalanced hplain := by
    have hraw := Directive.wellFormed_of_fault? hread hfault
    have houtline : DataClause.outline (start + 2) clauses.data =
        (Directive.read raw).outline start := by
      rw [hread]
      rfl
    rw [houtline] at hdata
    have hinside := hdata fun _ _ hopens => hplain _ _ (.inside hopens)
    have hrest := h _ _ hwithin.2 hbalanced.2 fun _ _ hopens => hplain _ _ (.later hopens)
    have hnone := Outline.failure?_outline hbalanced.1 (hplain _ _ .here) start
    rw [Draft.visit, Draft.andThen]
    generalize data.result = result at hinside
    cases hinside with
    | whole _ hwell => exact (hrest.map _).body hraw hwell _
    | cut hsome _ =>
      rw [hnone] at hsome
      cases hsome
    | malformed hopens hmalformed hbefore =>
      have hlt := (Outline.endsBy_outline start raw).lt_of_opens hopens
      apply Outline.Ends.malformed (.inside hopens) hmalformed
      apply Outline.forall_opens
      · exact fun _ => hraw
      · exact hbefore
      · intro start' raw' hopens' hlt'
        have hle := hwithin.2.le_of_opens hopens'
        omega
  own start data hdata _ := by
    obtain rfl | rfl := hdata
    · exact .whole rfl Outline.wellFormed_done
    · exact .whole rfl Outline.wellFormed_done
  named _ c name _ := .whole rfl Outline.wellFormed_done
  inline h hplain := (h hplain).map _

/-! ### Compiling a plain source -/

theorem Outline.Located.of_opens {outer raw : Text} {start : Nat} {outline : Outline}
    (hlocated : outline.Located outer) (h : outline.Opens start raw) :
    EnclosedAt outer start raw := by
  induction h with
  | here => exact hlocated.1
  | @inside raw _ _ start _ _ hopens ih =>
    obtain houtline | ⟨clauses, source, offset, hread, hdata, houtline⟩ :=
      Directive.outline_cases start raw
    · rw [houtline] at hopens
      cases hopens
    · apply ih
      rw [houtline]
      exact Outline.located_ofSource (Directive.located_read hlocated.1 hread _ _ hdata)
  | later _ ih => exact ih hlocated.2

/-- Each substitution stands in the source, at any depth, with its braces around it at the byte that
is told. -/
theorem Text.Opens.enclosedAt {source raw : Text} {start : Nat} (h : source.Opens start raw) :
    EnclosedAt source start raw :=
  (Outline.located_ofSource (standsIn_self source)).of_opens h

theorem Directive.ne_of_malformed {directive : Directive} {fault : SyntaxFault}
    (h : directive.Malformed fault) : fault ≠ .unclosed ∧ fault ≠ .unopened := by
  cases directive with
  | comment => cases h
  | substitution clauses => cases h <;> decide

theorem Scan.fault_of_failure {start : Nat} {source : Text} {error : SyntaxError}
    (h : (Scan.ofSource start source).failure = some error) :
    error.fault = .unclosed ∨ error.fault = .unopened := by
  have hverdict := Scan.verdict_ofLexemes start (readAll source)
  rw [← Scan.ofSource, h] at hverdict
  cases hverdict with
  | stray => exact .inr rfl
  | unclosed => exact .inl rfl

theorem compile_eq_error {source : Text} {error : SyntaxError} :
    compile source = .error error ↔ (compileSource 0 source).result = .error error := by
  unfold compile
  cases (compileSource 0 source).result <;> simp [Except.map]

/-- Braces of a plain source that do not match are found by cutting the source itself. A plain
source that can be cut compiles unless a substitution is malformed, at any depth, and the error is
then about the first one of them in the order of the source. -/
theorem compile_plain {source : Text} (h : source.Plain) :
    (∀ error, compile source = .error error → error.fault = .unclosed ∨ error.fault = .unopened →
      (Scan.ofSource 0 source).failure = some error) ∧
    ((∃ compiled, compile source = .ok compiled) ↔
      (Scan.ofSource 0 source).failure = none ∧
        ∀ start raw, source.Opens start raw → (Directive.read raw).WellFormed) ∧
    (∀ error, compile source = .error error →
      error.fault = .emptyName ∨ error.fault = .insertData →
      ∃ raw, source.Opens error.offset raw ∧ EnclosedAt source error.offset raw ∧
        (Directive.read raw).Malformed error.fault ∧
        ∀ start raw', source.Opens start raw' → start < error.offset →
          (Directive.read raw').WellFormed) := by
  have hends := ends_rules.compileSource 0 source h
  rw [← Outline.failure?_ofSource]
  refine ⟨fun error herror hfault => ?_, ⟨?_, ?_⟩, fun error herror hfault => ?_⟩
  · rw [compile_eq_error.1 herror] at hends
    cases hends with
    | cut hsome _ => exact hsome
    | malformed _ hmalformed _ =>
      have hne := Directive.ne_of_malformed hmalformed
      exact absurd hfault (not_or.2 hne)
  · rintro ⟨compiled, hcompile⟩
    rw [(compile_eq_ok.1 hcompile).2] at hends
    cases hends with
    | whole hnone hwell => exact ⟨hnone, hwell⟩
  · rintro ⟨hnone, hwell⟩
    cases hresult : compile source with
    | ok compiled => exact ⟨compiled, rfl⟩
    | error error =>
      rw [compile_eq_error.1 hresult] at hends
      cases hends with
      | cut hsome _ =>
        rw [hnone] at hsome
        cases hsome
      | malformed hopens hmalformed _ => exact absurd hmalformed (hwell _ _ hopens _)
  · rw [compile_eq_error.1 herror] at hends
    cases hends with
    | cut hsome _ =>
      rw [Outline.failure?_ofSource] at hsome
      obtain hopen | hopen := Scan.fault_of_failure hsome
      · rw [hopen] at hfault
        simp at hfault
      · rw [hopen] at hfault
        simp at hfault
    | malformed hopens hmalformed hbefore =>
      exact ⟨_, hopens, Text.Opens.enclosedAt hopens, hmalformed, hbefore⟩

/-- Two malformed substitutions, the first of them in an inline template that ends in `>`, which has
to be escaped there. -/
def malformedSource : Text :=
  "x\x7b\x7ba|!<\x7b\x7bb..c\x7d\x7d\\>\x7d\x7d\x7b\x7b!d|e\x7d\x7d".toList

/-- The error is about the substitution inside, although the outer cut finds nothing wrong and the
other one is malformed, too. -/
theorem compile_plain_malformed :
    malformedSource.Plain ∧ compile malformedSource = .error ⟨.emptyName, 7⟩ ∧
      (Scan.ofSource 0 malformedSource).failure = none ∧
      ∃ raw, malformedSource.Opens 7 raw ∧ EnclosedAt malformedSource 7 raw ∧
        (Directive.read raw).Malformed .emptyName := by
  have houtline : (Outline.ofSource 0 malformedSource).2 =
      .body "a|!<\x7b\x7bb..c\x7d\x7d\\>".toList 1 [] (.body "!d|e".toList 19 [] .done) := by
    decide +kernel
  have hinside : (Directive.read "a|!<\x7b\x7bb..c\x7d\x7d\\>".toList).outline 1 =
      .body "b..c".toList 7 ['>'] .done := by
    decide +kernel
  have hb : (Directive.read "b..c".toList).outline 7 = .done := by decide +kernel
  have hd : (Directive.read "!d|e".toList).outline 19 = .done := by decide +kernel
  have hplain : malformedSource.Plain := by
    show (Outline.ofSource 0 malformedSource).2.Plain
    rw [houtline]
    refine Outline.plain_body (by decide +kernel) ?_ ?_
    · rw [hinside]
      exact Outline.plain_body (by decide +kernel) (hb ▸ Outline.plain_done) Outline.plain_done
    · exact Outline.plain_body (by decide +kernel) (hd ▸ Outline.plain_done) Outline.plain_done
  have hcompile : compile malformedSource = .error ⟨.emptyName, 7⟩ := by
    have hresult : (compile malformedSource).map Compiled.source = .error ⟨.emptyName, 7⟩ := by
      decide +kernel
    cases h : compile malformedSource with
    | ok compiled =>
      rw [h] at hresult
      cases hresult
    | error error =>
      rw [h] at hresult
      cases hresult
      rfl
  obtain ⟨-, -, hfirst⟩ := compile_plain hplain
  obtain ⟨raw, hopens, henclosed, hmalformed, -⟩ := hfirst _ hcompile (.inl rfl)
  exact ⟨hplain, hcompile, by decide +kernel, raw, hopens, henclosed, hmalformed⟩

end Stencil
