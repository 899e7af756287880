import Stencil.Proofs.AcceptedItems
import Stencil.Proofs.Enclosed
import Stencil.Proofs.MissingReferences
import Stencil.Proofs.SingleValue
import Stencil.Proofs.WrittenDirective

/-!
# Names of fields in templates

A derived provider tries its names in the order of the fields, so that a field hides the later ones
of the same name. Not every name that a field can have is one that a template can write: between
braces it may read as a comment, as an insertion, as a name with a marker, or not as a whole body.
-/
namespace Stencil

open Text

/-- The text reads as itself between braces: nothing at its ends is trimmed or taken for a marker,
and none of its braces closes the body. -/
structure Text.IsReferable (name : Text) : Prop where
  trimmed : name.trim = name
  start : name.Starts fun c => c ≠ '<' ∧ c ≠ '!' ∧ c ≠ '#'
  unmarked : name.Unmarked
  whole : name.IsBody

/-! ### What is left of a name -/

/-- Only a closing marker shortens a body, so that one that is not shortened has none. -/
theorem unmarked_of_splitAfterMark {t : Text} (h : (splitAfterMark t).1 = t) : t.Unmarked := by
  have hlength : t.reverse.length = t.length := List.length_reverse
  unfold splitAfterMark at h
  split at h
  · rename_i front hend
    refine .inr ⟨front.reverse, ?_⟩
    rw [← t.reverse_reverse, hend]
    simp
  · rename_i front hend
    have hshort := congrArg List.length h
    simp only [hend, List.length_reverse, List.length_cons] at hlength hshort
    omega
  · rename_i front _ hend
    have hshort : t.length ≤ front.reverse.length := h ▸ length_trimEnd_le front.reverse
    simp only [hend, List.length_reverse, List.length_cons] at hlength hshort
    omega
  · rename_i front _ _ _ hend
    have hshort : t.length ≤ front.reverse.length := h ▸ length_trimEnd_le front.reverse
    simp only [hend, List.length_reverse, List.length_cons] at hlength hshort
    omega
  · rename_i hend
    refine .inl fun hlast => ?_
    rw [← List.head?_reverse] at hlast
    obtain ⟨front, hfront⟩ := List.head?_eq_some_iff.1 hlast
    exact hend front hfront

theorem takeBeforeMark_ne_self {t : Text} (h : t.head? = some '<') : (takeBeforeMark t).2 ≠ t := by
  obtain ⟨rest, rfl⟩ := List.head?_eq_some_iff.1 h
  have hshort : (takeBeforeMark ('<' :: rest)).2.length ≤ rest.length := by
    cases rest with
    | nil => rfl
    | cons c rest =>
      by_cases hc : c = '<'
      · rw [hc]
        exact Nat.le_succ_of_le (length_trimStart_le rest)
      · rw [takeBeforeMark]
        · exact length_trimStart_le (c :: rest)
        · simpa using hc
  intro heq
  rw [heq, List.length_cons] at hshort
  omega

theorem takeInsert_ne_self {t : Text} (h : t.head? = some '!') : (takeInsert t).2 ≠ t := by
  obtain ⟨rest, rfl⟩ := List.head?_eq_some_iff.1 h
  have hshort : (takeInsert ('!' :: rest)).2.length ≤ rest.length := length_trimStart_le rest
  intro heq
  rw [heq, List.length_cons] at hshort
  omega

theorem takePath_isInfix (t : Text) : (takePath t).1 <:+: t :=
  (trim_isInfix _).trans (List.takeWhile_prefix _).isInfix

theorem splitOn_isPrefix (sep : Char) (t : Text) : (Text.splitOn sep t).1 <+: t := by
  induction t with
  | nil => exact List.prefix_refl []
  | cons c t ih =>
    rw [Text.splitOn]
    split_ifs with hc
    · exact List.nil_prefix
    · exact List.cons_prefix_cons.2 ⟨rfl, ih⟩

theorem Clauses.components_isInfix (clauses : Clauses) : clauses.components.1 <:+: clauses.path :=
  (trim_isInfix _).trans (splitOn_isPrefix '.' _).isInfix

/-- A body that is nothing but a path has nothing that an earlier step takes away: no blanks around
it, no markers and no sign of an insertion. -/
theorem Clauses.of_path_eq {raw : Text} (h : (read raw).path = raw) :
    raw.trim = raw ∧ raw.head? ≠ some '<' ∧ raw.head? ≠ some '!' ∧ raw.Unmarked := by
  obtain ⟨body, hbody⟩ : ∃ body, (splitAfterMark raw.trim).1 = body := ⟨_, rfl⟩
  obtain ⟨marked, hmarked⟩ : ∃ marked, (takeBeforeMark body).2 = marked := ⟨_, rfl⟩
  obtain ⟨named, hnamed⟩ : ∃ named, (takeInsert marked).2 = named := ⟨_, rfl⟩
  have hpath : raw <:+: named := by
    have hfound : (read raw).path = (takePath (takeDots named).2).1 := by
      rw [← hnamed, ← hmarked, ← hbody]
      rfl
    rw [h] at hfound
    exact hfound ▸ (takePath_isInfix _).trans (takeDots_isSuffix named).isInfix
  have hfront : body <+: raw.trim := hbody ▸ splitAfterMark_isPrefix raw.trim
  have hrest : marked <:+ body := hmarked ▸ takeBeforeMark_isSuffix body
  have hrest' : named <:+ marked := hnamed ▸ takeInsert_isSuffix marked
  -- each step leaves a part of what it was given, and together they leave everything
  have hnamedLength := hpath.length_le
  have hmarkedLength := hrest'.length_le
  have hbodyLength := hrest.length_le
  have htrimLength := hfront.length_le
  have hrawLength := length_trim_le raw
  have htrim : raw.trim = raw := raw.trim_isInfix.eq_of_length (by omega)
  obtain rfl : body = raw := (hfront.eq_of_length (by omega)).trans htrim
  obtain rfl : marked = body := hrest.eq_of_length (by omega)
  obtain rfl : named = marked := hrest'.eq_of_length (by omega)
  rw [htrim] at hbody
  exact ⟨htrim, fun hhead => takeBeforeMark_ne_self hhead hmarked,
    fun hhead => takeInsert_ne_self hhead hnamed, unmarked_of_splitAfterMark hbody⟩

/-! ### A name between braces -/

/-- The outline of a source between braces starts with a body from its start, which may be shorter
than what stands between them. -/
theorem Outline.ofSource_enclose_of_whole {raw : Text} {start : Nat}
    (h : Whole start (Lexeme.readAll (enclose raw))) : ∃ inner next rest, inner <+: raw ∧
      ofSource start (enclose raw) = ([], .body inner start next rest) := by
  have hread := readAll_enclose raw []
  rw [List.append_nil] at hread
  rw [hread] at h
  cases hclose : Lexeme.closeBody 0 (Lexeme.readAll (raw ++ ['}', '}'])) with
  | none =>
    rw [Whole, Scan.ofLexemes] at h
    split at h <;> simp_all
  | some pair =>
    obtain ⟨body, after⟩ := pair
    have hwrite := Lexeme.write_readAll (raw ++ ['}', '}'])
    rw [Lexeme.eq_append_of_closeBody hclose, Lexeme.write_append] at hwrite
    have hlength := congrArg List.length hwrite
    simp [Lexeme.text] at hlength
    have hfront : Lexeme.write body <+: raw :=
      List.prefix_of_prefix_length_le ⟨_, hwrite⟩ (List.prefix_append _ _) (by omega)
    have hcut := ofLexemes_opening hclose start
    rw [← hread, ← ofSource_eq] at hcut
    exact ⟨_, _, _, hfront, hcut⟩

section

variable {name : Text}

/-- A component whose characters have no meaning of their own is referable. Names with a meaning may
be so as well. -/
theorem Text.IsComponent.isReferable (h : name.IsComponent) : name.IsReferable where
  trimmed := h.trimmed
  start := fun c hc => ⟨h.plain.ne (List.mem_of_mem_head? hc) (by decide), h.start c hc⟩
  unmarked := .inl (h.plain.getLast?_ne (by decide))
  whole := Text.isBody_of_braceless (h.plain.braceless (by decide) (by decide))
    (h.plain.getLast?_ne (by decide))

theorem Clauses.components_ofName (hdot : '.' ∉ name) (htrim : name.trim = name) :
    (ofName none none name).components = (name, []) := by
  have hsplit := splitOn_append hdot []
  rw [List.append_nil] at hsplit
  simp [components, ofName, hsplit, Text.splitOn, htrim]

theorem Directive.read_of_isReferable (h : name.IsReferable) (husable : Derivation.IsUsable name) :
    Directive.read name = .substitution (.ofName none none name) := by
  have hblank : name.Starts fun c => isBlank c = false := h.trimmed ▸ starts_trim name
  have hdot : name.Starts (· ≠ '.') :=
    fun c hc => (husable.plain c (List.mem_of_mem_head? hc)).1
  have hplain : ∀ c ∈ name, c ≠ '|' ∧ c ≠ '%' := fun c hc => (husable.plain c hc).2
  have hsplit : splitAfterMark name.trim = (name, none) := by
    rw [h.trimmed, h.unmarked.splitAfterMark]
  have hbefore : takeBeforeMark name = (none, name) :=
    takeBeforeMark_write none fun c hc => ⟨hblank c hc, (h.start c hc).1⟩
  have hinsert : takeInsert name = (false, name) :=
    takeInsert_write false fun c hc => ⟨hblank c hc, (h.start c hc).2.1⟩
  have hdots : takeDots name = (0, name) := takeDots_write 0 hdot
  have hpath : takePath name = (name, []) := by
    have hwritten : takePath (name ++ []) = (name, []) :=
      takePath_write h.trimmed hplain fun _ hc => by cases hc
    rwa [List.append_nil] at hwritten
  have hhead : name.trim.head? ≠ some '#' := by
    rw [h.trimmed]
    exact fun hc => (h.start '#' hc).2.2 rfl
  rw [Directive.read, if_neg hhead]
  simp only [Clauses.read, hsplit, hbefore, hinsert, hdots, hpath]
  rfl

/-- A template that is a referable name between braces is that value, with nothing around it and no
target of its own. -/
theorem compile_enclose_of_isReferable (h : name.IsReferable) (husable : Derivation.IsUsable name) :
    compile (enclose name) = .ok ⟨enclose name,
      .piece [] ⟨.ofBody name 0, (Clauses.ofName none none name).joining, [], []⟩
        (.value 0 name .own) (.tail [])⟩ := by
  have hdot : '.' ∉ name := fun hmem => (husable.plain '.' hmem).1 rfl
  have hcomponents := Clauses.components_ofName hdot h.trimmed
  have hfault : (Clauses.ofName none none name).fault? = none := by
    rw [Clauses.fault?, hcomponents]
    rfl
  refine compile_of_compileSource (compileSource_enclose h.whole
    (Directive.read_of_isReferable h husable) hfault (.inr ⟨rfl, .own, ?_, ?_⟩))
  · rw [Clauses.ofName, compileTarget]
    rfl
  · rw [hcomponents]
    rfl

/-- A template that is a name between braces and has no other value asks for a referable name, so
that nothing of the name got lost. -/
theorem isReferable_of_compile_enclose {compiled : Compiled} {literal : Text} {place : Placement}
    {rewind : Nat} {target : Target} {rest : Body}
    (hcompile : compile (enclose name) = .ok compiled)
    (hroot : compiled.root = .piece literal place (.value rewind name target) rest) :
    name.IsReferable := by
  obtain ⟨-, hresult⟩ := compile_eq_ok.1 hcompile
  obtain ⟨raw, next, outline, hraw, hcut⟩ :=
    Outline.ofSource_enclose_of_whole (whole_of_compileSource hresult)
  rw [hroot, compileSource, hcut] at hresult
  rcases compileOutline_body_eq_ok.1 hresult with ⟨-, _, -, hbody⟩ |
    ⟨clauses, action, _, hread, -, hcompiles, -, hbody⟩
  · cases hbody
  obtain ⟨-, -, rfl, -⟩ := Body.piece.inj hbody
  rcases hcompiles with ⟨-, haction⟩ | ⟨-, _, -, haction⟩
  · cases haction
  obtain ⟨-, hname, -⟩ := Action.value.inj haction
  -- the name is part of the path, and the path is part of what stands between the braces
  have hpath : name <:+: clauses.path := hname ▸ clauses.components_isInfix
  have hasked := (Directive.asked_isInfix hread).1
  obtain rfl : raw = name :=
    hraw.eq_of_length_le (hpath.trans hasked).length_le
  have hwhole : clauses.path = raw := hasked.eq_of_length_le hpath.length_le
  rw [Directive.read] at hread
  split_ifs at hread with hcomment
  obtain rfl := Directive.substitution.inj hread
  obtain ⟨htrim, hmark, hinsert, hunmarked⟩ := Clauses.of_path_eq hwhole
  rw [htrim] at hcomment
  refine ⟨htrim, fun c hc => ⟨?_, ?_, ?_⟩, hunmarked, Outline.isBody_of_ofSource hcut⟩
  · rintro rfl
    exact hmark hc
  · rintro rfl
    exact hinsert hc
  · rintro rfl
    exact hcomment hc

/-- Exactly the referable ones among the usable names compile to a value between their braces. The
others are accepted, but mean something else. -/
theorem compile_enclose_iff (husable : Derivation.IsUsable name) :
    (∃ compiled place, compile (enclose name) = .ok compiled ∧
      compiled.root = .piece [] place (.value 0 name .own) (.tail [])) ↔ name.IsReferable :=
  ⟨fun ⟨_, _, hcompile, hroot⟩ => isReferable_of_compile_enclose hcompile hroot,
    fun h => ⟨_, _, compile_enclose_of_isReferable h husable, rfl⟩⟩

end

namespace Derivation

/-! ### The names of a provider -/

/-- The field stands for the name: it is not skipped, and it has that name in the end. -/
def Field.Exposes (field : Field) (name : Text) : Prop :=
  field.isSkipped = false ∧ field.exposedName = name

instance (field : Field) (name : Text) : Decidable (field.Exposes name) :=
  inferInstanceAs (Decidable (_ ∧ _))

section

variable {project : Text} {item : Item} {derived : Derived}

/-- A name stands for the first field that exposes it, even when a later one exposes it, too. -/
theorem lookup_eq_find? (h : derive project item = .ok derived) (name : Text) :
    derived.lookup name =
      (item.fields.find? fun field => decide (field.Exposes name)).map Field.name := by
  rw [Derived.lookup, (derive_eq_ok.1 h).2.arms]
  induction item.fields with
  | nil => rfl
  | cons field fields ih =>
    rw [List.find?_cons]
    by_cases hexposes : field.Exposes name
    · simp [hexposes, hexposes.1, hexposes.2]
    · by_cases hskip : field.isSkipped = true
      · simp [hexposes, hskip, ih]
      · have hname : (name == field.exposedName) = false := by
          rw [beq_eq_false_iff_ne]
          exact fun heq => hexposes ⟨by simpa using hskip, heq.symm⟩
        simp [hexposes, hskip, hname, List.lookup_cons, ih]

theorem lookup_eq_some_iff (h : derive project item = .ok derived) {name identifier : Text} :
    derived.lookup name = some identifier ↔ ∃ before field after,
      item.fields = before ++ field :: after ∧ field.Exposes name ∧
        (∀ other ∈ before, ¬ other.Exposes name) ∧ field.name = identifier := by
  simp only [lookup_eq_find? h, Option.map_eq_some_iff, List.find?_eq_some_iff_append,
    decide_eq_true_eq, Bool.not_eq_true', decide_eq_false_iff_not]
  constructor
  · rintro ⟨field, ⟨hexposes, before, after, hfields, hbefore⟩, rfl⟩
    exact ⟨before, field, after, hfields, hexposes, hbefore, rfl⟩
  · rintro ⟨before, field, after, hfields, hexposes, hbefore, rfl⟩
    exact ⟨field, ⟨hexposes, before, after, hfields, hbefore⟩, rfl⟩

/-- Fields have different identifiers, so that a name is looked up as a field exactly if this is the
first one that exposes it. -/
theorem lookup_eq_name_iff (h : derive project item = .ok derived)
    (hnames : (item.fields.map Field.name).Nodup) {before after : List Field} {field : Field}
    (hfields : item.fields = before ++ field :: after) {name : Text} :
    derived.lookup name = some field.name ↔
      field.Exposes name ∧ ∀ other ∈ before, ¬ other.Exposes name := by
  rw [lookup_eq_some_iff h]
  constructor
  · rintro ⟨before', found, after', hfields', hexposes, hbefore, hname⟩
    obtain rfl : found = field :=
      List.inj_on_of_nodup_map hnames (by simp [hfields']) (by simp [hfields]) hname
    have hdistinct := hnames.of_map
    rw [hfields, List.nodup_middle, List.nodup_cons, List.mem_append, not_or] at hdistinct
    obtain ⟨rfl, -⟩ := (List.append_cons_inj_of_notMem hdistinct.1.1 hdistinct.1.2).1
      (hfields.symm.trans hfields')
    exact ⟨hexposes, hbefore⟩
  · rintro ⟨hexposes, hbefore⟩
    exact ⟨before, field, after, hfields, hexposes, hbefore, rfl⟩

/-- A field of an accepted item is looked up under its name exactly if no earlier field has the same
name, and its name between braces is a value exactly if the name is referable. No name leads to a
skipped field. -/
theorem derive_reaches (h : derive project item = .ok derived)
    (hnames : (item.fields.map Field.name).Nodup) {before after : List Field} {field : Field}
    (hfields : item.fields = before ++ field :: after) :
    (field.isSkipped = false →
      (derived.lookup field.exposedName = some field.name ↔
        ∀ other ∈ before, ¬ other.Exposes field.exposedName) ∧
      ((∃ compiled place, compile (enclose field.exposedName) = .ok compiled ∧
        compiled.root = .piece [] place (.value 0 field.exposedName .own) (.tail [])) ↔
          field.exposedName.IsReferable)) ∧
    (field.isSkipped = true → ∀ name, derived.lookup name ≠ some field.name) := by
  have hlookup (name : Text) : derived.lookup name = some field.name ↔
      field.Exposes name ∧ ∀ other ∈ before, ¬ other.Exposes name :=
    lookup_eq_name_iff h hnames hfields
  constructor
  · intro hskip
    have haccepted := (derive_eq_ok.1 h).1.fields field (hfields ▸ by simp)
    refine ⟨(hlookup _).trans ?_, compile_enclose_iff (haccepted.usable hskip)⟩
    exact and_iff_right ⟨hskip, rfl⟩
  · intro hskip name hfound
    have hexposes := ((hlookup name).1 hfound).1.1
    rw [hskip] at hexposes
    cases hexposes

end

/-- A field with an attribute for another name, or with none at all. -/
def Field.ofNames (identifier : Text) (rename : Option Text) : Field where
  name := identifier
  attributes := rename.toList.map fun name =>
    ⟨"provider".toList, some [.pair "rename".toList (.string name)]⟩

/-- A struct with these fields and nothing else: no attributes of its own and no type parameters. -/
def Item.ofFields (fields : List Field) : Item :=
  ⟨.namedFields, [], [], fields⟩

/-- A field that is given another name, with a blank inside of it, is reached by that name. -/
theorem derive_reaches_renamed : ∃ derived,
    derive [] (.ofFields [.ofNames ['a'] none, .ofNames ['b'] (some ['b', ' ', '1'])]) =
        .ok derived ∧ derived.lookup ['b', ' ', '1'] = some ['b'] ∧
      ∃ compiled place, compile (enclose ['b', ' ', '1']) = .ok compiled ∧
        compiled.root = .piece [] place (.value 0 ['b', ' ', '1'] .own) (.tail []) := by
  let other : Field := .ofNames ['a'] none
  let field : Field := .ofNames ['b'] (some ['b', ' ', '1'])
  have hfields : (Item.ofFields [other, field]).fields = [other] ++ field :: [] := rfl
  have hderive : derive [] (.ofFields [other, field]) = .ok _ := rfl
  obtain ⟨hlookup, hcompile⟩ := (derive_reaches hderive (by decide) hfields).1 rfl
  have hcomponent : Text.IsComponent ['b', ' ', '1'] := by decide
  exact ⟨_, hderive, hlookup.2 (by decide), hcompile.2 hcomponent.isReferable⟩

/-- Two fields of one name are accepted, and the second cannot be looked up. A name that starts
with `!` is accepted as well, and between braces it is no value. -/
theorem derive_reaches_hidden :
    (∃ derived, derive [] (.ofFields [.ofNames ['a'] (some ['b']), .ofNames ['b'] none]) =
        .ok derived ∧ derived.arms = [(['b'], ['a']), (['b'], ['b'])] ∧
          derived.lookup ['b'] = some ['a']) ∧
      (∃ derived, derive [] (.ofFields [.ofNames ['a'] (some ['!', 'x'])]) = .ok derived ∧
        derived.lookup ['!', 'x'] = some ['a']) ∧
      ∀ compiled literal place rewind target rest, compile (enclose ['!', 'x']) = .ok compiled →
        compiled.root ≠ .piece literal place (.value rewind ['!', 'x'] target) rest := by
  refine ⟨⟨_, rfl, rfl, rfl⟩, ⟨_, rfl, rfl⟩, fun _ _ _ _ _ _ hcompile hroot => ?_⟩
  have hstart := (isReferable_of_compile_enclose hcompile hroot).start '!' rfl
  exact hstart.2.1 rfl

end Derivation

end Stencil
