import Mathlib.Data.List.TakeWhile
import Stencil.Proofs.Enclosed

/-!
# Data sections after any head

The same head is read before a template name, before an inline template and alone. An inline
template is written with a backslash before a `>` at its end, so that the `>` is no closing marker.
-/
namespace Stencil

open Text

/-! ### Escaping the end -/

/-- What to write for an inline template, so that its end is not read as a marker. -/
def escapeTail (source : Text) : Text :=
  match source.trimEnd.reverse with
  | '>' :: front => front.reverse ++ '\\' :: '>' :: source.blankTail
  | _ => source

theorem escapeTail_cases (source : Text) :
    (source.trimEnd.getLast? ≠ some '>' ∧ escapeTail source = source) ∨
      ∃ front, source = front ++ '>' :: source.blankTail ∧
        escapeTail source = front ++ '\\' :: '>' :: source.blankTail := by
  have hsplit := trimEnd_append_blankTail source
  unfold escapeTail
  split
  · rename_i front hend
    refine .inr ⟨front.reverse, ?_, rfl⟩
    have htrim : source.trimEnd = front.reverse ++ ['>'] := by
      rw [← List.reverse_reverse source.trimEnd, hend, List.reverse_cons]
    rw [htrim] at hsplit
    simpa using hsplit.symm
  · rename_i hend
    refine .inl ⟨fun hlast => ?_, rfl⟩
    obtain ⟨front, hfront⟩ := List.getLast?_eq_some_iff.1 hlast
    exact hend front.reverse (by rw [hfront, List.reverse_append]; rfl)

theorem trimEnd_blankTail (t : Text) : t.blankTail.trimEnd = [] := by
  rw [trimEnd, blankTail, List.reverse_reverse, List.reverse_eq_nil_iff, List.dropWhile_eq_nil_iff]
  intro c hc
  exact List.all_eq_true.1 List.all_takeWhile c hc

theorem blankTail_blankTail (t : Text) : t.blankTail.blankTail = t.blankTail := by
  have h := trimEnd_append_blankTail t.blankTail
  rwa [trimEnd_blankTail, List.nil_append] at h

/-- The blanks at the end are not touched, and what is before them does not end in a marker. -/
theorem blankTail_escapeTail (source : Text) :
    (escapeTail source).blankTail = source.blankTail := by
  rcases escapeTail_cases source with ⟨-, h⟩ | ⟨front, -, h⟩
  · rw [h]
  · rw [h, ← List.singleton_append, ← List.append_assoc,
      blankTail_append_cons (by decide : isBlank '>' = false), blankTail_blankTail]

theorem trimEnd_escapeTail (source : Text) :
    (escapeTail source).trimEnd.getLast? ≠ some '>' ∨
      ∃ front, (escapeTail source).trimEnd = front ++ ['\\', '>'] := by
  rcases escapeTail_cases source with ⟨hlast, h⟩ | ⟨front, -, h⟩
  · rw [h]
    exact .inl hlast
  · refine .inr ⟨front, ?_⟩
    rw [h, ← List.singleton_append, ← List.append_assoc,
      trimEnd_append_cons (by decide : isBlank '>' = false), trimEnd_blankTail]
    simp

/-- An inline template is read as what it was written for: the escape at its end is resolved
again. -/
theorem unescapeTail_escapeTail (source : Text) : unescapeTail (escapeTail source) = source := by
  rcases escapeTail_cases source with ⟨hlast, h⟩ | ⟨front, hsource, h⟩
  · rw [h]
    unfold unescapeTail
    split
    · rename_i rest hend
      rw [List.getLast?_eq_head?_reverse, hend] at hlast
      exact absurd rfl hlast
    · rfl
  · have htrim : (escapeTail source).trimEnd.reverse = '>' :: '\\' :: front.reverse := by
      rw [h, ← List.singleton_append, ← List.append_assoc,
        trimEnd_append_cons (by decide : isBlank '>' = false), trimEnd_blankTail]
      simp
    unfold unescapeTail
    rw [htrim, blankTail_escapeTail]
    simpa using hsource.symm

/-- The braces of an inline template are those of the template, as the escape has none. So it can
stand in a body as it is. -/
theorem isBody_escapeTail {source : Text}
    (hopen : Lexeme.openAfter 0 (Lexeme.readAll source) = some 0)
    (hlast : ∀ c, (Lexeme.readAll source).getLast? = some (.plain c) → c ≠ '\\' ∧ c ≠ '}') :
    (escapeTail source).IsBody := by
  rcases escapeTail_cases source with ⟨-, h⟩ | ⟨front, hsource, h⟩
  · rw [h]
    refine isBody_of_seam (fun c d hc hd => ?_) hopen
    obtain ⟨hslash, hright⟩ := hlast c hc
    obtain rfl : '}' = d := Option.some.inj hd
    simp [Lexeme.pairs, hslash, hright]
  · have hplain (c : Char) (hc : c ∈ '>' :: source.blankTail) : c ≠ '\\' ∧ c ≠ '{' ∧ c ≠ '}' := by
      rcases List.mem_cons.1 hc with rfl | hc
      · decide
      · have hblank := List.all_eq_true.1 (isAllBlank_blankTail source) c hc
        refine ⟨?_, ?_, ?_⟩ <;> rintro rfl <;> exact absurd hblank (by decide)
    have htail : Text.Braceless ('>' :: source.blankTail) := fun c hc => (hplain c hc).2
    have htail' : Text.Braceless ('\\' :: '>' :: source.blankTail) := by
      intro c hc
      rcases List.mem_cons.1 hc with rfl | hc
      · decide
      · exact htail c hc
    have hseam (c : Char) (rest : Text) (hc : c ≠ '{' ∧ c ≠ '}') :
        Lexeme.Seam front (c :: rest) := by
      refine Lexeme.seam_of_head fun d hd => ?_
      obtain rfl : c = d := Option.some.inj hd
      exact hc
    rw [hsource, Lexeme.readAll_append (hseam _ _ (by decide)), Lexeme.openAfter_append,
      Lexeme.readAll_of_braceless htail] at hopen
    rw [h]
    refine isBody_of_seam (Lexeme.seam_of_getLast fun c hc => hplain c ?_) ?_
    · rw [← List.singleton_append, ← List.append_assoc, List.getLast?_append] at hc
      cases hend : List.getLast? ('>' :: source.blankTail) with
      | none => simp at hend
      | some d =>
        rw [hend] at hc
        obtain rfl : d = c := Option.some.inj hc
        exact List.mem_of_getLast? hend
    · rw [Lexeme.readAll_append (hseam _ _ (by decide)), Lexeme.openAfter_append,
        Lexeme.readAll_of_braceless htail']
      cases hdepth : Lexeme.openAfter 0 (Lexeme.readAll front) with
      | none =>
        rw [hdepth] at hopen
        cases hopen
      | some depth =>
        have hplainRun (t : Text) := Lexeme.openAfter_plain depth t
        rw [hdepth] at hopen
        simpa only [Option.bind_some, hplainRun] using hopen

/-! ### Blanks after a head -/

/-- Only blanks, or nothing at all. -/
def Text.Blank (t : Text) : Prop :=
  ∀ c ∈ t, isBlank c = true

theorem trimEnd_append_blank (s : Text) {b : Text} (hb : b.Blank) :
    trimEnd (s ++ b) = trimEnd s := by
  rw [trimEnd, List.reverse_append, List.dropWhile_append_of_pos, trimEnd]
  exact fun c hc => hb c (List.mem_reverse.1 hc)

theorem trimStart_append_blank (s : Text) {b : Text} (hb : b.Blank) :
    ∃ b', b'.Blank ∧ trimStart (s ++ b) = trimStart s ++ b' := by
  induction s with
  | nil => exact ⟨_, fun c hc => hb c ((List.dropWhile_sublist _).mem hc), rfl⟩
  | cons c s ih =>
    simp only [trimStart, List.cons_append, List.dropWhile_cons] at ih ⊢
    split
    · exact ih
    · exact ⟨b, hb, rfl⟩

theorem trim_append_blank (s : Text) {b : Text} (hb : b.Blank) : trim (s ++ b) = trim s := by
  obtain ⟨b', hb', hstart⟩ := trimStart_append_blank s hb
  rw [trim, hstart, trimEnd_append_blank _ hb', trim]

theorem Text.Blank.ne {b : Text} (hb : b.Blank) {c : Char} (hc : isBlank c = false) (t : Text) :
    b ≠ c :: t := by
  rintro rfl
  have h := hb c List.mem_cons_self
  rw [hc] at h
  cases h

theorem takeBeforeMark_append_blank (s : Text) {b : Text} (hb : b.Blank) :
    ∃ b', b'.Blank ∧
      takeBeforeMark (s ++ b) = ((takeBeforeMark s).1, (takeBeforeMark s).2 ++ b') := by
  have hleft (t : Text) := hb.ne (by decide : isBlank '<' = false) t
  unfold takeBeforeMark
  rcases s with _ | ⟨c, s⟩
  · refine ⟨b, hb, ?_⟩
    split <;> simp_all
  by_cases hc : c = '<'
  · subst hc
    rcases s with _ | ⟨d, s⟩
    · obtain ⟨b', hb', hstart⟩ := trimStart_append_blank [] hb
      refine ⟨b', hb', ?_⟩
      split <;> simp_all [trimStart]
    · by_cases hd : d = '<'
      · obtain ⟨b', hb', hstart⟩ := trimStart_append_blank s hb
        exact ⟨b', hb', by simp [hd, hstart]⟩
      · obtain ⟨b', hb', hstart⟩ := trimStart_append_blank (d :: s) hb
        exact ⟨b', hb', by simpa [hd] using hstart⟩
  · exact ⟨b, hb, by simp [hc]⟩

theorem takeInsert_append_blank (s : Text) {b : Text} (hb : b.Blank) :
    ∃ b', b'.Blank ∧ takeInsert (s ++ b) = ((takeInsert s).1, (takeInsert s).2 ++ b') := by
  have hbang (t : Text) := hb.ne (by decide : isBlank '!' = false) t
  unfold takeInsert
  rcases s with _ | ⟨c, s⟩
  · refine ⟨b, hb, ?_⟩
    split <;> simp_all
  by_cases hc : c = '!'
  · obtain ⟨b', hb', hstart⟩ := trimStart_append_blank s hb
    exact ⟨b', hb', by simp [hc, hstart]⟩
  · exact ⟨b, hb, by simp [hc]⟩

theorem takeDots_append_blank (s : Text) {b : Text} (hb : b.Blank) :
    takeDots (s ++ b) = ((takeDots s).1, (takeDots s).2 ++ b) := by
  have hdot (t : Text) := hb.ne (by decide : isBlank '.' = false) t
  fun_induction takeDots s with
  | case1 rest dots after h ih =>
    rw [h] at ih
    rw [List.cons_append, takeDots, ih]
  | case2 s hs =>
    rw [takeDots]
    intro rest
    rcases s with _ | ⟨c, s⟩
    · exact hdot rest
    · rintro ⟨rfl, -⟩
      exact hs s rfl

/-- Without a separator section, the path is all that is left, and the blanks around it are no part
of it. -/
theorem takePath_of_plain {s : Text} (hs : ∀ c ∈ s, c ≠ '|' ∧ c ≠ '%') :
    takePath s = (trim s, []) := by
  have hpath : ∀ c ∈ s, (c != '|' && c != '%') = true := fun c hc => by simpa using hs c hc
  simp only [takePath]
  rw [List.takeWhile_eq_self_iff.2 hpath, List.dropWhile_eq_nil_iff.2 hpath]

/-- Blanks after a head without a separator section are no part of it, as they only come after the
path. -/
theorem Clauses.readHead_append_blank {s b : Text} (hs : ∀ c ∈ s, c ≠ '|' ∧ c ≠ '%')
    (hb : b.Blank) : readHead (s ++ b) = readHead s := by
  obtain ⟨b₁, hb₁, hbefore⟩ := takeBeforeMark_append_blank s hb
  obtain ⟨b₂, hb₂, hinsert⟩ := takeInsert_append_blank (takeBeforeMark s).2 hb₁
  have hdots := takeDots_append_blank (takeInsert (takeBeforeMark s).2).2 hb₂
  have hrest : ∀ c ∈ (takeDots (takeInsert (takeBeforeMark s).2).2).2, c ≠ '|' ∧ c ≠ '%' :=
    fun c hc => hs c ((takeBeforeMark_isSuffix s).mem ((takeInsert_isSuffix _).mem
      ((takeDots_isSuffix _).mem hc)))
  have hrest' : ∀ c ∈ (takeDots (takeInsert (takeBeforeMark s).2).2).2 ++ b₂,
      c ≠ '|' ∧ c ≠ '%' := by
    intro c hc
    rcases List.mem_append.1 hc with hc | hc
    · exact hrest c hc
    · constructor <;> rintro rfl <;> exact absurd (hb₂ _ hc) (by decide)
  unfold readHead
  simp only [hbefore, hinsert, hdots, takePath_of_plain hrest, takePath_of_plain hrest',
    trim_append_blank _ hb₂]

/-! ### A head with any data section -/

/-- A text that can stand before any data section: no braces, bars or closing markers, and the end
of its separator, if it has one, is neither trimmed nor a backslash. -/
structure Text.IsOpenHead (pre : Text) : Prop where
  braceless : pre.Braceless
  plain : ∀ c ∈ pre, c ≠ '|' ∧ c ≠ '>'
  closed : '%' ∈ pre → ∀ c, pre.getLast? = some c → isBlank c = false ∧ c ≠ '\\'

/-- A template name that is written without blanks and without characters that have a meaning, so
that it is read back as it is. -/
structure Text.IsWord (name : Text) : Prop where
  ne_nil : name ≠ []
  solid : ∀ c ∈ name, isBlank c = false
  plain : name.Avoids ['!', '.', '|', '%', '>', '\\', '{', '}']

/-- What a body with this head and no closing marker is read as, given its data section. -/
def Directive.readWith (pre : Text) (data : Option DataClause) : Directive :=
  if pre.trimStart.head? = some '#' then .comment
  else .substitution { Clauses.readHead pre.trimStart with data }

theorem Text.IsOpenHead.isHead {pre : Text} (h : pre.IsOpenHead) : pre.trimStart.IsHead := by
  have hpre : pre.IsHead := by
    refine ⟨fun hbar => (h.plain '|' hbar).1 rfl, fun hpercent hlast => ?_⟩
    exact (h.closed hpercent '\\' hlast).2 rfl
  exact hpre.of_isSuffix (List.dropWhile_suffix isBlank)

/-- A body that ends in a data section without a closing marker is read as its head and its data
section, each on its own. -/
theorem Directive.read_open {pre data : Text} (hpre : pre.IsOpenHead)
    (hsplit : splitAfterMark (pre.trimStart ++ '|' :: data.trimEnd) =
      (pre.trimStart ++ '|' :: data.trimEnd, none)) :
    Directive.read (pre ++ '|' :: data) = readWith pre (Clauses.readData (pre ++ '|' :: data)
      (pre.trimStart ++ '|' :: data.trimEnd) false ('|' :: data.trimEnd)) := by
  have htrim : Text.trim (pre ++ '|' :: data) = pre.trimStart ++ '|' :: data.trimEnd :=
    trim_append_cons isBlank_bar pre data
  have hbar : Text.AtBar ('|' :: data.trimEnd) := fun c hc => (Option.some.inj hc).symm
  have hread := Clauses.read_of_split (by rw [htrim, hsplit]) hpre.isHead hbar
  have hcomment : (pre.trimStart ++ '|' :: data.trimEnd).head? = some '#' ↔
      pre.trimStart.head? = some '#' := by
    cases pre.trimStart with
    | nil => simp
    | cons c rest => simp
  unfold Directive.read readWith
  simp only [htrim, hcomment, hread]
  rfl

theorem Text.IsWord.trimEnd {name : Text} (h : name.IsWord) : name.trimEnd = name := by
  rcases List.eq_nil_or_concat name with hnil | ⟨front, c, rfl⟩
  · exact absurd hnil h.ne_nil
  · rw [List.concat_eq_append]
    exact trimEnd_append_cons (h.solid c (by simp)) front []

theorem Text.IsWord.trim {name : Text} (h : name.IsWord) : name.trim = name := by
  have hend := h.trimEnd
  cases name with
  | nil => rfl
  | cons c rest => rw [Text.trim, trimStart_cons (h.solid c List.mem_cons_self), hend]

theorem Text.IsWord.braceless {name : Text} (h : name.IsWord) : name.Braceless :=
  h.plain.braceless (by decide) (by decide)

/-- A head before a template name: the name is read back, and the head as it would be alone. -/
theorem Directive.read_named {pre name : Text} (hpre : pre.IsOpenHead) (hname : name.IsWord) :
    Directive.read (pre ++ '|' :: name) = readWith pre (some (.named name)) := by
  obtain ⟨d, rest, rfl⟩ := List.exists_cons_of_ne_nil hname.ne_nil
  have hlast : (pre.trimStart ++ '|' :: Text.trimEnd (d :: rest)).getLast? ≠ some '>' := by
    rw [hname.trimEnd, List.getLast?_append, List.getLast?_cons_cons]
    have hlast := hname.plain.getLast?_ne (by decide : '>' ∈ _)
    rw [List.getLast?_cons] at hlast ⊢
    simpa using hlast
  rw [read_open hpre (splitAfterMark_of_last hlast), hname.trimEnd]
  have hbang : d ≠ '!' := hname.plain.ne List.mem_cons_self (by decide)
  unfold Clauses.readData
  split
  · simp_all
  · rename_i other _ heq
    rw [List.cons.injEq] at heq
    rw [← heq.2, hname.trim]
  · simp_all

/-- A head before an inline template: the template is read back with its escapes resolved, and the
head as it would be alone. -/
theorem Directive.read_inline {pre : Text} (hpre : pre.IsOpenHead) (source : Text) :
    ∃ offset, Directive.read (pre ++ '|' :: '!' :: escapeTail source) =
      readWith pre (some (.inline source offset)) := by
  have hbang : isBlank '!' = false := by decide
  have htrim : Text.trimEnd ('!' :: escapeTail source) = '!' :: (escapeTail source).trimEnd :=
    trimEnd_append_cons hbang [] _
  have hsplit : splitAfterMark (pre.trimStart ++ '|' :: Text.trimEnd ('!' :: escapeTail source)) =
      (pre.trimStart ++ '|' :: Text.trimEnd ('!' :: escapeTail source), none) := by
    rw [htrim]
    rcases trimEnd_escapeTail source with hlast | ⟨front, hfront⟩
    · apply splitAfterMark_of_last
      rw [List.getLast?_append, List.getLast?_cons_cons, List.getLast?_cons]
      cases hend : (escapeTail source).trimEnd.getLast? with
      | none => simp
      | some c =>
        rw [hend] at hlast
        simpa using hlast
    · have h := splitAfterMark_of_escaped (pre.trimStart ++ ('|' :: '!' :: front))
      rw [hfront]
      simpa using h
  have hblank : (pre ++ '|' :: '!' :: escapeTail source).trimStart.blankTail =
      (escapeTail source).blankTail := by
    rw [blankTail_trimStart isBlank_bar, ← List.nil_append ('!' :: escapeTail source),
      blankTail_append_cons hbang]
  have hread := read_open hpre hsplit
  rw [htrim, Clauses.readData] at hread
  simp only [hblank, Bool.false_eq_true, if_false, trimEnd_append_blankTail,
    unescapeTail_escapeTail] at hread
  exact ⟨_, hread⟩

/-- The end of a separator is not trimmed, as its last character is no blank. Only blanks before the
head go away. -/
theorem Text.IsOpenHead.trim_eq {pre : Text} (h : pre.IsOpenHead) (hpercent : '%' ∈ pre.trimStart) :
    pre.trim = pre.trimStart := by
  obtain ⟨lead, hlead⟩ : ∃ lead, lead ++ pre.trimStart = pre := List.dropWhile_suffix isBlank
  rcases List.eq_nil_or_concat pre.trimStart with hnil | ⟨front, c, hend⟩
  · rw [hnil] at hpercent
    cases hpercent
  · rw [List.concat_eq_append] at hend
    have hlast : pre.getLast? = some c := by
      rw [← hlead, hend]
      simp [List.getLast?_append]
    have hmem : '%' ∈ pre := hlead ▸ List.mem_append_right lead hpercent
    have htrim := trimEnd_append_cons (h.closed hmem c hlast).1 front []
    rw [Text.trim, hend, htrim]
    rfl

theorem Text.IsOpenHead.plain_trim {pre : Text} (h : pre.IsOpenHead) :
    ∀ c ∈ pre.trim, c ≠ '|' ∧ c ≠ '>' := by
  intro c hc
  exact h.plain c ((List.dropWhile_suffix isBlank).mem ((trimEnd_isPrefix _).mem hc))

theorem Text.IsOpenHead.isHead_trim {pre : Text} (h : pre.IsOpenHead) : pre.trim.IsHead := by
  by_cases hpercent : '%' ∈ pre.trimStart
  · rw [h.trim_eq hpercent]
    exact h.isHead
  · refine ⟨fun hbar => (h.plain_trim '|' hbar).1 rfl, fun hmem => ?_⟩
    exact absurd ((trimEnd_isPrefix _).mem hmem) hpercent

/-- The blanks at the end of a head alone are no part of it, whether or not they were trimmed
before. -/
theorem Clauses.readHead_trim {pre : Text} (hpre : pre.IsOpenHead) :
    readHead pre.trim = readHead pre.trimStart := by
  by_cases hpercent : '%' ∈ pre.trimStart
  · rw [hpre.trim_eq hpercent]
  · have hblank : Text.Blank pre.trimStart.blankTail := fun c hc =>
      List.all_eq_true.1 (isAllBlank_blankTail _) c hc
    have hplain : ∀ c ∈ pre.trim, c ≠ '|' ∧ c ≠ '%' := by
      refine fun c hc => ⟨(hpre.plain_trim c hc).1, ?_⟩
      rintro rfl
      exact hpercent ((trimEnd_isPrefix _).mem hc)
    have h := readHead_append_blank hplain hblank
    rwa [Text.trim, trimEnd_append_blankTail, eq_comm] at h

/-- A head alone is a body without data section and without closing marker. -/
theorem Directive.read_bare {pre : Text} (hpre : pre.IsOpenHead) :
    Directive.read pre = readWith pre none := by
  have hlast : pre.trim.getLast? ≠ some '>' := fun hlast =>
    (hpre.plain_trim '>' (List.mem_of_getLast? hlast)).2 rfl
  have hsplit : splitAfterMark pre.trim = (pre.trim ++ [], none) := by
    rw [splitAfterMark_of_last hlast, List.append_nil]
  have hread := Clauses.read_of_split hsplit hpre.isHead_trim fun c hc => by cases hc
  unfold Directive.read readWith
  rw [hread, head?_trim, Clauses.readHead_trim hpre]
  rfl

end Stencil
