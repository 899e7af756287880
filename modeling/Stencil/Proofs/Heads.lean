import Stencil.Directive
import Mathlib.Tactic.Common

/-!
# Heads of bodies

The head of a body is what comes before its data section. It is read without a look at the data
section, so that heads and data sections can be put together freely. What the closing marker and
the trimmed blanks take away is decided by the end of the body alone.
-/
namespace Stencil

/-! ### Trimming two texts that are put together -/

namespace Text

/-- Nothing, or a text that starts with a bar, like a data section. A head ends before such a
text. -/
def AtBar (t : Text) : Prop :=
  ∀ c, t.head? = some c → c = '|'

theorem isBlank_bar : isBlank '|' = false := by decide

theorem AtBar.cases {t : Text} (h : t.AtBar) : t = [] ∨ ∃ rest, t = '|' :: rest := by
  cases t with
  | nil => exact .inl rfl
  | cons c rest =>
    obtain rfl : c = '|' := h c rfl
    exact .inr ⟨rest, rfl⟩

theorem trimStart_cons {c : Char} (hc : isBlank c = false) (t : Text) :
    trimStart (c :: t) = c :: t := by
  rw [trimStart, List.dropWhile_cons, hc]
  rfl

theorem AtBar.trimStart {t : Text} (h : t.AtBar) : t.trimStart = t := by
  rcases h.cases with rfl | ⟨rest, rfl⟩
  · rfl
  · exact trimStart_cons isBlank_bar rest

theorem trimStart_append (s : Text) {t : Text} (ht : t.trimStart = t) :
    trimStart (s ++ t) = trimStart s ++ t := by
  induction s with
  | nil => exact ht
  | cons c s ih =>
    simp only [trimStart, List.cons_append, List.dropWhile_cons] at ih ⊢
    split
    · exact ih
    · rfl

theorem trimEnd_append_cons {c : Char} (hc : isBlank c = false) (s t : Text) :
    trimEnd (s ++ c :: t) = s ++ c :: trimEnd t := by
  have hstop : (c :: s.reverse).dropWhile isBlank = c :: s.reverse := by
    rw [List.dropWhile_cons, hc]
    rfl
  have hrev : (s ++ c :: t).reverse = t.reverse ++ c :: s.reverse := by simp
  rw [trimEnd, trimEnd, hrev]
  generalize t.reverse = r
  induction r with
  | nil =>
    rw [List.nil_append, hstop]
    simp
  | cons d r ih =>
    simp only [List.cons_append, List.dropWhile_cons]
    split
    · exact ih
    · simp

theorem blankTail_append_cons {c : Char} (hc : isBlank c = false) (s t : Text) :
    blankTail (s ++ c :: t) = blankTail t := by
  have hall := trimEnd_append_blankTail (s ++ c :: t)
  rw [trimEnd_append_cons hc, List.append_assoc, List.cons_append] at hall
  have hpart := trimEnd_append_blankTail t
  have hend := List.append_cancel_left hall
  rw [List.cons.injEq] at hend
  exact List.append_cancel_left (hend.2.trans hpart.symm)

/-- From a first character that is no blank on, only the end is trimmed, and before it only the
start. -/
theorem trim_append_cons {c : Char} (hc : isBlank c = false) (s t : Text) :
    trim (s ++ c :: t) = s.trimStart ++ c :: t.trimEnd := by
  rw [trim, trimStart_append s (trimStart_cons hc t), trimEnd_append_cons hc]

theorem isBlank_head?_trimStart {t : Text} {c : Char} (h : t.trimStart.head? = some c) :
    isBlank c = false := by
  have hstop := List.head?_dropWhile_not isBlank t
  rw [trimStart] at h
  simpa [h] using hstop

theorem head?_trim (t : Text) : t.trim.head? = t.trimStart.head? := by
  cases hstart : t.trimStart with
  | nil => simp [trim, hstart, trimEnd]
  | cons c rest =>
    have hc : isBlank c = false := isBlank_head?_trimStart (by rw [hstart]; rfl)
    have hend : trimEnd (c :: rest) = c :: trimEnd rest := trimEnd_append_cons hc [] rest
    rw [trim, hstart, hend]
    rfl

theorem isBlank_head?_trim {t : Text} {c : Char} (h : t.trim.head? = some c) :
    isBlank c = false := by
  rw [head?_trim] at h
  exact isBlank_head?_trimStart h

theorem isBlank_getLast?_trim {t : Text} {c : Char} (h : t.trim.getLast? = some c) :
    isBlank c = false := by
  have hstop := List.head?_dropWhile_not isBlank t.trimStart.reverse
  rw [trim, trimEnd, List.getLast?_reverse] at h
  simpa [h] using hstop

theorem trim_eq_self {t : Text} (hhead : ∀ c, t.head? = some c → isBlank c = false)
    (hlast : ∀ c, t.getLast? = some c → isBlank c = false) : t.trim = t := by
  rcases List.eq_nil_or_concat t with rfl | ⟨front, c, rfl⟩
  · rfl
  · rw [List.concat_eq_append] at *
    rw [trim_append_cons (hlast c (by simp)) front []]
    cases front with
    | nil => rfl
    | cons d front =>
      rw [trimStart_cons (hhead d rfl)]
      rfl

theorem blankTail_trimStart {c : Char} (hc : isBlank c = false) (s t : Text) :
    (s ++ c :: t).trimStart.blankTail = t.blankTail := by
  rw [trimStart_append s (trimStart_cons hc t), blankTail_append_cons hc]

end Text

open Text

/-! ### The closing marker -/

/-- A character that neither trimming nor a closing marker takes away, nor the escape of one. -/
def Text.Firm (c : Char) : Prop :=
  isBlank c = false ∧ c ≠ '>' ∧ c ≠ '\\'

theorem splitAfterMark_of_last {body : Text} (h : body.getLast? ≠ some '>') :
    splitAfterMark body = (body, none) := by
  rw [List.getLast?_eq_head?_reverse] at h
  unfold splitAfterMark
  split <;> simp_all

theorem splitAfterMark_of_escaped (front : Text) :
    splitAfterMark (front ++ ['\\', '>']) = (front ++ ['\\', '>'], none) := by
  simp [splitAfterMark]

/-- A closing marker and what it takes along stand after the last firm character, whatever comes
before that. -/
theorem splitAfterMark_append {c : Char} (hc : Firm c) (t : Text) :
    ∃ kept mark, ∀ s, splitAfterMark (s ++ c :: t) = (s ++ c :: kept, mark) := by
  obtain ⟨hblank, hmark, hslash⟩ := hc
  have htrim (s t : Text) := trimEnd_append_cons hblank s t
  have hkeep (s : Text) : trimEnd (s ++ [c]) = s ++ [c] := htrim s []
  obtain ⟨r, rfl⟩ : ∃ r, t = List.reverse r := ⟨t.reverse, t.reverse_reverse.symm⟩
  have hrev (s : Text) : (s ++ c :: r.reverse).reverse = r ++ c :: s.reverse := by simp
  unfold splitAfterMark
  simp only [hrev]
  rcases r with _ | ⟨d, r⟩
  · exact ⟨[], none, fun s => by simp [hmark]⟩
  by_cases hd : d = '>'
  · subst hd
    rcases r with _ | ⟨e, r⟩
    · exact ⟨[], some .line, fun s => by simp [hmark, hslash, hkeep]⟩
    by_cases he : e = '\\'
    · exact ⟨List.reverse ('>' :: e :: r), none, fun s => by simp [he]⟩
    by_cases he' : e = '>'
    · subst he'
      rcases r with _ | ⟨f, r⟩
      · exact ⟨[], some .lines, fun s => by simp [hslash, hkeep]⟩
      by_cases hf : f = '\\'
      · exact ⟨List.reverse ('>' :: f :: r), some .line, fun s => by simp [hf]⟩
      · exact ⟨trimEnd (List.reverse (f :: r)), some .lines, fun s => by simp [hf, htrim]⟩
    · exact ⟨trimEnd (List.reverse (e :: r)), some .line, fun s => by simp [he, he', htrim]⟩
  · exact ⟨List.reverse (d :: r), none, fun s => by simp [hd]⟩

/-- The text of a closing marker, as it is written at the end of a body. -/
def Mark.close : Option Mark → Text
  | none => []
  | some .line => ['>']
  | some .lines => ['>', '>']

theorem splitAfterMark_close {c : Char} (hc : Firm c) (s : Text) (mark : Option Mark) :
    splitAfterMark (s ++ c :: Mark.close mark) = (s ++ [c], mark) := by
  obtain ⟨hblank, hmark, hslash⟩ := hc
  have hkeep : trimEnd (s ++ [c]) = s ++ [c] := trimEnd_append_cons hblank s []
  rcases mark with _ | _ | _ <;> simp [splitAfterMark, Mark.close, hmark, hslash, hkeep]

/-! ### Reading a head -/

/-- No bar, and no backslash at the end of a separator. So the first bar after it begins the data
section. -/
structure Text.IsHead (t : Text) : Prop where
  noBar : '|' ∉ t
  closed : '%' ∈ t → t.getLast? ≠ some '\\'

theorem Text.IsHead.of_isSuffix {s t : Text} (ht : t.IsHead) (h : s <:+ t) : s.IsHead := by
  obtain ⟨front, rfl⟩ := h
  refine ⟨fun hs => ht.noBar (List.mem_append_right _ hs), fun hs hlast => ?_⟩
  apply ht.closed (List.mem_append_right _ hs)
  rw [List.getLast?_append, hlast]
  rfl

theorem takeBeforeMark_append (s : Text) {t : Text} (ht : t.AtBar) :
    takeBeforeMark (s ++ t) = ((takeBeforeMark s).1, (takeBeforeMark s).2 ++ t) := by
  unfold takeBeforeMark
  rcases s with _ | ⟨c, s⟩
  · rcases ht.cases with rfl | ⟨rest, rfl⟩ <;> simp
  by_cases hc : c = '<'
  · subst hc
    rcases s with _ | ⟨d, s⟩
    · rcases ht.cases with rfl | ⟨rest, rfl⟩
      · rfl
      · simpa using trimStart_append [] ht.trimStart
    · by_cases hd : d = '<'
      · simp [hd, trimStart_append s ht.trimStart]
      · simpa [hd] using trimStart_append (d :: s) ht.trimStart
  · simp [hc]

theorem takeInsert_append (s : Text) {t : Text} (ht : t.AtBar) :
    takeInsert (s ++ t) = ((takeInsert s).1, (takeInsert s).2 ++ t) := by
  unfold takeInsert
  rcases s with _ | ⟨c, s⟩
  · rcases ht.cases with rfl | ⟨rest, rfl⟩ <;> simp
  by_cases hc : c = '!'
  · simp [hc, trimStart_append s ht.trimStart]
  · simp [hc]

theorem takeDots_append (s : Text) {t : Text} (ht : t.AtBar) :
    takeDots (s ++ t) = ((takeDots s).1, (takeDots s).2 ++ t) := by
  fun_induction takeDots s with
  | case1 rest dots after h ih =>
    rw [h] at ih
    rw [List.cons_append, takeDots, ih]
  | case2 s hs =>
    rcases s with _ | ⟨c, s⟩
    · rcases ht.cases with rfl | ⟨rest, rfl⟩ <;> simp [takeDots]
    · have hc : c ≠ '.' := by
        rintro rfl
        exact hs s rfl
      simp [takeDots, hc]

theorem takePath_append {s t : Text} (hs : '|' ∉ s) (ht : t.AtBar) :
    takePath (s ++ t) = ((takePath s).1, (takePath s).2 ++ t) := by
  let inPath (c : Char) : Bool := c != '|' && c != '%'
  have hsplit : (s ++ t).takeWhile inPath = s.takeWhile inPath ∧
      (s ++ t).dropWhile inPath = s.dropWhile inPath ++ t := by
    induction s with
    | nil => rcases ht.cases with rfl | ⟨rest, rfl⟩ <;> simp [inPath]
    | cons c s ih =>
      obtain ⟨htake, hdrop⟩ := ih fun hbar => hs (List.mem_cons_of_mem c hbar)
      simp only [List.cons_append, List.takeWhile_cons, List.dropWhile_cons, htake, hdrop]
      split <;> simp
  show (trim ((s ++ t).takeWhile inPath), (s ++ t).dropWhile inPath) = _
  rw [hsplit.1, hsplit.2]
  rfl

/-- The path ends where a separator section starts, if there is one, and otherwise it is all that is
left. -/
theorem head?_takePath {s : Text} (hs : '|' ∉ s) :
    ∀ c, (takePath s).2.head? = some c → c = '%' := by
  intro c hc
  have hmem := List.mem_of_mem_head? hc
  have hbar : c ≠ '|' := fun h => hs (h ▸ (takePath_isSuffix s).mem hmem)
  have hstop := List.head?_dropWhile_not (fun c => c != '|' && c != '%') s
  simp only [takePath] at hc
  rw [hc] at hstop
  simpa [hbar] using hstop

theorem splitAtBar_append_atBar {s t : Text} (hs : '|' ∉ s) (hlast : s.getLast? ≠ some '\\')
    (ht : t.AtBar) : splitAtBar (s ++ t) = (s, t) := by
  have htail {c : Char} {rest : Text} (h : (c :: rest).getLast? ≠ some '\\') :
      rest.getLast? ≠ some '\\' := by
    intro hrest
    rw [List.getLast?_cons, hrest] at h
    exact h rfl
  fun_induction splitAtBar s with
  | case1 => rcases ht.cases with rfl | ⟨rest, rfl⟩ <;> rfl
  | case2 rest => simp at hs
  | case3 c rest run after h ih =>
    simp only [List.mem_cons, not_or] at hs
    rw [List.cons_append, List.cons_append, splitAtBar, ih hs.2.2 (htail (htail hlast))]
  | case4 c rest hbar hslash run after h ih =>
    simp only [List.mem_cons, not_or] at hs
    have hc : c ≠ '\\' := by
      rintro rfl
      cases rest with
      | nil => exact hlast rfl
      | cons d rest => exact hslash d rest rfl rfl
    rw [List.cons_append, splitAtBar, ih hs.2 (htail hlast)]
    · exact fun h => hs.1 h.symm
    · exact fun _ _ h => absurd h hc

theorem takeJoin_append {s t : Text} (hs : s.IsHead) (hpercent : ∀ c, s.head? = some c → c = '%')
    (ht : t.AtBar) : takeJoin (s ++ t) = ((takeJoin s).1, t) := by
  rcases s with _ | ⟨c, s⟩
  · rcases ht.cases with rfl | ⟨rest, rfl⟩ <;> rfl
  obtain rfl : c = '%' := hpercent c rfl
  have hclosed := hs.closed List.mem_cons_self
  have hbar := hs.noBar
  simp only [List.mem_cons, not_or] at hbar
  have hnil : Text.AtBar [] := fun _ h => by cases h
  have hrun {s : Text} (hbar : '|' ∉ s) (hlast : s.getLast? ≠ some '\\') :
      splitAtBar s = (s, []) := by
    have h := splitAtBar_append_atBar hbar hlast hnil
    rwa [List.append_nil] at h
  rcases s with _ | ⟨d, s⟩
  · rcases ht.cases with rfl | ⟨rest, rfl⟩ <;> rfl
  rw [List.getLast?_cons_cons] at hclosed
  by_cases hd : d = '%'
  · subst hd
    simp only [List.mem_cons, not_or] at hbar
    have hlast : s.getLast? ≠ some '\\' := by
      intro h
      rw [List.getLast?_cons, h] at hclosed
      exact hclosed rfl
    simp [takeJoin, splitAtBar_append_atBar hbar.2.2 hlast ht, hrun hbar.2.2 hlast]
  · have happend := splitAtBar_append_atBar hbar.2 hclosed ht
    rw [List.cons_append] at happend
    simp [takeJoin, hd, happend, hrun hbar.2 hclosed]

namespace Clauses

/-- What a head says, for a body without data section and closing marker. -/
def readHead (head : Text) : Clauses :=
  let (before, rest) := takeBeforeMark head
  let (insert, rest) := takeInsert rest
  let (rewind, rest) := takeDots rest
  let (path, rest) := takePath rest
  { before, insert, rewind, path, join := (takeJoin rest).1, data := none, after := none }

/-- A head is read in the same way before any data section, as long as the end of the body is split
behind it. -/
theorem read_of_split {raw head data : Text} {mark : Option Mark}
    (hsplit : splitAfterMark raw.trim = (head ++ data, mark)) (hhead : head.IsHead)
    (hdata : data.AtBar) :
    read raw = { readHead head with
      data := readData raw (head ++ data) mark.isSome data, after := mark } := by
  have hinsert := hhead.of_isSuffix (takeBeforeMark_isSuffix head)
  have hdots := hinsert.of_isSuffix (takeInsert_isSuffix _)
  have hpath := hdots.of_isSuffix (takeDots_isSuffix _)
  have hjoin := hpath.of_isSuffix (takePath_isSuffix _)
  unfold read readHead
  rw [hsplit]
  simp only [takeBeforeMark_append head hdata, takeInsert_append _ hdata, takeDots_append _ hdata,
    takePath_append hpath.noBar hdata, takeJoin_append hjoin (head?_takePath hpath.noBar) hdata]

end Clauses

/-! ### Writing a head -/

/-- The text of a marker before a name, as it is written at the start of a body. -/
def Mark.open : Option Mark → Text
  | none => []
  | some .line => ['<']
  | some .lines => ['<', '<']

/-- A path that is read as a path wherever it is written: it does not start or end like another
clause, and there are no blanks around it. -/
structure Text.IsPath (path : Text) : Prop where
  ne_nil : path ≠ []
  trimmed : path.trim = path
  inside : ∀ c ∈ path, c ≠ '|' ∧ c ≠ '%'
  start : ∀ c, path.head? = some c → c ≠ '<' ∧ c ≠ '!' ∧ c ≠ '.' ∧ c ≠ '#'
  last : ∀ c, path.getLast? = some c → Firm c

/-- A separator section, or nothing. It has no bars, and it ends in a character that nothing takes
away. -/
structure Text.IsJoin (join : Text) : Prop where
  start : ∀ c, join.head? = some c → c = '%'
  noBar : '|' ∉ join
  last : ∀ c, join.getLast? = some c → Firm c

theorem Text.IsPath.cons {path : Text} (h : path.IsPath) : ∃ c rest, path = c :: rest ∧
    isBlank c = false ∧ c ≠ '<' ∧ c ≠ '!' ∧ c ≠ '.' ∧ c ≠ '#' := by
  obtain ⟨hne, htrim, -, hstart, -⟩ := h
  cases path with
  | nil => exact absurd rfl hne
  | cons c rest =>
    refine ⟨c, rest, rfl, ?_, hstart c rfl⟩
    by_contra hblank
    have hlength : (Text.trim (c :: rest)).length ≤ rest.length := by
      rw [Text.trim, Text.trimStart, List.dropWhile_cons_of_pos (by simpa using hblank)]
      exact Nat.le_trans (length_trimEnd_le _) (length_trimStart_le rest)
    rw [htrim, List.length_cons] at hlength
    omega

/-- The text of a head: marker, dots, path and separator section, without blanks between. -/
def headText (before : Option Mark) (dots : Nat) (path join : Text) : Text :=
  Mark.open before ++ (List.replicate dots '.' ++ (path ++ join))

theorem takeBeforeMark_open (before : Option Mark) {c : Char} (hc : isBlank c = false)
    (hne : c ≠ '<') (t : Text) :
    takeBeforeMark (Mark.open before ++ c :: t) = (before, c :: t) := by
  rcases before with _ | _ | _ <;> simp [takeBeforeMark, Mark.open, hne, trimStart_cons hc]

theorem takeDots_replicate (dots : Nat) {c : Char} (hc : c ≠ '.') (t : Text) :
    takeDots (List.replicate dots '.' ++ c :: t) = (dots, c :: t) := by
  induction dots with
  | zero => simp [takeDots, hc]
  | succ dots ih => rw [List.replicate_succ, List.cons_append, takeDots, ih]

theorem takePath_append_join {path join : Text} (h : path.IsPath)
    (hjoin : ∀ c, join.head? = some c → c = '%') : takePath (path ++ join) = (path, join) := by
  let inPath (c : Char) : Bool := c != '|' && c != '%'
  have hstop : join.takeWhile inPath = [] ∧ join.dropWhile inPath = join := by
    cases join with
    | nil => exact ⟨rfl, rfl⟩
    | cons c join =>
      obtain rfl : c = '%' := hjoin c rfl
      exact ⟨rfl, rfl⟩
  have hinside : ∀ c ∈ path, inPath c = true := by
    intro c hc
    simpa [inPath] using h.inside c hc
  show (trim ((path ++ join).takeWhile inPath), (path ++ join).dropWhile inPath) = _
  rw [List.takeWhile_append_of_pos hinside, List.dropWhile_append_of_pos hinside, hstop.1, hstop.2,
    List.append_nil, h.trimmed]

theorem headText_cons (before : Option Mark) (dots : Nat) {path : Text} (join : Text)
    (h : path.IsPath) : ∃ c rest, headText before dots path join = c :: rest ∧
      isBlank c = false ∧ c ≠ '#' := by
  obtain ⟨c, rest, rfl, hblank, -, -, -, hhash⟩ := h.cons
  unfold headText
  rcases before with _ | _ | _
  · cases dots with
    | zero => exact ⟨c, rest ++ join, by simp [Mark.open], hblank, hhash⟩
    | succ dots =>
      exact ⟨'.', _, by rw [List.replicate_succ, Mark.open, List.nil_append, List.cons_append],
        by decide, by decide⟩
  · exact ⟨'<', _, rfl, by decide, by decide⟩
  · exact ⟨'<', _, rfl, by decide, by decide⟩

theorem headText_concat (before : Option Mark) (dots : Nat) {path join : Text} (h : path.IsPath)
    (hjoin : join.IsJoin) : ∃ front c, headText before dots path join = front ++ [c] ∧ Firm c := by
  obtain ⟨front, c, hend, hc⟩ : ∃ front c, path ++ join = front ++ [c] ∧ Firm c := by
    rcases List.eq_nil_or_concat join with rfl | ⟨front, c, rfl⟩
    · rcases List.eq_nil_or_concat path with hnil | ⟨front, c, rfl⟩
      · exact absurd hnil h.ne_nil
      · exact ⟨front, c, by simp, h.last c (by simp)⟩
    · exact ⟨path ++ front, c, by simp, hjoin.last c (by simp)⟩
  exact ⟨Mark.open before ++ (List.replicate dots '.' ++ front), c, by simp [headText, hend], hc⟩

theorem isHead_headText (before : Option Mark) (dots : Nat) {path join : Text} (h : path.IsPath)
    (hjoin : join.IsJoin) : (headText before dots path join).IsHead := by
  refine ⟨fun hbar => ?_, fun _ hlast => ?_⟩
  · have hopen : '|' ∉ Mark.open before := by rcases before with _ | _ | _ <;> decide
    have hpath : '|' ∉ path := fun hmem => (h.inside '|' hmem).1 rfl
    simp [headText, hopen, hpath, hjoin.noBar, List.mem_replicate] at hbar
  · obtain ⟨front, c, hend, -, -, hslash⟩ := headText_concat before dots h hjoin
    rw [hend] at hlast
    exact hslash (by simpa using hlast)

/-- Nothing of a written head is trimmed: its first character is no blank, and its last one is
firm. -/
theorem trim_headText_append (before : Option Mark) (dots : Nat) {path join : Text}
    (h : path.IsPath) (hjoin : join.IsJoin) (tail : Text) :
    Text.trim (headText before dots path join ++ tail) =
      headText before dots path join ++ tail.trimEnd := by
  obtain ⟨front, c, hend, hc, -⟩ := headText_concat before dots h hjoin
  obtain ⟨d, rest, hstart, hd, -⟩ := headText_cons before dots join h
  have hfront : trimStart front = front := by
    cases front with
    | nil => rfl
    | cons e front =>
      rw [hstart, List.cons_append, List.cons.injEq] at hend
      exact trimStart_cons (hend.1 ▸ hd) front
  rw [hend, List.append_assoc, List.singleton_append, trim_append_cons hc, hfront]
  simp

theorem blankTail_headText_append (before : Option Mark) (dots : Nat) {path join : Text}
    (h : path.IsPath) (hjoin : join.IsJoin) (tail : Text) :
    (Text.trimStart (headText before dots path join ++ tail)).blankTail = tail.blankTail := by
  obtain ⟨front, c, hend, hc, -⟩ := headText_concat before dots h hjoin
  rw [hend, List.append_assoc, List.singleton_append, blankTail_trimStart hc]

/-- A head is read as what was written, part by part and with nothing left over. -/
theorem Clauses.readHead_headText (before : Option Mark) (dots : Nat) {path join : Text}
    (h : path.IsPath) (hjoin : ∀ c, join.head? = some c → c = '%') :
    readHead (headText before dots path join) =
      ⟨before, false, dots, path, (takeJoin join).1, none, none⟩ := by
  obtain ⟨c, rest, hpath, hblank, hleft, hbang, hdot, -⟩ := h.cons
  have hpathJoin := takePath_append_join h hjoin
  have hdots := takeDots_replicate dots hdot (rest ++ join)
  obtain ⟨d, more, hnext, hd, hd', hd''⟩ : ∃ d more,
      List.replicate dots '.' ++ (path ++ join) = d :: more ∧ isBlank d = false ∧ d ≠ '<' ∧
        d ≠ '!' := by
    cases dots with
    | zero => exact ⟨c, rest ++ join, by simp [hpath], hblank, hleft, hbang⟩
    | succ dots =>
      exact ⟨'.', _, by rw [List.replicate_succ, List.cons_append], by decide, by decide, by decide⟩
  have hbefore := takeBeforeMark_open before hd hd' more
  have hinsert : takeInsert (d :: more) = (false, d :: more) := by simp [takeInsert, hd'']
  rw [← hnext] at hbefore hinsert
  rw [← List.cons_append, ← hpath] at hdots
  unfold readHead headText
  simp only [hbefore, hinsert, hdots, hpathJoin]

/-- A written head is read back, with what follows it as its data section and its closing marker. -/
theorem Directive.read_headText (before : Option Mark) (dots : Nat) {path join tail data : Text}
    {mark : Option Mark} (h : path.IsPath) (hjoin : join.IsJoin) (hdata : data.AtBar)
    (hsplit : splitAfterMark (headText before dots path join ++ tail.trimEnd) =
      (headText before dots path join ++ data, mark)) :
    Directive.read (headText before dots path join ++ tail) = .substitution
      ⟨before, false, dots, path, (takeJoin join).1,
        Clauses.readData (headText before dots path join ++ tail)
          (headText before dots path join ++ data) mark.isSome data, mark⟩ := by
  have htrim := trim_headText_append before dots h hjoin tail
  have hread := Clauses.read_of_split (by rw [htrim, hsplit]) (isHead_headText before dots h hjoin)
    hdata
  obtain ⟨c, rest, hstart, -, hhash⟩ := headText_cons before dots join h
  have hcomment : (Text.trim (headText before dots path join ++ tail)).head? ≠ some '#' := by
    rw [htrim, hstart]
    simpa using hhash
  rw [Directive.read, if_neg hcomment, hread,
    Clauses.readHead_headText before dots h hjoin.start]

end Stencil
