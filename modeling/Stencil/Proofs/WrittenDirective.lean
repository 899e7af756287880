import Stencil.Proofs.DataSections

/-!
# Written directives

The body of a substitution is written clause by clause: markers, insertion, dots, path, separator
and data section. Each clause is read back as it was written, whatever clause follows it, so a
written body is read as its clauses. What the text of a clause must not start or end with is what
trimming, the closing marker or the clause after it would take.
-/
namespace Stencil

/-! ### First and last characters -/

namespace Text

/-- This holds of the first character, if there is one. Nothing is asked of the empty text. -/
def Starts (p : Char → Prop) (t : Text) : Prop :=
  ∀ c, t.head? = some c → p c

/-- This holds of the last character, if there is one. Nothing is asked of the empty text. -/
def Ends (p : Char → Prop) (t : Text) : Prop :=
  ∀ c, t.getLast? = some c → p c

variable {p q : Char → Prop} {s t : Text}

theorem Starts.mono (h : t.Starts p) (hpq : ∀ c, p c → q c) : t.Starts q :=
  fun c hc => hpq c (h c hc)

theorem Starts.append (hs : s.Starts p) (ht : t.Starts p) : Starts p (s ++ t) := by
  intro c hc
  cases s with
  | nil => exact ht c hc
  | cons d s => exact hs c hc

theorem Ends.prepend (ht : t.Ends p) (hne : t ≠ []) (s : Text) : Ends p (s ++ t) := by
  intro c hc
  refine ht c ?_
  rw [List.getLast?_append] at hc
  cases hlast : t.getLast? with
  | none => exact absurd (List.getLast?_eq_none_iff.1 hlast) hne
  | some d => rwa [hlast] at hc

theorem Ends.append (hs : s.Ends p) (ht : t.Ends p) : Ends p (s ++ t) := by
  by_cases hne : t = []
  · rwa [hne, List.append_nil]
  · exact ht.prepend hne s

theorem starts_cons {c : Char} (hc : p c) (t : Text) : Starts p (c :: t) := by
  intro d hd
  obtain rfl : c = d := Option.some.inj hd
  exact hc

theorem starts_trim (t : Text) : t.trim.Starts fun c => isBlank c = false :=
  fun _ => isBlank_head?_trim

theorem ends_trimEnd (t : Text) : t.trimEnd.Ends fun c => isBlank c = false := by
  intro c hc
  have hstop := List.head?_dropWhile_not isBlank t.reverse
  rw [trimEnd, List.getLast?_reverse] at hc
  simpa [hc] using hstop

theorem trimStart_eq_self (h : t.Starts fun c => isBlank c = false) : t.trimStart = t := by
  cases t with
  | nil => rfl
  | cons c t => exact trimStart_cons (h c rfl) t

theorem trimEnd_eq_self (h : t.Ends fun c => isBlank c = false) : t.trimEnd = t := by
  rcases List.eq_nil_or_concat t with rfl | ⟨front, c, rfl⟩
  · rfl
  · rw [List.concat_eq_append] at *
    exact trimEnd_append_cons (h c (by simp)) front []

/-- There is no closing marker at the end. A `>` at the end is none if a backslash stands before
it. -/
def Unmarked (t : Text) : Prop :=
  t.getLast? ≠ some '>' ∨ ∃ front, t = front ++ ['\\', '>']

theorem Unmarked.append (hs : s.Unmarked) (ht : t.Unmarked) : Unmarked (s ++ t) := by
  rcases List.eq_nil_or_concat t with rfl | ⟨front, c, rfl⟩
  · rwa [List.append_nil]
  · rcases ht with hlast | ⟨front', hfront⟩
    · refine .inl ?_
      rw [List.getLast?_append]
      simpa using hlast
    · exact .inr ⟨s ++ front', by rw [hfront, List.append_assoc]⟩

theorem Unmarked.of_ends (h : t.Ends (· ≠ '>')) : t.Unmarked :=
  .inl fun hlast => h '>' hlast rfl

theorem Unmarked.splitAfterMark (h : t.Unmarked) : splitAfterMark t = (t, none) := by
  rcases h with hlast | ⟨front, rfl⟩
  · exact splitAfterMark_of_last hlast
  · exact splitAfterMark_of_escaped front

end Text

open Text

/-! ### Writing -/

def escapeJoinChar (c : Char) : Text :=
  if c = '\n' then ['\\', 'n']
  else if c = '\t' then ['\\', 't']
  else if c = ' ' then ['\\', 's']
  else if c = '|' ∨ c = '>' ∨ c = '\\' then ['\\', c]
  else [c]

/-- Writes a separator so that it is neither trimmed nor cut. Spaces, tabs, line breaks, bars, `>`
and backslashes get a backslash. -/
def escapeJoin (t : Text) : Text :=
  t.flatMap escapeJoinChar

def JoinClause.write : Option JoinClause → Text
  | none => []
  | some ⟨false, text⟩ => '%' :: escapeJoin text
  | some ⟨true, text⟩ => '%' :: '%' :: escapeJoin text

def DataClause.write : Option DataClause → Text
  | none => []
  | some (.named name) => '|' :: name
  | some (.inline source _) => '|' :: '!' :: escapeTail source

/-- A closing marker, with a blank before it. The blank keeps the marker apart from the text before
it, and is trimmed when it is read. -/
def Mark.write : Option Mark → Text
  | none => []
  | some mark => ' ' :: Mark.close (some mark)

namespace Clauses

def writeHead (clauses : Clauses) : Text :=
  Mark.open clauses.before ++ ((if clauses.insert then ['!'] else []) ++
    (List.replicate clauses.rewind '.' ++ (clauses.path ++ JoinClause.write clauses.join)))

def write (clauses : Clauses) : Text :=
  clauses.writeHead ++ (DataClause.write clauses.data ++ Mark.write clauses.after)

/-- The clauses that can be written: no text starts or ends like a neighbour or with what is
trimmed. All other texts are allowed. -/
structure Writable (clauses : Clauses) : Prop where
  trimmed : clauses.path.trim = clauses.path
  plain : ∀ c ∈ clauses.path, c ≠ '|' ∧ c ≠ '%' ∧ c ≠ '>'
  start : clauses.path.Starts fun c => c ≠ '.' ∧ c ≠ '<' ∧ c ≠ '!' ∧ c ≠ '#'
  /-- A separator that starts with `%` would count as a leading one. One that is a leading separator
  already may start in any way. -/
  joinStart : ∀ text, clauses.join = some ⟨false, text⟩ → text.Starts (· ≠ '%')
  joinEnd : clauses.data = none → ∀ join, clauses.join = some join →
    join.text.Ends fun c => isBlank c = true → c = ' ' ∨ c = '\t' ∨ c = '\n'
  name : ∀ name, clauses.data = some (.named name) →
    name.trim = name ∧ name.Starts (· ≠ '!') ∧ name.Ends (· ≠ '>')
  inlineEnd : clauses.after ≠ none → ∀ source offset, clauses.data = some (.inline source offset) →
    source.Ends fun c => isBlank c = false

end Clauses

/-! ### Separators -/

theorem escapeJoinChar_cases (c : Char) :
    (∃ d, escapeJoinChar c = ['\\', d] ∧ isBlank d = false ∧
      ∀ rest, unescapeJoin ('\\' :: d :: rest) = c :: unescapeJoin rest) ∨
    escapeJoinChar c = [c] ∧ c ≠ '\n' ∧ c ≠ '\t' ∧ c ≠ ' ' ∧ c ≠ '|' ∧ c ≠ '>' ∧ c ≠ '\\' := by
  unfold escapeJoinChar
  split_ifs with hn ht hs hsign
  · exact .inl ⟨'n', rfl, by decide, fun rest => by simp [unescapeJoin, hn]⟩
  · exact .inl ⟨'t', rfl, by decide, fun rest => by simp [unescapeJoin, ht]⟩
  · exact .inl ⟨'s', rfl, by decide, fun rest => by simp [unescapeJoin, hs]⟩
  · refine .inl ⟨c, rfl, ?_, fun rest => ?_⟩
    · rcases hsign with rfl | rfl | rfl <;> decide
    · rcases hsign with rfl | rfl | rfl <;> simp [unescapeJoin]
  · simp only [not_or] at hsign
    exact .inr ⟨rfl, hn, ht, hs, hsign⟩

theorem escapeJoin_cons (c : Char) (t : Text) :
    escapeJoin (c :: t) = escapeJoinChar c ++ escapeJoin t :=
  List.flatMap_cons

theorem unescapeJoin_escapeJoin (t : Text) : unescapeJoin (escapeJoin t) = t := by
  induction t with
  | nil => rfl
  | cons c t ih =>
    rw [escapeJoin_cons]
    rcases escapeJoinChar_cases c with ⟨d, h, -, hread⟩ | ⟨h, -, -, -, -, -, hslash⟩
    · rw [h, List.cons_append, List.singleton_append, hread, ih]
    · rw [h, List.singleton_append, unescapeJoin, ih]
      rintro _ _ rfl
      exact absurd rfl hslash

/-- A written separator reaches up to the data section. The bars in it are escaped, so none of them
is taken for the start of the data. -/
theorem splitAtBar_escapeJoin (t : Text) {rest : Text} (hrest : rest.AtBar) :
    splitAtBar (escapeJoin t ++ rest) = (escapeJoin t, rest) := by
  induction t with
  | nil => rcases hrest.cases with rfl | ⟨more, rfl⟩ <;> rfl
  | cons c t ih =>
    rw [escapeJoin_cons]
    rcases escapeJoinChar_cases c with ⟨d, h, -, -⟩ | ⟨h, -, -, -, hbar, -, hslash⟩
    · simp only [h, List.cons_append, List.nil_append, splitAtBar, ih]
    · rw [h, List.singleton_append, List.cons_append, splitAtBar, ih]
      · rintro rfl
        exact absurd rfl hbar
      · rintro _ _ rfl
        exact absurd rfl hslash

theorem starts_escapeJoin {p : Char → Prop} {t : Text} (hslash : p '\\') (h : t.Starts p) :
    (escapeJoin t).Starts p := by
  cases t with
  | nil => exact h
  | cons c t =>
    rw [escapeJoin_cons]
    rcases escapeJoinChar_cases c with ⟨d, hc, -, -⟩ | ⟨hc, -⟩
    · rw [hc]
      exact starts_cons hslash _
    · rw [hc]
      exact starts_cons (h c rfl) _

/-- A written separator does not end in a blank that is written as itself. Trimming the body takes
nothing from it. -/
theorem ends_escapeJoin {t : Text}
    (h : t.Ends fun c => isBlank c = true → c = ' ' ∨ c = '\t' ∨ c = '\n') :
    (escapeJoin t).Ends fun c => isBlank c = false := by
  rcases List.eq_nil_or_concat t with rfl | ⟨front, c, rfl⟩
  · intro c hc
    cases hc
  · rw [List.concat_eq_append] at *
    have hc := h c (by simp)
    have hsplit : escapeJoin (front ++ [c]) = escapeJoin front ++ escapeJoinChar c := by
      simp [escapeJoin]
    intro d hd
    rw [hsplit, List.getLast?_append] at hd
    rcases escapeJoinChar_cases c with ⟨e, he, hblank, -⟩ | ⟨he, hn, ht, hs, -⟩
    · obtain rfl : e = d := by simpa [he] using hd
      exact hblank
    · obtain rfl : c = d := by simpa [he] using hd
      by_contra hblank
      rcases hc (by simpa using hblank) with rfl | rfl | rfl
      · exact hs rfl
      · exact ht rfl
      · exact hn rfl

theorem unmarked_escapeJoin (t : Text) : (escapeJoin t).Unmarked := by
  induction t with
  | nil => exact .inl (by simp [escapeJoin])
  | cons c t ih =>
    rw [escapeJoin_cons]
    refine Unmarked.append ?_ ih
    rcases escapeJoinChar_cases c with ⟨d, hc, -, -⟩ | ⟨hc, -, -, -, -, hmark, -⟩
    · rw [hc]
      by_cases hd : d = '>'
      · exact .inr ⟨[], by rw [hd]; rfl⟩
      · exact .inl (by simpa using hd)
    · rw [hc]
      exact .inl (by simpa using hmark)

/-! ### One clause -/

theorem takeBeforeMark_write (before : Option Mark) {rest : Text}
    (h : rest.Starts fun c => isBlank c = false ∧ c ≠ '<') :
    takeBeforeMark (Mark.open before ++ rest) = (before, rest) := by
  cases rest with
  | nil => rcases before with _ | _ | _ <;> rfl
  | cons c rest => exact takeBeforeMark_open before (h c rfl).1 (h c rfl).2 rest

theorem takeInsert_write (insert : Bool) {rest : Text}
    (h : rest.Starts fun c => isBlank c = false ∧ c ≠ '!') :
    takeInsert ((if insert then ['!'] else []) ++ rest) = (insert, rest) := by
  cases insert with
  | true => simp [takeInsert, trimStart_eq_self (h.mono fun c hc => hc.1)]
  | false =>
    cases rest with
    | nil => rfl
    | cons c rest => simp [takeInsert, (h c rfl).2]

theorem takeDots_write (dots : Nat) {rest : Text} (h : rest.Starts (· ≠ '.')) :
    takeDots (List.replicate dots '.' ++ rest) = (dots, rest) := by
  cases rest with
  | cons c rest => exact takeDots_replicate dots (h c rfl) rest
  | nil =>
    rw [List.append_nil]
    induction dots with
    | zero => rfl
    | succ dots ih => rw [List.replicate_succ, takeDots, ih]

theorem takePath_write {path rest : Text} (htrim : path.trim = path)
    (hplain : ∀ c ∈ path, c ≠ '|' ∧ c ≠ '%') (h : rest.Starts fun c => c = '%' ∨ c = '|') :
    takePath (path ++ rest) = (path, rest) := by
  let inPath (c : Char) : Bool := c != '|' && c != '%'
  have hstop : rest.takeWhile inPath = [] ∧ rest.dropWhile inPath = rest := by
    cases rest with
    | nil => exact ⟨rfl, rfl⟩
    | cons c rest => rcases h c rfl with rfl | rfl <;> exact ⟨rfl, rfl⟩
  have hinside : ∀ c ∈ path, inPath c = true := by
    intro c hc
    simpa [inPath] using hplain c hc
  show (trim ((path ++ rest).takeWhile inPath), (path ++ rest).dropWhile inPath) = _
  rw [List.takeWhile_append_of_pos hinside, List.dropWhile_append_of_pos hinside, hstop.1, hstop.2,
    List.append_nil, htrim]

theorem takeJoin_write {join : Option JoinClause} {rest : Text}
    (hstart : ∀ text, join = some ⟨false, text⟩ → text.Starts (· ≠ '%')) (hrest : rest.AtBar) :
    takeJoin (JoinClause.write join ++ rest) = (join, rest) := by
  rcases join with _ | ⟨_ | _, text⟩
  · rcases hrest.cases with rfl | ⟨more, rfl⟩ <;> rfl
  · have hsplit := splitAtBar_escapeJoin text hrest
    have hnext : (escapeJoin text ++ rest).Starts (· ≠ '%') := by
      refine (starts_escapeJoin (by decide) (hstart text rfl)).append fun c hc => ?_
      rw [hrest c hc]
      decide
    rw [JoinClause.write, List.cons_append, takeJoin, hsplit]
    · simp only [unescapeJoin_escapeJoin]
    · intro more hmore
      exact hnext '%' (by rw [hmore]; rfl) rfl
  · rw [JoinClause.write, List.cons_append, List.cons_append, takeJoin,
      splitAtBar_escapeJoin text hrest]
    simp only [unescapeJoin_escapeJoin]

theorem starts_join (join : Option JoinClause) : (JoinClause.write join).Starts (· = '%') := by
  rcases join with _ | ⟨_ | _, text⟩
  · intro c hc
    cases hc
  · exact starts_cons (by rfl) _
  · exact starts_cons (by rfl) _

theorem atBar_data (data : Option DataClause) : (DataClause.write data).AtBar := by
  rcases data with _ | _ | _
  · intro c hc
    cases hc
  · exact starts_cons (by rfl) _
  · exact starts_cons (by rfl) _

namespace Clauses

variable {clauses : Clauses} {data : Text}

theorem starts_join_data (join : Option JoinClause) (hdata : data.AtBar) :
    Starts (fun c => c = '%' ∨ c = '|') (JoinClause.write join ++ data) :=
  ((starts_join join).mono fun _ hc => .inl hc).append fun c hc => .inr (hdata c hc)

namespace Writable

theorem starts_path (h : clauses.Writable) (hdata : data.AtBar) :
    Starts (fun c => isBlank c = false ∧ c ≠ '.' ∧ c ≠ '<' ∧ c ≠ '!' ∧ c ≠ '#')
      (clauses.path ++ (JoinClause.write clauses.join ++ data)) := by
  refine Starts.append (fun c hc => ⟨?_, h.start c hc⟩) ((starts_join_data _ hdata).mono ?_)
  · have hblank := starts_trim clauses.path
    rw [h.trimmed] at hblank
    exact hblank c hc
  · rintro _ (rfl | rfl) <;> decide

theorem starts_dots (h : clauses.Writable) (hdata : data.AtBar) :
    Starts (fun c => isBlank c = false ∧ c ≠ '<' ∧ c ≠ '!' ∧ c ≠ '#')
      (List.replicate clauses.rewind '.' ++
        (clauses.path ++ (JoinClause.write clauses.join ++ data))) := by
  refine Starts.append (fun c hc => ?_) ((h.starts_path hdata).mono fun c hc => ⟨hc.1, hc.2.2⟩)
  obtain rfl := List.eq_of_mem_replicate (List.mem_of_mem_head? hc)
  decide

theorem starts_insert (h : clauses.Writable) (hdata : data.AtBar) :
    Starts (fun c => isBlank c = false ∧ c ≠ '<' ∧ c ≠ '#')
      ((if clauses.insert then ['!'] else []) ++ (List.replicate clauses.rewind '.' ++
        (clauses.path ++ (JoinClause.write clauses.join ++ data)))) := by
  refine Starts.append ?_ ((h.starts_dots hdata).mono fun c hc => ⟨hc.1, hc.2.1, hc.2.2.2⟩)
  cases clauses.insert with
  | true => exact starts_cons (by decide) []
  | false => exact fun c hc => by cases hc

/-- What is written starts with no blank and not like a comment. So it is neither trimmed at the
front nor dropped as a comment. -/
theorem starts_writeHead (h : clauses.Writable) (hdata : data.AtBar) :
    Starts (fun c => isBlank c = false ∧ c ≠ '#') (clauses.writeHead ++ data) := by
  simp only [writeHead, List.append_assoc]
  refine Starts.append ?_ ((h.starts_insert hdata).mono fun c hc => ⟨hc.1, hc.2.2⟩)
  rcases clauses.before with _ | _ | _
  · exact fun c hc => by cases hc
  · exact starts_cons (by decide) _
  · exact starts_cons (by decide) _

/-- A written head is read back before any data section. The clauses of the head do not depend on
what stands in the data. -/
theorem read_writeHead (h : clauses.Writable) {raw : Text} {mark : Option Mark} (hdata : data.AtBar)
    (hsplit : splitAfterMark raw.trim = (clauses.writeHead ++ data, mark)) :
    read raw = { clauses with
      data := readData raw (clauses.writeHead ++ data) mark.isSome data, after := mark } := by
  have hbefore := takeBeforeMark_write clauses.before
    ((h.starts_insert hdata).mono fun c hc => ⟨hc.1, hc.2.1⟩)
  have hinsert := takeInsert_write clauses.insert
    ((h.starts_dots hdata).mono fun c hc => ⟨hc.1, hc.2.2.1⟩)
  have hdots := takeDots_write clauses.rewind ((h.starts_path hdata).mono fun c hc => hc.2.1)
  have hpath := takePath_write h.trimmed (fun c hc => ⟨(h.plain c hc).1, (h.plain c hc).2.1⟩)
    (starts_join_data clauses.join hdata)
  have hjoin := takeJoin_write h.joinStart hdata
  unfold read
  rw [hsplit]
  simp only [writeHead, List.append_assoc, hbefore, hinsert, hdots, hpath, hjoin]

/-! ### The end of a written body -/

theorem ends_head (h : clauses.Writable) (hnone : clauses.data = none) :
    clauses.writeHead.Ends fun c => isBlank c = false := by
  refine Ends.append ?_ (Ends.append ?_ (Ends.append ?_ (Ends.append ?_ ?_)))
  · rcases clauses.before with _ | _ | _
    · exact fun c hc => by cases hc
    · exact fun c hc => by cases hc; decide
    · exact fun c hc => by cases hc; decide
  · cases clauses.insert with
    | true => exact fun c hc => by cases hc; decide
    | false => exact fun c hc => by cases hc
  · intro c hc
    obtain rfl := List.eq_of_mem_replicate (List.mem_of_getLast? hc)
    decide
  · have hblank := ends_trimEnd clauses.path.trimStart
    rwa [← trim, h.trimmed] at hblank
  · cases hjoin : clauses.join with
    | none => exact fun c hc => by cases hc
    | some join =>
      have htext := ends_escapeJoin (h.joinEnd hnone join hjoin)
      have hpercent : Text.Ends (fun c => isBlank c = false) ['%'] := by
        intro c hc
        obtain rfl : '%' = c := Option.some.inj hc
        decide
      obtain ⟨_ | _, text⟩ := join
      · exact hpercent.append htext
      · exact hpercent.append (hpercent.append htext)

theorem unmarked_head (h : clauses.Writable) : clauses.writeHead.Unmarked := by
  have hpercent : Text.Unmarked ['%'] := .inl (by decide)
  refine Unmarked.append ?_ (Unmarked.append ?_ (Unmarked.append ?_ (Unmarked.append ?_ ?_)))
  · rcases clauses.before with _ | _ | _ <;> exact .inl (by decide)
  · cases clauses.insert <;> exact .inl (by decide)
  · refine .of_ends fun c hc => ?_
    obtain rfl := List.eq_of_mem_replicate (List.mem_of_getLast? hc)
    decide
  · exact .of_ends fun c hc => (h.plain c (List.mem_of_getLast? hc)).2.2
  · rcases clauses.join with _ | ⟨_ | _, text⟩
    · exact .inl (by decide)
    · exact hpercent.append (unmarked_escapeJoin text)
    · exact hpercent.append (hpercent.append (unmarked_escapeJoin text))

end Writable

/-! ### Data sections -/

/-- A closing marker with a blank before it is taken off together with that blank. The text before
them stays, as it ends in no blank. -/
theorem split_writeMark {core : Text} (hstart : core.Starts fun c => isBlank c = false)
    (hend : core.Ends fun c => isBlank c = false) (mark : Mark) :
    splitAfterMark (trim (core ++ Mark.write (some mark))) = (core, some mark) := by
  cases core with
  | nil => cases mark <;> rfl
  | cons c core =>
    have hblank : Text.Blank [' '] := by
      intro d hd
      obtain rfl := List.mem_singleton.1 hd
      decide
    have hcore : trimEnd (c :: core ++ [' ']) = c :: core := by
      rw [trimEnd_append_blank _ hblank, trimEnd_eq_self hend]
    have hmark : Ends (fun c => isBlank c = false) (Mark.close (some mark)) := by
      cases mark <;> exact fun d hd => by cases hd; decide
    have hlast : Ends (fun c => isBlank c = false) (c :: core ++ Mark.write (some mark)) := by
      have hsplit : c :: core ++ Mark.write (some mark) =
          (c :: core ++ [' ']) ++ Mark.close (some mark) := by
        simp [Mark.write]
      rw [hsplit]
      exact hmark.prepend (by cases mark <;> decide) _
    have hfirst : Starts (fun c => isBlank c = false) (c :: core ++ Mark.write (some mark)) :=
      starts_cons (hstart c rfl) _
    rw [trim_eq_self hfirst hlast]
    cases mark <;> simpa [splitAfterMark, Mark.write, Mark.close] using hcore

/-- An inline template is read back as what it was written for, at its place. This holds with a
closing marker after it and without one. -/
theorem readData_inline {raw head inline source : Text} {marked : Bool}
    (hraw : raw.trimStart = raw)
    (hwhole : (if marked then inline else inline ++ raw.blankTail) = escapeTail source) :
    readData raw (head ++ '|' :: '!' :: inline) marked ('|' :: '!' :: inline) =
      some (.inline source (Text.bytes (head ++ ['|', '!']))) := by
  have hoffset : raw.bytes - raw.bytes +
      (Text.bytes (head ++ '|' :: '!' :: inline) - Text.bytes inline) =
      Text.bytes (head ++ ['|', '!']) := by
    simp only [Text.bytes_append, Text.bytes_cons, Text.bytes_nil]
    omega
  simp only [readData, hraw, hwhole, unescapeTail_escapeTail, hoffset]

theorem readData_named {raw body name : Text} {marked : Bool} (htrim : name.trim = name)
    (hstart : name.Starts (· ≠ '!')) :
    readData raw body marked ('|' :: name) = some (.named name) := by
  unfold readData
  split
  · rename_i inline heq
    rw [List.cons.injEq] at heq
    exact absurd rfl (hstart '!' (by rw [heq.2]; rfl))
  · rename_i other _ heq
    rw [List.cons.injEq] at heq
    rw [← heq.2, htrim]
  · simp_all

end Clauses

/-- The data section whose inline template stands at byte `offset`. A template name has no place
that is kept. -/
def DataClause.placedAt (offset : Nat) : DataClause → DataClause
  | .inline source _ => .inline source offset
  | .named name => .named name

/-- What is left of a written data section when the blanks at the end of the body are trimmed. A
closing marker keeps them apart from the data section. -/
def DataClause.kept (marked : Bool) : Option DataClause → Text
  | none => []
  | some (.named name) => '|' :: name
  | some (.inline source _) =>
    '|' :: '!' :: if marked then escapeTail source else (escapeTail source).trimEnd

theorem DataClause.kept_true (data : Option DataClause) : kept true data = write data := by
  rcases data with _ | _ | _ <;> rfl

theorem DataClause.atBar_kept (marked : Bool) (data : Option DataClause) :
    (kept marked data).AtBar := by
  rcases data with _ | _ | _
  · intro c hc
    cases hc
  · exact starts_cons (by rfl) _
  · exact starts_cons (by rfl) _

theorem ends_escapeTail {source : Text} (h : source.Ends fun c => isBlank c = false) :
    (escapeTail source).Ends fun c => isBlank c = false := by
  have hnil : source.blankTail = [] := by
    have hsplit := trimEnd_append_blankTail source
    simpa [trimEnd_eq_self h] using hsplit
  have hsplit := trimEnd_append_blankTail (escapeTail source)
  rw [blankTail_escapeTail, hnil, List.append_nil] at hsplit
  rw [← hsplit]
  exact ends_trimEnd _

namespace Clauses.Writable

variable {clauses : Clauses}

/-- What stands before a closing marker is not trimmed. It does not end in a blank, because the
clauses can be written. -/
theorem ends_core (h : clauses.Writable) (hafter : clauses.after ≠ none) :
    Ends (fun c => isBlank c = false) (clauses.writeHead ++ DataClause.write clauses.data) := by
  have hbar : Text.Ends (fun c => isBlank c = false) ['|'] := by
    intro c hc
    obtain rfl : '|' = c := Option.some.inj hc
    decide
  have hbang : Text.Ends (fun c => isBlank c = false) ['|', '!'] := by
    intro c hc
    obtain rfl : '!' = c := Option.some.inj hc
    decide
  cases hdata : clauses.data with
  | none => exact (h.ends_head hdata).append fun c hc => by cases hc
  | some data =>
    cases data with
    | named name =>
      have hname := ends_trimEnd name.trimStart
      rw [← trim, (h.name name hdata).1] at hname
      exact (hbar.append hname).prepend (List.cons_ne_nil _ _) _
    | inline source offset =>
      have hsource := ends_escapeTail (h.inlineEnd hafter source offset hdata)
      exact (hbang.append hsource).prepend (List.cons_ne_nil _ _) _

/-- Without a closing marker, only the end of an inline template is trimmed. Nothing else in a
written body ends in a blank. -/
theorem trim_core (h : clauses.Writable) :
    trim (clauses.writeHead ++ DataClause.write clauses.data) =
      clauses.writeHead ++ DataClause.kept false clauses.data := by
  have hstart := (h.starts_writeHead (atBar_data clauses.data)).mono fun c hc => hc.1
  rw [trim, trimStart_eq_self hstart]
  cases hdata : clauses.data with
  | none =>
    rw [DataClause.write, DataClause.kept, List.append_nil, trimEnd_eq_self (h.ends_head hdata)]
  | some data =>
    cases data with
    | named name =>
      have hname := ends_trimEnd name.trimStart
      rw [← trim, (h.name name hdata).1] at hname
      rw [DataClause.write, DataClause.kept, trimEnd_append_cons isBlank_bar, trimEnd_eq_self hname]
    | inline source offset =>
      have hbang := trimEnd_append_cons (by decide : isBlank '!' = false) [] (escapeTail source)
      rw [List.nil_append, List.nil_append] at hbang
      rw [DataClause.write, trimEnd_append_cons isBlank_bar, hbang]
      rfl

theorem unmarked_core (h : clauses.Writable) :
    Unmarked (clauses.writeHead ++ DataClause.kept false clauses.data) := by
  refine h.unmarked_head.append ?_
  cases hdata : clauses.data with
  | none => exact .inl (by decide)
  | some data =>
    cases data with
    | named name =>
      have hname := Unmarked.of_ends (h.name name hdata).2.2
      exact Unmarked.append (s := ['|']) (.inl (by decide)) hname
    | inline source offset =>
      have hsource : (escapeTail source).trimEnd.Unmarked := trimEnd_escapeTail source
      exact Unmarked.append (s := ['|', '!']) (.inl (by decide)) hsource

/-- The closing marker of a written body is found, and nothing else is taken for one. What is left
is the head and the data section. -/
theorem split_write (h : clauses.Writable) : splitAfterMark clauses.write.trim =
    (clauses.writeHead ++ DataClause.kept clauses.after.isSome clauses.data, clauses.after) := by
  have hstart := (h.starts_writeHead (atBar_data clauses.data)).mono fun c hc => hc.1
  rw [write, ← List.append_assoc]
  cases hafter : clauses.after with
  | none =>
    rw [Mark.write, List.append_nil, h.trim_core]
    exact h.unmarked_core.splitAfterMark
  | some mark =>
    rw [Option.isSome_some, DataClause.kept_true]
    exact split_writeMark hstart (h.ends_core (by simp [hafter])) mark

theorem trimStart_write (h : clauses.Writable) (hdata : clauses.data ≠ none) :
    clauses.write.trimStart = clauses.write := by
  have hbar : (DataClause.write clauses.data ++ Mark.write clauses.after).AtBar := by
    rcases hsome : clauses.data with _ | _ | _
    · exact absurd hsome hdata
    · exact starts_cons (by rfl) _
    · exact starts_cons (by rfl) _
  exact trimStart_eq_self ((h.starts_writeHead hbar).mono fun c hc => hc.1)

theorem readData_write (h : clauses.Writable) :
    readData clauses.write (clauses.writeHead ++ DataClause.kept clauses.after.isSome clauses.data)
        clauses.after.isSome (DataClause.kept clauses.after.isSome clauses.data) =
      clauses.data.map (DataClause.placedAt (Text.bytes (clauses.writeHead ++ ['|', '!']))) := by
  have hraw := h.trimStart_write
  cases hdata : clauses.data with
  | none => rfl
  | some data =>
    rw [hdata] at hraw
    cases data with
    | named name =>
      obtain ⟨htrim, hstart, -⟩ := h.name name hdata
      exact readData_named htrim hstart
    | inline source offset =>
      refine readData_inline (hraw (by simp)) ?_
      cases hafter : clauses.after with
      | some mark => rfl
      | none =>
        have hbang : isBlank '!' = false := by decide
        have htail := blankTail_append_cons hbang (clauses.writeHead ++ ['|']) (escapeTail source)
        have hwrite : clauses.write = clauses.writeHead ++ ['|'] ++ '!' :: escapeTail source := by
          simp [write, hdata, hafter, DataClause.write, Mark.write]
        rw [hwrite, htail]
        exact trimEnd_append_blankTail _

/-- A written body is no comment. It may be empty, or else it starts with a clause, and no clause
starts with `#`. -/
theorem head?_write (h : clauses.Writable) : clauses.write.trim.head? ≠ some '#' := by
  have hstart := h.starts_writeHead (atBar_data clauses.data)
  rw [head?_trim, write, ← List.append_assoc]
  cases hcore : clauses.writeHead ++ DataClause.write clauses.data with
  | nil => rcases clauses.after with _ | _ | _ <;> decide
  | cons c core =>
    rw [hcore] at hstart
    obtain ⟨hblank, hhash⟩ := hstart c rfl
    rw [List.cons_append, trimStart_cons hblank]
    simpa using hhash

end Clauses.Writable

/-- A written body is read as the clauses it was written from, with the place of its inline
template. Reading thus undoes writing, up to places. -/
theorem Directive.read_write {clauses : Clauses} (h : clauses.Writable) :
    Directive.read clauses.write = .substitution { clauses with
      data := clauses.data.map (DataClause.placedAt
        (Text.bytes (clauses.writeHead ++ ['|', '!']))) } := by
  have hread := h.read_writeHead (DataClause.atBar_kept _ _) h.split_write
  rw [h.readData_write] at hread
  rw [Directive.read, if_neg h.head?_write, hread]

/-- A substitution with all clauses of a value, whose separator and inline template end like a
marker. Both are escaped when it is written. -/
def Clauses.ornate : Clauses where
  before := some .lines
  insert := false
  rewind := 2
  path := ['a', '.', '\\']
  join := some ⟨true, ['%', '|', ' ', '\\', '>']⟩
  data := some (.inline ['<', 'é', '\\', '>'] 0)
  after := some .lines

/-- The backslashes and markers of a separator and of an inline template are told from the closing
marker, and the place of the inline template is counted in bytes. -/
theorem Directive.read_write_ornate : Clauses.ornate.Writable ∧
    Directive.read Clauses.ornate.write = .substitution { Clauses.ornate with
      data := some (.inline ['<', 'é', '\\', '>'] 20) } := by
  have hwritable : Clauses.ornate.Writable := by
    refine ⟨rfl, by simp [Clauses.ornate], ?_, ?_, ?_, ?_, ?_⟩
    · rintro _ ⟨rfl⟩
      decide
    · rintro _ ⟨⟩
    · rintro ⟨⟩
    · rintro _ ⟨⟩
    · rintro - _ _ ⟨rfl, rfl⟩ _ ⟨rfl⟩
      decide
  exact ⟨hwritable, Directive.read_write hwritable⟩

end Stencil
