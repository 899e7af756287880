import Stencil.Blank

/-!
# Directives

The body of a substitution is a comment, or it has the clauses

`[<|<<] [!] [.]*name [%[%]join] [|name | |!template] [>|>>]`

This module reads them. An inline template keeps the blanks at its end unless a marker
follows it, and its offset is the byte where it starts in the raw body.
-/
namespace Stencil

/-- How much text goes away with a substitution that turns out empty. Markers stand at the edges of
the body, and each side has its own. -/
inductive Mark
  /-- The rest of the line that the substitution stands on. -/
  | line
  /-- The rest of the line and the blank lines next to it. -/
  | lines
deriving DecidableEq, Repr

structure JoinClause where
  leading : Bool
  text : Text
deriving DecidableEq, Repr

inductive DataClause
  | inline (source : Text) (offset : Nat)
  | named (name : Text)
deriving DecidableEq, Repr

structure Clauses where
  before : Option Mark
  insert : Bool
  rewind : Nat
  path : Text
  join : Option JoinClause
  data : Option DataClause
  after : Option Mark
deriving DecidableEq, Repr

inductive Directive
  | comment
  | substitution (clauses : Clauses)
deriving DecidableEq, Repr

/-- Takes a closing marker and the blanks before it off a trimmed body. A `>` after a backslash
is no marker. -/
def splitAfterMark (body : Text) : Text × Option Mark :=
  match body.reverse with
  | '>' :: '\\' :: _ => (body, none)
  | '>' :: '>' :: '\\' :: front => (('>' :: '\\' :: front).reverse, some .line)
  | '>' :: '>' :: front => (Text.trimEnd front.reverse, some .lines)
  | '>' :: front => (Text.trimEnd front.reverse, some .line)
  | _ => (body, none)

def takeBeforeMark : Text → Option Mark × Text
  | '<' :: '<' :: rest => (some .lines, Text.trimStart rest)
  | '<' :: rest => (some .line, Text.trimStart rest)
  | rest => (none, rest)

def takeInsert : Text → Bool × Text
  | '!' :: rest => (true, Text.trimStart rest)
  | rest => (false, rest)

def takeDots : Text → Nat × Text
  | '.' :: rest =>
    let (dots, after) := takeDots rest
    (dots + 1, after)
  | rest => (0, rest)

/-- Splits off the path, which reaches up to the first `|` or `%`. No character of it is escaped. -/
def takePath (t : Text) : Text × Text :=
  let inPath (c : Char) : Bool := c != '|' && c != '%'
  (Text.trim (t.takeWhile inPath), t.dropWhile inPath)

/-- Splits at the first `|` that does not follow a backslash, so that a join string can have bars of
its own. -/
def splitAtBar : Text → Text × Text
  | [] => ([], [])
  | '|' :: rest => ([], '|' :: rest)
  | '\\' :: c :: rest =>
    let (run, after) := splitAtBar rest
    ('\\' :: c :: run, after)
  | c :: rest =>
    let (run, after) := splitAtBar rest
    (c :: run, after)

/-- Resolves `\n`, `\t`, `\s`, `\|`, `\>` and `\\`. Any other backslash stays, and so does one at
the end. -/
def unescapeJoin : Text → Text
  | '\\' :: c :: rest =>
    let resolved : Text :=
      if c = 'n' then ['\n']
      else if c = 't' then ['\t']
      else if c = 's' then [' ']
      else if c = '|' ∨ c = '>' ∨ c = '\\' then [c]
      else ['\\', c]
    resolved ++ unescapeJoin rest
  | c :: rest => c :: unescapeJoin rest
  | [] => []

def takeJoin : Text → Option JoinClause × Text
  | '%' :: '%' :: rest =>
    let (run, after) := splitAtBar rest
    (some ⟨true, unescapeJoin run⟩, after)
  | '%' :: rest =>
    let (run, after) := splitAtBar rest
    (some ⟨false, unescapeJoin run⟩, after)
  | rest => (none, rest)

/-- Turns a `\>` that only blanks follow into `>`, so that an inline template can end in the
character of a marker. -/
def unescapeTail (inline : Text) : Text :=
  match inline.trimEnd.reverse with
  | '>' :: '\\' :: front => front.reverse ++ '>' :: inline.blankTail
  | _ => inline

theorem length_unescapeTail_le (inline : Text) : (unescapeTail inline).length ≤ inline.length := by
  unfold unescapeTail
  split
  · rename_i front h
    have hlen := congrArg List.length h
    have hall := congrArg List.length (Text.trimEnd_append_blankTail inline)
    simp at hlen hall ⊢
    omega
  · exact Nat.le_refl _

namespace Clauses

/-- Reads the data section `rest` at the end of the clauses. `body` is what is left of the raw
text between its blanks, without the closing marker. -/
def readData (raw body : Text) (marked : Bool) (rest : Text) : Option DataClause :=
  match rest with
  | '|' :: '!' :: inline =>
    let whole := if marked then inline else inline ++ raw.trimStart.blankTail
    let lead := raw.bytes - raw.trimStart.bytes
    some (.inline (unescapeTail whole) (lead + (body.bytes - Text.bytes inline)))
  | '|' :: name => some (.named (Text.trim name))
  | _ => none

def read (raw : Text) : Clauses :=
  let (body, after) := splitAfterMark raw.trim
  let (before, rest) := takeBeforeMark body
  let (insert, rest) := takeInsert rest
  let (rewind, rest) := takeDots rest
  let (path, rest) := takePath rest
  let (join, rest) := takeJoin rest
  { before, insert, rewind, path, join, after
    data := readData raw body after.isSome rest }

end Clauses

def Directive.read (raw : Text) : Directive :=
  if raw.trim.head? = some '#' then .comment else .substitution (Clauses.read raw)

/-! ### What each step leaves is an end of what it was given -/

theorem splitAfterMark_isPrefix (body : Text) : (splitAfterMark body).1 <+: body := by
  have hrev : body = body.reverse.reverse := body.reverse_reverse.symm
  unfold splitAfterMark
  split
  · exact List.prefix_refl body
  · rename_i front h
    rw [hrev, h]
    exact ⟨['>'], by simp⟩
  · rename_i front _ h
    rw [hrev, h]
    exact (Text.trimEnd_isPrefix _).trans ⟨['>', '>'], by simp⟩
  · rename_i front _ _ h
    rw [hrev, h]
    exact (Text.trimEnd_isPrefix _).trans ⟨['>'], by simp⟩
  · exact List.prefix_refl body

theorem takeBeforeMark_isSuffix (t : Text) : (takeBeforeMark t).2 <:+ t := by
  unfold takeBeforeMark
  split
  · exact (List.dropWhile_suffix isBlank).trans ⟨['<', '<'], rfl⟩
  · exact (List.dropWhile_suffix isBlank).trans ⟨['<'], rfl⟩
  · exact List.suffix_refl _

theorem takeInsert_isSuffix (t : Text) : (takeInsert t).2 <:+ t := by
  unfold takeInsert
  split
  · exact (List.dropWhile_suffix isBlank).trans ⟨['!'], rfl⟩
  · exact List.suffix_refl _

theorem takeDots_isSuffix (t : Text) : (takeDots t).2 <:+ t := by
  fun_induction takeDots t with
  | case1 rest dots after h ih =>
    rw [h] at ih
    exact ih.trans (List.suffix_cons '.' rest)
  | case2 rest => exact List.suffix_refl rest

theorem takePath_isSuffix (t : Text) : (takePath t).2 <:+ t :=
  List.dropWhile_suffix _

theorem splitAtBar_append (t : Text) : (splitAtBar t).1 ++ (splitAtBar t).2 = t := by
  fun_induction splitAtBar t with
  | case1 => rfl
  | case2 rest => rfl
  | case3 c rest run after h ih => rw [h] at ih; simp [ih]
  | case4 c rest _ _ run after h ih => rw [h] at ih; simp [ih]

theorem splitAtBar_isSuffix (t : Text) : (splitAtBar t).2 <:+ t :=
  ⟨(splitAtBar t).1, splitAtBar_append t⟩

theorem takeJoin_isSuffix (t : Text) : (takeJoin t).2 <:+ t := by
  unfold takeJoin
  split
  · exact (splitAtBar_isSuffix _).trans ⟨['%', '%'], rfl⟩
  · exact (splitAtBar_isSuffix _).trans ⟨['%'], rfl⟩
  · exact List.suffix_refl _

namespace Clauses

/-- The data section that `read` finds, with the text it was read from, which is an end of the body
without its marker. -/
theorem data_read (raw : Text) : ∃ rest, rest <:+ (splitAfterMark raw.trim).1 ∧
    (read raw).data =
      readData raw (splitAfterMark raw.trim).1 (splitAfterMark raw.trim).2.isSome rest :=
  ⟨_, (takeJoin_isSuffix _).trans <| (takePath_isSuffix _).trans <| (takeDots_isSuffix _).trans <|
    (takeInsert_isSuffix _).trans (takeBeforeMark_isSuffix _), rfl⟩

/-- An inline template is no longer than the body that holds it. Compilation goes down into it and
ends for this reason. -/
theorem length_inline_le {raw source : Text} {offset : Nat}
    (h : (read raw).data = some (.inline source offset)) : source.length ≤ raw.length := by
  obtain ⟨rest, hsuffix, hdata⟩ := data_read raw
  have hrest := Nat.le_trans hsuffix.length_le (splitAfterMark_isPrefix raw.trim).length_le
  have htrim := congrArg List.length (Text.trimEnd_append_blankTail raw.trimStart)
  have hstart := Text.length_trimStart_le raw
  rw [hdata] at h
  unfold readData at h
  split at h
  · rename_i inline
    cases h
    refine Nat.le_trans (length_unescapeTail_le _) ?_
    simp only [Text.trim, List.length_cons, List.length_append] at hrest htrim
    split
    · omega
    · rw [List.length_append]
      omega
  · simp at h
  · simp at h

end Clauses

theorem Directive.length_inline_le {raw source : Text} {clauses : Clauses} {offset : Nat}
    (hread : Directive.read raw = .substitution clauses)
    (hdata : clauses.data = some (.inline source offset)) : source.length ≤ raw.length := by
  unfold Directive.read at hread
  split at hread
  · simp at hread
  · cases hread
    exact Clauses.length_inline_le hdata

end Stencil
