import Stencil.Proofs.Balance

/-!
# Balanced sources

A source can be cut to its end exactly when its braces balance: read from the left, closing braces
never outnumber opening ones, and in the end there are as many of both. Otherwise the error is at
the first closing braces too many, or at the last opening braces that nothing was open before. A cut
to the end loses nothing: its tokens, written one after another, are the source again.
-/
namespace Stencil

namespace Lexeme

/-! ### The surplus of opening braces -/

/-- How many more opening braces than closing ones there are, which may be negative. -/
def surplus (ls : List Lexeme) : Int :=
  ls.count .opening - ls.count .closing

@[simp] theorem surplus_nil : surplus [] = 0 := rfl

@[simp] theorem surplus_opening (ls : List Lexeme) : surplus (.opening :: ls) = surplus ls + 1 := by
  simp only [surplus, List.count_cons_self, List.count_cons_of_ne (by decide : opening ≠ closing)]
  omega

@[simp] theorem surplus_closing (ls : List Lexeme) : surplus (.closing :: ls) = surplus ls - 1 := by
  simp only [surplus, List.count_cons_self, List.count_cons_of_ne (by decide : closing ≠ opening)]
  omega

@[simp] theorem surplus_escaped (b : Brace) (ls : List Lexeme) :
    surplus (.escaped b :: ls) = surplus ls := by
  simp [surplus]

@[simp] theorem surplus_plain (c : Char) (ls : List Lexeme) :
    surplus (.plain c :: ls) = surplus ls := by
  simp [surplus]

theorem surplus_append (ls ms : List Lexeme) : surplus (ls ++ ms) = surplus ls + surplus ms := by
  simp only [surplus, List.count_append]
  omega

/-- Read from the left, closing braces never outnumber the opening ones. This is what makes a text
balanced up to some point. -/
def NeverNegative (ls : List Lexeme) : Prop :=
  ∀ front, front <+: ls → 0 ≤ surplus front

structure Balanced (ls : List Lexeme) : Prop where
  never : NeverNegative ls
  settled : surplus ls = 0

theorem forall_prefix_cons {l : Lexeme} {ls : List Lexeme} {p : List Lexeme → Prop} :
    (∀ front, front <+: l :: ls → p front) ↔ p [] ∧ ∀ front, front <+: ls → p (l :: front) := by
  constructor
  · intro h
    exact ⟨h [] List.nil_prefix, fun front hfront => h _ ((List.prefix_cons_inj l).2 hfront)⟩
  · rintro ⟨hnil, hcons⟩ front hfront
    rcases List.prefix_cons_iff.1 hfront with rfl | ⟨rest, rfl, hrest⟩
    · exact hnil
    · exact hcons rest hrest

/-- Counting what is open goes through as long as the surplus does not fall below what was open
before, and it ends where the surplus does. -/
theorem openAfter_eq_some_iff {depth after : Nat} {ls : List Lexeme} :
    openAfter depth ls = some after ↔
      (∀ front, front <+: ls → 0 ≤ depth + surplus front) ∧
        (after : Int) = depth + surplus ls := by
  fun_induction openAfter depth ls with
  | case1 depth =>
    simp only [Option.some.injEq, List.prefix_nil, forall_eq, surplus_nil]
    omega
  | case2 rest =>
    rw [forall_prefix_cons]
    constructor
    · intro h
      cases h
    · rintro ⟨⟨-, h⟩, -⟩
      have hfirst := h [] List.nil_prefix
      simp at hfirst
  | case3 depth rest ih | case4 depth rest ih =>
    rw [ih, forall_prefix_cons]
    simp only [surplus_closing, surplus_opening, surplus_nil]
    constructor
    · rintro ⟨hfront, hend⟩
      refine ⟨⟨by omega, fun front h => ?_⟩, by omega⟩
      have := hfront front h
      omega
    · rintro ⟨⟨-, hfront⟩, hend⟩
      refine ⟨fun front h => ?_, by omega⟩
      have := hfront front h
      omega
  | case5 depth b rest ih | case6 depth c rest ih =>
    rw [ih, forall_prefix_cons]
    simp only [surplus_escaped, surplus_plain, surplus_nil]
    constructor
    · rintro ⟨hfront, hend⟩
      exact ⟨⟨by omega, hfront⟩, hend⟩
    · rintro ⟨⟨-, hfront⟩, hend⟩
      exact ⟨hfront, hend⟩

theorem neverNegative_iff {ls : List Lexeme} : NeverNegative ls ↔ ∃ n, openAfter 0 ls = some n := by
  simp only [openAfter_eq_some_iff, Int.natCast_zero, Int.zero_add]
  constructor
  · intro h
    have hall := h ls (List.prefix_refl ls)
    exact ⟨(surplus ls).toNat, h, by omega⟩
  · rintro ⟨_, h, -⟩
    exact h

theorem balanced_iff {ls : List Lexeme} : Balanced ls ↔ openAfter 0 ls = some 0 := by
  simp only [openAfter_eq_some_iff, Int.natCast_zero, Int.zero_add]
  constructor
  · rintro ⟨hnever, hsettled⟩
    exact ⟨hnever, hsettled.symm⟩
  · rintro ⟨hnever, hsettled⟩
    exact ⟨hnever, hsettled.symm⟩

/-- Braces stay open exactly when nothing after them closes more than it opens, that is when
counting from there never fails. -/
theorem closeBody_eq_none_iff {depth : Nat} {ls : List Lexeme} :
    closeBody depth ls = none ↔ ∃ n, openAfter depth ls = some n := by
  fun_induction closeBody depth ls with
  | case1 depth => simp [openAfter]
  | case2 rest => simp [openAfter]
  | case3 depth rest ih | case4 depth rest ih => rw [Option.map_eq_none_iff, ih, openAfter]
  | case5 depth l rest h1 h2 h3 ih =>
    rw [Option.map_eq_none_iff, ih]
    cases l with
    | closing =>
      cases depth with
      | zero => exact absurd rfl (h1 rfl)
      | succ depth => exact absurd rfl (h2 depth rfl)
    | opening => exact absurd rfl h3
    | escaped b => rw [openAfter]
    | plain c => rw [openAfter]

/-! ### Reading from the left -/

/-- The lexemes are those of a reading from the left: no character stands alone that pairs with the
one after it. -/
def Greedy (ls : List Lexeme) : Prop :=
  ∀ front c rest, ls = front ++ .plain c :: rest →
    ∀ d, (write rest).head? = some d → pairs c d = false

namespace Greedy

variable {ls ms : List Lexeme}

theorem right (ls : List Lexeme) (h : Greedy (ls ++ ms)) : Greedy ms := by
  rintro front c rest rfl
  exact h (ls ++ front) c rest (by rw [List.append_assoc])

theorem left (h : Greedy (ls ++ ms)) : Greedy ls := by
  rintro front c rest rfl d hd
  refine h front c (rest ++ ms) (by simp) d ?_
  rw [write_append, List.head?_append, hd]
  rfl

/-- There is only one reading of a text: lexemes that nothing longer could have been read for are
those that are read. -/
theorem readAll_write (h : Greedy ls) : readAll (write ls) = ls := by
  induction ls with
  | nil => rfl
  | cons l ls ih =>
    have hrest := ih (right [l] h)
    cases l with
    | escaped b => cases b <;> simp [text, Brace.char, readAll, hrest]
    | opening => simp [text, readAll, hrest]
    | closing => simp [text, readAll, hrest]
    | plain c =>
      rw [write_cons, text, List.singleton_append, readAll_cons (h [] c ls rfl), hrest]

end Greedy

theorem greedy_readAll (t : Text) : Greedy (readAll t) := by
  fun_induction readAll t with
  | case1 rest ih | case2 rest ih | case3 rest ih | case4 rest ih =>
    intro front c more hsplit
    cases front with
    | nil => simp at hsplit
    | cons l front => exact ih front c more (List.cons.inj hsplit).2
  | case5 c rest h1 h2 h3 h4 ih =>
    intro front d more hsplit
    cases front with
    | cons l front => exact ih front d more (List.cons.inj hsplit).2
    | nil =>
      obtain ⟨hc, rfl⟩ := List.cons.inj hsplit
      cases hc
      rw [write_readAll]
      intro d hd
      obtain ⟨more, rfl⟩ := List.head?_eq_some_iff.1 hd
      simp only [List.cons.injEq] at h1 h2 h3 h4
      by_cases hslash : c = '\\' <;> by_cases hl : c = '{' <;> by_cases hr : c = '}' <;>
        simp_all [pairs]
  | case6 => simp [Greedy]

theorem plainRun_join (ls : List Lexeme) : (plainRun ls).1.map .plain ++ (plainRun ls).2 = ls := by
  fun_induction plainRun ls with
  | case1 c rest run after h ih =>
    rw [h] at ih
    rw [List.map_cons, List.cons_append, ih]
  | case2 => rfl

@[simp] theorem write_map_plain (t : Text) : write (t.map .plain) = t := by
  induction t with
  | nil => rfl
  | cons c t ih => rw [List.map_cons, write_cons, ih, text, List.singleton_append]

end Lexeme

open Lexeme

/-! ### Where the cut stops -/

namespace Scan

/-- Why a cut of the lexemes from byte `start` on ends: at their end, at a closing brace that has no
partner, or at opening braces that stay open. -/
inductive Verdict (start : Nat) (ls : List Lexeme) : Option SyntaxError → Prop
  | whole : openAfter 0 ls = some 0 → Verdict start ls none
  | stray (front rest : List Lexeme) : ls = front ++ .closing :: rest →
    openAfter 0 front = some 0 →
    Verdict start ls (some ⟨.unopened, start + Text.bytes (write front)⟩)
  | unclosed (front rest : List Lexeme) : ls = front ++ .opening :: rest →
    openAfter 0 front = some 0 → closeBody 0 rest = none →
    Verdict start ls (some ⟨.unclosed, start + Text.bytes (write front)⟩)

theorem Verdict.after {start : Nat} (lead : List Lexeme) {ls : List Lexeme}
    {failure : Option SyntaxError}
    (hlead : openAfter 0 lead = some 0)
    (h : Verdict (start + Text.bytes (write lead)) ls failure) :
    Verdict start (lead ++ ls) failure := by
  have hopen {ms : List Lexeme} (hms : openAfter 0 ms = some 0) :
      openAfter 0 (lead ++ ms) = some 0 := by
    rw [openAfter_append, hlead, Option.bind_some, hms]
  have hbytes (front : List Lexeme) : start + Text.bytes (write lead) + Text.bytes (write front) =
      start + Text.bytes (write (lead ++ front)) := by
    rw [write_append, Text.bytes_append, Nat.add_assoc]
  cases h with
  | whole h => exact .whole (hopen h)
  | stray front rest hsplit hfront =>
    rw [hbytes]
    exact .stray (lead ++ front) rest (by rw [hsplit, List.append_assoc]) (hopen hfront)
  | unclosed front rest hsplit hfront hnone =>
    rw [hbytes]
    exact .unclosed (lead ++ front) rest (by rw [hsplit, List.append_assoc]) (hopen hfront) hnone

/-- A closed substitution leaves nothing open, so that reading goes on after it as before it. -/
theorem openAfter_enclosed {rest body after : List Lexeme}
    (h : closeBody 0 rest = some (body, after)) :
    openAfter 0 (.opening :: (body ++ [.closing])) = some 0 := by
  rw [openAfter, openAfter_append, openAfter_add (openAfter_of_closeBody h) 1]
  rfl

theorem verdict_ofLexemes (start : Nat) (ls : List Lexeme) :
    Verdict start ls (ofLexemes start ls).failure := by
  fun_induction ofLexemes start ls with
  | case1 => exact .whole rfl
  | case2 start b rest ih =>
    rw [← bytes_text_escaped b] at ih
    exact Verdict.after [.escaped b] rfl (by simpa using ih)
  | case3 start rest => exact .stray [] rest rfl rfl
  | case4 start rest hclose => exact .unclosed [] rest rfl rfl hclose
  | case5 start rest body after hclose _ raw ih =>
    have hsplit : Lexeme.opening :: rest = .opening :: (body ++ [.closing]) ++ after := by
      rw [eq_append_of_closeBody hclose]
      simp
    have hbytes : start + raw.bytes + 4 =
        start + Text.bytes (write (.opening :: (body ++ [.closing]))) := by
      simp only [write_cons, write_append, write_nil, Text.bytes_append, bytes_text_opening,
        bytes_text_closing, Text.bytes_nil, raw]
      omega
    rw [failure_cons, hbytes, hsplit]
    exact Verdict.after _ (openAfter_enclosed hclose) (by rwa [← hbytes])
  | case6 start c rest _ run after hstray =>
    obtain ⟨more, hmore⟩ := List.head?_eq_some_iff.1 hstray
    have h : Verdict start _ _ := .stray (run.map .plain) more rfl (openAfter_plain 0 run)
    have hsplit : Lexeme.plain c :: rest = run.map .plain ++ .closing :: more := by
      rw [← hmore, List.map_cons, List.cons_append, plainRun_join]
    rwa [← hsplit, write_map_plain] at h
  | case7 start c rest _ run after _ ih =>
    have hsplit : Lexeme.plain c :: rest = run.map .plain ++ after := by
      rw [List.map_cons, List.cons_append, plainRun_join]
    rw [failure_cons, hsplit]
    exact Verdict.after _ (openAfter_plain 0 run) (by rwa [write_map_plain])

end Scan

/-! ### What the tokens keep -/

/-- What a token was cut from: a literal from itself, a brace from its escape and a body from what
its braces enclose. -/
def Token.source : Token → Text
  | .literal run => run
  | .brace b => ['\\', b.char]
  | .body raw _ => enclose raw

/-- A literal is not empty, and what stands between the braces of a substitution is balanced. Every
token of a scan is of this kind. -/
def Token.Sound : Token → Prop
  | .literal run => run ≠ []
  | .brace _ => True
  | .body raw _ => Balanced (readAll raw)

namespace Scan

theorem source_ofLexemes {start : Nat} {ls : List Lexeme}
    (h : (ofLexemes start ls).failure = none) :
    (ofLexemes start ls).tokens.flatMap Token.source = write ls := by
  fun_induction ofLexemes start ls with
  | case1 => rfl
  | case2 start b rest ih =>
    rw [tokens_cons, List.flatMap_cons, ih h]
    rfl
  | case3 | case4 | case6 => cases h
  | case5 start rest body after hclose _ raw ih =>
    rw [tokens_cons, List.flatMap_cons, ih h, eq_append_of_closeBody hclose]
    simp [Token.source, enclose, text, raw]
  | case7 start c rest _ run after _ ih =>
    rw [tokens_cons, List.flatMap_cons, ih h, write_cons, ← write_plainRun rest]
    rfl

theorem sound_ofLexemes {start : Nat} {ls : List Lexeme} (h : Greedy ls) :
    ∀ token ∈ (ofLexemes start ls).tokens, token.Sound := by
  fun_induction ofLexemes start ls with
  | case1 | case3 | case4 | case6 => simp
  | case2 start b rest ih =>
    intro token htoken
    rcases List.mem_cons.1 htoken with rfl | htoken
    · trivial
    · exact ih (h.right [.escaped b]) token htoken
  | case5 start rest body after hclose _ raw ih =>
    have hrest := h.right [.opening]
    rw [eq_append_of_closeBody hclose] at hrest
    intro token htoken
    rcases List.mem_cons.1 htoken with rfl | htoken
    · show Balanced (readAll (write body))
      rw [hrest.left.readAll_write, balanced_iff]
      exact openAfter_of_closeBody hclose
    · exact ih ((hrest.right _).right [.closing]) token htoken
  | case7 start c rest _ run after _ ih =>
    have hafter : Greedy (run.map .plain ++ after) := by
      rwa [List.map_cons, List.cons_append, plainRun_join]
    intro token htoken
    rcases List.mem_cons.1 htoken with rfl | htoken
    · exact List.cons_ne_nil c _
    · exact ih (hafter.right _) token htoken

/-- A body opens after what the tokens before it were cut from, counted in bytes from where the
source starts. -/
theorem start_ofLexemes (start : Nat) (ls : List Lexeme) : ∀ before raw offset after,
    (ofLexemes start ls).tokens = before ++ .body raw offset :: after →
      offset = start + Text.bytes (before.flatMap Token.source) := by
  fun_induction ofLexemes start ls with
  | case1 | case3 | case4 | case6 => simp
  | case2 start b rest ih =>
    intro before raw offset after h
    cases before with
    | nil => simp at h
    | cons token before =>
      obtain ⟨rfl, hrest⟩ := List.cons.inj h
      have hbytes : Text.bytes (Token.source (.brace b)) = 2 := bytes_text_escaped b
      rw [ih before raw offset after hrest, List.flatMap_cons, Text.bytes_append, hbytes,
        Nat.add_assoc]
  | case5 start rest body more hclose _ inner ih =>
    intro before raw offset after h
    cases before with
    | nil =>
      obtain ⟨hbody, -⟩ := List.cons.inj h
      simp only [Token.body.injEq] at hbody
      exact hbody.2.symm
    | cons token before =>
      obtain ⟨rfl, hrest⟩ := List.cons.inj h
      have hbytes : Text.bytes (Token.source (.body inner start)) = inner.bytes + 4 :=
        bytes_enclose inner
      rw [ih before raw offset after hrest, List.flatMap_cons, Text.bytes_append, hbytes]
      omega
  | case7 start c rest _ run more _ ih =>
    intro before raw offset after h
    cases before with
    | nil => simp at h
    | cons token before =>
      obtain ⟨rfl, hrest⟩ := List.cons.inj h
      rw [ih before raw offset after hrest, List.flatMap_cons, Text.bytes_append, Token.source,
        Nat.add_assoc]

end Scan

namespace Lexeme

/-- The last opening braces that nothing is open before come after `front`. An unclosed source is
reported there. -/
structure LastAtZero (ls front : List Lexeme) : Prop where
  opens : ∃ rest, ls = front ++ .opening :: rest
  settled : surplus front = 0
  last : ∀ front' rest', ls = front' ++ .opening :: rest' → surplus front' = 0 →
    front'.length ≤ front.length

/-- Nothing is at zero again after opening braces that stay open, so that they are the last ones of
this kind. -/
theorem lastAtZero_of_closeBody {front rest : List Lexeme} (hfront : openAfter 0 front = some 0)
    (hrest : closeBody 0 rest = none) : LastAtZero (front ++ .opening :: rest) front := by
  obtain ⟨n, hopen⟩ := closeBody_eq_none_iff.1 hrest
  have hsettled := (balanced_iff.2 hfront).settled
  refine ⟨⟨rest, rfl⟩, hsettled, fun front' rest' hsplit hzero => ?_⟩
  by_contra hlonger
  rcases List.append_eq_append_iff.1 hsplit with ⟨more, hfront', hmore⟩ | ⟨more, hfront', -⟩
  · cases more with
    | nil =>
      rw [List.append_nil] at hfront'
      rw [hfront'] at hlonger
      exact hlonger (Nat.le_refl _)
    | cons l more =>
      rw [List.cons_append, List.cons.injEq] at hmore
      obtain ⟨rfl, hmore⟩ := hmore
      have hnever := (openAfter_eq_some_iff.1 hopen).1 more ⟨_, hmore.symm⟩
      rw [hfront', surplus_append, surplus_opening, hsettled] at hzero
      omega
  · rw [hfront', List.length_append] at hlonger
    omega

end Lexeme

namespace Scan.Verdict

variable {start : Nat} {ls : List Lexeme} {failure : Option SyntaxError}

theorem eq_none_iff (h : Verdict start ls failure) : failure = none ↔ Balanced ls := by
  rw [balanced_iff]
  cases h with
  | whole hopen => simp [hopen]
  | stray front rest hsplit hfront =>
    rw [hsplit, openAfter_append, hfront]
    simp [openAfter]
  | unclosed front rest hsplit hfront hnone =>
    obtain ⟨n, hrest⟩ := closeBody_eq_none_iff.1 hnone
    rw [hsplit, openAfter_append, hfront, Option.bind_some, openAfter, openAfter_add hrest 1]
    simp

theorem of_not_neverNegative (h : Verdict start ls failure) (hneg : ¬ NeverNegative ls) :
    ∃ front rest, ls = front ++ .closing :: rest ∧ Balanced front ∧
      failure = some ⟨.unopened, start + Text.bytes (write front)⟩ := by
  rw [neverNegative_iff] at hneg
  cases h with
  | whole hopen => exact absurd ⟨0, hopen⟩ hneg
  | stray front rest hsplit hfront => exact ⟨front, rest, hsplit, balanced_iff.2 hfront, rfl⟩
  | unclosed front rest hsplit hfront hnone =>
    obtain ⟨n, hrest⟩ := closeBody_eq_none_iff.1 hnone
    refine absurd ⟨n + 1, ?_⟩ hneg
    rw [hsplit, openAfter_append, hfront, Option.bind_some, openAfter, openAfter_add hrest 1]

theorem of_surplus_ne_zero (h : Verdict start ls failure) (hnever : NeverNegative ls)
    (hsurplus : surplus ls ≠ 0) :
    ∃ front, LastAtZero ls front ∧
      failure = some ⟨.unclosed, start + Text.bytes (write front)⟩ := by
  cases h with
  | whole hopen => exact absurd (balanced_iff.2 hopen).settled hsurplus
  | stray front rest hsplit hfront =>
    have hneg := hnever (front ++ [.closing]) ⟨rest, by rw [hsplit]; simp⟩
    rw [surplus_append, (balanced_iff.2 hfront).settled] at hneg
    simp at hneg
  | unclosed front rest hsplit hfront hnone =>
    exact ⟨front, hsplit ▸ lastAtZero_of_closeBody hfront hnone, rfl⟩

end Scan.Verdict

/-- A source is cut to its end exactly when its braces balance. Then its tokens are the source,
bodies stand where their offsets say and are balanced themselves. An error is at the first closing
braces too many, else at the last opening braces before which nothing is open. -/
theorem Scan.ofSource_exact (base : Nat) (source : Text) :
    (write (readAll source) = source ∧ Greedy (readAll source)) ∧
    ((ofSource base source).failure = none ↔ Balanced (readAll source)) ∧
    (¬ NeverNegative (readAll source) → ∃ front rest,
      readAll source = front ++ .closing :: rest ∧ Balanced front ∧
        (ofSource base source).failure =
          some ⟨.unopened, base + Text.bytes (write front)⟩) ∧
    (NeverNegative (readAll source) → surplus (readAll source) ≠ 0 → ∃ front,
      LastAtZero (readAll source) front ∧
        (ofSource base source).failure =
          some ⟨.unclosed, base + Text.bytes (write front)⟩) ∧
    ((ofSource base source).failure = none →
      (ofSource base source).tokens.flatMap Token.source = source ∧
      (∀ token ∈ (ofSource base source).tokens, token.Sound) ∧
      ∀ before raw start after,
        (ofSource base source).tokens = before ++ .body raw start :: after →
        start + 2 = base + Text.bytes (before.flatMap Token.source ++ ['{', '{'])) := by
  have hverdict := verdict_ofLexemes base (readAll source)
  have hgreedy := greedy_readAll source
  refine ⟨⟨write_readAll source, hgreedy⟩, hverdict.eq_none_iff, hverdict.of_not_neverNegative,
    hverdict.of_surplus_ne_zero, fun hnone => ⟨?_, sound_ofLexemes hgreedy, ?_⟩⟩
  · rw [ofSource, source_ofLexemes hnone, write_readAll]
  · intro before raw start after hsplit
    have hbytes : Text.bytes ['{', '{'] = 2 := rfl
    rw [Text.bytes_append, hbytes, ← Nat.add_assoc,
      ← start_ofLexemes base (readAll source) before raw start after hsplit]

end Stencil
