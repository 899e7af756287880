import Stencil.Proofs.BalancedSources
import Stencil.Proofs.CompileInduction
import Stencil.Proofs.Resemblance

/-!
# The source map

Every substitution that a compilation meets stands between its braces in the outermost source, and
an error points at braces there. An inline template need not be a part of that source, because a
`\>` at its end is resolved. But each of its beginnings that ends in a brace is one, and so is every
substitution in it.
-/
namespace Stencil

/-- The body `raw` stands between braces that open at byte `start` of the source. Positions are
counted in bytes, but the texts are cut between characters. -/
def EnclosedAt (source : Text) (start : Nat) (raw : Text) : Prop :=
  ∃ before after, source = before ++ (enclose raw ++ after) ∧ start = Text.bytes before

theorem EnclosedAt.after {source raw : Text} {start : Nat} (h : EnclosedAt source start raw)
    (lead : Text) : EnclosedAt (lead ++ source) (Text.bytes lead + start) raw := by
  obtain ⟨before, after, rfl, rfl⟩ := h
  exact ⟨lead ++ before, after, by simp, by simp⟩

theorem EnclosedAt.append {source raw : Text} {start : Nat} (h : EnclosedAt source start raw)
    (more : Text) : EnclosedAt (source ++ more) start raw := by
  obtain ⟨before, after, rfl, rfl⟩ := h
  exact ⟨before, after ++ more, by simp, rfl⟩

/-- The span of a body is that of the body between its braces. To slice the source there gives the
text of the whole substitution. -/
theorem EnclosedAt.slice {source raw : Text} {start : Nat} (h : EnclosedAt source start raw) :
    (Span.ofBody raw start).slice source = enclose raw := by
  obtain ⟨before, after, rfl, rfl⟩ := h
  have h := Text.slice_append before (enclose raw) after
  rwa [bytes_enclose, ← Nat.add_assoc] at h

/-- A substitution of the source stands at this span. Its braces are the first and last characters
of the slice. -/
def Span.Marks (source : Text) (span : Span) : Prop :=
  ∃ raw start, EnclosedAt source start raw ∧ span = .ofBody raw start

namespace Span.Marks

variable {source : Text} {span : Span}

/-- More text after the source leaves its slices as they are. Spans are counted from the start,
which does not move. -/
theorem slice_append (h : span.Marks source) (more : Text) :
    span.slice (source ++ more) = span.slice source := by
  obtain ⟨raw, start, hraw, rfl⟩ := h
  rw [(hraw.append more).slice, hraw.slice]

/-- More text before the source moves its slices by the bytes of that text. What they hold remains
the same. -/
theorem slice_prepend (h : span.Marks source) (more : Text) :
    Span.slice ⟨span.start + Text.bytes more, span.stop + Text.bytes more⟩ (more ++ source) =
      span.slice source := by
  obtain ⟨raw, start, hraw, rfl⟩ := h
  have hmove : (⟨start + Text.bytes more, start + raw.bytes + 4 + Text.bytes more⟩ : Span) =
      .ofBody raw (Text.bytes more + start) := by
    rw [Span.ofBody, Span.mk.injEq]
    omega
  rw [hraw.slice, Span.ofBody, hmove, (hraw.after more).slice]

end Span.Marks

/-! ### Tokens -/

/-- The body of a token stands in a source that starts at byte `start`. Tokens of other kinds have
no place to be checked. -/
def Token.StandsIn (start : Nat) (source : Text) : Token → Prop
  | .literal _ => True
  | .brace _ => True
  | .body raw offset => ∃ skipped, offset = start + skipped ∧ EnclosedAt source skipped raw

theorem Token.StandsIn.after {start : Nat} {source : Text} {token : Token} (lead : Text)
    (h : token.StandsIn (start + Text.bytes lead) source) :
    token.StandsIn start (lead ++ source) := by
  cases token with
  | literal run => trivial
  | brace b => trivial
  | body raw offset =>
    obtain ⟨skipped, rfl, h⟩ := h
    exact ⟨Text.bytes lead + skipped, by rw [Nat.add_assoc], h.after lead⟩

theorem Scan.standsIn_ofLexemes (start : Nat) (ls : List Lexeme) :
    ∀ token ∈ (ofLexemes start ls).tokens, token.StandsIn start (Lexeme.write ls) := by
  fun_induction ofLexemes start ls with
  | case1 | case3 | case4 | case6 => simp
  | case2 start b rest ih =>
    intro token htoken
    rcases List.mem_cons.1 htoken with rfl | htoken
    · trivial
    · have h := ih token htoken
      rw [← Lexeme.bytes_text_escaped b] at h
      exact h.after (Lexeme.text (.escaped b))
  | case5 start rest body after hclose _ raw ih =>
    have hwrite : Lexeme.write (.opening :: rest) = enclose raw ++ Lexeme.write after := by
      rw [Lexeme.eq_append_of_closeBody hclose]
      simp [enclose, Lexeme.text, raw]
    rw [hwrite]
    intro token htoken
    rcases List.mem_cons.1 htoken with rfl | htoken
    · exact ⟨0, rfl, [], _, rfl, rfl⟩
    · have h := ih token htoken
      rw [Nat.add_assoc, ← bytes_enclose] at h
      exact h.after (enclose raw)
  | case7 start c rest _ run after _ ih =>
    have hwrite : Lexeme.write (.plain c :: rest) = run ++ Lexeme.write after := by
      rw [Lexeme.write_cons, ← Lexeme.write_plainRun rest]
      rfl
    rw [hwrite]
    intro token htoken
    rcases List.mem_cons.1 htoken with rfl | htoken
    · trivial
    · exact (ih token htoken).after run

/-! ### Bodies in the outermost source -/

/-- Each beginning of `source` that ends in a brace stands at byte `start` of `outer`. The rest of
`source` may have been written in another way. -/
def StandsIn (outer : Text) (start : Nat) (source : Text) : Prop :=
  ∃ before, Text.bytes before = start ∧ ∀ front (b : Brace) rest, source = front ++ b.char :: rest →
    before ++ (front ++ [b.char]) <+: outer

theorem standsIn_self (source : Text) : StandsIn source 0 source := by
  refine ⟨[], rfl, ?_⟩
  rintro front b rest rfl
  exact ⟨rest, by simp⟩

/-- The braces that a fault is about. A fault of the clauses is reported at the braces that open the
substitution. -/
def SyntaxFault.braces : SyntaxFault → Text
  | .unopened => ['}', '}']
  | .unclosed => ['{', '{']
  | .emptyName => ['{', '{']
  | .insertData => ['{', '{']

/-- The braces that an error is about stand at its offset, which is thus never inside of a character
or behind the last one. -/
def SyntaxError.Marks (outer : Text) (error : SyntaxError) : Prop :=
  ∃ before after, outer = before ++ (error.fault.braces ++ after) ∧
    error.offset = Text.bytes before

/-- Two equal braces of a source stand in the outermost one. Their offset is the one in their own
source, counted from where that starts. -/
theorem StandsIn.braces {outer source front rest : Text} {start : Nat} {b : Brace}
    (h : StandsIn outer start source) (hsource : source = front ++ b.char :: b.char :: rest) :
    ∃ before after, outer = before ++ (b.char :: b.char :: after) ∧
      start + Text.bytes front = Text.bytes before := by
  obtain ⟨before, rfl, hfront⟩ := h
  obtain ⟨after, houter⟩ := hfront (front ++ [b.char]) b rest (by rw [hsource]; simp)
  refine ⟨before ++ front, after, ?_, by rw [Text.bytes_append]⟩
  rw [← houter]
  simp

theorem Scan.Verdict.marks {outer : Text} {start : Nat} {ls : List Lexeme} {error : SyntaxError}
    (hstands : StandsIn outer start (Lexeme.write ls)) (h : Verdict start ls (some error)) :
    error.Marks outer := by
  cases h with
  | stray front rest hsplit => exact hstands.braces (b := .right) (by rw [hsplit]; simp; rfl)
  | unclosed front rest hsplit => exact hstands.braces (b := .left) (by rw [hsplit]; simp; rfl)

/-- The bodies of an outline stand in a source, and so do the braces of its error. This is what one
round of the compilation needs of its tokens. -/
def Outline.Located (outer : Text) : Outline → Prop
  | .done => True
  | .broken error => error.Marks outer
  | .body raw start _ rest => EnclosedAt outer start raw ∧ rest.Located outer

theorem Outline.located_ofTokens {outer : Text} {failure : Option SyntaxError} {tokens : List Token}
    (hfailure : ∀ error, failure = some error → error.Marks outer)
    (h : ∀ raw start, .body raw start ∈ tokens → EnclosedAt outer start raw) :
    (ofTokens failure tokens).2.Located outer := by
  induction tokens with
  | nil =>
    cases failure with
    | none => trivial
    | some error => exact hfailure error rfl
  | cons token tokens ih =>
    have hrest := ih fun raw start hmem => h raw start (List.mem_cons_of_mem token hmem)
    cases token with
    | literal run => exact hrest
    | brace b => exact hrest
    | body raw start => exact ⟨h raw start List.mem_cons_self, hrest⟩

theorem Outline.located_ofSource {outer source : Text} {start : Nat}
    (h : StandsIn outer start source) : (ofSource start source).2.Located outer := by
  refine located_ofTokens (fun error herror => ?_) fun raw offset hmem => ?_
  · have hverdict := Scan.verdict_ofLexemes start (Lexeme.readAll source)
    rw [← Scan.ofSource, herror] at hverdict
    exact hverdict.marks (by rwa [Lexeme.write_readAll])
  · have hstands := Scan.standsIn_ofLexemes start (Lexeme.readAll source) _ hmem
    rw [Lexeme.write_readAll] at hstands
    obtain ⟨_, rfl, lead, after, hsource, rfl⟩ := hstands
    obtain ⟨before, rfl, hfront⟩ := h
    obtain ⟨rest, houter⟩ := hfront (lead ++ ('{' :: '{' :: raw ++ ['}'])) .right after (by
      rw [hsource]
      simp [enclose, Brace.char])
    refine ⟨before ++ lead, rest, ?_, by rw [Text.bytes_append]⟩
    rw [← houter]
    simp [enclose, Brace.char]

/-! ### Inline templates in their bodies -/

theorem not_mem_blankTail {c : Char} (hc : isBlank c = false) (t : Text) : c ∉ t.blankTail := by
  intro hmem
  have hall := List.all_eq_true.1 (Text.isAllBlank_blankTail t) c hmem
  rw [hc] at hall
  cases hall

/-- A beginning that ends in `c` does not reach into an end without `c`. It is then a beginning of
what comes before that end. -/
theorem isPrefix_of_append_eq {c : Char} {kept tail front rest : Text} (hc : c ∉ tail)
    (h : kept ++ tail = front ++ c :: rest) : front ++ [c] <+: kept := by
  rcases List.append_eq_append_iff.1 h with ⟨more, -, rfl⟩ | ⟨more, rfl, hmore⟩
  · simp at hc
  · cases more with
    | nil =>
      rw [List.nil_append] at hmore
      rw [← hmore] at hc
      simp at hc
    | cons d more =>
      obtain ⟨rfl, -⟩ := List.cons.inj hmore
      exact ⟨more, by simp⟩

theorem braceless_blankTail (t : Text) : t.blankTail.Braceless := by
  intro c hc
  constructor <;> rintro rfl <;> exact not_mem_blankTail (by decide) t hc

/-- Resolving the end takes away at most one backslash, before what holds no braces. All that stands
before the backslash is left as it is. -/
theorem unescapeTail_cases (inline : Text) :
    unescapeTail inline = inline ∨ ∃ front tail : Text, tail.Braceless ∧
      inline = front ++ '\\' :: '>' :: tail ∧ unescapeTail inline = front ++ '>' :: tail := by
  unfold unescapeTail
  split
  · rename_i front h
    have hsplit := Text.trimEnd_append_blankTail inline
    rw [← List.reverse_reverse inline.trimEnd, h] at hsplit
    exact .inr ⟨front.reverse, inline.blankTail, braceless_blankTail inline,
      by simpa using hsplit.symm, rfl⟩
  · exact .inl rfl

/-- What ends in a brace is the same before the end is resolved, because the backslash that is taken
away comes after all braces. -/
theorem isPrefix_of_unescapeTail {inline front rest : Text} {b : Brace}
    (h : unescapeTail inline = front ++ b.char :: rest) : front ++ [b.char] <+: inline := by
  obtain hsame | ⟨kept, tail, htail, hinline, hresolved⟩ := unescapeTail_cases inline
  · rw [← hsame, h]
    exact ⟨rest, by simp⟩
  · have hmarker : Text.Braceless ('>' :: tail) := List.forall_mem_cons.2 ⟨by decide, htail⟩
    have hbrace : b.char ∉ '>' :: tail := by
      intro hmem
      have hplain := hmarker _ hmem
      cases b with
      | left => exact hplain.1 rfl
      | right => exact hplain.2 rfl
    rw [hresolved] at h
    rw [hinline]
    exact (isPrefix_of_append_eq hbrace h).trans (List.prefix_append _ _)

theorem trimEnd_append_braceless (t : Text) {marks : Text} (h : marks.Braceless) :
    ∃ cut : Text, cut.Braceless ∧ t.trimEnd ++ cut = t ++ marks := by
  refine ⟨t.blankTail ++ marks, List.forall_mem_append.2 ⟨braceless_blankTail t, h⟩, ?_⟩
  rw [← List.append_assoc, Text.trimEnd_append_blankTail]

/-- What goes away with a closing marker holds no braces, so that every substitution of the body
stands in what is left of it. -/
theorem splitAfterMark_append_braceless (body : Text) :
    ∃ cut : Text, cut.Braceless ∧ (splitAfterMark body).1 ++ cut = body := by
  have hrev : body = body.reverse.reverse := body.reverse_reverse.symm
  unfold splitAfterMark
  split
  · exact ⟨[], by decide, List.append_nil body⟩
  · rename_i front h
    exact ⟨['>'], by decide, by rw [hrev, h]; simp⟩
  · rename_i front _ h
    rw [hrev, h, List.reverse_cons, List.reverse_cons, List.append_assoc]
    exact trimEnd_append_braceless front.reverse (by decide)
  · rename_i front _ _ _ h
    rw [hrev, h, List.reverse_cons]
    exact trimEnd_append_braceless front.reverse (by decide)
  · exact ⟨[], by decide, List.append_nil body⟩

theorem splitAfterMark_none (body : Text) (h : (splitAfterMark body).2.isSome = false) :
    (splitAfterMark body).1 = body := by
  unfold splitAfterMark at h ⊢
  split <;> simp_all

/-- A text is what it is between its blanks, with the blanks before and after. The bytes of the
blanks before it are the distance that it moves by. -/
theorem Text.exists_eq_trim (t : Text) : ∃ lead, t = lead ++ (t.trim ++ t.trimStart.blankTail) ∧
    t.bytes - t.trimStart.bytes = Text.bytes lead := by
  have hsplit : t.takeWhile isBlank ++ t.trimStart = t := List.takeWhile_append_dropWhile
  refine ⟨t.takeWhile isBlank, ?_, ?_⟩
  · rw [Text.trim, Text.trimEnd_append_blankTail, hsplit]
  · have hbytes := congrArg Text.bytes hsplit
    rw [Text.bytes_append] at hbytes
    omega

namespace Clauses

/-- An inline template is what stands after its mark in the raw body, with its end resolved. What
follows it there holds no braces. -/
theorem inline_read {raw source : Text} {offset : Nat}
    (h : (read raw).data = some (.inline source offset)) :
    ∃ head kept after : Text, raw = head ++ '|' :: '!' :: (kept ++ after) ∧
      offset = head.bytes + 2 ∧ source = unescapeTail kept ∧ after.Braceless := by
  obtain ⟨rest, ⟨front, hfront⟩, hdata⟩ := data_read raw
  obtain ⟨cut, hplain, hcut⟩ := splitAfterMark_append_braceless raw.trim
  obtain ⟨lead, hraw, hlead⟩ := Text.exists_eq_trim raw
  have hnone := splitAfterMark_none raw.trim
  have htail := braceless_blankTail raw.trimStart
  rw [hdata] at h
  unfold readData at h
  rw [hlead] at h
  generalize splitAfterMark raw.trim = split at *
  obtain ⟨body, mark⟩ := split
  obtain rfl : front ++ rest = body := hfront
  generalize raw.trimStart.blankTail = tail at *
  split at h
  · rename_i inline
    simp only [Option.some.injEq, DataClause.inline.injEq] at h
    obtain ⟨hsource, hoffset⟩ := h
    have hbefore : offset = Text.bytes (lead ++ front) + 2 := by
      have hbar : Char.utf8Size '|' = 1 := rfl
      have hbang : Char.utf8Size '!' = 1 := rfl
      rw [← hoffset]
      simp only [Text.bytes_append, Text.bytes_cons, hbar, hbang]
      omega
    cases mark with
    | some mark =>
      refine ⟨_, inline, cut ++ tail, ?_, hbefore, by simpa using hsource.symm, ?_⟩
      · rw [hraw, ← hcut]
        simp
      · exact List.forall_mem_append.2 ⟨hplain, htail⟩
    | none =>
      refine ⟨_, inline ++ tail, [], ?_, hbefore, by simpa using hsource.symm, by decide⟩
      rw [hraw, ← hnone rfl]
      simp
  · simp at h
  · simp at h

end Clauses

/-! ### Compiling -/

/-- The inline template of a data section stands in the outermost source, at its offset from
`start`. A data section of another kind has no place. -/
def DataClause.Located (outer : Text) (start : Nat) (data : Option DataClause) : Prop :=
  ∀ source offset, data = some (.inline source offset) → StandsIn outer (start + offset) source

theorem Directive.clauses_of_read {raw : Text} {clauses : Clauses}
    (h : Directive.read raw = .substitution clauses) : Clauses.read raw = clauses := by
  unfold Directive.read at h
  split at h
  · cases h
  · exact Directive.substitution.inj h

/-- An inline template stands in the source in which its body stands. The two braces before the body
count for its offset. -/
theorem Directive.located_read {outer raw : Text} {start : Nat} {clauses : Clauses}
    (h : EnclosedAt outer start raw) (hread : Directive.read raw = .substitution clauses) :
    DataClause.Located outer (start + 2) clauses.data := by
  obtain rfl := Directive.clauses_of_read hread
  intro source offset hdata
  obtain ⟨head, kept, rest, rfl, rfl, rfl, -⟩ := Clauses.inline_read hdata
  obtain ⟨before, after, rfl, rfl⟩ := h
  refine ⟨before ++ ('{' :: '{' :: (head ++ ['|', '!'])), ?_, fun front b brace hfront => ?_⟩
  · have hbrace : Char.utf8Size '{' = 1 := rfl
    have hmark : Text.bytes ['|', '!'] = 2 := rfl
    simp only [Text.bytes_append, Text.bytes_cons, hbrace, hmark]
    omega
  · obtain ⟨more, hmore⟩ := isPrefix_of_unescapeTail hfront
    rw [← hmore]
    exact ⟨more ++ (rest ++ ('}' :: '}' :: after)), by simp [enclose]⟩

/-- What a compilation met stands in the outermost source: the bodies that it visited, and the
braces of the error that it ended with. -/
structure Draft.Mapped {α : Type} (outer : Text) (draft : Draft α) : Prop where
  visits : ∀ v ∈ draft.visits, ∃ start, v.offset = start + 2 ∧ EnclosedAt outer start v.body
  error : ∀ error, draft.result = .error error → error.Marks outer

namespace Draft

variable {α β : Type} {outer : Text}

theorem result_map_eq_error {f : α → β} {draft : Draft α} {error : SyntaxError} :
    (draft.map f).result = .error error ↔ draft.result = .error error := by
  cases h : draft.result <;> simp [map, h, Except.map]

theorem mapped_done (a : α) : (done a).Mapped outer :=
  ⟨by simp [done], fun _ h => by cases h⟩

theorem mapped_fail {error : SyntaxError} (h : error.Marks outer) :
    (fail error : Draft α).Mapped outer := by
  refine ⟨by simp [fail], fun found hfound => ?_⟩
  cases hfound
  exact h

namespace Mapped

variable {draft : Draft α}

theorem map (h : draft.Mapped outer) (f : α → β) : (draft.map f).Mapped outer :=
  ⟨h.visits, fun error herror => h.error error (result_map_eq_error.1 herror)⟩

theorem visit (h : draft.Mapped outer) {start : Nat} {raw : Text}
    (hraw : EnclosedAt outer start raw) :
    (Draft.visit ⟨start + 2, raw⟩ draft).Mapped outer := by
  refine ⟨fun v hv => ?_, h.error⟩
  rcases List.mem_cons.1 hv with rfl | hv
  · exact ⟨start, rfl, hraw⟩
  · exact h.visits v hv

theorem andThen (h : draft.Mapped outer) {next : α → Draft β} (hnext : ∀ a, (next a).Mapped outer) :
    (draft.andThen next).Mapped outer := by
  unfold Draft.andThen
  cases hresult : draft.result with
  | error e =>
    refine ⟨h.visits, fun error herror => h.error error ?_⟩
    cases herror
    exact hresult
  | ok a =>
    refine ⟨fun v hv => ?_, (hnext a).error⟩
    rcases List.mem_append.1 hv with hv | hv
    · exact h.visits v hv
    · exact (hnext a).visits v hv

end Mapped

end Draft

/-- A fault of the clauses is about the braces that open before them, so that it is always reported
at the start of the substitution. -/
theorem Clauses.braces_fault? {clauses : Clauses} {fault : SyntaxFault}
    (h : clauses.fault? = some fault) : fault.braces = ['{', '{'] := by
  unfold fault? at h
  grind [SyntaxFault.braces]

/-- One step of a compilation keeps to the outermost source, whatever the step is. All else follows
by the induction on the compilation. -/
theorem mapped_rules (outer : Text) : CompileRules
    (fun start source draft => StandsIn outer start source → draft.Mapped outer)
    (fun _ _ outline draft => outline.Located outer → draft.Mapped outer)
    (fun start data draft => DataClause.Located outer start data → draft.Mapped outer) where
  source h hstands := h (Outline.located_ofSource hstands)
  done _ literal _ := Draft.mapped_done (Body.tail literal)
  broken _ _ _ hmarks := Draft.mapped_fail hmarks
  comment _ h := fun ⟨hbody, hlocated⟩ => ((h hlocated).map _).visit hbody
  fault _ hfault := by
    rintro ⟨hbody, -⟩
    refine (Draft.mapped_fail ?_).visit hbody
    obtain ⟨before, after, rfl, rfl⟩ := hbody
    exact ⟨before, _, by rw [Clauses.braces_fault? hfault]; rfl, rfl⟩
  insert _ _ _ h := fun ⟨hbody, hlocated⟩ => ((h hlocated).map _).visit hbody
  value hread _ _ hdata h := by
    rintro ⟨hbody, hlocated⟩
    have htarget := hdata (Directive.located_read hbody hread)
    exact (htarget.andThen fun target => (h hlocated).map _).visit hbody
  own _ _ _ _ := Draft.mapped_done Target.own
  named _ c name _ := Draft.mapped_done (Target.named (c :: name))
  inline h hlocated := (h (hlocated _ _ rfl)).map _

/-- Compiling a source meets only substitutions and faults of that source, because it starts as the
outermost one at byte 0. -/
theorem mapped_compileSource (source : Text) : (compileSource 0 source).Mapped source :=
  (mapped_rules source).compileSource 0 source (standsIn_self source)

/-! ### Places -/

/-- The places in a result are those of the substitutions that were met. A failed compilation has no
result, and so no places to look at. -/
def Draft.Covers {α : Type} (places : α → List Placement) (draft : Draft α) : Prop :=
  ∀ a, draft.result = .ok a → ∀ place ∈ places a, ∃ start raw,
    ⟨start + 2, raw⟩ ∈ draft.visits ∧ place.span = .ofBody raw start

/-- A piece is at the place of its own substitution, and others are in its data section and in what
follows it. -/
theorem Draft.Covers.piece {data : Draft Target} {draft : Draft Body} {raw literal : Text}
    {start : Nat} {place : Placement} (hdata : data.Covers Target.places)
    (h : draft.Covers Body.places) (hplace : place.span = .ofBody raw start)
    (action : Target → Action)
    (haction : ∀ target, (action target).places ⊆ target.places) :
    (visit ⟨start + 2, raw⟩ (data.andThen fun target =>
      draft.map (Body.piece literal place (action target)))).Covers Body.places := by
  intro body hbody found hfound
  obtain ⟨target, htarget, hbody⟩ := result_andThen_eq_ok.1 hbody
  obtain ⟨after, hafter, rfl⟩ := result_map_eq_ok.1 hbody
  have hvisits : (data.andThen fun target =>
      draft.map (Body.piece literal place (action target))).visits =
        data.visits ++ draft.visits := by
    rw [andThen, htarget]
    rfl
  rcases List.mem_cons.1 hfound with rfl | hfound
  · exact ⟨start, raw, List.mem_cons_self, hplace⟩
  rcases List.mem_append.1 hfound with hfound | hfound
  · obtain ⟨start', raw', hmem, hspan⟩ := hdata target htarget found (haction target hfound)
    refine ⟨start', raw', List.mem_cons_of_mem _ ?_, hspan⟩
    rw [hvisits]
    exact List.mem_append_left _ hmem
  · obtain ⟨start', raw', hmem, hspan⟩ := h after hafter found hfound
    refine ⟨start', raw', List.mem_cons_of_mem _ ?_, hspan⟩
    rw [hvisits]
    exact List.mem_append_right _ hmem

theorem Draft.covers_own : (done Target.own).Covers Target.places := by
  intro target htarget
  cases htarget
  simp [Target.places]

theorem covers_rules : CompileRules (fun _ _ draft => draft.Covers Body.places)
    (fun _ _ _ draft => draft.Covers Body.places)
    (fun _ _ draft => draft.Covers Target.places) where
  source h := h
  done _ literal := by
    intro body hbody
    cases hbody
    simp [Body.places]
  broken _ _ _ := by
    intro body hbody
    cases hbody
  fault _ _ := by
    intro body hbody
    cases hbody
  comment _ h := Draft.covers_own.piece h rfl (fun _ => .comment) fun _ => List.nil_subset _
  insert {_ _ _ _ _ _ clauses _} _ _ _ h :=
    Draft.covers_own.piece h rfl (fun _ => .insert clauses.rewind clauses.path)
      fun _ => List.nil_subset _
  value _ _ _ hdata h := hdata.piece h rfl _ fun target => by
    rw [Action.places, Target.places_ofLinks]
    exact List.Subset.refl _
  own _ _ _ := Draft.covers_own
  named _ _ _ := by
    intro target htarget
    cases htarget
    simp [Target.places]
  inline h := by
    intro target htarget
    obtain ⟨body, hbody, rfl⟩ := Draft.result_map_eq_ok.1 htarget
    exact h body hbody

/-- Every span of a compiled template is that of a substitution in its source, also the spans that
are deep in inline templates. -/
theorem compile_marks {source : Text} {compiled : Compiled} (h : compile source = .ok compiled) :
    ∀ place ∈ compiled.root.places, place.span.Marks source := by
  intro place hplace
  obtain ⟨-, hroot⟩ := compile_eq_ok.1 h
  obtain ⟨start, raw, hmem, hspan⟩ :=
    covers_rules.compileSource 0 source compiled.root hroot place hplace
  obtain ⟨start', hstart, hbody⟩ := (mapped_compileSource source).visits _ hmem
  obtain rfl : start = start' := Nat.add_right_cancel hstart
  exact ⟨raw, start, hbody, hspan⟩

end Stencil
