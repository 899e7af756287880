import Stencil.Arena
import Stencil.Proofs.SingleValue

/-!
# Escaping

Any text can be written as literal text of a template: with a backslash before each brace it is read
as itself. A backslash of the text is no obstacle, because it is special only right before a brace,
and in an escaped text each brace has its own backslash there.
-/
namespace Stencil

def escapeBrace (c : Char) : Text :=
  if c = '{' ∨ c = '}' then ['\\', c] else [c]

/-- The text with a backslash before each brace, and everything else as it is. A backslash is not
escaped itself. -/
def escapeBraces (t : Text) : Text :=
  t.flatMap escapeBrace

namespace Lexeme

/-- What an escaped character is read as: a brace as an escaped one, any other character as
itself. -/
def ofEscaped (c : Char) : Lexeme :=
  if c = '{' then .escaped .left else if c = '}' then .escaped .right else .plain c

/-- An escaped text does not start with a brace, so that no brace before it pairs up with its
start. -/
theorem head?_escapeBraces {t : Text} {d : Char} (h : (escapeBraces t).head? = some d) :
    d ≠ '{' ∧ d ≠ '}' := by
  cases t with
  | nil => cases h
  | cons c t =>
    rw [escapeBraces, List.flatMap_cons, escapeBrace] at h
    split at h
    · obtain rfl : '\\' = d := Option.some.inj h
      decide
    · rename_i hc
      obtain rfl : c = d := Option.some.inj h
      exact not_or.1 hc

/-- Escaped characters are read one by one, with one lexeme for each character of the text. -/
theorem readAll_escapeBraces (t : Text) : readAll (escapeBraces t) = t.map ofEscaped := by
  induction t with
  | nil => rfl
  | cons c t ih =>
    rw [escapeBraces, List.flatMap_cons, ← escapeBraces, List.map_cons, ← ih]
    by_cases hl : c = '{'
    · subst hl
      rfl
    by_cases hr : c = '}'
    · subst hr
      rfl
    -- `c` may be a backslash, but in an escaped text no brace comes right after it.
    have hplain : ∀ d, (escapeBraces t).head? = some d → pairs c d = false := by
      intro d hd
      obtain ⟨hl', hr'⟩ := head?_escapeBraces hd
      simp [pairs, hl', hr']
    rw [escapeBrace, if_neg (not_or.2 ⟨hl, hr⟩), List.singleton_append, readAll_cons hplain,
      ofEscaped, if_neg hl, if_neg hr]

/-- Braces after an escaped text are read apart from it, unless it ends with a backslash, which
would escape them. -/
theorem seam_escapeBraces {t : Text} (h : t.getLast? ≠ some '\\') (rest : Text) :
    Seam (escapeBraces t) rest := by
  intro c d hc _
  rw [readAll_escapeBraces, List.getLast?_map] at hc
  obtain ⟨e, he, hread⟩ := Option.map_eq_some_iff.1 hc
  have hslash : e ≠ '\\' := fun heq => h (heq ▸ he)
  unfold ofEscaped at hread
  split_ifs at hread with hl hr
  obtain rfl : e = c := by simpa using hread
  simp [pairs, hslash, hl, hr]

end Lexeme

namespace Outline

open Lexeme

/-- An escaped text is cut into the text itself, with no substitution and no error. -/
theorem ofSource_escapeBraces (start : Nat) (t : Text) :
    ofSource start (escapeBraces t) = (t, .done) ∧ Whole start (readAll (escapeBraces t)) := by
  rw [ofSource_eq, readAll_escapeBraces]
  induction t generalizing start with
  | nil => exact ⟨ofLexemes_nil start, by simp [Whole, Scan.ofLexemes]⟩
  | cons c t ih =>
    rw [List.map_cons, ofEscaped]
    split_ifs with hl hr
    · obtain ⟨hcut, hwhole⟩ := ih (start + 2)
      refine ⟨?_, whole_escaped.2 hwhole⟩
      rw [ofLexemes_escaped, hcut, hl]
      rfl
    · obtain ⟨hcut, hwhole⟩ := ih (start + 2)
      refine ⟨?_, whole_escaped.2 hwhole⟩
      rw [ofLexemes_escaped, hcut, hr]
      rfl
    · obtain ⟨hcut, hwhole⟩ := ih (start + c.utf8Size)
      refine ⟨?_, whole_plain.2 hwhole⟩
      rw [ofLexemes_plain hwhole, hcut]

/-- A body between two escaped texts is cut into the two texts with the body between them. -/
theorem ofSource_between_escapeBraces {raw before : Text} (hraw : raw.IsBody)
    (hlast : before.getLast? ≠ some '\\') (after : Text) (start : Nat) :
    ofSource start (escapeBraces before ++ (enclose raw ++ escapeBraces after)) =
      (before, .body raw (start + Text.bytes (escapeBraces before)) after .done) := by
  obtain ⟨hstart, hwhole⟩ := ofSource_escapeBraces start before
  have hend (start : Nat) := ofSource_escapeBraces start after
  rw [ofSource_append (seam_escapeBraces hlast _) hwhole ((whole_enclose hraw).2 (hend _).2),
    hstart, ofSource_enclose hraw, (hend _).1]
  simp [append]

end Outline

/-- An escaped text compiles to itself: a single literal, whatever characters it has. -/
theorem compile_escapeBraces (t : Text) :
    compile (escapeBraces t) = .ok ⟨escapeBraces t, .tail t⟩ := by
  refine compile_of_compileSource ?_
  rw [compileSource, (Outline.ofSource_escapeBraces 0 t).1, compileOutline]
  rfl

/-- Escaped texts come out as they were. Between two of them a name is a substitution, if the first
text does not end with a backslash. -/
theorem fillWithin_escapeBraces {name : Text} (hname : name.IsComponent) (limit : Nat)
    (templates : TemplateMap) (t : Tally) :
    (∀ before after v : Text, before.getLast? ≠ some '\\' →
      (∃ place, compile (escapeBraces before ++ (enclose name ++ escapeBraces after)) =
        .ok ⟨escapeBraces before ++ (enclose name ++ escapeBraces after),
          .piece before place (.value 0 name .own) (.tail after)⟩) ∧
      ((Template.new (escapeBraces before ++ (enclose name ++ escapeBraces after))).fillWithin
          (limit + 1) templates (.map none [(name, .scalar v)])).run t =
        ⟨.ok (before ++ (v ++ after)), [], t⟩) ∧
    ∀ text : Text, ∃ compiled, compile (escapeBraces text) = .ok compiled ∧
      compiled.arena.nodes = [] ∧
      ∀ (data : Provider) (root : Unwrapped) (t' : Tally), data.unwrap t = (some root, t') →
        ((Template.new (escapeBraces text)).fillWithin (limit + 1) templates data).run t =
          ⟨.ok text, [], t'⟩ := by
  constructor
  · intro before after v hlast
    have haround : Mark.around none none name = name := by
      simp [Mark.around, Mark.open, Mark.close]
    have hraw := isBody_around none none hname
    rw [haround] at hraw
    have hcut := Outline.ofSource_between_escapeBraces hraw hlast after 0
    nth_rewrite 2 [← haround] at hcut
    refine ⟨⟨_, compile_around hname hcut⟩, ?_⟩
    rw [run_fillWithin_around hname hcut]
    cases v <;> simp [Margin.cutLeading, Margin.cutTrailing]
  · intro text
    have hcompile : (Template.new (escapeBraces text)).compile = _ := compile_escapeBraces text
    refine ⟨_, compile_escapeBraces text, rfl, fun data root t' hroot => ?_⟩
    rw [Template.fillWithin_of_compile hcompile, run_fillRoot hroot, fillPart]
    rfl

theorem fillWithin_escapeBraces_backslash :
    Text.IsComponent ['x'] ∧ "\\\x7b\x7b\x7d\\é".toList.getLast? ≠ some '\\' ∧
    ((Template.new (escapeBraces "\\\x7b\x7b\x7d\\é".toList ++
          (enclose ['x'] ++ escapeBraces "\x7d\\".toList))).fillWithin 1 .empty
        (.map none [(['x'], .scalar "\x7b\x7bx\x7d\x7d".toList)])).run .empty =
      ⟨.ok ("\\\x7b\x7b\x7d\\é".toList ++
        ("\x7b\x7bx\x7d\x7d".toList ++ "\x7d\\".toList)), [], .empty⟩ ∧
    (Provider.pointer (.json (.array []))).unwrap .empty =
      (some (.ofCore (.sequence [])), .empty) ∧
    ((Template.new (escapeBraces "\\\x7b\x7b\\".toList)).fillWithin 1 .empty
        (.pointer (.json (.array [])))).run .empty =
      ⟨.ok "\\\x7b\x7b\\".toList, [], .empty⟩ := by
  have hname : Text.IsComponent ['x'] := by decide
  have hlast : "\\\x7b\x7b\x7d\\é".toList.getLast? ≠ some '\\' := by decide
  obtain ⟨hbetween, hwhole⟩ := fillWithin_escapeBraces hname 0 .empty .empty
  obtain ⟨-, hvalue⟩ := hbetween _ "\x7d\\".toList "\x7b\x7bx\x7d\x7d".toList hlast
  obtain ⟨_, -, -, hliteral⟩ := hwhole "\\\x7b\x7b\\".toList
  exact ⟨hname, hlast, hvalue, rfl, hliteral _ _ _ rfl⟩

end Stencil
