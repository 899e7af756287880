import Stencil.Proofs.CounterFree
import Stencil.Proofs.Cutting
import Stencil.Proofs.SourceMap

/-!
# Templates that are put together

Two sources that are put together compile to their two bodies, one after the other, as long as no
brace pair arises at the seam and no marker takes text across it. So the filled text is that of the
first template and then that of the second one.
-/
namespace Stencil

/-! ### Bodies one after the other -/

def Body.prepend (literal : Text) : Body → Body
  | .tail last => .tail (literal ++ last)
  | .piece first place action rest => .piece (literal ++ first) place action rest

/-- Two bodies one after the other. The last literal of the first one and the first literal of the
second one become one. -/
def Body.append : Body → Body → Body
  | .tail literal, body => body.prepend literal
  | .piece literal place action rest, body => .piece literal place action (rest.append body)

theorem fillBody_prepend (templates : TemplateMap) (enter : Enter) (source : Text) (scopes : Scopes)
    (literal : Text) (body : Body) :
    fillBody templates enter source scopes (body.prepend literal) =
      (literal ++ ·) <$> fillBody templates enter source scopes body := by
  cases body with
  | tail last => rfl
  | piece first place action rest =>
    simp only [Body.prepend, fillBody, map_bind, Functor.map_map, List.append_assoc]

/-- A body is filled substitution by substitution, and so are two of them, with the texts one after
the other. -/
theorem fillBody_append (templates : TemplateMap) (enter : Enter) (source : Text) (scopes : Scopes)
    (body body' : Body) :
    fillBody templates enter source scopes (body.append body') =
      fillBody templates enter source scopes body >>= fun text =>
        (text ++ ·) <$> fillBody templates enter source scopes body' := by
  match body with
  | .tail literal => exact fillBody_prepend templates enter source scopes literal body'
  | .piece literal place action rest =>
    have ih := fillBody_append templates enter source scopes rest body'
    simp only [Body.append, fillBody, ih, map_bind, Functor.map_map, bind_assoc, bind_map_left,
      List.append_assoc]

/-! ### Outlines one after the other -/

namespace Outline

/-- The raw bodies of the outermost substitutions, in the order of the source. -/
def raws : Outline → List Text
  | .done => []
  | .broken _ => []
  | .body raw _ _ rest => raw :: rest.raws

@[simp] theorem raws_shift (k : Nat) (outline : Outline) :
    (outline.shift k).raws = outline.raws := by
  induction outline with
  | done => rfl
  | broken error => rfl
  | body raw start literal rest ih => exact congrArg (raw :: ·) ih

end Outline

/-- The last of some raw bodies takes no text after it, so that it does not reach into a second
source. -/
def NoneAfter (raws : List Text) : Prop :=
  ∀ raw clauses, raws.getLast? = some raw → Directive.read raw = .substitution clauses →
    clauses.after = none

/-- The first of some raw bodies takes no text before it, so that it does not reach back into a
first source. -/
def NoneBefore (raws : List Text) : Prop :=
  ∀ raw clauses, raws.head? = some raw → Directive.read raw = .substitution clauses →
    clauses.before = none

theorem NoneAfter.tail {raw : Text} {raws : List Text} (h : NoneAfter (raw :: raws)) :
    NoneAfter raws := by
  intro last clauses hlast
  refine h last clauses ?_
  rw [List.getLast?_cons, hlast]
  rfl

/-- More text before an unmarked substitution stays before it, and what follows compiles as it
did. -/
theorem compileOutline_prepend (atStart : Bool) (literal literal' : Text) (outline : Outline)
    {body : Body} (hbefore : NoneBefore outline.raws)
    (h : (compileOutline true literal' outline).result = .ok body) :
    (compileOutline atStart (literal ++ literal') outline).result = .ok (body.prepend literal) := by
  cases outline with
  | done =>
    rw [compileOutline] at h ⊢
    cases h
    rfl
  | broken error =>
    rw [compileOutline] at h
    cases h
  | body raw start next rest =>
    rcases compileOutline_body_eq_ok.1 h with ⟨hread, after, hafter, rfl⟩ |
      ⟨clauses, action, after, hread, hfault, haction, hafter, rfl⟩
    · exact compileOutline_body_eq_ok.2 (.inl ⟨hread, after, hafter, rfl⟩)
    · refine compileOutline_body_eq_ok.2 (.inr ⟨clauses, action, after, hread, hfault, haction,
        hafter, ?_⟩)
      have hnone : clauses.before = none := hbefore raw clauses rfl hread
      simp only [Body.prepend, Clauses.place, hnone, Margin.cutLeading]

/-- A cut into the literal before an outline does not reach what is put after the outline, unless
nothing else stands between. -/
theorem cutTrailing_append {mark : Option Mark} {rest : Outline} (next : Text)
    (tail : Text × Outline) (h : rest = .done → mark = none) :
    Margin.cutTrailing mark (Outline.append next rest tail).1 =
        ((Margin.cutTrailing mark next).1,
          (Outline.append (Margin.cutTrailing mark next).2 rest tail).1) ∧
      (Outline.append next rest tail).2 =
        (Outline.append (Margin.cutTrailing mark next).2 rest tail).2 := by
  cases rest with
  | done => simp [Outline.append, h rfl, Margin.cutTrailing]
  | broken error => exact ⟨rfl, rfl⟩
  | body raw start literal rest => exact ⟨rfl, rfl⟩

/-- Two outlines compile to their two bodies, one after the other. The literals that meet at the
seam are not cut by either side. -/
theorem compileOutline_append (atStart : Bool) (literal literal' : Text)
    (outline outline' : Outline) {body body' : Body} (hafter : NoneAfter outline.raws)
    (hbefore : NoneBefore outline'.raws)
    (h : (compileOutline atStart literal outline).result = .ok body)
    (h' : (compileOutline true literal' outline').result = .ok body') :
    (compileOutline atStart (Outline.append literal outline (literal', outline')).1
      (Outline.append literal outline (literal', outline')).2).result =
        .ok (body.append body') := by
  match outline with
  | .done =>
    rw [compileOutline] at h
    cases h
    exact compileOutline_prepend atStart literal literal' outline' hbefore h'
  | .broken error =>
    rw [compileOutline] at h
    cases h
  | .body raw start next rest =>
    rcases compileOutline_body_eq_ok.1 h with ⟨hread, after, hcompile, rfl⟩ |
      ⟨clauses, action, after, hread, hfault, haction, hcompile, rfl⟩
    · have ih := compileOutline_append false next literal' rest outline' hafter.tail hbefore
        hcompile h'
      exact compileOutline_body_eq_ok.2 (.inl ⟨hread, _, ih, rfl⟩)
    · have ih := compileOutline_append false _ literal' rest outline' hafter.tail hbefore
        hcompile h'
      have hmark : rest = .done → clauses.after = none := by
        rintro rfl
        exact hafter raw clauses rfl hread
      obtain ⟨hcut, hrest⟩ := cutTrailing_append next (literal', outline') hmark
      refine compileOutline_body_eq_ok.2 (.inr ⟨clauses, action, after.append body', hread, hfault,
        haction, ?_, ?_⟩)
      · rw [hcut, hrest]
        exact ih
      · simp only [Body.append, Clauses.place, hcut]
        rfl

/-! ### Whole sources -/

/-- Two sources compile together, unless braces pair up between them or a marker reaches across. The
second body moves by the bytes of the first source. -/
theorem compile_append {x y : Text} {compiled compiled' : Compiled}
    (hx : compile x = .ok compiled) (hy : compile y = .ok compiled') (hseam : Lexeme.Seam x y)
    (hafter : NoneAfter (Outline.ofSource 0 x).2.raws)
    (hbefore : NoneBefore (Outline.ofSource 0 y).2.raws) :
    compile (x ++ y) =
      .ok ⟨x ++ y, compiled.root.append (compiled'.root.shift (Text.bytes x))⟩ := by
  obtain ⟨-, hx⟩ := compile_eq_ok.1 hx
  obtain ⟨-, hy⟩ := compile_eq_ok.1 hy
  have hy' : (compileSource (0 + Text.bytes x) y).result =
      .ok (compiled'.root.shift (Text.bytes x)) := by
    rw [compileSource_shift, Draft.shift, hy]
    rfl
  refine compile_of_compileSource ?_
  have hcut := Outline.ofSource_append hseam (whole_of_compileSource hx)
    (whole_of_compileSource hy')
  have hbefore' : NoneBefore (Outline.ofSource (0 + Text.bytes x) y).2.raws := by
    rwa [Outline.shift_ofSource, Outline.raws_shift]
  rw [compileSource] at hx hy' ⊢
  rw [hcut]
  exact compileOutline_append true _ _ _ _ hafter hbefore' hx hy'

/-! ### Filling -/

namespace SubstitutionError

/-- An error without the template that holds its substitution, which is the longer source when two
were put together. -/
def untemplated (error : SubstitutionError) : SubstitutionError :=
  { error with template := [] }

end SubstitutionError

open SubstitutionError

/-- The substitutions of the first source are where they were, and their raw texts are the same in
the longer source. -/
theorem resembles_append_left {x : Text} {compiled : Compiled} (h : compile x = .ok compiled)
    (y : Text) :
    compiled.root.Resembles (Placement.Agrees untemplated x (x ++ y)) compiled.root := by
  refine Body.Resembles.self (fun _ _ h => h.inner) _ fun place hplace => ⟨rfl, rfl, rfl, ?_⟩
  intro name fault
  simp only [Spot.error, untemplated, (compile_marks h place hplace).slice_append y]

/-- The substitutions of the second source have moved by the bytes of the first one, and their raw
texts with them. -/
theorem resembles_append_right {y : Text} {compiled : Compiled} (h : compile y = .ok compiled)
    (x : Text) :
    compiled.root.Resembles (Placement.Agrees untemplated y (x ++ y))
      (compiled.root.shift (Text.bytes x)) := by
  refine Body.Resembles.moved _ (fun _ _ h => h.inner) _ fun place hplace => ⟨rfl, rfl, rfl, ?_⟩
  intro name fault
  simp only [Spot.error, untemplated, Placement.shift,
    (compile_marks h place hplace).slice_prepend x]

/-- In one chain of scopes, filling the two bodies one after the other is alike filling them
together. Only the source that errors quote differs. -/
theorem fillPart_append_alike {x y : Text} {compiled compiled' : Compiled}
    (hx : compile x = .ok compiled) (hy : compile y = .ok compiled') (templates : TemplateMap)
    (limit : Nat) (scopes : Scopes) :
    Filling.Alike (Comparison.upTo untemplated) Eq
      (fillPart templates limit ⟨x, compiled.root⟩ scopes >>= fun text =>
        (text ++ ·) <$> fillPart templates limit ⟨y, compiled'.root⟩ scopes)
      (fillPart templates limit
        ⟨x ++ y, compiled.root.append (compiled'.root.shift (Text.bytes x))⟩ scopes) := by
  let L := Likeness.same templates untemplated
  have hscopes : List.Forall₂ L.core scopes scopes := List.forall₂_same.2 fun _ _ => rfl
  cases limit with
  | zero => exact Filling.alike_stop rfl
  | succ limit =>
    have henter := L.fillPart_alike limit
    have hthrough := Comparison.upTo_through untemplated
    have hpart := bodyAlike_of_resembles hthrough templates (resembles_append_left hx y)
    have hpart' := bodyAlike_of_resembles hthrough templates (resembles_append_right hy x)
    rw [fillPart, fillPart, fillPart, fillBody_append]
    refine Filling.alike_bind (Likeness.fillBody_alike henter hscopes hpart) fun s s' hs => ?_
    refine Filling.alike_map (Likeness.fillBody_alike henter hscopes hpart') fun t t' ht => ?_
    rw [show s = s' from hs, show t = t' from ht]

theorem run_fillRoot {data : Provider} {u : Unwrapped} {t t' : Tally}
    (h : data.unwrap t = (some u, t')) (templates : TemplateMap) (limit : Nat)
    (compiled : Compiled) :
    (fillRoot templates limit compiled data).run t =
      (fillPart templates limit compiled.part [u.core]).run t' := by
  rw [fillRoot, Filling.run_bind]
  simp [Filling.unwrap, h]

theorem result_bind_map {p q : Filling Text} {t : Tally} (h : (p.run t).tally = t) :
    ((p >>= fun text => (text ++ ·) <$> q).run t).result =
      (do
        let text ← (p.run t).result
        let text' ← (q.run t).result
        pure (text ++ text')) := by
  rw [Filling.run_bind, h]
  cases (p.run t).result with
  | error reason => rfl
  | ok text =>
    simp only [Filling.run_map]
    cases (q.run t).result <;> rfl

/-- Two templates that are put together are filled like one after the other: their texts are put
together, and an error of the first one comes before an error of the second one. -/
theorem fillWithin_append {x y : Text} {compiled compiled' : Compiled}
    (hx : compile x = .ok compiled) (hy : compile y = .ok compiled')
    (hseam : (Lexeme.readAll x).getLast? = some .closing ∨
      (∀ c, x.getLast? = some c → c ≠ '\\' ∧ c ≠ '{' ∧ c ≠ '}') ∨
      ∀ d, y.head? = some d → d ≠ '{' ∧ d ≠ '}')
    (hafter : NoneAfter (Outline.ofSource 0 x).2.raws)
    (hbefore : NoneBefore (Outline.ofSource 0 y).2.raws) :
    (∃ both, compile (x ++ y) = .ok both) ∧
    ∀ (templates : TemplateMap) (limit : Nat) (data : Provider) (t : Tally),
      data.counterFree = true →
      seen untemplated (resultOf (x ++ y) limit templates data t) =
        seen untemplated (do
          let text ← resultOf x limit templates data t
          let text' ← resultOf y limit templates data t
          pure (text ++ text')) := by
  have hclear : Lexeme.Seam x y := by
    rcases hseam with hclosing | hlast | hhead
    · intro c d hc
      rw [hclosing] at hc
      cases hc
    · exact Lexeme.seam_of_getLast hlast
    · exact Lexeme.seam_of_head hhead
  have hboth := compile_append hx hy hclear hafter hbefore
  refine ⟨⟨_, hboth⟩, fun templates limit data t hdata => ?_⟩
  rw [resultOf_of_compile hboth, resultOf_of_compile hx, resultOf_of_compile hy]
  obtain ⟨htally, -⟩ := Provider.unwrap_of_counterFree hdata t
  cases hu : data.unwrap t with
  | mk found t' =>
    rw [hu] at htally
    obtain rfl : t' = t := htally
    cases found with
    | none =>
      have hempty (compiled : Compiled) : ((fillRoot templates limit compiled data).run t').result =
          .error (.failed (.substitution ⟨.emptyValue, [], [], compiled.source⟩)) := by
        rw [fillRoot, Filling.run_bind]
        simp [Filling.unwrap, hu, Filling.fail]
      rw [hempty, hempty]
      rfl
    | some u =>
      have hfirst := tally_fillRoot hdata templates limit compiled t'
      have halike := fillPart_append_alike hx hy templates limit [u.core]
      rw [run_fillRoot hu] at hfirst
      rw [run_fillRoot hu, run_fillRoot hu, run_fillRoot hu, ← result_bind_map hfirst,
        part_of_compile hx, part_of_compile hy]
      exact (halike.through t').symm

/-- The seam between two substitutions is no obstacle: the braces that close one and open the other
do not pair up. -/
theorem fillWithin_append_pair :
    (∃ both, compile ((['a'] ++ enclose ['b']) ++ (enclose ['c'] ++ ['d'])) = .ok both) ∧
      Provider.counterFree (.map none [(['b'], .scalar ['1']), (['c'], .scalar ['2'])]) = true ∧
      seen untemplated (resultOf ((['a'] ++ enclose ['b']) ++ (enclose ['c'] ++ ['d'])) 9 .empty
          (.map none [(['b'], .scalar ['1']), (['c'], .scalar ['2'])]) .empty) =
        seen untemplated (do
          let text ← resultOf (['a'] ++ enclose ['b']) 9 .empty
            (.map none [(['b'], .scalar ['1']), (['c'], .scalar ['2'])]) .empty
          let text' ← resultOf (enclose ['c'] ++ ['d']) 9 .empty
            (.map none [(['b'], .scalar ['1']), (['c'], .scalar ['2'])]) .empty
          pure (text ++ text')) := by
  have hafter : NoneAfter (Outline.ofSource 0 (['a'] ++ enclose ['b'])).2.raws := by
    have hraws : (Outline.ofSource 0 (['a'] ++ enclose ['b'])).2.raws = [['b']] := by decide +kernel
    rw [hraws]
    rintro _ clauses ⟨rfl⟩ hread
    cases hread
    rfl
  have hbefore : NoneBefore (Outline.ofSource 0 (enclose ['c'] ++ ['d'])).2.raws := by
    have hraws : (Outline.ofSource 0 (enclose ['c'] ++ ['d'])).2.raws = [['c']] := by decide +kernel
    rw [hraws]
    rintro _ clauses ⟨rfl⟩ hread
    cases hread
    rfl
  have hx : (compile (['a'] ++ enclose ['b'])).toOption.isSome = true := by decide +kernel
  have hy : (compile (enclose ['c'] ++ ['d'])).toOption.isSome = true := by decide +kernel
  obtain ⟨_, hx⟩ := exists_compile hx
  obtain ⟨_, hy⟩ := exists_compile hy
  obtain ⟨hboth, hfill⟩ := fillWithin_append hx hy (.inl rfl) hafter hbefore
  exact ⟨hboth, rfl, hfill .empty 9 _ .empty rfl⟩

end Stencil
