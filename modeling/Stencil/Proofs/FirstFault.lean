import Mathlib.Data.List.Sort
import Stencil.Proofs.ByteOrder
import Stencil.Proofs.CheckedMaps
import Stencil.Proofs.FormlessSteps

/-!
# The first fault of a map

A check walks along the sorted names of a map, prepares one template after another and stops at the
first that is at fault. What it finds, and what it leaves compiled, depends on the sources in the
map alone: not on the order in which they came into the map, nor on the forms that there were
before.
-/
namespace Stencil

/-- The template compiles, and all templates that it refers to are in the map. Then a check has
nothing to say against it. -/
def Template.Complete (templates : TemplateMap) (template : Template) : Prop :=
  ∃ compiled, Stencil.compile template.source = .ok compiled ∧
    ∀ name ∈ compiled.arena.references, templates.contains name = true

/-- The error tells the first fault of a template with this name: that it does not compile, or else
the first of its references, in the order of its nodes, that is not in the map. -/
inductive FillError.Blames (templates : TemplateMap) (name : Text) (template : Template) :
    FillError → Prop
  | malformed {e : SyntaxError} : compile template.source = .error e →
    Blames templates name template (.malformedNamed name e)
  | missing {compiled : Compiled} {before after : List Text} {error : SubstitutionError} :
    compile template.source = .ok compiled →
    compiled.arena.references = before ++ error.name :: after →
    (∀ other ∈ before, templates.contains other = true) →
    templates.contains error.name = false → error.fault = .missingTemplate →
    error.template = template.source → Blames templates name template (.substitution error)

/-- What becomes of a template when a check looks at it, or does not. Its source is always kept. -/
structure Template.LookedAt (looked : Prop) (before after : Template) : Prop where
  source : after.source = before.source
  kept : ∀ compiled, before.form = some compiled → after.form = some compiled
  compiled : after.isCompiled = true ↔ before.isCompiled = true ∨
    looked ∧ ∃ compiled, Stencil.compile before.source = .ok compiled
  faithful : after.Faithful

namespace Template

variable {template : Template}

@[simp] theorem prepare_prepare (template : Template) :
    template.prepare.prepare = template.prepare := by
  rw [prepare, compile_prepare]
  rfl

theorem Faithful.lookedAt (h : template.Faithful) {looked : Prop} (hlooked : ¬ looked) :
    template.LookedAt looked template :=
  ⟨rfl, fun _ hform => hform, by simp [hlooked], h⟩

theorem Faithful.lookedAt_prepare (h : template.Faithful) {looked : Prop} (hlooked : looked) :
    template.LookedAt looked template.prepare := by
  have hprepare : template.prepare.form = (Stencil.compile template.source).toOption := by
    rw [← h.compile_eq]
    rfl
  refine ⟨rfl, fun compiled hform => ?_, ?_, h.prepare⟩
  · rw [hprepare, h compiled hform]
    rfl
  · unfold isCompiled
    rw [hprepare]
    constructor
    · cases hcompile : Stencil.compile template.source with
      | error e => simp [Except.toOption]
      | ok compiled => exact fun _ => .inr ⟨hlooked, compiled, rfl⟩
    · rintro (hform | ⟨-, compiled, hcompile⟩)
      · obtain ⟨compiled, hform⟩ := Option.isSome_iff_exists.1 hform
        rw [h compiled hform]
        rfl
      · rw [hcompile]
        rfl

theorem Faithful.complete_iff (h : template.Faithful) {templates : TemplateMap} :
    template.Complete templates ↔ template.InOrder templates := by
  simp only [Complete, InOrder, h.compile_eq, Compiled.lists_arena _ |>.references]

end Template

namespace TemplateMap

variable {templates : TemplateMap}

/-! ### Maps by their contents -/

theorem nodup_entries (templates : TemplateMap) : templates.entries.Nodup := by
  refine templates.sorted.imp ?_
  rintro a b hlt rfl
  exact List.lt_irrefl a.1 hlt

/-- A map is what is found in it, as its entries are in the order of their names. -/
theorem eq_of_get? {a b : TemplateMap} (h : ∀ name, a.get? name = b.get? name) : a = b := by
  have hmem (a b : TemplateMap) (h : ∀ name, a.get? name = b.get? name)
      (entry : Text × Template) (hentry : entry ∈ a.entries) : entry ∈ b.entries :=
    mem_of_get? ((h entry.1).symm.trans (get?_of_mem hentry))
  refine eq_of_entries (List.Perm.eq_of_pairwise ?_ a.sorted b.sorted ?_)
  · exact fun _ _ _ _ hlt hgt => absurd hgt (List.lt_asymm hlt)
  · refine (List.perm_ext_iff_of_nodup a.nodup_entries b.nodup_entries).2 fun entry => ?_
    exact ⟨hmem a b h entry, hmem b a (fun name => (h name).symm) entry⟩

theorem sorted_names (templates : TemplateMap) : templates.names.Pairwise (· < ·) :=
  List.pairwise_map.2 templates.sorted

/-- Sorted by their bytes, the names are in the order of the entries, whatever order they come
in. -/
theorem mergeSort_names {names : List Text} (h : names.Perm templates.names) :
    names.mergeSort (fun a b => decide (a.utf8 ≤ b.utf8)) = templates.names := by
  have hsorted : (names.mergeSort fun a b => decide (a.utf8 ≤ b.utf8)).Pairwise
      fun a b => ¬ b < a := by
    refine (List.pairwise_mergeSort ?_ ?_ names).imp fun hle => ?_
    · intro a b c hab hbc
      simp only [decide_eq_true_eq, Text.utf8_le_utf8] at hab hbc ⊢
      exact List.le_trans hab hbc
    · intro a b
      simpa using List.le_total a.utf8 b.utf8
    · simpa [Text.utf8_le_utf8] using hle
  have hnames : templates.names.Pairwise fun a b => ¬ b < a :=
    templates.sorted_names.imp List.lt_asymm
  exact List.Perm.eq_of_pairwise (fun _ _ _ _ => List.le_antisymm) hsorted hnames
    ((List.mergeSort_perm names _).trans h)

/-! ### Preparing one template after another -/

theorem get?_prepare (templates : TemplateMap) (name key : Text) :
    (templates.prepare name).get? key = (templates.get? key).map fun template =>
      if key = name then template.prepare else template :=
  get?_mapTemplates _ templates key

theorem get?_foldl_prepare (templates : TemplateMap) (names : List Text) (key : Text) :
    (names.foldl prepare templates).get? key = (templates.get? key).map fun template =>
      if key ∈ names then template.prepare else template := by
  induction names generalizing templates with
  | nil => simp
  | cons name rest ih =>
    rw [List.foldl_cons, ih, get?_prepare, Option.map_map]
    refine congrArg (Option.map · _) (funext fun template => ?_)
    by_cases hname : key = name <;> by_cases hrest : key ∈ rest <;> simp [hname, hrest]

/-- A template has the same problem before and after templates are prepared, as a form says nothing
that the source does not. -/
theorem problem?_prepare (templates : TemplateMap) (name key : Text) (template : Template) :
    (templates.prepare name).problem? key template = templates.problem? key template := by
  have hcontains (other : Text) :
      (templates.prepare name).contains other = templates.contains other := by
    rw [contains, contains, get?_prepare, Option.isSome_map]
  unfold problem?
  simp only [hcontains]

theorem problem?_of_prepared (templates : TemplateMap) (key : Text) (template : Template) :
    templates.problem? key template.prepare = templates.problem? key template := by
  unfold problem?
  rw [Template.compile_prepare]

/-! ### The walk of a check -/

/-- Looks at the templates with these names, one after another and up to the first problem. Each
template that is looked at is compiled. -/
def walk (templates : TemplateMap) : List Text → TemplateMap × Except FillError Unit
  | [] => (templates, .ok ())
  | name :: rest =>
    match templates.get? name with
    | none => templates.walk rest
    | some template =>
      match templates.problem? name template with
      | some problem => (templates.prepare name, .error problem)
      | none => (templates.prepare name).walk rest

/-- The problem of the template with this name, if there is such a template and it has one. -/
def problemAt? (templates : TemplateMap) (name : Text) : Option FillError :=
  (templates.get? name).bind (templates.problem? name)

theorem problemAt?_prepare (templates : TemplateMap) (name key : Text) :
    (templates.prepare name).problemAt? key = templates.problemAt? key := by
  unfold problemAt?
  rw [get?_prepare]
  cases templates.get? key with
  | none => rfl
  | some template =>
    by_cases h : key = name <;> simp [h, problem?_prepare, problem?_of_prepared]

/-- One step of the walk: it ends at a problem, and goes on with the prepared map otherwise. -/
theorem walk_cons (name : Text) (rest : List Text) :
    templates.walk (name :: rest) =
      match templates.problemAt? name with
      | some problem => (templates.prepare name, .error problem)
      | none => (templates.prepare name).walk rest := by
  rw [walk, problemAt?]
  cases hget : templates.get? name with
  | none =>
    have hprepare : templates.prepare name = templates := by
      refine eq_of_get? fun key => ?_
      rw [get?_prepare]
      by_cases h : key = name
      · rw [h, hget]
        rfl
      · simp [h]
    simp only [Option.bind_none, hprepare]
  | some template => rfl

/-- The walk prepares what has no problem, and goes on with the names after that. -/
theorem walk_append {names : List Text} (h : ∀ name ∈ names, templates.problemAt? name = none)
    (rest : List Text) :
    templates.walk (names ++ rest) = (names.foldl prepare templates).walk rest := by
  induction names generalizing templates with
  | nil => rfl
  | cons name names ih =>
    obtain ⟨hname, hnames⟩ := List.forall_mem_cons.1 h
    rw [List.cons_append, walk_cons, hname, List.foldl_cons]
    exact ih fun key hkey => (problemAt?_prepare templates name key).trans (hnames key hkey)

theorem problemAt?_foldl_prepare (templates : TemplateMap) (names : List Text) (key : Text) :
    (names.foldl prepare templates).problemAt? key = templates.problemAt? key := by
  induction names generalizing templates with
  | nil => rfl
  | cons name rest ih => exact (ih _).trans (problemAt?_prepare templates name key)

theorem problemAt?_of_mem {entry : Text × Template} (h : entry ∈ templates.entries) :
    templates.problemAt? entry.1 = templates.problem? entry.1 entry.2 := by
  rw [problemAt?, get?_of_mem h]
  rfl

/-! ### What a check finds and leaves -/

/-- The map is cut at the first template with a problem: those before it come earlier in the order
of names, and have none. -/
structure FirstAt (templates : TemplateMap) (before : List (Text × Template)) (name : Text)
    (template : Template) (after : List (Text × Template)) (problem : FillError) : Prop where
  entries : templates.entries = before ++ (name, template) :: after
  sound : ∀ entry ∈ before, templates.problem? entry.1 entry.2 = none
  problem : templates.problem? name template = some problem

theorem firstProblem?_eq_none :
    templates.firstProblem? = none ↔
      ∀ entry ∈ templates.entries, templates.problem? entry.1 entry.2 = none := by
  simp [firstProblem?, List.findSome?_eq_none_iff]

theorem exists_firstAt {name : Text} {problem : FillError}
    (h : templates.firstProblem? = some (name, problem)) :
    ∃ before template after, templates.FirstAt before name template after problem := by
  obtain ⟨before, ⟨key, template⟩, after, hentries, hfound, hbefore⟩ :=
    List.findSome?_eq_some_iff.1 h
  obtain ⟨found, hproblem, heq⟩ := Option.map_eq_some_iff.1 hfound
  cases heq
  exact ⟨before, template, after, hentries, by simpa using hbefore, hproblem⟩

namespace FirstAt

variable {before after : List (Text × Template)} {name : Text} {template : Template}
  {problem : FillError}

theorem get? (h : templates.FirstAt before name template after problem) :
    templates.get? name = some template := by
  have hmem : (name, template) ∈ templates.entries := by simp [h.entries]
  exact get?_of_mem hmem

/-- What comes up to the problem has no larger name, and all else has, because the entries are in
order. -/
theorem mem_iff (h : templates.FirstAt before name template after problem) {entry : Text × Template}
    (hentry : entry ∈ templates.entries) :
    entry.1 ∈ before.map Prod.fst ++ [name] ↔ ¬ name < entry.1 := by
  have hsorted := templates.sorted
  rw [h.entries] at hsorted hentry
  obtain ⟨-, hrest, hbefore⟩ := List.pairwise_append.1 hsorted
  obtain ⟨hafter, -⟩ := List.pairwise_cons.1 hrest
  constructor
  · intro hmem hlt
    rcases List.mem_append.1 hmem with hmem | hmem
    · obtain ⟨other, hother, heq⟩ := List.mem_map.1 hmem
      have := hbefore other hother (name, template) List.mem_cons_self
      rw [heq] at this
      exact List.lt_asymm hlt this
    · rw [List.mem_singleton.1 hmem] at hlt
      exact List.lt_irrefl _ hlt
  · intro hle
    rcases List.mem_append.1 hentry with hmem | hmem
    · exact List.mem_append_left _ (List.mem_map_of_mem hmem)
    · rcases List.mem_cons.1 hmem with rfl | hmem
      · simp
      · exact absurd (hafter entry hmem) hle

end FirstAt

theorem get?_checked_of_none (h : templates.firstProblem? = none) (key : Text) :
    templates.checked.get? key = (templates.get? key).map Template.prepare := by
  rw [checked, h]
  exact get?_mapTemplates _ templates key

theorem get?_checked_of_some {name : Text} {problem : FillError}
    (h : templates.firstProblem? = some (name, problem)) (key : Text) :
    templates.checked.get? key = (templates.get? key).map fun template =>
      if name < key then template else template.prepare := by
  rw [checked, h]
  exact get?_mapTemplates _ templates key

/-- The check is the walk along the names, both in its result and in the forms that it leaves. -/
theorem walk_names : templates.walk templates.names = (templates.checked, templates.check) := by
  cases hfirst : templates.firstProblem? with
  | none =>
    have hnone (name : Text) (hname : name ∈ templates.names) :
        templates.problemAt? name = none := by
      obtain ⟨entry, hentry, rfl⟩ := List.mem_map.1 hname
      exact (problemAt?_of_mem hentry).trans (firstProblem?_eq_none.1 hfirst entry hentry)
    have hwalk := walk_append hnone []
    rw [List.append_nil] at hwalk
    rw [hwalk, walk, check, hfirst]
    refine Prod.ext (eq_of_get? fun key => ?_) rfl
    rw [get?_foldl_prepare, get?_checked_of_none hfirst]
    refine Option.map_congr fun template hget => ?_
    exact if_pos (List.mem_map_of_mem (mem_of_get? hget))
  | some found =>
    obtain ⟨name, problem⟩ := found
    obtain ⟨before, template, after, hat⟩ := exists_firstAt hfirst
    have hnone (key : Text) (hkey : key ∈ before.map Prod.fst) :
        templates.problemAt? key = none := by
      obtain ⟨entry, hentry, rfl⟩ := List.mem_map.1 hkey
      have hmem : entry ∈ templates.entries := by simp [hat.entries, hentry]
      exact (problemAt?_of_mem hmem).trans (hat.sound entry hentry)
    have hproblem : templates.problemAt? name = some problem := by
      rw [problemAt?, hat.get?]
      exact hat.problem
    have hnames : templates.names = before.map Prod.fst ++ name :: after.map Prod.fst := by
      simp [names, hat.entries]
    rw [hnames, walk_append hnone, walk_cons, problemAt?_foldl_prepare, hproblem, check, hfirst]
    refine Prod.ext (eq_of_get? fun key => ?_) rfl
    have hfold : ((before.map Prod.fst).foldl prepare templates).prepare name =
        (before.map Prod.fst ++ [name]).foldl prepare templates := by
      rw [List.foldl_append]
      rfl
    simp only
    rw [hfold, get?_foldl_prepare, get?_checked_of_some hfirst]
    refine Option.map_congr fun template hget => ?_
    by_cases hlt : name < key
    · rw [if_pos hlt, if_neg fun hmem => (hat.mem_iff (mem_of_get? hget)).1 hmem hlt]
    · rw [if_neg hlt, if_pos ((hat.mem_iff (mem_of_get? hget)).2 hlt)]

/-- A problem that a check finds is the first fault of the template: it does not compile, or the
first reference without a match is told. -/
theorem blames_of_problem? {name : Text} {template : Template} {problem : FillError}
    (h : template.Faithful) (hproblem : templates.problem? name template = some problem) :
    problem.Blames templates name template := by
  unfold problem? at hproblem
  rw [h.compile_eq] at hproblem
  cases hcompile : compile template.source with
  | error e =>
    rw [hcompile] at hproblem
    cases hproblem
    exact .malformed hcompile
  | ok compiled =>
    rw [hcompile] at hproblem
    obtain ⟨missing, hmissing, rfl⟩ := Option.map_eq_some_iff.1 hproblem
    obtain ⟨hcontains, before, after, hreferences, hbefore⟩ :=
      List.find?_eq_some_iff_append.1 hmissing
    rw [← compiled.lists_arena.references] at hreferences
    exact .missing hcompile hreferences (by simpa using hbefore) (by simpa using hcontains) rfl
      (compile_eq_ok.1 hcompile).1

theorem Faithful.of_get? (h : templates.Faithful) {name : Text} {template : Template}
    (hget : templates.get? name = some template) : template.Faithful :=
  h _ (mem_of_get? hget)

/-- No template with a smaller name is at fault, so that the problem is the first one in the order
of the bytes. -/
theorem FirstAt.least {before after : List (Text × Template)} {name other : Text}
    {template template' : Template} {problem : FillError} (h : templates.Faithful)
    (hat : templates.FirstAt before name template after problem)
    (hother : templates.get? other = some template') (hfault : ¬ template'.Complete templates) :
    name.utf8 ≤ other.utf8 := by
  rw [Text.utf8_le_utf8]
  intro hlt
  have hmem : other ∈ before.map Prod.fst ++ [name] :=
    (hat.mem_iff (mem_of_get? hother)).2 (List.lt_asymm hlt)
  rcases List.mem_append.1 hmem with hmem | hmem
  · obtain ⟨entry, hentry, rfl⟩ := List.mem_map.1 hmem
    have hget : templates.get? entry.1 = some entry.2 :=
      get?_of_mem (by simp [hat.entries, hentry])
    obtain rfl := Option.some.inj (hget.symm.trans hother)
    exact hfault ((h.of_get? hget).complete_iff.2 (problem?_eq_none.1 (hat.sound entry hentry)))
  · rw [List.mem_singleton.1 hmem] at hlt
    exact List.lt_irrefl _ hlt

theorem FirstAt.not_complete {before after : List (Text × Template)} {name : Text}
    {template : Template} {problem : FillError} (h : templates.Faithful)
    (hat : templates.FirstAt before name template after problem) :
    ¬ template.Complete templates := by
  intro hcomplete
  have hnone : templates.problem? name template = none :=
    problem?_eq_none.2 ((h.of_get? hat.get?).complete_iff.1 hcomplete)
  rw [hat.problem] at hnone
  cases hnone

theorem firstProblem?_of_check (hcheck : templates.check = .ok ()) :
    templates.firstProblem? = none := by
  unfold check at hcheck
  cases hfirst : templates.firstProblem? with
  | none => rfl
  | some found => rw [hfirst] at hcheck; cases hcheck

theorem exists_firstProblem? {e : FillError} (hcheck : templates.check = .error e) :
    ∃ name, templates.firstProblem? = some (name, e) := by
  unfold check at hcheck
  cases hfirst : templates.firstProblem? with
  | none => rw [hfirst] at hcheck; cases hcheck
  | some found =>
    rw [hfirst] at hcheck
    cases hcheck
    exact ⟨found.1, rfl⟩

/-- A check that stops at a name looks at the templates up to there, that one included, and leaves
later ones alone. -/
theorem lookedAt_checked_of_some (h : templates.Faithful) {name : Text} {problem : FillError}
    (hfirst : templates.firstProblem? = some (name, problem)) (key : Text) :
    Option.Rel (Template.LookedAt (key.utf8 ≤ name.utf8)) (templates.get? key)
      (templates.checked.get? key) := by
  rw [get?_checked_of_some hfirst]
  cases hget : templates.get? key with
  | none => exact .none
  | some template =>
    have htemplate := h.of_get? hget
    by_cases hlt : name < key
    · have hnot : ¬ key.utf8 ≤ name.utf8 := fun hle => Text.utf8_le_utf8.1 hle hlt
      exact .some (by simpa [hlt] using htemplate.lookedAt hnot)
    · have hle : key.utf8 ≤ name.utf8 := Text.utf8_le_utf8.2 hlt
      exact .some (by simpa [hlt] using htemplate.lookedAt_prepare hle)

/-- A check that finds nothing looks at all templates, so that all of them have their forms
afterwards. -/
theorem lookedAt_checked_of_none (h : templates.Faithful) (hfirst : templates.firstProblem? = none)
    (key : Text) :
    Option.Rel (Template.LookedAt True) (templates.get? key) (templates.checked.get? key) := by
  rw [get?_checked_of_none hfirst]
  cases hget : templates.get? key with
  | none => exact .none
  | some template => exact .some ((h.of_get? hget).lookedAt_prepare trivial)

end TemplateMap

open TemplateMap

/-- A check succeeds exactly when all templates are complete. Otherwise it tells the first fault of
the template with the least name among those that are not. It compiles what it looks at, which is
all up to there, and changes nothing else. The order in which names are listed does not matter, nor
the one in which templates were inserted. -/
theorem check_exact {templates : TemplateMap} (h : templates.Faithful) :
    (templates.check = .ok () ↔ ∀ name template, templates.get? name = some template →
      template.Complete templates) ∧
    (templates.check = .ok () → ∀ key,
      Option.Rel (Template.LookedAt True) (templates.get? key) (templates.checked.get? key)) ∧
    (∀ e, templates.check = .error e → ∃ name template, templates.get? name = some template ∧
      ¬ template.Complete templates ∧
      (∀ other template', templates.get? other = some template' →
        ¬ template'.Complete templates → name.utf8 ≤ other.utf8) ∧
      e.Blames templates name template ∧
      ∀ key, Option.Rel (Template.LookedAt (key.utf8 ≤ name.utf8)) (templates.get? key)
        (templates.checked.get? key)) ∧
    (∀ names : List Text, names.Perm templates.names →
      templates.walk (names.mergeSort fun a b => decide (a.utf8 ≤ b.utf8)) =
        (templates.checked, templates.check)) ∧
    ∀ entries : List (Text × Template),
      (∀ name, (ofList entries).get? name = templates.get? name) → ofList entries = templates := by
  refine ⟨?_, fun hcheck => lookedAt_checked_of_none h (firstProblem?_of_check hcheck),
    fun e hcheck => ?_, fun names hnames => ?_, fun entries => eq_of_get?⟩
  · rw [check_eq_ok]
    constructor
    · intro hall name template hget
      exact (h.of_get? hget).complete_iff.2 (hall _ (mem_of_get? hget))
    · intro hall entry hentry
      exact (h entry hentry).complete_iff.1 (hall _ _ (get?_of_mem hentry))
  · obtain ⟨name, hfirst⟩ := exists_firstProblem? hcheck
    obtain ⟨before, template, after, hat⟩ := exists_firstAt hfirst
    exact ⟨name, template, hat.get?, hat.not_complete h, fun _ _ => hat.least h,
      blames_of_problem? (h.of_get? hat.get?) hat.problem, lookedAt_checked_of_some h hfirst⟩
  · rw [mergeSort_names hnames, walk_names]

/-- Two templates are at fault, and one has its form already. They are not given in the order of
their names. -/
def faultyEntries : List (Text × Template) :=
  [("é".toList, .new "\x7b\x7boops".toList),
    ("c".toList, .new "\x7b\x7bx|a\x7d\x7d\x7b\x7b!z\x7d\x7d".toList),
    ("d".toList, (Template.new "ok".toList).prepare),
    ("a".toList, .new "\x7b\x7bx|d\x7d\x7d".toList)]

def faultyTemplates : TemplateMap :=
  .ofList faultyEntries

/-- The template that has no match is the second one that the template refers to, and the error
names it. -/
def faultyError : FillError :=
  .substitution ⟨.missingTemplate, ['z'], ['z'], "\x7b\x7bx|a\x7d\x7d\x7b\x7b!z\x7d\x7d".toList⟩

theorem check_exact_faulty :
    faultyTemplates.Faithful ∧ faultyTemplates.check = .error faultyError ∧
      (∃ name template, faultyTemplates.get? name = some template ∧
        ¬ template.Complete faultyTemplates ∧
        (∀ other template', faultyTemplates.get? other = some template' →
          ¬ template'.Complete faultyTemplates → name.utf8 ≤ other.utf8) ∧
        faultyError.Blames faultyTemplates name template ∧
        ∀ key, Option.Rel (Template.LookedAt (key.utf8 ≤ name.utf8)) (faultyTemplates.get? key)
          (faultyTemplates.checked.get? key)) ∧
      faultyTemplates.walk ((faultyEntries.map Prod.fst).mergeSort fun a b =>
        decide (a.utf8 ≤ b.utf8)) = (faultyTemplates.checked, .error faultyError) ∧
      ofList faultyEntries.reverse = faultyTemplates := by
  have hcheck : faultyTemplates.check = .error faultyError := by decide +kernel
  have hfaithful : faultyTemplates.Faithful := by
    refine faithful_empty.extend fun entry hentry => ?_
    simp only [faultyEntries, List.mem_cons, List.not_mem_nil, or_false] at hentry
    rcases hentry with rfl | rfl | rfl | rfl
    · exact Template.faithful_new _
    · exact Template.faithful_new _
    · exact (Template.faithful_new _).prepare
    · exact Template.faithful_new _
  have hnames : (faultyEntries.map Prod.fst).Perm faultyTemplates.names := by decide +kernel
  obtain ⟨-, -, herror, hwalk, horder⟩ := check_exact hfaithful
  refine ⟨hfaithful, hcheck, herror _ hcheck, (hwalk _ hnames).trans (by rw [hcheck]),
    horder _ fun name => ?_⟩
  simp only [ofList, extend, faultyTemplates, faultyEntries, List.reverse_cons, List.reverse_nil,
    List.nil_append, List.cons_append, List.foldl_cons, List.foldl_nil, get?_insert]
  split_ifs <;> simp_all

end Stencil
