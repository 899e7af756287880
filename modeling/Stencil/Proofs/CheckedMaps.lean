import Stencil.Check
import Stencil.Proofs.Vocabulary

/-!
# Checked maps of templates

A check looks once at the references of each template of a map. A fill comes to templates by way of
other templates, through bodies at any depth, but all that it comes to is again in the map and in
order. So over a map that passed the check, a fill can only fail because of its data.
-/
namespace Stencil

/-- The template compiles and refers to templates of the map only. This is all that a check can find
out without data. -/
def Template.InOrder (templates : TemplateMap) (template : Template) : Prop :=
  ∃ compiled, template.compile = .ok compiled ∧
    ∀ name ∈ compiled.references, templates.contains name = true

namespace TemplateMap

theorem problem?_eq_none {templates : TemplateMap} {name : Text} {template : Template} :
    templates.problem? name template = none ↔ template.InOrder templates := by
  unfold problem? Template.InOrder
  cases template.compile with
  | error e => simp
  | ok compiled => simp

/-- A check finds out whether all templates of a map are in order, and succeeds exactly if they
are. -/
theorem check_eq_ok {templates : TemplateMap} :
    templates.check = .ok () ↔ ∀ entry ∈ templates.entries, entry.2.InOrder templates := by
  have hcheck : templates.check = .ok () ↔ templates.firstProblem? = none := by
    unfold check
    cases templates.firstProblem? <;> simp
  rw [hcheck, firstProblem?, List.findSome?_eq_none_iff]
  simp only [Option.map_eq_none_iff, problem?_eq_none]

theorem inOrder_of_check {templates : TemplateMap} (h : templates.check = .ok ()) {name : Text}
    {template : Template} (hname : templates.get? name = some template) :
    template.InOrder templates :=
  check_eq_ok.1 h _ (mem_of_get? hname)

/-- All names, but references to templates of the map only, as those of a checked map are. -/
def vocabulary (templates : TemplateMap) : Vocabulary where
  names _ := True
  references name := templates.contains name = true
  wording _ := True

end TemplateMap

theorem Body.within_vocabulary {templates : TemplateMap} {body : Body}
    (h : ∀ name ∈ body.references, templates.contains name = true) :
    body.Within templates.vocabulary where
  names _ _ := trivial
  references := h
  wording _ _ _ := trivial

/-- A failure that is due to the data, not to a template: a name, a template for a value or the
value itself is missing. -/
def FillError.OfData : FillError → Prop
  | .malformed _ => False
  | .malformedNamed _ _ => False
  | .substitution error => error.fault ≠ .missingTemplate

def Stop.OfData : Stop → Prop
  | .failed error => error.OfData
  | .tooDeep => True

/-- All templates that a checked map gives for a reference refer to templates of the map again. So a
fill never leaves what was checked. -/
theorem namedPart_of_check {templates : TemplateMap} (h : templates.check = .ok ()) (spot : Spot)
    (name : Text) (hname : templates.contains name = true) :
    Filling.Alike (Comparison.results fun stop _ => stop.OfData)
      (PartWithin templates.vocabulary) (namedPart templates spot name)
      (namedPart templates spot name) := by
  obtain ⟨template, htemplate⟩ := Option.isSome_iff_exists.1 hname
  obtain ⟨compiled, hcompile, hreferences⟩ := TemplateMap.inOrder_of_check h htemplate
  simp only [namedPart, htemplate]
  refine rootPart_alike rfl trivial (fun e he => ?_) fun other hother => ?_
  · rw [hcompile] at he
    cases he
  · rw [hcompile] at hother
    cases hother
    exact ⟨rfl, Body.within_vocabulary hreferences⟩

/-- All templates of a map that passed the check are in order, and whatever template in order is
filled over the map, with data that carries no templates, a failure is due to the data. -/
theorem check_sound {templates : TemplateMap} (h : templates.check = .ok ()) :
    (∀ name template, templates.get? name = some template → template.InOrder templates) ∧
    ∀ template : Template, template.InOrder templates → ∀ data : Provider, data.owns = [] →
      ∀ limit t error, ((template.fillWithin limit templates data).run t).result =
        .error (.failed error) → error.OfData := by
  refine ⟨fun name template => TemplateMap.inOrder_of_check h, ?_⟩
  rintro template ⟨compiled, hcompile, hreferences⟩ data howns limit t error herror
  let L : Likeness templates templates := .within templates.vocabulary (fun stop _ => stop.OfData)
    trivial (fun _ hfault => hfault) (namedPart_of_check h)
  have hpart : L.part compiled.part compiled.part := ⟨rfl, Body.within_vocabulary hreferences⟩
  have hempty : FillFault.emptyValue ≠ .missingTemplate := by decide
  have hdata : L.value data data := ⟨howns, .refl data⟩
  have halike := (L.fillRoot_alike limit hpart hempty hdata t t rfl).result
  rw [Template.fillWithin_of_compile hcompile] at herror
  rw [herror] at halike
  cases halike with
  | error hstop => exact hstop

/-- The first template inserts the second one, which fills the elements of a list into the third
one. The map is in order. -/
def listTemplates : TemplateMap :=
  .ofList [("a".toList, .new "\x7b\x7b!b\x7d\x7d".toList),
    ("b".toList, .new "\x7b\x7bx|!\x7b\x7by|c\x7d\x7d\x7d\x7d".toList),
    ("c".toList, .new "\x7b\x7bz\x7d\x7d".toList)]

/-- A list with an element that has no value for the third template, so that only the data is at
fault. -/
def listData : Provider :=
  .map none [("x".toList, .sequence [.map none [("y".toList, .scalar "1".toList)]])]

theorem check_sound_list :
    ∃ template error, listTemplates.check = .ok () ∧
      listTemplates.get? "a".toList = some template ∧
      ((template.fillWithin 9 listTemplates listData).run .empty).result =
        .error (.failed error) ∧
      error.OfData := by
  have hcheck : listTemplates.check = .ok () := by decide +kernel
  have hfill : (listTemplates.get? "a".toList).map (fun template =>
      ((template.fillWithin 9 listTemplates listData).run .empty).result) =
    some (.error (.failed (.substitution
      ⟨.unresolved, "z".toList, "\x7b\x7bz\x7d\x7d".toList, "\x7b\x7bz\x7d\x7d".toList⟩))) := by
    decide +kernel
  obtain ⟨template, hget, hresult⟩ := Option.map_eq_some_iff.1 hfill
  have hlist := check_sound hcheck
  exact ⟨template, _, hcheck, hget, hresult,
    hlist.2 template (hlist.1 _ _ hget) listData rfl 9 .empty _ hresult⟩

end Stencil
