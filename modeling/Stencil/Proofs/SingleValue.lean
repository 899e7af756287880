import Stencil.Proofs.Concatenation
import Stencil.Proofs.DottedName
import Stencil.Proofs.Vocabulary

/-!
# A single value

A template whose only substitution is a name with its markers compiles to one value between two
literals. Filled with a map that has a text under the name, it is what the markers leave of the
literals, and between them the text with what the markers took, or nothing when the text is empty.
-/
namespace Stencil

/-- A name between its markers, each of which may be missing. This is the whole body of the
substitution. -/
def Mark.around (before after : Option Mark) (name : Text) : Text :=
  Mark.open before ++ (name ++ Mark.close after)

/-- The clauses of a name between its markers. There are no dots, no separator and no data section,
so the value is taken as it is. -/
def Clauses.ofName (before after : Option Mark) (name : Text) : Clauses :=
  ⟨before, false, 0, name, none, none, after⟩

section

variable (before after : Option Mark) {name : Text}

theorem Text.IsComponent.isPath (h : name.IsComponent) : name.IsPath := by
  have hnil : ∀ c ∈ ([] : List Text), c.IsComponent := by simp
  simpa [dottedPath] using isPath_dottedPath h hnil

/-- A name between its markers is read as the name and the markers. The name is a component, so
nothing in it is taken for another clause. -/
theorem Directive.read_around (h : name.IsComponent) :
    Directive.read (Mark.around before after name) =
      .substitution (.ofName before after name) := by
  have hpath := h.isPath
  have hjoin : Text.IsJoin [] := ⟨by simp, by simp, by simp⟩
  have hhead : Mark.around before after name = headText before 0 name [] ++ Mark.close after := by
    simp [Mark.around, headText]
  obtain ⟨front, c, hend, hc⟩ := headText_concat before 0 hpath hjoin
  have hsplit : splitAfterMark (headText before 0 name [] ++ (Mark.close after).trimEnd) =
      (headText before 0 name [] ++ [], after) := by
    rw [Text.trimEnd_close, hend, List.append_nil, List.append_assoc, List.singleton_append,
      splitAfterMark_close hc]
  rw [hhead, Directive.read_headText before 0 hpath hjoin (fun _ hc => by cases hc) hsplit]
  rfl

theorem isBody_around (h : name.IsComponent) : (Mark.around before after name).IsBody := by
  have hopen : (Mark.open before).Avoids ['{', '}', '\\'] := by
    rcases before with _ | _ | _ <;> decide
  have hclose : (Mark.close after).Avoids ['{', '}', '\\'] := by
    rcases after with _ | _ | _ <;> decide
  have hplain := hopen.append ((h.plain.mono (by decide)).append hclose)
  exact Text.isBody_of_braceless (hplain.braceless (by decide) (by decide))
    (hplain.getLast?_ne (by decide))

theorem Clauses.compiles_ofName (h : name.IsComponent) (start : Nat) :
    (ofName before after name).fault? = none ∧
      (ofName before after name).Compiles start (.value 0 name .own) := by
  have hnil : ∀ c ∈ ([] : List Text), c.IsComponent := by simp
  have hpath : (ofName before after name).path = dottedPath name [] := by
    simp [dottedPath, ofName]
  obtain ⟨hcomponents, hfault⟩ := components_dottedPath h hnil hpath rfl
  refine ⟨hfault, .inr ⟨rfl, .own, ?_, ?_⟩⟩
  · rw [ofName, compileTarget]
    rfl
  · rw [hcomponents]
    rfl

variable {before after} {source literal next : Text} {start : Nat}

/-- The markers cut the literals on the two sides of the name. What is left of the literals is the
wording of the compiled template. -/
theorem compile_around (h : name.IsComponent)
    (hcut : Outline.ofSource 0 source =
      (literal, .body (Mark.around before after name) start next .done)) :
    compile source = .ok ⟨source, .piece (Margin.cutLeading before true literal).1
      ((Clauses.ofName before after name).place (.ofBody (Mark.around before after name) start) true
        literal next)
      (.value 0 name .own) (.tail (Margin.cutTrailing after next).2)⟩ := by
  obtain ⟨hfault, haction⟩ := Clauses.compiles_ofName before after h start
  refine compile_of_compileSource ?_
  rw [compileSource, hcut]
  refine compileOutline_body_eq_ok.2 (.inr ⟨_, _, _, Directive.read_around before after h, hfault,
    haction, ?_, rfl⟩)
  rw [compileOutline]
  rfl

end

/-- A text without a template stands for itself. No template is asked for on the way, and nothing is
noted or counted. -/
theorem fillAction_text {templates : TemplateMap} {enter : Enter} {source : Text}
    {place : Placement} {core : Core} {outer : Scopes} {name v : Text}
    (h : core.lookup name = some (.scalar v)) :
    fillAction templates enter source place (core :: outer) (.value 0 name .own) = pure v := by
  have hresolve : resolve ⟨source, place, name⟩ 0 (core :: outer) = pure (.scalar v) := by
    simp [resolve, Scopes.rewind, Scopes.find?, h]
  rw [fillAction, hresolve]
  rfl

/-- What a template with a single name gives for a text under this name: the literals that the
markers leave, and what they keep for a text that is not empty. -/
theorem run_fillWithin_around {before after : Option Mark} {name source literal next : Text}
    {start : Nat} (h : name.IsComponent)
    (hcut : Outline.ofSource 0 source =
      (literal, .body (Mark.around before after name) start next .done))
    (limit : Nat) (templates : TemplateMap) (v : Text) (t : Tally) :
    ((Template.new source).fillWithin (limit + 1) templates
        (.map none [(name, .scalar v)])).run t =
      ⟨.ok ((Margin.cutLeading before true literal).1 ++
        ((if v = [] then [] else
          (Margin.cutLeading before true literal).2 ++ v ++ (Margin.cutTrailing after next).1) ++
        (Margin.cutTrailing after next).2)), [], t⟩ := by
  have hcompile : (Template.new source).compile = _ := compile_around h hcut
  have hlookup : Core.lookup (.map none [(name, .scalar v)]) name = some (.scalar v) := by
    obtain ⟨c, rest, rfl⟩ := List.exists_cons_of_ne_nil h.ne_nil
    simp [Core.lookup]
  rw [Template.fillWithin_of_compile hcompile, run_fillRoot rfl, fillPart]
  simp only [Compiled.part, fillBody, Unwrapped.ofCore, fillAction_text hlookup,
    Filling.pure_bind, map_pure, Filling.run_pure]
  cases v <;> simp [Placement.wrap, Clauses.place, Clauses.ofName]

end Stencil
