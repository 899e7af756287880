import Stencil.Proofs.DataSections

/-!
# Where a template comes from

The same template can be written inline, kept under a name, or carried by the values. A substitution
enters the same body each time, so that it makes no difference which way is taken, as long as all
values that the name of the substitution leads to are filled into that template.
-/
namespace Stencil

open Filling SubstitutionError

/-! ### What a name leads to -/

/-- There is this under the wrappers of a provider, for some state of the counters. A counter may
have another text in another state. -/
def Provider.Yields (v : Provider) (u : Unwrapped) : Prop :=
  ∃ t, (v.unwrap t).1 = some u

/-- What a value is filled with: all of it, or each element of a sequence. The sequence itself is
filled into nothing. -/
inductive Provider.Serves (v : Provider) : Unwrapped → Prop
  | alone {u : Unwrapped} : v.Yields u → (∀ items, u.core ≠ .sequence items) → Serves v u
  | element {items : List Provider} {own : Option OwnTemplate} {item : Provider} {u : Unwrapped} :
    v.Yields ⟨.sequence items, own⟩ → item ∈ items → item.Yields u → Serves v u

/-- The values that the last component of a dotted name stands for. Each component is looked up in
what the values of the one before it are filled with. -/
inductive Reaches : Scopes → Nat → Text → List Text → Provider → Prop
  | last {scopes : Scopes} {dots passed : Nat} {name : Text} {v : Provider} :
    (scopes.rewind dots).find? name = some (v, passed) → Reaches scopes dots name [] v
  | next {scopes : Scopes} {dots passed : Nat} {name other : Text} {more : List Text}
      {v w : Provider} {u : Unwrapped} : (scopes.rewind dots).find? name = some (v, passed) →
    v.Serves u → Reaches (u.core :: scopes) 0 other more w →
    Reaches scopes dots name (other :: more) w

/-! ### The same value twice -/

section

variable {view : SubstitutionError → SubstitutionError}

theorem unwrap_self (v : Provider) {R : Unwrapped → Unwrapped → Prop}
    (h : ∀ u, v.Yields u → R u u) :
    Alike (Comparison.upTo view) (Option.Rel R) (unwrap v) (unwrap v) := by
  rintro t _ rfl
  refine ⟨.ok ?_, trivial, rfl⟩
  cases hu : (v.unwrap t).1 with
  | none => exact .none
  | some u => exact .some (h u ⟨t, hu⟩)

theorem resolve_self {spot spot' : Spot} (hspot : spot.Alike (Comparison.upTo view) spot')
    (hname : spot.name = spot'.name) (dots : Nat) (scopes : Scopes) :
    Alike (Comparison.upTo view)
      (fun v v' => v = v' ∧ ∃ passed, (scopes.rewind dots).find? spot.name = some (v, passed))
      (resolve spot dots scopes) (resolve spot' dots scopes) := by
  unfold resolve
  rw [← hname]
  cases hfind : (scopes.rewind dots).find? spot.name with
  | none => exact hspot.fail (by decide)
  | some found =>
    obtain ⟨v, passed⟩ := found
    dsimp only
    split
    · refine alike_bind (R := Eq) (alike_note trivial rfl) fun _ _ _ => ?_
      exact alike_pure ⟨rfl, passed, rfl⟩
    · exact alike_pure ⟨rfl, passed, rfl⟩

/-- The same value is filled alike if all that it is filled with is served alike. The parts may come
from different places, and the scopes may differ. -/
theorem fillValue_self {enter enter' : Enter} {given given' : Option Part} {scopes scopes' : Scopes}
    {spot spot' : Spot} (hspot : spot.Alike (Comparison.upTo view) spot')
    (hjoining : spot.place.joining = spot'.place.joining) {v : Provider}
    (h : ∀ u, v.Serves u →
      ServedAlike (Comparison.upTo view) Eq enter enter' given given' scopes scopes' u u) :
    Alike (Comparison.upTo view) Eq (fillValue enter spot given scopes v)
      (fillValue enter' spot' given' scopes' v) := by
  refine fillValue_alike hspot (fun ts ts' hts => ?_) (unwrap_self v fun u hu => ?_)
  · rw [List.forall₂_eq_eq_eq] at hts
    rw [hts, hjoining]
  · obtain ⟨core, own⟩ := u
    cases core with
    | scalar text => exact .scalar rfl (h _ (.alone hu (by simp)))
    | map inner entries => exact .map (h _ (.alone hu (by simp)))
    | sequence items =>
      refine .sequence (List.forall₂_same.2 fun item hitem => ?_)
      exact unwrap_self item fun u hu' => h u (.element hu hitem hu')

end

/-! ### The template for a value -/

/-- Values that carry such a template, or none, get parts that resemble each other. On one side the
part may be the own template of the value. -/
def ChosenAlike (carried : Option OwnTemplate → Prop) (given given' : Option Part) : Prop :=
  ∀ own, carried own → Alike (Comparison.upTo gist) (Option.Rel (PartResembles gist))
    (choosePart given own) (choosePart given' own)

/-- Wherever they are written, two targets supply values that carry such a template with parts that
resemble each other. -/
def Target.Supplies (templates : TemplateMap) (carried : Option OwnTemplate → Prop)
    (source source' : Text) (target target' : Target) : Prop :=
  ∀ place place' name, Placement.Agrees gist source source' place place' →
    Alike (Comparison.upTo gist) (ChosenAlike carried)
      (targetPart templates ⟨source, place, name⟩ target)
      (targetPart templates ⟨source', place', name⟩ target')

section

variable {templates : TemplateMap} {source source' : Text} {place place' : Placement}

/-- A body with a single substitution is filled alike if the substitution is, whatever the limit.
Around it, only the two placements have to agree. -/
theorem fillPart_single {action action' : Action} {scopes : Scopes}
    (hplace : Placement.Agrees gist source source' place place')
    (h : ∀ limit, Alike (Comparison.upTo gist) Eq
      (fillAction templates (fillPart templates limit) source place scopes action)
      (fillAction templates (fillPart templates limit) source' place' scopes action'))
    (limit : Nat) :
    Alike (Comparison.upTo gist) Eq
      (fillPart templates limit ⟨source, .piece [] place action (.tail [])⟩ scopes)
      (fillPart templates limit ⟨source', .piece [] place' action' (.tail [])⟩ scopes) := by
  cases limit with
  | zero => exact alike_stop rfl
  | succ limit =>
    refine alike_bind (h limit) fun text text' htext => ?_
    refine alike_map (R := Eq) (alike_pure rfl) fun after after' hafter => ?_
    rw [hplace.placeAlike.wrap text text' htext, hafter]

/-- The template of a dotted name belongs to its last component, so it is enough that the two
targets supply what the values of that component are filled with. -/
theorem fillAction_supplied {carried : Option OwnTemplate → Prop} {target target' : Target}
    (hsupplies : target.Supplies templates carried source source' target') (limit dots : Nat)
    (name : Text) (more : List Text) {scopes : Scopes}
    (hplace : Placement.Agrees gist source source' place place')
    (hreaches : ∀ v u, Reaches scopes dots name more v → v.Serves u → carried u.own) :
    Alike (Comparison.upTo gist) Eq
      (fillAction templates (fillPart templates limit) source place scopes
        (.value dots name (.ofLinks more target)))
      (fillAction templates (fillPart templates limit) source' place' scopes
        (.value dots name (.ofLinks more target'))) := by
  induction more generalizing limit dots name place place' scopes with
  | nil =>
    have hspot := spotAlike_of_agrees (Comparison.upTo_through gist) hplace name
    refine alike_bind (resolve_self hspot rfl dots scopes) fun v v' hv => ?_
    obtain ⟨rfl, passed, hfind⟩ := hv
    refine alike_bind (hsupplies place place' name hplace) fun given given' hgiven => ?_
    refine fillValue_self hspot hplace.joining fun u hu => ?_
    refine (hgiven u.own (hreaches v u (.last hfind) hu)).mono fun part part' hpart => ?_
    cases hpart with
    | none => exact .none
    | some hpart =>
      refine .some ((Likeness.same templates gist).fillPart_alike limit _ _ _ _ hpart ?_)
      exact List.forall₂_same.2 fun _ _ => rfl
  | cons other more ih =>
    have hspot := spotAlike_of_agrees (Comparison.upTo_through gist) hplace name
    refine alike_bind (resolve_self hspot rfl dots scopes) fun v v' hv => ?_
    obtain ⟨rfl, passed, hfind⟩ := hv
    -- both sides enter the body of the next component
    refine fillValue_self hspot hplace.joining fun u hu => alike_pure (.some ?_)
    refine fillPart_single hplace.inner (fun limit => ?_) limit
    refine ih limit 0 other hplace.inner fun w u' hw hu' => ?_
    exact hreaches w u' (.next hfind hu hw) hu'

/-- Two sources with a single substitution each, for values of the same name. They give the same
results if all values of that name get the same template. -/
theorem seen_supplied {carried : Option OwnTemplate → Prop} {target target' : Target} {dots : Nat}
    {name : Text} {more : List Text}
    (hsource : (compileSource 0 source).result =
      .ok (.piece [] place (.value dots name (.ofLinks more target)) (.tail [])))
    (hsource' : (compileSource 0 source').result =
      .ok (.piece [] place' (.value dots name (.ofLinks more target')) (.tail [])))
    (hplace : Placement.Agrees gist source source' place place')
    (hsupplies : target.Supplies templates carried source source' target') {data : Provider}
    (hreaches : ∀ root v u, data.Yields root → Reaches [root.core] dots name more v →
      v.Serves u → carried u.own) (limit : Nat) (t : Tally) :
    seen gist (resultOf source limit templates data t) =
      seen gist (resultOf source' limit templates data t) := by
  rw [resultOf_of_compile (compile_of_compileSource hsource),
    resultOf_of_compile (compile_of_compileSource hsource')]
  refine Filling.Alike.through (alike_bind
    (unwrap_self (R := fun u u' => u = u' ∧ data.Yields u) data fun u hu => ⟨rfl, hu⟩)
    fun found found' hfound => ?_) t
  cases hfound with
  | none => exact alike_stop rfl
  | @some root _ hroot =>
    obtain ⟨rfl, hyields⟩ := hroot
    refine fillPart_single hplace (fun limit => ?_) limit
    exact fillAction_supplied hsupplies limit dots name more hplace fun v u hv hu =>
      hreaches root v u hyields hv hu

end

/-! ### The three ways -/

section

variable {templates : TemplateMap} {template : Template} {compiled : Compiled}

/-- Notes are not compared, so that a filling may note the use of a template first and still be
alike one that does not. -/
theorem alike_of_note {α β : Type} {view : SubstitutionError → SubstitutionError}
    {R : α → β → Prop} {p : Filling α} {q : Filling β} (n : Note)
    (h : Alike (Comparison.upTo view) R p q) :
    Alike (Comparison.upTo view) R (note n >>= fun _ => p) q := by
  intro t t' ht
  have hrun := h t t' ht
  exact ⟨hrun.result, trivial, hrun.tally⟩

theorem namedPart_of_get? {name : Text} (hget : templates.get? name = some template)
    (hcompile : template.compile = .ok compiled) (spot : Spot) :
    namedPart templates spot name =
      note (.used (.named name) template) >>= fun _ => pure compiled.part := by
  rw [namedPart, hget]
  simp only [hcompile]
  rfl

theorem ownPart_of_compile {own : OwnTemplate} (hcompile : own.template.compile = .ok compiled) :
    ownPart own = note (.used (.own own.cell) own.template) >>= fun _ => pure compiled.part := by
  rw [ownPart, hcompile]
  rfl

/-- A template resembles itself as an inline template of any source. Only the spans of its
substitutions are moved, and their raw bodies stay the same. -/
theorem partResembles_shift (compiled : Compiled) (source : Text) (k : Nat) :
    PartResembles gist compiled.part ⟨source, compiled.root.shift k⟩ := by
  refine Body.Resembles.moved k (fun _ _ h => h.inner) compiled.root fun place _ => ?_
  exact Placement.agrees_gist rfl rfl rfl

theorem supplies_named {name : Text} (hget : templates.get? name = some template)
    (hcompile : template.compile = .ok compiled) (carried : Option OwnTemplate → Prop)
    (source source' : Text) (k : Nat) :
    (Target.named name).Supplies templates carried source source'
      (.inline (compiled.root.shift k)) := by
  intro place place' other _
  unfold targetPart
  simp only [namedPart_of_get? hget hcompile, map_bind, map_pure]
  refine alike_of_note _ (alike_pure fun own _ => alike_pure (.some ?_))
  exact partResembles_shift compiled source' k

theorem supplies_own (templates : TemplateMap) (compiled : Compiled) (source source' : Text)
    (k : Nat) :
    Target.own.Supplies templates (fun own => ∃ o, own = some o ∧ o.template.compile = .ok compiled)
      source source' (.inline (compiled.root.shift k)) := by
  intro place place' other _
  refine alike_pure fun own hown => ?_
  obtain ⟨o, rfl, hcompile⟩ := hown
  unfold choosePart
  simp only [ownPart_of_compile hcompile, map_bind, map_pure]
  exact alike_of_note _ (alike_pure (.some (partResembles_shift compiled source' k)))

end

/-! ### Heads with and without a data section -/

/-- A body that ends in a template name. There is no brace in the name, and no backslash at its end
that could hide the closing braces. -/
theorem Text.IsWord.isBody {x name : Text} (hname : name.IsWord) (hx : x.Braceless) :
    Text.IsBody (x ++ name) := by
  refine Text.isBody_of_braceless (fun d hd => ?_) fun hlast => ?_
  · rcases List.mem_append.1 hd with hd | hd
    · exact hx d hd
    · exact hname.braceless d hd
  · refine hname.plain.getLast?_ne (by decide : '\\' ∈ _) ?_
    rw [List.getLast?_append] at hlast
    cases hend : name.getLast? with
    | none => exact absurd (List.getLast?_eq_none_iff.1 hend) hname.ne_nil
    | some c => rwa [hend] at hlast

theorem Text.IsOpenHead.isBody_named {pre name : Text} (hpre : pre.IsOpenHead)
    (hname : name.IsWord) :
    Text.IsBody (pre ++ '|' :: name) := by
  have hfront : Text.Braceless (pre ++ ['|']) := by
    intro c hc
    rcases List.mem_append.1 hc with hc | hc
    · exact hpre.braceless c hc
    · obtain rfl := List.mem_singleton.1 hc
      decide
  simpa using hname.isBody hfront

theorem Text.IsOpenHead.isBody_inline {pre source : Text} (hpre : pre.IsOpenHead)
    (hsource : (escapeTail source).IsBody) :
    Text.IsBody (pre ++ '|' :: '!' :: escapeTail source) := by
  have hsplit : pre ++ '|' :: '!' :: escapeTail source =
      (pre ++ ['|', '!']) ++ escapeTail source := by simp
  rw [hsplit, Text.isBody_append_iff (fun c hc => ?_) (by simp)]
  · exact hsource
  · rcases List.mem_append.1 hc with hc | hc
    · exact hpre.braceless c hc
    · simp only [List.mem_cons, List.not_mem_nil, or_false] at hc
      rcases hc with rfl | rfl <;> decide

/-- What a head without data section leads to: the values that the last component of its name stands
for, with the data as the root. -/
def Provider.Leads (data : Provider) (pre : Text) (v : Provider) : Prop :=
  ∃ root, data.Yields root ∧ Reaches [root.core] (Clauses.readHead pre.trimStart).rewind
    (Clauses.readHead pre.trimStart).components.1 (Clauses.readHead pre.trimStart).components.2 v

namespace Clauses

/-- Faults come from the head, unless it is an insertion without data section. So one data section
in place of another changes no fault. -/
theorem fault?_data {head : Clauses} {d d' : Option DataClause}
    (h : head.insert = false ∨ d.isSome = true ∧ d'.isSome = true) :
    fault? { head with data := d } = fault? { head with data := d' } := by
  rcases h with hinsert | ⟨hd, hd'⟩
  · simp [fault?, components, hinsert]
  · simp [fault?, components, hd, hd']

theorem insert_of_fault? {head : Clauses} {d : Option DataClause}
    (h : head.insert = false ∨ d.isSome = true) (hfault : fault? { head with data := d } = none) :
    head.insert = false := by
  rcases h with hinsert | hd
  · exact hinsert
  · by_contra hinsert
    rw [Bool.not_eq_false] at hinsert
    simp [fault?, hinsert, hd] at hfault

end Clauses

/-- The same head with two data sections that supply the same templates. The two sources give the
same result, also if the head has a fault. -/
theorem seen_readWith {templates : TemplateMap} {carried : Option OwnTemplate → Prop}
    {pre raw raw' : Text} {d d' : Option DataClause} {target target' : Target}
    (hraw : raw.IsBody) (hraw' : raw'.IsBody)
    (hread : Directive.read raw = .readWith pre d) (hread' : Directive.read raw' = .readWith pre d')
    (hinsert : (Clauses.readHead pre.trimStart).insert = false ∨ d.isSome = true ∧ d'.isSome = true)
    (htarget : (compileTarget 2 d).result = .ok target)
    (htarget' : (compileTarget 2 d').result = .ok target')
    (hsupplies : target.Supplies templates carried (enclose raw) (enclose raw') target')
    {data : Provider} (hleads : ∀ v u, data.Leads pre v → v.Serves u → carried u.own)
    (limit : Nat) (t : Tally) :
    seen gist (resultOf (enclose raw) limit templates data t) =
      seen gist (resultOf (enclose raw') limit templates data t) := by
  unfold Directive.readWith at hread hread'
  by_cases hcomment : pre.trimStart.head? = some '#'
  · rw [if_pos hcomment] at hread hread'
    have hroot := compileSource_enclose_comment hraw 0 hread
    have hroot' := compileSource_enclose_comment hraw' 0 hread'
    refine seen_fillWithin (compile_of_compileSource hroot) (compile_of_compileSource hroot') ?_ rfl
      templates limit data t
    exact .leaf (Placement.agrees_gist rfl rfl rfl) rfl (.tail [])
  rw [if_neg hcomment] at hread hread'
  generalize hhead : Clauses.readHead pre.trimStart = head at hread hread' hinsert
  have hfaults : ({ head with data := d } : Clauses).fault? =
      ({ head with data := d' } : Clauses).fault? := Clauses.fault?_data hinsert
  cases hfault : ({ head with data := d } : Clauses).fault? with
  | some fault =>
    have herror := compileSource_enclose_fault hraw 0 hread hfault
    have herror' := compileSource_enclose_fault hraw' 0 hread' (hfaults.symm.trans hfault)
    rw [resultOf_of_error (by rw [compile, herror]; rfl),
      resultOf_of_error (by rw [compile, herror']; rfl)]
  | none =>
    have hvalue := Clauses.insert_of_fault? (hinsert.imp_right And.left) hfault
    have hroot := compileSource_enclose hraw hread hfault (.inr ⟨hvalue, target, htarget, rfl⟩)
    have hroot' := compileSource_enclose hraw' hread' (hfaults.symm.trans hfault)
      (.inr ⟨hvalue, target', htarget', rfl⟩)
    refine seen_supplied hroot hroot' (Placement.agrees_gist rfl rfl rfl) hsupplies
      (fun root v u hroot hv hu => hleads v u ⟨root, hroot, ?_⟩ hu) limit t
    rw [hhead]
    exact hv

/-- An insertion alone. It has a name and no other clause, so that the template of this name is all
that it asks for. -/
theorem Directive.read_insert {name : Text} (hname : name.IsWord) :
    Directive.read ('!' :: name) = .substitution ⟨none, true, 0, name, none, none, none⟩ := by
  have hsections (c : Char) (hc : c ∈ name) : c ≠ '|' ∧ c ≠ '%' :=
    ⟨hname.plain.ne hc (by decide), hname.plain.ne hc (by decide)⟩
  have hpre : Text.IsOpenHead ('!' :: name) := by
    refine ⟨fun c hc => ?_, fun c hc => ?_, fun hpercent => ?_⟩
    · rcases List.mem_cons.1 hc with rfl | hc
      · decide
      · exact hname.braceless c hc
    · rcases List.mem_cons.1 hc with rfl | hc
      · decide
      · exact ⟨(hsections c hc).1, hname.plain.ne hc (by decide)⟩
    · rcases List.mem_cons.1 hpercent with hbang | hmem
      · cases hbang
      · exact absurd rfl (hsections '%' hmem).2
  have hpath := takePath_of_plain hsections
  have hstart : Text.trimStart ('!' :: name) = '!' :: name := Text.trimStart_cons (by decide) name
  have hinsert : takeInsert ('!' :: name) = (true, name) := by
    cases name with
    | nil => rfl
    | cons c rest =>
      rw [takeInsert, Text.trimStart_cons (hname.solid c List.mem_cons_self)]
  have hdots : takeDots name = (0, name) := by
    cases name with
    | nil => rfl
    | cons c rest =>
      have hdot : c ≠ '.' := hname.plain.ne List.mem_cons_self (by decide)
      simp [takeDots, hdot]
  have hbefore : takeBeforeMark ('!' :: name) = (none, '!' :: name) := by simp [takeBeforeMark]
  have hjoin : takeJoin [] = (none, []) := rfl
  rw [Directive.read_bare hpre, readWith, hstart, if_neg (by simp), Clauses.readHead]
  simp only [hbefore, hinsert, hdots, hpath, hjoin, hname.trim]

/-- An insertion alone enters the template in the scopes that it stands in. The use of the template
is noted before, and its text is the whole result. -/
theorem fillPart_insert {templates : TemplateMap} {template : Template} {compiled : Compiled}
    {name : Text} (hget : templates.get? name = some template)
    (hcompile : template.compile = .ok compiled) (limit : Nat) (source : Text) (span : Span)
    (joining : Joining) (core : Core) (scopes : Scopes) :
    fillPart templates (limit + 1)
        ⟨source, .piece [] ⟨span, joining, [], []⟩ (.insert 0 name) (.tail [])⟩ (core :: scopes) =
      note (.used (.named name) template) >>= fun _ =>
        fillPart templates limit compiled.part (core :: scopes) := by
  have hwrap (text : Text) : Placement.wrap ⟨span, joining, [], []⟩ text = text := by
    cases text <;> simp [Placement.wrap]
  have hrewind : Scopes.rewind 0 (core :: scopes) = core :: scopes := rfl
  rw [fillPart]
  simp only [fillBody, fillAction, namedPart_of_get? hget hcompile, hrewind, hwrap, bind_assoc,
    pure_bind, List.nil_append, map_pure, List.append_nil, bind_pure]

/-- An insertion alone is filled like the template, which it enters one level further down. So the
template needs one level less to be filled by itself. -/
theorem seen_insert {templates : TemplateMap} {template : Template} {compiled : Compiled}
    {source name : Text} (hname : name.IsWord) (hsource : compile source = .ok compiled)
    (hget : templates.get? name = some template) (hcompile : template.compile = .ok compiled)
    (limit : Nat) (data : Provider) (t : Tally) :
    seen gist (resultOf (enclose ('!' :: name)) (limit + 1) templates data t) =
      seen gist (resultOf source limit templates data t) := by
  have hread := Directive.read_insert hname
  have hfault : Clauses.fault? ⟨none, true, 0, name, none, none, none⟩ = none := by
    simp [Clauses.fault?, hname.ne_nil]
  have hbody : Text.IsBody ('!' :: name) := hname.isBody (by decide : Text.Braceless ['!'])
  have haction : Clauses.Compiles ⟨none, true, 0, name, none, none, none⟩ 0 (.insert 0 name) :=
    .inl ⟨rfl, rfl⟩
  have hroot := compileSource_enclose hbody hread hfault haction
  rw [resultOf_of_compile (compile_of_compileSource hroot), resultOf_of_compile hsource]
  refine Filling.Alike.through (alike_bind (unwrap_self (R := Eq) data fun u _ => rfl)
    fun found found' hfound => ?_) t
  cases hfound with
  | none => exact alike_stop rfl
  | @some root _ hroot =>
    obtain rfl : root = _ := hroot
    have henters := fillPart_insert hget hcompile limit (enclose ('!' :: name))
      (.ofBody ('!' :: name) 0) (Clauses.joining ⟨none, true, 0, name, none, none, none⟩)
      root.core []
    have hscopes : List.Forall₂ Eq [root.core] [root.core] := List.forall₂_same.2 fun _ _ => rfl
    have hpart := (Likeness.same templates gist).fillPart_alike limit compiled.part compiled.part
      [root.core] [root.core] (PartResembles.refl compiled.part) hscopes
    have hnoted := alike_of_note (.used (.named name) template) hpart
    rw [← henters] at hnoted
    exact hnoted

/-! ### One template, three ways -/

/-- The names of a head lead only to values that carry a template with this compiled form. No other
template is then ever chosen for them. -/
def Provider.Carries (data : Provider) (pre : Text) (compiled : Compiled) : Prop :=
  ∀ v u, data.Leads pre v → v.Serves u →
    ∃ own, u.own = some own ∧ own.template.compile = .ok compiled

/-- A template under a name, the same template written inline and the same template carried by the
values give the same text, or errors of the same kind and name. Where braces follow, the template
and the head must not end in a character that pairs with them. -/
theorem fillWithin_supply {pre source : Text} {compiled : Compiled} (hpre : pre.IsOpenHead)
    (hsource : compile source = .ok compiled)
    (hlast : ∀ c, (Lexeme.readAll source).getLast? = some (.plain c) → c ≠ '\\' ∧ c ≠ '}')
    (templates : TemplateMap) (limit : Nat) (data : Provider) (t : Tally) :
    (∀ name template, name.IsWord → templates.get? name = some template →
      template.compile = .ok compiled →
      seen gist (resultOf (enclose (pre ++ '|' :: name)) limit templates data t) =
        seen gist (resultOf (enclose (pre ++ '|' :: '!' :: escapeTail source)) limit templates
          data t) ∧
      seen gist (resultOf (enclose ('!' :: name)) (limit + 1) templates data t) =
        seen gist (resultOf source limit templates data t)) ∧
    ((Clauses.readHead pre.trimStart).insert = false → pre.getLast? ≠ some '\\' →
      data.Carries pre compiled →
      seen gist (resultOf (enclose pre) limit templates data t) =
        seen gist (resultOf (enclose (pre ++ '|' :: '!' :: escapeTail source)) limit templates
          data t)) := by
  have hroot := (compile_eq_ok.1 hsource).2
  have hinline := hpre.isBody_inline
    (isBody_escapeTail (Lexeme.openAfter_of_ofLexemes (whole_of_compileSource hroot)) hlast)
  obtain ⟨offset, hread⟩ := Directive.read_inline hpre source
  have htarget : (compileTarget 2 (some (.inline source offset))).result =
      .ok (.inline (compiled.root.shift (2 + offset))) :=
    compileTarget_inline_eq_ok.2 ⟨compiled.root, hroot, rfl⟩
  constructor
  · intro name template hname hget hcompile
    refine ⟨?_, seen_insert hname hsource hget hcompile limit data t⟩
    have hnamed : (compileTarget 2 (some (.named name))).result = .ok (.named name) := by
      obtain ⟨c, rest, rfl⟩ := List.exists_cons_of_ne_nil hname.ne_nil
      rw [compileTarget]
      · rfl
      · simp
    exact seen_readWith (hpre.isBody_named hname) hinline (Directive.read_named hpre hname) hread
      (.inr ⟨rfl, rfl⟩) hnamed htarget (supplies_named hget hcompile (fun _ => True) _ _ _)
      (fun _ _ _ _ => trivial) limit t
  · intro hinsert hend hcarries
    have hown : (compileTarget 2 none).result = .ok .own := by
      rw [compileTarget]
      rfl
    exact seen_readWith (Text.isBody_of_braceless hpre.braceless hend) hinline
      (Directive.read_bare hpre) hread (.inl hinsert) hown htarget
      (supplies_own templates compiled _ _ _) hcarries limit t

/-- A template that is written with a backslash as an inline template, because it ends in what would
be a closing marker there. -/
def bracketed : Text := ['[', '{', '{', 'b', '}', '}', '>']

/-- A sequence whose elements carry a template. Each of them could be filled without any data
section. -/
def bracketedList : Provider :=
  .map none [(['a'], .sequence [.map (some ⟨0, Template.new bracketed⟩) [(['b'], .scalar ['1'])],
    .pointer (.map (some ⟨0, Template.new bracketed⟩) [(['b'], .scalar ['2'])])])]

def bracketedMap : TemplateMap :=
  .ofList [(['t'], Template.new bracketed)]

theorem carries_bracketedList {compiled : Compiled} (h : compile bracketed = .ok compiled) :
    bracketedList.Carries ['<', 'a', '%', ','] compiled := by
  rintro v u ⟨root, ⟨t, hroot⟩, hreaches⟩ hserves
  obtain rfl := Option.some.inj hroot
  have hhead : Clauses.readHead (Text.trimStart ['<', 'a', '%', ',']) =
      ⟨some .line, false, 0, ['a'], some ⟨false, [',']⟩, none, none⟩ := by
    rfl
  have hcomponents : Clauses.components
      ⟨some .line, false, 0, ['a'], some ⟨false, [',']⟩, none, none⟩ = (['a'], []) := by
    rfl
  rw [hhead, hcomponents] at hreaches
  cases hreaches with
  | last hfind =>
    cases hfind
    cases hserves with
    | alone hyields hne =>
      obtain ⟨t, hyields⟩ := hyields
      obtain rfl := Option.some.inj hyields
      exact absurd rfl (hne _)
    | element hyields hitem hyields' =>
      obtain ⟨t, hyields⟩ := hyields
      obtain ⟨t', hyields'⟩ := hyields'
      cases hyields
      refine ⟨⟨0, Template.new bracketed⟩, ?_, h⟩
      rcases List.mem_pair.1 hitem with rfl | rfl
      · obtain rfl := Option.some.inj hyields'
        rfl
      · obtain rfl := Option.some.inj hyields'
        rfl

/-- Each element is put in brackets, wherever the brackets are written: under a name, inline, or
with the elements. -/
theorem fillWithin_supply_list :
    (seen gist (resultOf (enclose (['<', 'a', '%', ','] ++ '|' :: ['t'])) 9 bracketedMap
          bracketedList .empty) =
        seen gist (resultOf (enclose (['<', 'a', '%', ','] ++ '|' :: '!' :: escapeTail bracketed))
          9 bracketedMap bracketedList .empty) ∧
      seen gist (resultOf (enclose ('!' :: ['t'])) 10 bracketedMap bracketedList .empty) =
        seen gist (resultOf bracketed 9 bracketedMap bracketedList .empty)) ∧
    seen gist (resultOf (enclose ['<', 'a', '%', ',']) 9 bracketedMap bracketedList .empty) =
      seen gist (resultOf (enclose (['<', 'a', '%', ','] ++ '|' :: '!' :: escapeTail bracketed))
        9 bracketedMap bracketedList .empty) := by
  have hpre : Text.IsOpenHead ['<', 'a', '%', ','] := by
    refine ⟨by decide, by simp, fun _ c hc => ?_⟩
    obtain rfl : ',' = c := Option.some.inj hc
    decide
  have hname : Text.IsWord ['t'] := by
    refine ⟨by decide, fun c hc => ?_, by decide⟩
    obtain rfl := List.mem_singleton.1 hc
    decide
  have hlast : ∀ c, (Lexeme.readAll bracketed).getLast? = some (.plain c) → c ≠ '\\' ∧ c ≠ '}' := by
    intro c hc
    have hread : (Lexeme.readAll bracketed).getLast? = some (.plain '>') := by rfl
    obtain rfl : '>' = c := by simpa [hread] using hc
    decide
  have hinsert : (Clauses.readHead (Text.trimStart ['<', 'a', '%', ','])).insert = false := by rfl
  have hcompile : (compile bracketed).toOption.isSome = true := by decide +kernel
  obtain ⟨compiled, hcompile⟩ := exists_compile hcompile
  obtain ⟨hnamed, hcarried⟩ := fillWithin_supply hpre hcompile hlast bracketedMap 9 bracketedList
    .empty
  exact ⟨hnamed ['t'] (Template.new bracketed) hname rfl hcompile,
    hcarried hinsert (by decide) (carries_bracketedList hcompile)⟩

/-- A name that ends in a backslash is a name before a data section only: without one, the backslash
belongs to the braces after it. -/
theorem fillWithin_supply_backslash :
    Text.IsOpenHead ['a', '\\'] ∧
      (Clauses.readHead (Text.trimStart ['a', '\\'])).insert = false ∧
      compile ['x'] = .ok ⟨['x'], .tail ['x']⟩ ∧
      (Provider.map none [(['a', '\\'], .map (some ⟨0, Template.new ['x']⟩) [])]).Carries
        ['a', '\\'] ⟨['x'], .tail ['x']⟩ ∧
      resultOf (enclose ['a', '\\']) 9 .empty
          (.map none [(['a', '\\'], .map (some ⟨0, Template.new ['x']⟩) [])]) .empty =
          .error (.failed (.malformed ⟨.unclosed, 0⟩)) ∧
      resultOf (enclose (['a', '\\'] ++ '|' :: '!' :: escapeTail ['x'])) 9 .empty
          (.map none [(['a', '\\'], .map (some ⟨0, Template.new ['x']⟩) [])]) .empty =
          .ok ['x'] := by
  have hcompile : compile ['x'] = .ok ⟨['x'], .tail ['x']⟩ := by
    apply compile_of_compileSource
    rw [compileSource, (Outline.ofSource_plain (by decide) 0).1, compileOutline]
    rfl
  refine ⟨⟨by decide, by simp, by simp⟩, by rfl, hcompile, ?_, by decide +kernel, by decide +kernel⟩
  rintro v u ⟨root, ⟨t, hroot⟩, hreaches⟩ hserves
  obtain rfl := Option.some.inj hroot
  have hhead : Clauses.readHead (Text.trimStart ['a', '\\']) =
      ⟨none, false, 0, ['a', '\\'], none, none, none⟩ := by
    rfl
  have hcomponents : Clauses.components ⟨none, false, 0, ['a', '\\'], none, none, none⟩ =
      (['a', '\\'], []) := by
    rfl
  rw [hhead, hcomponents] at hreaches
  cases hreaches with
  | last hfind =>
    cases hfind
    cases hserves with
    | alone hyields _ =>
      obtain ⟨t, hyields⟩ := hyields
      obtain rfl := Option.some.inj hyields
      exact ⟨_, rfl, hcompile⟩
    | element hyields _ _ =>
      obtain ⟨t, hyields⟩ := hyields
      cases hyields

end Stencil
