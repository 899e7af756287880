import Mathlib
import Stencil.Proofs.Introspection
import Stencil.Proofs.Levels

/-!
# Termination

A name may lead back to a scope further out, so the data gets no smaller from one level to the next.
What gets smaller is the part: a level either enters a body inside its own body, or a template that
is not yet on the path. Without circles among the references no template is twice on a path, so the
depth of all templates together bounds the number of parts entered at the same time. From this bound
on a greater limit changes nothing.
-/
namespace Stencil

/-! ### Greater limits -/

namespace Filling

variable {α β : Type} {p q r : Filling α}

/-- Both fillings do the same, unless the first one is cut off by its limit. Nothing is said about
the second one in that case. -/
def Refines (p q : Filling α) : Prop :=
  ∀ t, (p.run t).result = .error .tooDeep ∨ q.run t = p.run t

theorem Refines.refl (p : Filling α) : p.Refines p :=
  fun _ => .inr rfl

theorem refines_tooDeep (q : Filling α) : (stop .tooDeep).Refines q :=
  fun _ => .inl rfl

theorem Refines.bind {next next' : α → Filling β} (h : p.Refines q)
    (hnext : ∀ a, (next a).Refines (next' a)) : (p >>= next).Refines (q >>= next') := by
  intro t
  rw [run_bind, run_bind]
  rcases h t with hdeep | hsame
  · rw [hdeep]
    exact .inl rfl
  · rw [hsame]
    cases (p.run t).result with
    | error reason => exact .inr rfl
    | ok a =>
      refine (hnext a (p.run t).tally).imp id fun hrest => ?_
      dsimp only
      rw [hrest]

theorem Refines.map {f : α → β} (h : p.Refines q) : (f <$> p).Refines (f <$> q) := by
  rw [map_eq_bind, map_eq_bind]
  exact h.bind fun _ => .refl _

theorem Refines.eq {t : Tally} (h : p.Refines q) (hp : ¬ p.Stops .tooDeep) : q.run t = p.run t :=
  (h t).resolve_left fun hdeep => hp ⟨t, hdeep⟩

end Filling

open Filling

section

variable {enter enter' : Enter} {spot : Spot} {given : Option Part} {scopes : Scopes}

theorem fillElement_refines (h : ∀ part scopes, (enter part scopes).Refines (enter' part scopes))
    (item : Provider) :
    (fillElement enter spot given scopes item).Refines
      (fillElement enter' spot given scopes item) := by
  refine (Refines.refl _).bind fun found => ?_
  cases found with
  | none => exact .refl _
  | some u =>
    refine (Refines.refl _).bind fun part => ?_
    cases part with
    | none => exact .refl _
    | some part => exact h part _

theorem fillElements_refines (h : ∀ part scopes, (enter part scopes).Refines (enter' part scopes))
    (items : List Provider) :
    (fillElements enter spot given scopes items).Refines
      (fillElements enter' spot given scopes items) := by
  induction items with
  | nil => exact .refl _
  | cons item rest ih => exact (fillElement_refines h item).bind fun _ => ih.map

theorem fillValue_refines (h : ∀ part scopes, (enter part scopes).Refines (enter' part scopes))
    (v : Provider) :
    (fillValue enter spot given scopes v).Refines (fillValue enter' spot given scopes v) := by
  refine (Refines.refl _).bind fun found => ?_
  match found with
  | none => exact .refl _
  | some ⟨.scalar text, own⟩ | some ⟨.map inner entries, own⟩ =>
    refine (Refines.refl _).bind fun part => ?_
    cases part with
    | none => exact .refl _
    | some part => exact h part _
  | some ⟨.sequence items, own⟩ => exact (fillElements_refines h items).map

variable {templates : TemplateMap} {source : Text}

theorem fillAction_refines (h : ∀ part scopes, (enter part scopes).Refines (enter' part scopes))
    (place : Placement) (action : Action) :
    (fillAction templates enter source place scopes action).Refines
      (fillAction templates enter' source place scopes action) := by
  cases action with
  | comment => exact .refl _
  | insert rewind name =>
    refine (Refines.refl _).bind fun part => ?_
    cases scopes.rewind rewind with
    | nil => exact .refl _
    | cons scope outer => exact h part _
  | value rewind name target =>
    refine (Refines.refl _).bind fun v => ?_
    exact (Refines.refl _).bind fun given => fillValue_refines h v

theorem fillBody_refines (h : ∀ part scopes, (enter part scopes).Refines (enter' part scopes))
    (body : Body) : (fillBody templates enter source scopes body).Refines
      (fillBody templates enter' source scopes body) := by
  cases body with
  | tail _ => exact .refl _
  | piece _ place action rest =>
    exact (fillAction_refines h place action).bind fun _ => (fillBody_refines h rest).map

end

/-- Under a greater limit a fill does the same, unless it was cut off. A result that is not cut off
is thus the result for all limits from there on. -/
theorem fillPart_refines (templates : TemplateMap) {limit limit' : Nat} (hle : limit ≤ limit')
    (part : Part) (scopes : Scopes) :
    (fillPart templates limit part scopes).Refines (fillPart templates limit' part scopes) := by
  induction limit generalizing limit' part scopes with
  | zero => exact refines_tooDeep _
  | succ limit ih =>
    obtain ⟨more, rfl⟩ : ∃ more, limit' = more + 1 := ⟨limit' - 1, by omega⟩
    exact fillBody_refines (fun part scopes => ih (by omega) part scopes) part.body

theorem fillRoot_refines (templates : TemplateMap) {limit limit' : Nat} (hle : limit ≤ limit')
    (compiled : Compiled) (data : Provider) :
    (fillRoot templates limit compiled data).Refines
      (fillRoot templates limit' compiled data) := by
  refine (Refines.refl _).bind fun found => ?_
  cases found with
  | none => exact .refl _
  | some root => exact fillPart_refines templates hle _ _

/-! ### The depth of a template -/

mutual

/-- How many bodies of a template are at most entered at the same time, this one included. Templates
that are referred to by name do not count. -/
def Body.depth : Body → Nat
  | .tail _ => 1
  | .piece _ _ action rest => max (action.depth + 1) rest.depth

def Action.depth : Action → Nat
  | .comment => 0
  | .insert _ _ => 0
  | .value _ _ target => target.depth

def Target.depth : Target → Nat
  | .own => 0
  | .named _ => 0
  | .inline body => body.depth
  | .link _ target => target.depth + 1

end

def Template.depth (template : Template) : Nat :=
  (template.compile.toOption.map fun compiled => compiled.root.depth).getD 0

namespace TemplateMap

/-- The depth of the templates that are not yet visited, taken together. It bounds what the
references can still add to a path. -/
def depthBeyond (templates : TemplateMap) (visited : List Text) : Nat :=
  ((templates.entries.filter fun entry => entry.1 ∉ visited).map fun entry => entry.2.depth).sum

def depth (templates : TemplateMap) : Nat :=
  templates.depthBeyond []

/-- The template of the first name refers to the second one, at any depth of its body. It has to be
in the map and to compile. -/
def Links (templates : TemplateMap) (name next : Text) : Prop :=
  ∃ template inner, templates.get? name = some template ∧ template.compile = .ok inner ∧
    next ∈ inner.arena.references

/-- A template leaves the sum when it is visited. What it needs itself can then be added to what is
left of the sum. -/
theorem depthBeyond_cons {templates : TemplateMap} {name : Text} {template : Template}
    (hget : templates.get? name = some template) {visited : List Text} (hname : name ∉ visited) :
    template.depth + templates.depthBeyond (name :: visited) ≤ templates.depthBeyond visited := by
  have hmem := mem_of_get? hget
  unfold depthBeyond
  generalize templates.entries = entries at hmem
  have hrest (entries : List (Text × Template)) :
      ((entries.filter fun entry => entry.1 ∉ name :: visited).map fun entry => entry.2.depth).sum ≤
        ((entries.filter fun entry => entry.1 ∉ visited).map fun entry => entry.2.depth).sum := by
    have hsublist := List.monotone_filter_right entries
      (p := fun entry => entry.1 ∉ name :: visited) (q := fun entry => entry.1 ∉ visited)
      fun entry hentry => by
        simp only [List.mem_cons, not_or, decide_eq_true_eq] at hentry ⊢
        exact hentry.2
    exact (hsublist.map _).sum_le_sum fun _ _ => Nat.zero_le _
  obtain ⟨before, after, rfl⟩ := List.append_of_mem hmem
  have hbefore := hrest before
  have hafter := hrest after
  simp only [List.filter_append, List.map_append, List.sum_append]
  rw [List.filter_cons_of_neg (by simp), List.filter_cons_of_pos (by simpa using hname)]
  simp only [List.map_cons, List.sum_cons]
  omega

end TemplateMap

theorem Body.depth_pos (body : Body) : 0 < body.depth := by
  cases body with
  | tail _ => exact Nat.one_pos
  | piece _ _ _ rest => exact lt_of_lt_of_le rest.depth_pos (le_max_right _ _)

namespace Body

theorem depth_of_mem_pieces {body : Body} {piece : Body.Piece} (h : piece ∈ body.pieces) :
    piece.action.depth < body.depth := by
  match body with
  | .tail _ => cases h
  | .piece _ _ action rest =>
    rcases List.mem_cons.1 h with rfl | hrest
    · exact le_max_left (action.depth + 1) rest.depth
    · exact lt_of_lt_of_le (depth_of_mem_pieces hrest) (le_max_right (action.depth + 1) rest.depth)

theorem references_of_mem_pieces {body : Body} {piece : Body.Piece} (h : piece ∈ body.pieces) :
    piece.action.references ⊆ body.references := by
  match body with
  | .tail _ => cases h
  | .piece _ _ action rest =>
    rcases List.mem_cons.1 h with rfl | hrest
    · exact List.subset_append_left action.references rest.references
    · exact fun name hname => List.mem_append_right _ (references_of_mem_pieces hrest hname)

end Body

/-! ### No circles -/

/-- Without own templates, a value is filled into a body inside the substitution or into a template
of the map that the substitution refers to. -/
theorem Target.Chooses.inner_or_named {templates : TemplateMap} {source : Text} {place : Placement}
    {target : Target} {part : Part} (h : target.Chooses templates source place none part) :
    (part.body.depth ≤ target.depth ∧ part.body.references ⊆ target.references) ∨
      ∃ name template compiled, name ∈ target.references ∧ templates.get? name = some template ∧
        template.compile = .ok compiled ∧ part = compiled.part := by
  cases h with
  | named hget hcompile =>
    exact .inr ⟨_, _, _, List.mem_singleton_self _, hget, hcompile, rfl⟩
  | inline => exact .inl ⟨le_rfl, fun _ hname => hname⟩
  | link =>
    refine .inl ⟨?_, fun name hname => ?_⟩
    · simp [Body.ofLink, Body.depth, Action.depth, Target.depth]
    · simpa [Body.ofLink, Body.references, Action.references, Target.references] using hname

theorem Action.Enters.inner_or_named {templates : TemplateMap} {source : Text} {place : Placement}
    {scopes : Scopes} {action : Action} {level : Level}
    (h : action.Enters templates source place scopes level) (howns : scopes.OwnsIn []) :
    (level.part.body.depth ≤ action.depth ∧ level.part.body.references ⊆ action.references) ∨
      ∃ name template compiled, name ∈ action.references ∧ templates.get? name = some template ∧
        template.compile = .ok compiled ∧ level.part = compiled.part := by
  cases h with
  | insert hget hcompile _ =>
    exact .inr ⟨_, _, _, List.mem_singleton_self _, hget, hcompile, rfl⟩
  | @value _ _ _ _ _ u _ hfind hserves hchooses =>
    have hown : u.own = none :=
      Option.eq_none_iff_forall_not_mem.2 fun own hown =>
        List.not_mem_nil ((howns.serves hfind hserves).own own hown)
    rw [hown] at hchooses
    exact hchooses.inner_or_named

open Relation

/-- No chain of references that starts in a template comes back to a name that it has passed.
Templates that it does not reach may refer to themselves. -/
def Compiled.Acyclic (templates : TemplateMap) (compiled : Compiled) : Prop :=
  ∀ name, compiled.Refers templates name → ¬ TransGen templates.Links name name

/-- A level that is entered after the visited templates, with room for `room` levels from there on.
All visited names lead to the names that its body refers to. -/
structure Level.Fits (templates : TemplateMap) (compiled : Compiled) (visited : List Text)
    (room : Nat) (level : Level) : Prop where
  owns : level.scopes.OwnsIn []
  refers : ∀ name ∈ level.part.body.references, compiled.Refers templates name
  links : ∀ name ∈ level.part.body.references, ∀ first ∈ visited,
    TransGen templates.Links first name
  depth : level.part.body.depth + templates.depthBeyond visited ≤ room

namespace Level

variable {templates : TemplateMap} {compiled : Compiled} {visited : List Text} {room : Nat}
  {level inner : Level}

theorem Fits.calls (hacyclic : compiled.Acyclic templates)
    (h : level.Fits templates compiled visited (room + 1)) (hcalls : level.Calls templates inner) :
    ∃ visited', inner.Fits templates compiled visited' room := by
  obtain ⟨piece, hpiece, henters⟩ := hcalls
  have hdepth := Body.depth_of_mem_pieces hpiece
  have hreferences := Body.references_of_mem_pieces hpiece
  have hroom := h.depth
  rcases henters.inner_or_named h.owns with ⟨hinner, hsubset⟩ |
    ⟨name, template, other, hname, hget, hcompile, hpart⟩
  · have hnames := fun name hname => hreferences (hsubset (a := name) hname)
    exact ⟨visited, h.owns.enters henters, fun name hname => h.refers name (hnames name hname),
      fun name hname => h.links name (hnames name hname), by omega⟩
  · -- a visited template would lead back to itself
    have hrefers := h.refers name (hreferences hname)
    have hnew : name ∉ visited := fun hmem =>
      hacyclic name hrefers (h.links name (hreferences hname) name hmem)
    have hother : template.depth = other.root.depth := by
      rw [Template.depth, hcompile]
      rfl
    have hsum := TemplateMap.depthBeyond_cons hget hnew
    have hpos := level.part.body.depth_pos
    have harena : inner.part.body.references = other.arena.references := by
      rw [hpart, other.lists_arena.references]
      rfl
    have hlink : ∀ next ∈ inner.part.body.references, templates.Links name next :=
      fun next hnext => ⟨template, other, hget, hcompile, harena ▸ hnext⟩
    have hroot : inner.part.body.depth = other.root.depth := by rw [hpart]; rfl
    refine ⟨name :: visited, h.owns.enters henters, fun next hnext => ?_,
      fun next hnext first hfirst => ?_, by omega⟩
    · exact .through hrefers hget hcompile (harena ▸ hnext)
    · rcases List.mem_cons.1 hfirst with rfl | hfirst
      · exact .single (hlink next hnext)
      · exact (h.links name (hreferences hname) first hfirst).tail (hlink next hnext)

/-- A level with enough room is not cut off. Each level that it calls fits as well, with one level
less of room. -/
theorem Fits.not_stops (hacyclic : compiled.Acyclic templates)
    (h : level.Fits templates compiled visited room) :
    ¬ (fillPart templates room level.part level.scopes).Stops .tooDeep := by
  induction room generalizing visited level with
  | zero =>
    have hpos := level.part.body.depth_pos
    have hroom := h.depth
    omega
  | succ room ih =>
    intro hstops
    rcases stops_step hstops with ⟨e, he, -⟩ | ⟨inner, hcalls, hstops⟩
    · cases he
    · obtain ⟨visited', hinner⟩ := h.calls hacyclic hcalls
      exact ih hinner hstops

end Level

/-! ### The bound -/

/-- At most this many parts are entered at the same time if no references go in a circle: the bodies
of the template and those of all templates in the map. -/
def Compiled.depthOver (templates : TemplateMap) (compiled : Compiled) : Nat :=
  compiled.root.depth + templates.depth

theorem Compiled.Acyclic.not_stops {templates : TemplateMap} {compiled : Compiled}
    (hacyclic : compiled.Acyclic templates) {data : Provider} (howns : data.owns = []) :
    ¬ (fillRoot templates (compiled.depthOver templates) compiled data).Stops .tooDeep := by
  intro hstops
  obtain ⟨t, hstops⟩ := stops_unwrap_bind hstops
  cases hroot : (data.unwrap t).1 with
  | none =>
    rw [hroot] at hstops
    cases eq_of_stops_stop hstops
  | some root =>
    rw [hroot] at hstops
    have hcore := (data.ownsIn_unwrap t root hroot).core
    rw [howns] at hcore
    have hfits : Level.Fits templates compiled [] (compiled.depthOver templates)
        ⟨compiled.part, [root.core]⟩ := by
      refine ⟨List.forall_mem_singleton.2 hcore, fun name hname => .direct ?_,
        fun _ _ _ hfirst => absurd hfirst List.not_mem_nil, le_rfl⟩
      rw [compiled.lists_arena.references]
      exact hname
    exact hfits.not_stops hacyclic hstops

/-- Without own templates in the data and without circles among the references, every fill ends
with a text or an error. It is the same for all limits from the bound on. -/
theorem fillWithin_terminates {template : Template} {compiled : Compiled} {templates : TemplateMap}
    (h : template.compile = .ok compiled) (hacyclic : compiled.Acyclic templates) {data : Provider}
    (howns : data.owns = []) {limit : Nat} (hlimit : compiled.depthOver templates ≤ limit)
    (t : Tally) :
    ((∃ text, ((template.fillWithin limit templates data).run t).result = .ok text) ∨
      ∃ e, ((template.fillWithin limit templates data).run t).result = .error (.failed e)) ∧
    (template.fillWithin limit templates data).run t =
      (template.fillWithin (compiled.depthOver templates) templates data).run t := by
  have hbound := hacyclic.not_stops howns
  have hsame : (fillRoot templates limit compiled data).run t =
      (fillRoot templates (compiled.depthOver templates) compiled data).run t :=
    (fillRoot_refines templates hlimit compiled data).eq hbound
  rw [Template.fillWithin_of_compile h, Template.fillWithin_of_compile h]
  refine ⟨?_, hsame⟩
  rw [hsame]
  cases hresult : ((fillRoot templates (compiled.depthOver templates) compiled data).run t).result
    with
  | ok text => exact .inl ⟨text, rfl⟩
  | error s =>
    cases s with
    | failed e => exact .inr ⟨e, rfl⟩
    | tooDeep => exact absurd ⟨t, hresult⟩ hbound

/-- There is no circle where every reference leads to a smaller rank. Such a rank is what a caller
gives to show that a map has none. -/
theorem Compiled.acyclic_of_rank {templates : TemplateMap} (rank : Text → Nat)
    (h : ∀ name next, templates.Links name next → rank next < rank name) (compiled : Compiled) :
    compiled.Acyclic templates := by
  have hpath : ∀ name next, TransGen templates.Links name next → rank next < rank name := by
    intro name next hpath
    induction hpath with
    | single hlink => exact h _ _ hlink
    | tail _ hlink ih => exact (h _ _ hlink).trans ih
  exact fun name _ hcircle => absurd (hpath name name hcircle) (lt_irrefl _)

/-- Two templates for the same element, because the empty name stands for the element itself. The
data gets no smaller there. -/
def nestedTemplates : TemplateMap :=
  .ofList [(['r'], .new "(\x7b\x7b|s\x7d\x7d)".toList), (['s'], .new "\x7b\x7by\x7d\x7d".toList)]

def nestedTemplate : Template :=
  .new "\x7b\x7bx|r\x7d\x7d".toList

theorem fillWithin_terminates_nested :
    ∃ compiled, nestedTemplate.compile = .ok compiled ∧
      compiled.Acyclic nestedTemplates ∧ elementData.owns = [] ∧
      compiled.depthOver nestedTemplates ≤ 9 ∧
      ((∃ text, ((nestedTemplate.fillWithin 9 nestedTemplates elementData).run .empty).result =
          .ok text) ∨
        ∃ e, ((nestedTemplate.fillWithin 9 nestedTemplates elementData).run .empty).result =
          .error (.failed e)) ∧
      (nestedTemplate.fillWithin 9 nestedTemplates elementData).run .empty =
        (nestedTemplate.fillWithin (compiled.depthOver nestedTemplates) nestedTemplates
          elementData).run .empty := by
  have hdepth : ((compile nestedTemplate.source).toOption.map fun compiled =>
      compiled.depthOver nestedTemplates) = some 3 := by
    decide +kernel
  have hranks : (nestedTemplates.entries.all fun entry =>
      (entry.2.compile.toOption.map fun inner => inner.arena.references.all fun next =>
        (if next = ['r'] then 1 else 0) < if entry.1 = ['r'] then 1 else 0).getD true) = true := by
    decide +kernel
  have hsome : (compile nestedTemplate.source).toOption.isSome = true := by decide +kernel
  obtain ⟨compiled, h⟩ := exists_compile hsome
  have hcompile : nestedTemplate.compile = .ok compiled := h
  have hacyclic : compiled.Acyclic nestedTemplates := by
    refine Compiled.acyclic_of_rank (fun name => if name = ['r'] then 1 else 0) ?_ compiled
    rintro name next ⟨template, inner, hget, hinner, hnext⟩
    have hentry := List.all_eq_true.1 hranks _ (TemplateMap.mem_of_get? hget)
    rw [hinner] at hentry
    exact of_decide_eq_true (List.all_eq_true.1 hentry next hnext)
  have hbound : compiled.depthOver nestedTemplates ≤ 9 := by
    rw [h] at hdepth
    have hthree : compiled.depthOver nestedTemplates = 3 := Option.some.inj hdepth
    omega
  exact ⟨compiled, hcompile, hacyclic, rfl, hbound,
    fillWithin_terminates hcompile hacyclic rfl hbound .empty⟩

end Stencil
