import Stencil.Template

/-!
# Template maps

A template map holds templates by name. The entries are in the order of their names, so two
maps with the same entries are equal and a walk over a map has one possible order.
-/
namespace Stencil

theorem lookup_entry {α : Type} (key first : Text) (old : α) (rest : List (Text × α)) :
    ((first, old) :: rest).lookup key = if key = first then some old else rest.lookup key := by
  by_cases h : key = first
  · simp [h]
  · rw [List.lookup_cons, beq_eq_false_iff_ne.2 h, if_neg h]

structure TemplateMap where
  entries : List (Text × Template)
  sorted : entries.Pairwise fun a b => a.1 < b.1

namespace TemplateMap

def empty : TemplateMap := ⟨[], .nil⟩

/-- Puts an entry in its place, and instead of one with the same name, so that the names stay in
ascending order. -/
def insertEntry (name : Text) (template : Template) :
    List (Text × Template) → List (Text × Template)
  | [] => [(name, template)]
  | (key, old) :: rest =>
    if name < key then (name, template) :: (key, old) :: rest
    else if name = key then (name, template) :: rest
    else (key, old) :: insertEntry name template rest

theorem mem_insertEntry {name : Text} {template : Template} {entries : List (Text × Template)}
    {entry : Text × Template} (h : entry ∈ insertEntry name template entries) :
    entry = (name, template) ∨ entry ∈ entries := by
  induction entries with
  | nil => simpa [insertEntry] using h
  | cons head rest ih =>
    unfold insertEntry at h
    split at h
    · simpa using h
    split at h
    · rcases List.mem_cons.1 h with h | h
      · exact .inl h
      · exact .inr (List.mem_cons_of_mem _ h)
    · rcases List.mem_cons.1 h with h | h
      · exact .inr (h ▸ List.mem_cons_self)
      · exact (ih h).imp_right (List.mem_cons_of_mem _)

theorem sorted_insertEntry (name : Text) (template : Template)
    {entries : List (Text × Template)} (h : entries.Pairwise fun a b => a.1 < b.1) :
    (insertEntry name template entries).Pairwise fun a b => a.1 < b.1 := by
  induction entries with
  | nil => exact List.pairwise_singleton _ _
  | cons head rest ih =>
    obtain ⟨hhead, hrest⟩ := List.pairwise_cons.1 h
    unfold insertEntry
    split
    · rename_i hlt
      refine List.pairwise_cons.2 ⟨fun entry hmem => ?_, h⟩
      rcases List.mem_cons.1 hmem with rfl | hmem
      · exact hlt
      · exact List.lt_trans hlt (hhead entry hmem)
    split
    · rename_i heq
      exact List.pairwise_cons.2 ⟨fun entry hmem => heq ▸ hhead entry hmem, hrest⟩
    · rename_i hlt hne
      refine List.pairwise_cons.2 ⟨fun entry hmem => ?_, ih hrest⟩
      rcases mem_insertEntry hmem with rfl | hmem
      · exact Decidable.byContradiction fun hge => hne (List.le_antisymm hge hlt)
      · exact hhead entry hmem

def insert (templates : TemplateMap) (name : Text) (template : Template) : TemplateMap :=
  ⟨insertEntry name template templates.entries, sorted_insertEntry name template templates.sorted⟩

/-- Inserts one entry after another: a later one replaces an earlier one of the same name. -/
def extend (templates : TemplateMap) (entries : List (Text × Template)) : TemplateMap :=
  entries.foldl (fun map entry => map.insert entry.1 entry.2) templates

def ofList (entries : List (Text × Template)) : TemplateMap :=
  empty.extend entries

def get? (templates : TemplateMap) (name : Text) : Option Template :=
  templates.entries.lookup name

theorem mem_of_get? {templates : TemplateMap} {name : Text} {template : Template}
    (h : templates.get? name = some template) : (name, template) ∈ templates.entries := by
  obtain ⟨before, after, hentries, -⟩ := List.lookup_eq_some_iff.1 h
  rw [hentries]
  exact List.mem_append_right _ List.mem_cons_self

theorem lookup_insertEntry (name key : Text) (template : Template)
    (entries : List (Text × Template)) :
    (insertEntry name template entries).lookup key =
      if key = name then some template else entries.lookup key := by
  induction entries with
  | nil => exact lookup_entry key name template []
  | cons head rest ih =>
    obtain ⟨first, old⟩ := head
    unfold insertEntry
    split
    · exact lookup_entry key name template _
    split
    · rename_i heq
      subst heq
      rw [lookup_entry, lookup_entry]
      split <;> rfl
    · rename_i hne
      rw [lookup_entry, lookup_entry, ih]
      by_cases h : key = first
      · rw [if_pos h, if_pos h, if_neg (h ▸ Ne.symm hne)]
      · rw [if_neg h, if_neg h]

/-- The last insertion under a name is the one that is found, and other names are as they were. -/
@[simp] theorem get?_insert (templates : TemplateMap) (name key : Text) (template : Template) :
    (templates.insert name template).get? key =
      if key = name then some template else templates.get? key :=
  lookup_insertEntry name key template templates.entries

def contains (templates : TemplateMap) (name : Text) : Bool :=
  (templates.get? name).isSome

def size (templates : TemplateMap) : Nat :=
  templates.entries.length

def names (templates : TemplateMap) : List Text :=
  templates.entries.map Prod.fst

/-- Changes templates in their places. Names neither come nor go, and so the order stays. -/
def mapTemplates (f : Text → Template → Template) (templates : TemplateMap) : TemplateMap where
  entries := templates.entries.map fun entry => (entry.1, f entry.1 entry.2)
  sorted := List.pairwise_map.2 templates.sorted

/-- Prepares the template of this name, if there is one, and leaves the others alone. -/
def prepare (templates : TemplateMap) (name : Text) : TemplateMap :=
  templates.mapTemplates fun key template => if key = name then template.prepare else template

end TemplateMap

end Stencil
