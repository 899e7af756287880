import Mathlib.Tactic.Common
import Stencil.Derivation

/-!
# The items that a provider is derived for

A provider is derived exactly for the structs with named fields whose attributes hold nothing but
known keys: on a field `skip` and at most one `rename`, on the struct at most one template. The
attributes of a field, or of the struct, are read as one list of keys, and the first key at fault
decides the error.
-/
namespace Stencil.Derivation

/-! ### Runs that stop at the first fault -/

section

variable {α β γ ε : Type}

theorem bind_eq_ok {x : Except ε α} {f : α → Except ε β} {b : β} :
    x >>= f = .ok b ↔ ∃ a, x = .ok a ∧ f a = .ok b := by
  cases x <;> simp [bind, Except.bind]

theorem bind_eq_error {x : Except ε α} {f : α → Except ε β} {e : ε} :
    x >>= f = .error e ↔ x = .error e ∨ ∃ a, x = .ok a ∧ f a = .error e := by
  cases x <;> simp [bind, Except.bind]

/-- Takes one key after another into account, up to the first that could not be read or is refused.
What comes after that is not looked at. -/
def takeKeys (f : β → α → Except ε β) (b : β) (keys : List (Except ε α)) : Except ε β :=
  keys.foldlM (fun b key => key >>= f b) b

/-- Keys are taken as long as those taken are sound, and these tell what came of them. Any other key
is at fault in some way. -/
structure Tracks (f : β → α → Except ε β) (state : List α → β) (sound : List α → Prop)
    (fault : List α → α → ε → Prop) : Prop where
  start : sound []
  front : ∀ {before after}, sound (before ++ after) → sound before
  taken : ∀ {before key}, sound (before ++ [key]) →
    f (state before) key = .ok (state (before ++ [key]))
  refused : ∀ {before key e}, sound before → fault before key e →
    f (state before) key = .error e
  total : ∀ {before} key, sound before → sound (before ++ [key]) ∨ ∃ e, fault before key e

/-- After sound keys comes one that could not be read or is at fault. The error is about that key,
whatever the later ones are. -/
inductive FirstFault (sound : List α → Prop) (fault : List α → α → ε → Prop) :
    List (Except ε α) → ε → Prop
  | unread {before : List α} {after : List (Except ε α)} {e : ε} : sound before →
    FirstFault sound fault (before.map .ok ++ .error e :: after) e
  | refused {before : List α} {key : α} {after : List (Except ε α)} {e : ε} : sound before →
    fault before key e → FirstFault sound fault (before.map .ok ++ .ok key :: after) e

namespace Tracks

variable {f : β → α → Except ε β} {state : List α → β} {sound : List α → Prop}
  {fault : List α → α → ε → Prop}

theorem takeKeys_of_sound (h : Tracks f state sound fault) {before more : List α}
    (hsound : sound (before ++ more)) :
    takeKeys f (state before) (more.map .ok) = .ok (state (before ++ more)) := by
  induction more generalizing before with
  | nil =>
    rw [List.append_nil]
    rfl
  | cons key more ih =>
    rw [List.append_cons] at hsound ⊢
    rw [← ih hsound, takeKeys, List.map_cons, List.foldlM_cons]
    show (f (state before) key >>= fun b => takeKeys f b (more.map .ok)) = _
    rw [h.taken (h.front hsound)]
    rfl

theorem takeKeys_of_firstFault (h : Tracks f state sound fault) {keys : List (Except ε α)} {e : ε}
    (hfault : FirstFault sound fault keys e) : takeKeys f (state []) keys = .error e := by
  have hrun {before : List α} {key : Except ε α} {after : List (Except ε α)}
      (hsound : sound before) (hkey : key >>= f (state before) = .error e) :
      takeKeys f (state []) (before.map .ok ++ key :: after) = .error e := by
    have hbefore : takeKeys f (state []) (before.map .ok) = _ := h.takeKeys_of_sound hsound
    unfold takeKeys at hbefore ⊢
    rw [List.foldlM_append, hbefore]
    show ((key >>= f (state before)) >>= fun b => takeKeys f b after) = _
    rw [hkey]
    rfl
  cases hfault with
  | unread hsound => exact hrun hsound rfl
  | refused hsound hkey => exact hrun hsound (h.refused hsound hkey)

/-- The keys are sound to their end, or there is a first fault. So every list of keys has one of the
two outcomes below. -/
theorem sound_or_firstFault (h : Tracks f state sound fault) (keys : List (Except ε α)) :
    (∃ more, keys = more.map .ok ∧ sound more) ∨ ∃ e, FirstFault sound fault keys e := by
  -- the run from the left finds the first fault, so what was taken grows
  suffices hfrom : ∀ before, sound before →
      (∃ more, keys = more.map .ok ∧ sound (before ++ more)) ∨
        ∃ e, FirstFault sound fault (before.map .ok ++ keys) e from hfrom [] h.start
  induction keys with
  | nil =>
    intro before hbefore
    exact .inl ⟨[], rfl, by rwa [List.append_nil]⟩
  | cons key keys ih =>
    intro before hbefore
    cases key with
    | error e => exact .inr ⟨e, .unread hbefore⟩
    | ok key =>
      rcases h.total key hbefore with hsound | ⟨e, hkey⟩
      · rcases ih _ hsound with ⟨more, rfl, hall⟩ | ⟨e, hfault⟩
        · exact .inl ⟨key :: more, rfl, by rwa [List.append_cons]⟩
        · refine .inr ⟨e, ?_⟩
          rwa [List.map_append, List.append_assoc] at hfault
      · exact .inr ⟨e, .refused hbefore hkey⟩

/-- Keys are taken to their end exactly if they are sound, and the state then is that of all of
them. -/
theorem takeKeys_eq_ok (h : Tracks f state sound fault) {keys : List (Except ε α)} {b : β} :
    takeKeys f (state []) keys = .ok b ↔
      ∃ more, keys = more.map .ok ∧ sound more ∧ b = state more := by
  constructor
  · intro hb
    rcases h.sound_or_firstFault keys with ⟨more, rfl, hsound⟩ | ⟨e, hfault⟩
    · have hok : takeKeys f (state []) (more.map .ok) = _ := h.takeKeys_of_sound hsound
      exact ⟨more, rfl, hsound, Except.ok.inj (hb.symm.trans hok)⟩
    · cases hb.symm.trans (h.takeKeys_of_firstFault hfault)
  · rintro ⟨more, rfl, hsound, rfl⟩
    exact h.takeKeys_of_sound hsound

/-- The first fault decides the error, and without a fault there is none. -/
theorem takeKeys_eq_error (h : Tracks f state sound fault) {keys : List (Except ε α)} {e : ε} :
    takeKeys f (state []) keys = .error e ↔ FirstFault sound fault keys e := by
  refine ⟨fun he => ?_, h.takeKeys_of_firstFault⟩
  rcases h.sound_or_firstFault keys with ⟨more, rfl, hsound⟩ | ⟨e', hfault⟩
  · have hok : takeKeys f (state []) (more.map .ok) = _ := h.takeKeys_of_sound hsound
    cases he.symm.trans hok
  · obtain rfl := Except.error.inj (he.symm.trans (h.takeKeys_of_firstFault hfault))
    exact hfault

end Tracks

section

variable {f : α → Except ε β} {good : α → Prop} {g : α → β} {l : List α}

theorem mapM_eq_ok (h : ∀ x b, f x = .ok b ↔ good x ∧ b = g x) {bs : List β} :
    l.mapM f = .ok bs ↔ (∀ x ∈ l, good x) ∧ bs = l.map g := by
  induction l generalizing bs with
  | nil => simp [pure, Except.pure, eq_comm]
  | cons x l ih =>
    simp only [List.mapM_cons, bind_eq_ok, h, ih, List.forall_mem_cons, List.map_cons]
    constructor
    · rintro ⟨_, ⟨hx, rfl⟩, _, ⟨hl, rfl⟩, hbs⟩
      exact ⟨⟨hx, hl⟩, (Except.ok.inj hbs).symm⟩
    · rintro ⟨⟨hx, hl⟩, rfl⟩
      exact ⟨_, ⟨hx, rfl⟩, _, ⟨hl, rfl⟩, rfl⟩

theorem mapM_eq_error (h : ∀ x b, f x = .ok b ↔ good x ∧ b = g x) {e : ε} :
    l.mapM f = .error e ↔
      ∃ before x after, l = before ++ x :: after ∧ (∀ y ∈ before, good y) ∧ f x = .error e := by
  induction l with
  | nil => simp [pure, Except.pure]
  | cons x l ih =>
    rw [List.mapM_cons, bind_eq_error]
    constructor
    · rintro (hx | ⟨b, hx, hl⟩)
      · exact ⟨[], x, l, rfl, by simp, hx⟩
      · rcases bind_eq_error.1 hl with hl | ⟨bs, -, hbs⟩
        · obtain ⟨before, y, after, rfl, hbefore, hy⟩ := ih.1 hl
          exact ⟨x :: before, y, after, rfl,
            List.forall_mem_cons.2 ⟨((h x b).1 hx).1, hbefore⟩, hy⟩
        · cases hbs
    · rintro ⟨_ | ⟨z, before⟩, y, after, hsplit, hbefore, hy⟩
      · obtain ⟨rfl, -⟩ := List.cons.inj hsplit
        exact .inl hy
      · obtain ⟨rfl, rfl⟩ := List.cons.inj hsplit
        obtain ⟨hx, hbefore⟩ := List.forall_mem_cons.1 hbefore
        have hrest := ih.2 ⟨before, y, after, rfl, hbefore, hy⟩
        exact .inr ⟨_, (h x _).2 ⟨hx, rfl⟩, bind_eq_error.2 (.inl hrest)⟩

end

end

/-! ### Keys -/

/-- The keys in the attributes that are meant for the derivation, in the order in which they are
written. -/
def keys (attributes : List Attribute) : List Argument :=
  (argumentLists attributes).flatMap fun arguments => arguments.getD []

/-- The keys of one attribute. Its arguments are read together, so that one bad argument leaves none
of them. -/
def readArguments {α : Type} (read : List Argument → Except Error (List α)) :
    Option (List Argument) → List (Except Error α)
  | none => [.error .missingArguments]
  | some arguments =>
    match read arguments with
    | .error e => [.error e]
    | .ok keys => keys.map .ok

/-- The keys of all attributes, each of which may have some that could not be read. -/
def readKeys {α : Type} (read : List Argument → Except Error (List α))
    (attributes : List Attribute) : List (Except Error α) :=
  (argumentLists attributes).flatMap (readArguments read)

section

variable {α β : Type} {read : List Argument → Except Error (List α)} {attributes : List Attribute}
  {arguments : List Argument}

theorem readArguments_error {e : Error} (h : read arguments = .error e) :
    readArguments read (some arguments) = [.error e] := by
  simp only [readArguments, h]

theorem readArguments_ok {keys : List α} (h : read arguments = .ok keys) :
    readArguments read (some arguments) = keys.map .ok := by
  simp only [readArguments, h]

/-- Keys are taken across the attributes as if they were written in a single one, so that it does
not matter how they are distributed. -/
theorem foldlM_argumentLists {f : β → α → Except Error β}
    {g : β → Option (List Argument) → Except Error β}
    (hnone : ∀ b, g b none = .error .missingArguments)
    (hsome : ∀ b arguments, g b (some arguments) =
      read arguments >>= fun keys => keys.foldlM f b) (b : β) :
    (argumentLists attributes).foldlM g b = takeKeys f b (readKeys read attributes) := by
  unfold readKeys
  generalize argumentLists attributes = lists
  induction lists generalizing b with
  | nil => rfl
  | cons arguments lists ih =>
    have hone : g b arguments = takeKeys f b (readArguments read arguments) := by
      cases arguments with
      | none => exact hnone b
      | some arguments =>
        rw [hsome, takeKeys]
        cases harguments : read arguments with
        | error e =>
          rw [readArguments_error harguments]
          rfl
        | ok keys =>
          rw [readArguments_ok harguments, List.foldlM_map]
          rfl
    rw [List.foldlM_cons, List.flatMap_cons, hone, takeKeys, takeKeys, List.foldlM_append]
    exact congrArg _ (funext ih)

/-- All keys could be read exactly if every attribute has its arguments and the arguments are those
keys. -/
theorem readKeys_eq_map {h : α → Argument}
    (hread : ∀ arguments keys, read arguments = .ok keys ↔ arguments = keys.map h)
    {taken : List α} : readKeys read attributes = taken.map .ok ↔
      none ∉ argumentLists attributes ∧ keys attributes = taken.map h := by
  unfold readKeys keys
  generalize argumentLists attributes = lists
  induction lists generalizing taken with
  | nil => simp [eq_comm]
  | cons arguments lists ih =>
    rw [List.flatMap_cons, List.flatMap_cons, List.mem_cons, not_or]
    cases arguments with
    | none =>
      constructor
      · intro htaken
        cases taken <;> cases htaken
      · rintro ⟨⟨hnone, -⟩, -⟩
        exact absurd rfl hnone
    | some arguments =>
      constructor
      · intro htaken
        obtain ⟨first, rest, rfl, hfirst, hrest⟩ := List.map_eq_append_iff.1 htaken.symm
        obtain ⟨hlists, hkeys⟩ := ih.1 hrest.symm
        cases harguments : read arguments with
        | error e =>
          rw [readArguments_error harguments] at hfirst
          rcases first with _ | ⟨key, first⟩ <;> cases hfirst
        | ok keys =>
          rw [readArguments_ok harguments] at hfirst
          obtain rfl := (List.map_inj_right fun _ _ => Except.ok.inj).1 hfirst
          rw [hkeys, Option.getD_some, (hread _ _).1 harguments, List.map_append]
          exact ⟨⟨by simp, hlists⟩, rfl⟩
      · rintro ⟨⟨-, hlists⟩, hkeys⟩
        obtain ⟨first, rest, rfl, hfirst, hrest⟩ := List.map_eq_append_iff.1 hkeys.symm
        rw [readArguments_ok ((hread arguments first).2 hfirst.symm), ih.2 ⟨hlists, hrest.symm⟩,
          List.map_append]

end

/-! ### The keys of a field -/

/-- A field can be skipped and renamed, and nothing else. The name has to be written out as a
string. -/
inductive IsFieldKey : Argument → Prop
  | skip : IsFieldKey (.flag "skip".toList)
  | rename (name : Text) : IsFieldKey (.pair "rename".toList (.string name))

/-- The name that a key gives to a field, if it is a key of that kind at all. -/
def rename? : Argument → Option Text
  | .pair key (.string name) => if key = "rename".toList then some name else none
  | _ => none

/-- The names that some keys give to a field, of which more than one is a fault. -/
def renames (keys : List Argument) : List Text :=
  keys.filterMap rename?

/-- Keys that a field can have together: keys of a field with at most one name among them. -/
structure FieldKeys (keys : List Argument) : Prop where
  known : ∀ key ∈ keys, IsFieldKey key
  renamedOnce : (renames keys).length ≤ 1

/-- What the keys of a field ask for: it is skipped if any of them says so, and named by the first
name. -/
def FieldOptions.ofKeys (keys : List Argument) : FieldOptions :=
  ⟨(renames keys).head?, keys.contains (.flag "skip".toList)⟩

/-- What is wrong with a key of a field after the keys before it. Only a second name depends on what
came before. -/
inductive FieldKeyFault (before : List Argument) : Argument → Error → Prop
  | unknown {key : Argument} : key ≠ .flag "skip".toList →
    (∀ value, key ≠ .pair "rename".toList value) → FieldKeyFault before key .unknownFieldArgument
  | notString {value : AttributeValue} : (∀ name, value ≠ .string name) →
    FieldKeyFault before (.pair "rename".toList value) .expectedString
  | renamedBefore {name : Text} : renames before ≠ [] →
    FieldKeyFault before (.pair "rename".toList (.string name)) .duplicateRename

theorem renames_append (before after : List Argument) :
    renames (before ++ after) = renames before ++ renames after :=
  List.filterMap_append

theorem FieldKeys.front {before after : List Argument} (h : FieldKeys (before ++ after)) :
    FieldKeys before := by
  refine ⟨fun key hkey => h.known key (List.mem_append_left after hkey), ?_⟩
  have honce := h.renamedOnce
  rw [renames_append, List.length_append] at honce
  omega

theorem FieldKeys.concat {before : List Argument} (h : FieldKeys before) {key : Argument}
    (hkey : IsFieldKey key) (honce : renames [key] = [] ∨ renames before = []) :
    FieldKeys (before ++ [key]) := by
  refine ⟨fun other hother => ?_, ?_⟩
  · rcases List.mem_append.1 hother with hother | hother
    · exact h.known other hother
    · obtain rfl := List.mem_singleton.1 hother
      exact hkey
  · have hbefore := h.renamedOnce
    have hlast : (renames [key]).length ≤ 1 := List.length_filterMap_le rename? [key]
    rw [renames_append, List.length_append]
    rcases honce with hnone | hnone <;> rw [hnone] <;> simpa

theorem FieldKeys.add {before : List Argument} {key : Argument} (h : FieldKeys (before ++ [key])) :
    FieldOptions.add (.ofKeys before) key = .ok (.ofKeys (before ++ [key])) := by
  cases h.known key (by simp) with
  | skip => simp [FieldOptions.add, FieldOptions.ofKeys, renames, rename?]
  | rename name =>
    have honce := h.renamedOnce
    have hlast : renames [.pair "rename".toList (.string name)] = [name] := by
      simp [renames, rename?]
    rw [renames_append, hlast, List.length_append, List.length_singleton] at honce
    have hnone : renames before = [] := List.length_eq_zero_iff.1 (by omega)
    have hskip : (before ++ [Argument.pair "rename".toList (.string name)]).contains
        (.flag "skip".toList) = before.contains (.flag "skip".toList) := by
      simp
    rw [FieldOptions.ofKeys, FieldOptions.ofKeys, renames_append, hnone, hlast, hskip,
      FieldOptions.add, if_pos rfl]
    rfl

theorem FieldKeyFault.add {before : List Argument} {key : Argument} {e : Error}
    (h : FieldKeyFault before key e) : FieldOptions.add (.ofKeys before) key = .error e := by
  cases h with
  | unknown hskip hrename =>
    cases key with
    | flag key => simp_all [FieldOptions.add]
    | list key => rfl
    | pair key value =>
      have hkey : key ≠ "rename".toList := fun heq => hrename value (heq ▸ rfl)
      rw [FieldOptions.add, if_neg hkey]
  | notString hvalue =>
    rename_i value
    cases value with
    | string name => exact absurd rfl (hvalue name)
    | path | integer | boolean => rfl
  | renamedBefore hbefore =>
    obtain ⟨first, rest, hfirst⟩ := List.exists_cons_of_ne_nil hbefore
    simp [FieldOptions.add, FieldOptions.ofKeys, hfirst, stringValue]

theorem fieldKeys_or_fault {before : List Argument} (key : Argument) (h : FieldKeys before) :
    FieldKeys (before ++ [key]) ∨ ∃ e, FieldKeyFault before key e := by
  by_cases hskip : key = .flag "skip".toList
  · subst hskip
    exact .inl (h.concat .skip (.inl rfl))
  · by_cases hrename : ∃ value, key = .pair "rename".toList value
    · obtain ⟨value, rfl⟩ := hrename
      cases value with
      | string name =>
        by_cases hbefore : renames before = []
        · exact .inl (h.concat (.rename name) (.inr hbefore))
        · exact .inr ⟨_, .renamedBefore hbefore⟩
      | path | integer | boolean => exact .inr ⟨_, .notString (by simp)⟩
    · exact .inr ⟨_, .unknown hskip fun value heq => hrename ⟨value, heq⟩⟩

theorem tracks_add : Tracks FieldOptions.add .ofKeys FieldKeys FieldKeyFault where
  start := ⟨by simp, by simp [renames]⟩
  front := FieldKeys.front
  taken := FieldKeys.add
  refused := fun _ => FieldKeyFault.add
  total := fieldKeys_or_fault

theorem ofAttributes_eq (attributes : List Attribute) : FieldOptions.ofAttributes attributes =
    takeKeys FieldOptions.add (.ofKeys []) (readKeys .ok attributes) :=
  foldlM_argumentLists (fun _ => rfl) (fun _ _ => rfl) _

theorem ofAttributes_eq_ok {attributes : List Attribute} {options : FieldOptions} :
    FieldOptions.ofAttributes attributes = .ok options ↔
      none ∉ argumentLists attributes ∧ FieldKeys (keys attributes) ∧
        options = .ofKeys (keys attributes) := by
  have hread (taken : List Argument) : readKeys .ok attributes = taken.map .ok ↔
      none ∉ argumentLists attributes ∧ keys attributes = taken.map id :=
    readKeys_eq_map fun arguments keys => by simp
  rw [ofAttributes_eq, tracks_add.takeKeys_eq_ok]
  simp only [hread, List.map_id]
  constructor
  · rintro ⟨taken, ⟨hall, rfl⟩, hkeys, rfl⟩
    exact ⟨hall, hkeys, rfl⟩
  · rintro ⟨hall, hkeys, rfl⟩
    exact ⟨_, ⟨hall, rfl⟩, hkeys, rfl⟩

/-! ### Fields -/

/-- A name that the syntax of dotted names leaves room for: it is not empty and has none of the
characters that end a component. -/
structure IsUsable (name : Text) : Prop where
  ne_nil : name ≠ []
  plain : ∀ c ∈ name, c ≠ '.' ∧ c ≠ '|' ∧ c ≠ '%'

theorem isUsableName_eq_true {name : Text} : isUsableName name = true ↔ IsUsable name := by
  constructor
  · intro h
    simp only [isUsableName, Bool.and_eq_true, Bool.not_eq_true', List.isEmpty_eq_false_iff,
      List.any_eq_false] at h
    exact ⟨h.1, by simpa [not_or, and_assoc] using h.2⟩
  · rintro ⟨hnil, hplain⟩
    simp only [isUsableName, Bool.and_eq_true, Bool.not_eq_true', List.isEmpty_eq_false_iff,
      List.any_eq_false]
    exact ⟨hnil, by simpa [not_or, and_assoc] using hplain⟩

namespace Field

def isSkipped (field : Field) : Bool :=
  (keys field.attributes).contains (.flag "skip".toList)

/-- The name that is given to the field, or else its own name without the marks of a raw
identifier. -/
def exposedName (field : Field) : Text :=
  (renames (keys field.attributes)).headD (plainName field.name)

def arm? (field : Field) : Option (Text × Text) :=
  if field.isSkipped then none else some (field.exposedName, field.name)

structure Accepted (field : Field) : Prop where
  /-- Every attribute has its arguments in parentheses, even if there are none between them. -/
  arguments : none ∉ argumentLists field.attributes
  keys : FieldKeys (keys field.attributes)
  usable : field.isSkipped = false → IsUsable field.exposedName

/-- What is wrong with a field. Its name is only looked at when its keys are sound and it is not
skipped. -/
inductive Fault (field : Field) : Error → Prop
  | key {e : Error} : FirstFault FieldKeys FieldKeyFault (readKeys .ok field.attributes) e →
    Fault field e
  | name : none ∉ argumentLists field.attributes → FieldKeys (Derivation.keys field.attributes) →
    field.isSkipped = false → ¬ IsUsable field.exposedName → Fault field .unusableName

end Field

/-- What becomes of a field whose keys are sound: nothing if it is skipped, an arm if its name can
be used, and an error otherwise. -/
theorem fieldArm_of_keys {field : Field} (harguments : none ∉ argumentLists field.attributes)
    (hkeys : FieldKeys (keys field.attributes)) : fieldArm field =
      if field.isSkipped then .ok none
      else if isUsableName field.exposedName then .ok (some (field.exposedName, field.name))
      else .error .unusableName := by
  have hoptions := ofAttributes_eq_ok.2 ⟨harguments, hkeys, rfl⟩
  have hname : (FieldOptions.ofKeys (keys field.attributes)).rename.getD (plainName field.name) =
      field.exposedName := (List.headD_eq_head?_getD ..).symm
  rw [fieldArm, hoptions]
  simp only [bind, Except.bind, hname]
  rfl

theorem fieldArm_eq_ok {field : Field} {arm : Option (Text × Text)} :
    fieldArm field = .ok arm ↔ field.Accepted ∧ arm = field.arm? := by
  constructor
  · intro h
    obtain ⟨options, hoptions, -⟩ := bind_eq_ok.1 h
    obtain ⟨harguments, hkeys, -⟩ := ofAttributes_eq_ok.1 hoptions
    rw [fieldArm_of_keys harguments hkeys] at h
    unfold Field.arm?
    split_ifs at h ⊢ with hskip husable
    · exact ⟨⟨harguments, hkeys, by simp [hskip]⟩, (Except.ok.inj h).symm⟩
    · exact ⟨⟨harguments, hkeys, fun _ => isUsableName_eq_true.1 husable⟩, (Except.ok.inj h).symm⟩
  · rintro ⟨⟨harguments, hkeys, husable⟩, rfl⟩
    rw [fieldArm_of_keys harguments hkeys, Field.arm?]
    split_ifs with hskip hname
    · rfl
    · rfl
    · exact absurd (isUsableName_eq_true.2 (husable (by simpa using hskip))) hname

theorem fieldArm_eq_error {field : Field} {e : Error} :
    fieldArm field = .error e ↔ field.Fault e := by
  have hkeysError : FieldOptions.ofAttributes field.attributes = .error e ↔
      FirstFault FieldKeys FieldKeyFault (readKeys .ok field.attributes) e := by
    rw [ofAttributes_eq, tracks_add.takeKeys_eq_error]
  constructor
  · intro h
    rcases bind_eq_error.1 h with hkeys | ⟨options, hoptions, -⟩
    · exact .key (hkeysError.1 hkeys)
    · obtain ⟨harguments, hkeys, -⟩ := ofAttributes_eq_ok.1 hoptions
      rw [fieldArm_of_keys harguments hkeys] at h
      split_ifs at h with hskip husable
      cases h
      exact .name harguments hkeys (by simpa using hskip) fun h =>
        husable (isUsableName_eq_true.2 h)
  · rintro (hkeys | ⟨harguments, hkeys, hskip, husable⟩)
    · exact bind_eq_error.2 (.inl (hkeysError.2 hkeys))
    · have hname : isUsableName field.exposedName ≠ true := fun h =>
        husable (isUsableName_eq_true.1 h)
      rw [fieldArm_of_keys harguments hkeys, if_neg (by simp [hskip]), if_neg hname]

/-! ### The template of a struct -/

/-- The template that a key gives: a function, a source, or a file whose path is resolved. -/
inductive Gives (project : Text) : Argument → TemplateOrigin → Prop
  | function (path : Text) :
    Gives project (.pair "template".toList (.path path)) (.function (FunctionPath.plain path))
  | source (text : Text) : Gives project (.pair "source".toList (.string text)) (.source text)
  | file (path : Text) :
    Gives project (.pair "path".toList (.string path)) (.file (resolve project path))

/-- The template that the keys of a struct give: none, or that of the only key. There is no way to
have two. -/
inductive GiveTemplate (project : Text) : List Argument → Option TemplateOrigin → Prop
  | none : GiveTemplate project [] none
  | some {key : Argument} {origin : TemplateOrigin} : Gives project key origin →
    GiveTemplate project [key] (some origin)

/-- Keys that a struct can have together, which is at most one key, and one that gives a
template. -/
structure TemplateKeys (project : Text) (keys : List Argument) : Prop where
  known : ∀ key ∈ keys, ∃ origin, Gives project key origin
  single : keys.length ≤ 1

def ofPair (pair : Text × AttributeValue) : Argument :=
  .pair pair.1 pair.2

/-- What is wrong with a key of a struct after the keys before it. A second template is only noticed
when it is sound itself. -/
inductive TemplateKeyFault (project : Text) (before : List (Text × AttributeValue)) :
    Text × AttributeValue → Error → Prop
  | notIdentifier {key : Text} {value : AttributeValue} : ':' ∈ key →
    TemplateKeyFault project before (key, value) .expectedKeyName
  | notPath {value : AttributeValue} : (∀ path, value ≠ .path path) →
    TemplateKeyFault project before ("template".toList, value) .expectedFunction
  | notString {key : Text} {value : AttributeValue} : key = "source".toList ∨ key = "path".toList →
    (∀ text, value ≠ .string text) → TemplateKeyFault project before (key, value) .expectedString
  | unknown {key : Text} {value : AttributeValue} : ':' ∉ key → key ≠ "template".toList →
    key ≠ "source".toList → key ≠ "path".toList →
    TemplateKeyFault project before (key, value) .unknownKey
  | templateBefore {key : Text} {value : AttributeValue} {origin : TemplateOrigin} :
    Gives project (.pair key value) origin → before ≠ [] →
    TemplateKeyFault project before (key, value) .severalTemplates

section

variable {project : Text}

theorem exists_giveTemplate {keys : List Argument} :
    (∃ template, GiveTemplate project keys template) ↔ TemplateKeys project keys := by
  constructor
  · rintro ⟨_, _ | hgives⟩
    · exact ⟨by simp, by simp⟩
    · exact ⟨by simpa using ⟨_, hgives⟩, by simp⟩
  · rintro ⟨hknown, hsingle⟩
    rcases keys with _ | ⟨key, _ | ⟨other, rest⟩⟩
    · exact ⟨_, .none⟩
    · obtain ⟨origin, hgives⟩ := hknown key List.mem_cons_self
      exact ⟨_, .some hgives⟩
    · simp at hsingle

theorem Gives.templateOfPair {key : Text} {value : AttributeValue} {origin : TemplateOrigin}
    (h : Gives project (.pair key value) origin) :
    templateOfPair project key value = .ok origin := by
  cases h <;> rfl

theorem GiveTemplate.unique {keys : List Argument} {template other : Option TemplateOrigin}
    (h : GiveTemplate project keys template) (hother : GiveTemplate project keys other) :
    template = other := by
  cases h with
  | none =>
    cases hother
    rfl
  | some hgives =>
    cases hother with
    | some hother => cases hgives <;> cases hother <;> rfl

theorem GiveTemplate.exists_pairs {keys : List Argument} {template : Option TemplateOrigin}
    (h : GiveTemplate project keys template) :
    ∃ taken : List (Text × AttributeValue), keys = taken.map ofPair := by
  cases h with
  | none => exact ⟨[], rfl⟩
  | some hgives => cases hgives <;> exact ⟨[(_, _)], rfl⟩

/-- The template of the first key, which is the only one when the keys are sound. -/
def templateOf (project : Text) (taken : List (Text × AttributeValue)) : Option TemplateOrigin :=
  taken.head?.bind fun pair => (templateOfPair project pair.1 pair.2).toOption

theorem giveTemplate_templateOf {taken : List (Text × AttributeValue)}
    (h : TemplateKeys project (taken.map ofPair)) :
    GiveTemplate project (taken.map ofPair) (templateOf project taken) := by
  obtain ⟨hknown, hsingle⟩ := h
  rcases taken with _ | ⟨pair, _ | ⟨other, rest⟩⟩
  · exact .none
  · obtain ⟨origin, hgives⟩ := hknown _ List.mem_cons_self
    have htemplate : templateOf project [pair] = some origin := by
      simp [templateOf, hgives.templateOfPair, Except.toOption]
    rw [htemplate]
    exact .some hgives
  · simp at hsingle

theorem TemplateKeys.front {before after : List (Text × AttributeValue)}
    (h : TemplateKeys project ((before ++ after).map ofPair)) :
    TemplateKeys project (before.map ofPair) := by
  obtain ⟨hknown, hsingle⟩ := h
  rw [List.map_append] at hknown hsingle
  rw [List.length_append] at hsingle
  exact ⟨fun key hkey => hknown key (List.mem_append_left _ hkey), by omega⟩

theorem TemplateKeys.addTemplate {before : List (Text × AttributeValue)}
    {pair : Text × AttributeValue} (h : TemplateKeys project ((before ++ [pair]).map ofPair)) :
    addTemplate project (templateOf project before) pair =
      .ok (templateOf project (before ++ [pair])) := by
  obtain ⟨hknown, hsingle⟩ := h
  obtain ⟨origin, hgives⟩ := hknown (ofPair pair) (by simp)
  obtain rfl : before = [] := by simpa using hsingle
  simp [Derivation.addTemplate, templateOf, hgives.templateOfPair, Except.toOption, bind,
    Except.bind, pure, Except.pure]

theorem TemplateKeyFault.addTemplate {before : List (Text × AttributeValue)}
    {pair : Text × AttributeValue} {e : Error} (hbefore : TemplateKeys project (before.map ofPair))
    (h : TemplateKeyFault project before pair e) :
    addTemplate project (templateOf project before) pair = .error e := by
  have hrefused {key : Text} {value : AttributeValue}
      (hpair : templateOfPair project key value = .error e) :
      Derivation.addTemplate project (templateOf project before) (key, value) = .error e :=
    bind_eq_error.2 (.inl hpair)
  cases h with
  | notIdentifier hkey => exact hrefused (by rw [templateOfPair, if_pos (by simpa using hkey)])
  | notPath hvalue =>
    rename_i value
    cases value with
    | path path => exact absurd rfl (hvalue path)
    | string | integer | boolean => exact hrefused rfl
  | notString hkey hvalue =>
    rename_i value
    cases value with
    | string text => exact absurd rfl (hvalue text)
    | path | integer | boolean => rcases hkey with rfl | rfl <;> exact hrefused rfl
  | unknown hkey htemplate hsource hpath =>
    exact hrefused (by
      rw [templateOfPair, if_neg (by simpa using hkey), if_neg htemplate, if_neg hsource,
        if_neg hpath])
  | templateBefore hgives hnil =>
    obtain ⟨first, rest, rfl⟩ := List.exists_cons_of_ne_nil hnil
    obtain ⟨origin, hfirst⟩ := hbefore.known (ofPair first) List.mem_cons_self
    have hfound : templateOf project (first :: rest) = some origin := by
      simp [templateOf, hfirst.templateOfPair, Except.toOption]
    simp [Derivation.addTemplate, hgives.templateOfPair, hfound, bind, Except.bind, throw,
      throwThe, MonadExceptOf.throw]

theorem templateKeys_or_fault {before : List (Text × AttributeValue)} (pair : Text × AttributeValue)
    (h : TemplateKeys project (before.map ofPair)) :
    TemplateKeys project ((before ++ [pair]).map ofPair) ∨
      ∃ e, TemplateKeyFault project before pair e := by
  obtain ⟨key, value⟩ := pair
  by_cases hgives : ∃ origin, Gives project (.pair key value) origin
  · obtain ⟨origin, hgives⟩ := hgives
    by_cases hbefore : before = []
    · subst hbefore
      exact .inl ⟨by simpa using ⟨origin, hgives⟩, by simp⟩
    · exact .inr ⟨_, .templateBefore hgives hbefore⟩
  · refine .inr ?_
    by_cases hkey : ':' ∈ key
    · exact ⟨_, .notIdentifier hkey⟩
    by_cases htemplate : key = "template".toList
    · subst htemplate
      refine ⟨_, .notPath ?_⟩
      rintro path rfl
      exact hgives ⟨_, .function path⟩
    by_cases hsource : key = "source".toList
    · subst hsource
      refine ⟨_, .notString (.inl rfl) ?_⟩
      rintro text rfl
      exact hgives ⟨_, .source text⟩
    by_cases hpath : key = "path".toList
    · subst hpath
      refine ⟨_, .notString (.inr rfl) ?_⟩
      rintro path rfl
      exact hgives ⟨_, .file path⟩
    exact ⟨_, .unknown hkey htemplate hsource hpath⟩

theorem tracks_addTemplate : Tracks (addTemplate project) (templateOf project)
    (fun taken => TemplateKeys project (taken.map ofPair)) (TemplateKeyFault project) where
  start := ⟨by simp, by simp⟩
  front := TemplateKeys.front
  taken := TemplateKeys.addTemplate
  refused := TemplateKeyFault.addTemplate
  total := templateKeys_or_fault

theorem pairs_eq_ok {arguments : List Argument} {taken : List (Text × AttributeValue)} :
    pairs arguments = .ok taken ↔ arguments = taken.map ofPair := by
  induction arguments generalizing taken with
  | nil => cases taken <;> simp [pairs]
  | cons argument arguments ih =>
    cases argument with
    | flag | list => cases taken <;> simp [pairs, ofPair]
    | pair key value =>
      cases taken with
      | nil => cases hrest : pairs arguments <;> simp [pairs, hrest, Except.map]
      | cons pair taken =>
        have htaken := @ih taken
        cases hrest : pairs arguments with
        | error e => simp_all [pairs, Except.map, ofPair]
        | ok rest => simp_all [pairs, Except.map, ofPair, Prod.ext_iff]

theorem templateOrigin_eq (attributes : List Attribute) : templateOrigin project attributes =
    takeKeys (addTemplate project) (templateOf project []) (readKeys pairs attributes) :=
  foldlM_argumentLists (fun _ => rfl) (fun _ _ => rfl) _

theorem templateOrigin_eq_ok {attributes : List Attribute} {template : Option TemplateOrigin} :
    templateOrigin project attributes = .ok template ↔
      none ∉ argumentLists attributes ∧ GiveTemplate project (keys attributes) template := by
  have hread (taken : List (Text × AttributeValue)) :
      readKeys pairs attributes = taken.map .ok ↔
        none ∉ argumentLists attributes ∧ keys attributes = taken.map ofPair :=
    readKeys_eq_map fun _ _ => pairs_eq_ok
  rw [templateOrigin_eq, tracks_addTemplate.takeKeys_eq_ok]
  constructor
  · rintro ⟨taken, hkeys, hsound, rfl⟩
    obtain ⟨hall, hkeys⟩ := (hread taken).1 hkeys
    exact ⟨hall, hkeys ▸ giveTemplate_templateOf hsound⟩
  · rintro ⟨hall, hgive⟩
    obtain ⟨taken, hkeys⟩ := hgive.exists_pairs
    rw [hkeys] at hgive
    have hsound := exists_giveTemplate.1 ⟨_, hgive⟩
    exact ⟨taken, (hread taken).2 ⟨hall, hkeys⟩, hsound,
      hgive.unique (giveTemplate_templateOf hsound)⟩

theorem templateOrigin_eq_error {attributes : List Attribute} {e : Error} :
    templateOrigin project attributes = .error e ↔
      FirstFault (fun taken => TemplateKeys project (taken.map ofPair)) (TemplateKeyFault project)
        (readKeys pairs attributes) e := by
  rw [templateOrigin_eq, tracks_addTemplate.takeKeys_eq_error]

/-! ### Items -/

structure Item.Accepted (project : Text) (item : Item) : Prop where
  struct : item.kind = .namedFields
  fields : ∀ field ∈ item.fields, field.Accepted
  arguments : none ∉ argumentLists item.attributes
  keys : TemplateKeys project (keys item.attributes)

/-- What is wrong with an item. The template is only looked at when all fields are accepted, and the
fields only when the item is a struct that names them. -/
inductive Item.Fault (project : Text) (item : Item) : Error → Prop
  | unnamedFields : item.kind = .tuple ∨ item.kind = .unit → Fault project item .unnamedFields
  | notAStruct : item.kind = .enumeration ∨ item.kind = .union → Fault project item .notAStruct
  | field {before after : List Field} {field : Field} {e : Error} : item.kind = .namedFields →
    item.fields = before ++ field :: after → (∀ field ∈ before, field.Accepted) → field.Fault e →
    Fault project item e
  | template {e : Error} : item.kind = .namedFields → (∀ field ∈ item.fields, field.Accepted) →
    FirstFault (fun taken => TemplateKeys project (taken.map ofPair)) (TemplateKeyFault project)
      (readKeys pairs item.attributes) e → Fault project item e

/-- What is generated for an item: the names with their fields, the template and the bounds, and
nothing else. -/
structure Derived.Describes (derived : Derived) (project : Text) (item : Item) : Prop where
  arms : derived.arms = (item.fields.filter fun field => !field.isSkipped).map
    fun field => (field.exposedName, field.name)
  template : GiveTemplate project (keys item.attributes) derived.template
  bounds : derived.bounds =
    (item.generics.filter fun generic => generic.kind = .type).map Generic.name

theorem filterMap_arm? (fields : List Field) :
    (fields.map Field.arm?).filterMap id = (fields.filter fun field => !field.isSkipped).map
      fun field => (field.exposedName, field.name) := by
  rw [List.filterMap_map, Function.id_comp]
  induction fields with
  | nil => rfl
  | cons field fields ih => cases hskip : field.isSkipped <;> simp [Field.arm?, hskip, ih]

/-- The fields and the template of a struct are all that can be at fault, the fields first. -/
theorem derive_of_namedFields {item : Item} (hkind : item.kind = .namedFields) :
    derive project item = item.fields.mapM fieldArm >>= fun arms =>
      templateOrigin project item.attributes >>= fun template =>
        .ok ⟨arms.filterMap id, template,
          (item.generics.filter fun generic => generic.kind = .type).map Generic.name⟩ := by
  rw [derive, hkind]
  rfl

theorem derive_of_not_namedFields {item : Item} (hkind : item.kind ≠ .namedFields) :
    ((item.kind = .tuple ∨ item.kind = .unit) ∧ derive project item = .error .unnamedFields) ∨
      (item.kind = .enumeration ∨ item.kind = .union) ∧
        derive project item = .error .notAStruct := by
  cases hother : item.kind with
  | namedFields => exact absurd hother hkind
  | tuple | unit => exact .inl ⟨by simp, by rw [derive, hother]; rfl⟩
  | enumeration | union => exact .inr ⟨by simp, by rw [derive, hother]; rfl⟩

theorem derive_eq_ok {item : Item} {derived : Derived} :
    derive project item = .ok derived ↔
      item.Accepted project ∧ derived.Describes project item := by
  by_cases hkind : item.kind = .namedFields
  · rw [derive_of_namedFields hkind]
    simp only [bind_eq_ok, mapM_eq_ok fun _ _ => fieldArm_eq_ok, templateOrigin_eq_ok]
    constructor
    · rintro ⟨arms, ⟨hfields, rfl⟩, template, ⟨harguments, htemplate⟩, hderived⟩
      obtain rfl := Except.ok.inj hderived
      exact ⟨⟨hkind, hfields, harguments, exists_giveTemplate.1 ⟨_, htemplate⟩⟩,
        ⟨filterMap_arm? _, htemplate, rfl⟩⟩
    · rintro ⟨⟨-, hfields, harguments, -⟩, ⟨harms, htemplate, hbounds⟩⟩
      refine ⟨_, ⟨hfields, rfl⟩, _, ⟨harguments, htemplate⟩, ?_⟩
      rw [filterMap_arm?, ← harms, ← hbounds]
  · refine ⟨fun h => ?_, fun h => absurd h.1.struct hkind⟩
    rcases derive_of_not_namedFields hkind with ⟨-, hderive⟩ | ⟨-, hderive⟩ <;>
      cases h.symm.trans hderive

theorem derive_eq_error {item : Item} {e : Error} :
    derive project item = .error e ↔ item.Fault project e := by
  by_cases hkind : item.kind = .namedFields
  · rw [derive_of_namedFields hkind]
    simp only [bind_eq_error, mapM_eq_ok fun _ _ => fieldArm_eq_ok,
      mapM_eq_error fun _ _ => fieldArm_eq_ok, fieldArm_eq_error, templateOrigin_eq_error]
    constructor
    · rintro (⟨before, field, after, hsplit, hbefore, hfield⟩ |
        ⟨_, ⟨hfields, rfl⟩, htemplate | ⟨_, -, h⟩⟩)
      · exact .field hkind hsplit hbefore hfield
      · exact .template hkind hfields htemplate
      · cases h
    · rintro (hother | hother | ⟨-, hsplit, hbefore, hfield⟩ | ⟨-, hfields, htemplate⟩)
      · simp [hkind] at hother
      · simp [hkind] at hother
      · exact .inl ⟨_, _, _, hsplit, hbefore, hfield⟩
      · exact .inr ⟨_, ⟨hfields, rfl⟩, .inl htemplate⟩
  · constructor
    · intro h
      rcases derive_of_not_namedFields hkind with ⟨hother, hderive⟩ | ⟨hother, hderive⟩
      · obtain rfl := Except.error.inj (h.symm.trans hderive)
        exact .unnamedFields hother
      · obtain rfl := Except.error.inj (h.symm.trans hderive)
        exact .notAStruct hother
    · rintro (hother | hother | ⟨hstruct, -, -, -⟩ | ⟨hstruct, -, -⟩)
      · rcases hother with hother | hother <;> rw [derive, hother] <;> rfl
      · rcases hother with hother | hother <;> rw [derive, hother] <;> rfl
      · exact absurd hstruct hkind
      · exact absurd hstruct hkind

/-- A provider is derived exactly for the structs with named fields whose attributes are sound, and
what is generated is told by these. Otherwise the first fault decides the error: that of the kind,
that of the first field at fault, and only then that of the template. -/
theorem derive_exact (project : Text) (item : Item) :
    ((∃ derived, derive project item = .ok derived) ↔ item.Accepted project) ∧
      (∀ derived, derive project item = .ok derived ↔
        item.Accepted project ∧ derived.Describes project item) ∧
      ∀ e, derive project item = .error e ↔ item.Fault project e := by
  refine ⟨⟨fun ⟨derived, h⟩ => (derive_eq_ok.1 h).1, fun h => ?_⟩, fun _ => derive_eq_ok,
    fun _ => derive_eq_error⟩
  obtain ⟨template, htemplate⟩ := exists_giveTemplate.2 h.keys
  exact ⟨⟨_, template, _⟩, derive_eq_ok.2 ⟨h, ⟨rfl, htemplate, rfl⟩⟩⟩

/-- A field is judged before the template, and all its keys before its name: the empty name is not
what is told here. -/
example : derive [] ⟨.namedFields, [], [⟨"provider".toList, none⟩], [⟨['a'], [⟨"provider".toList,
    some [.pair "rename".toList (.string []), .flag "hide".toList]⟩]⟩]⟩ =
      .error .unknownFieldArgument := rfl

end

end Stencil.Derivation
