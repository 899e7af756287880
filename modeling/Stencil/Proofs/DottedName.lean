import Stencil.Proofs.Enclosed
import Stencil.Proofs.Resemblance

/-!
# Dotted names

A dotted name means an inline template for each further component: the value of the first component
is filled into a template that consists of the next one, with the same markers and separator, and
the data section belongs to the last component.
-/
namespace Stencil

/-! ### Paths of several components -/

namespace Text

/-- A component of a dotted name, as it is written: no blanks at its ends, and no character that has
a meaning in a body. -/
structure IsComponent (c : Text) : Prop where
  ne_nil : c ≠ []
  trimmed : c.trim = c
  plain : c.Avoids ['.', '|', '%', '<', '>', '\\', '{', '}']
  start : ∀ d, c.head? = some d → d ≠ '!' ∧ d ≠ '#'

instance (c : Text) : Decidable c.IsComponent :=
  decidable_of_iff
    (c ≠ [] ∧ c.trim = c ∧ c.Avoids ['.', '|', '%', '<', '>', '\\', '{', '}'] ∧
      c.head? ≠ some '!' ∧ c.head? ≠ some '#')
    ⟨fun h => ⟨h.1, h.2.1, h.2.2.1, fun _ hd =>
        ⟨fun heq => h.2.2.2.1 (heq ▸ hd), fun heq => h.2.2.2.2 (heq ▸ hd)⟩⟩,
      fun h => ⟨h.ne_nil, h.trimmed, h.plain, fun hd => (h.start _ hd).1 rfl,
        fun hd => (h.start _ hd).2 rfl⟩⟩

end Text

/-- The path of a dotted name: its components with dots between them. -/
def dottedPath (first : Text) (more : List Text) : Text :=
  first ++ more.flatMap ('.' :: ·)

theorem splitOn_append {s : Text} (hs : '.' ∉ s) (t : Text) :
    Text.splitOn '.' (s ++ t) = (s ++ (Text.splitOn '.' t).1, (Text.splitOn '.' t).2) := by
  induction s with
  | nil => rfl
  | cons c s ih =>
    simp only [List.mem_cons, not_or] at hs
    have hc : c ≠ '.' := fun h => hs.1 h.symm
    simp [Text.splitOn, ih hs.2, hc]

theorem splitOn_flatMap {more : List Text} (h : ∀ c ∈ more, '.' ∉ c) :
    Text.splitOn '.' (more.flatMap ('.' :: ·)) = ([], more) := by
  induction more with
  | nil => rfl
  | cons c more ih =>
    have hc := splitOn_append (h c List.mem_cons_self) (more.flatMap ('.' :: ·))
    rw [ih fun d hd => h d (List.mem_cons_of_mem c hd), List.append_nil] at hc
    simp [Text.splitOn, hc]

/-- The components are found again, as none of them has a dot. -/
theorem splitOn_dottedPath {first : Text} {more : List Text} (hfirst : '.' ∉ first)
    (hmore : ∀ c ∈ more, '.' ∉ c) :
    Text.splitOn '.' (dottedPath first more) = (first, more) := by
  rw [dottedPath, splitOn_append hfirst, splitOn_flatMap hmore, List.append_nil]

/-- A path is its last component with something plain before it. What is read of a body after its
path depends on that component only. -/
theorem dottedPath_eq_append {first : Text} {more : List Text} (hfirst : first.IsComponent)
    (hmore : ∀ c ∈ more, c.IsComponent) :
    ∃ lead, dottedPath first more = lead ++ more.getLastD first ∧
      lead.Avoids ['|', '%', '<', '>', '\\', '{', '}'] := by
  induction more generalizing first with
  | nil => exact ⟨[], by simp [dottedPath], by decide⟩
  | cons next more ih =>
    have hnext := hmore next List.mem_cons_self
    obtain ⟨lead, hlead, hplain⟩ := ih hnext fun c hc => hmore c (List.mem_cons_of_mem next hc)
    have hdot : Text.Avoids ['.'] ['|', '%', '<', '>', '\\', '{', '}'] := by decide
    refine ⟨first ++ (['.'] ++ lead), ?_, Text.Avoids.append ?_ (hdot.append hplain)⟩
    · rw [List.getLastD_cons, List.append_assoc, List.append_assoc, ← hlead]
      simp [dottedPath]
    · exact hfirst.plain.mono (by decide)

theorem getLastD_mem {first : Text} {more : List Text} (hfirst : first.IsComponent)
    (hmore : ∀ c ∈ more, c.IsComponent) : (more.getLastD first).IsComponent := by
  induction more generalizing first with
  | nil => exact hfirst
  | cons next more ih =>
    rw [List.getLastD_cons]
    exact ih (hmore next List.mem_cons_self) fun c hc => hmore c (List.mem_cons_of_mem next hc)

theorem Text.IsComponent.firm {c : Text} (h : c.IsComponent) {d : Char} (hd : c.getLast? = some d) :
    Firm d := by
  have hmem := List.mem_of_getLast? hd
  rw [← h.trimmed] at hd
  exact ⟨isBlank_getLast?_trim hd, h.plain.ne hmem (by decide), h.plain.ne hmem (by decide)⟩

theorem isPath_dottedPath {first : Text} {more : List Text} (hfirst : first.IsComponent)
    (hmore : ∀ c ∈ more, c.IsComponent) : (dottedPath first more).IsPath := by
  obtain ⟨lead, hlead, hplain⟩ := dottedPath_eq_append hfirst hmore
  have hlastComponent := getLastD_mem hfirst hmore
  have hstart {d : Char} (hd : (dottedPath first more).head? = some d) : first.head? = some d := by
    rw [dottedPath, List.head?_append] at hd
    cases hhead : first.head? with
    | none => exact absurd (List.head?_eq_none_iff.1 hhead) hfirst.ne_nil
    | some e => rwa [hhead] at hd
  have hend {d : Char} (hd : (dottedPath first more).getLast? = some d) :
      (more.getLastD first).getLast? = some d := by
    rw [hlead, List.getLast?_append] at hd
    cases hlast : (more.getLastD first).getLast? with
    | none => exact absurd (List.getLast?_eq_none_iff.1 hlast) hlastComponent.ne_nil
    | some e => rwa [hlast] at hd
  refine ⟨?_, Text.trim_eq_self ?_ ?_, ?_, ?_, fun d hd => hlastComponent.firm (hend hd)⟩
  · simp [dottedPath, hfirst.ne_nil]
  · intro d hd
    have h := hstart hd
    rw [← hfirst.trimmed] at h
    exact Text.isBlank_head?_trim h
  · intro d hd
    exact (hlastComponent.firm (hend hd)).1
  · intro d hd
    rw [hlead] at hd
    rcases List.mem_append.1 hd with hd | hd
    · exact ⟨hplain.ne hd (by decide), hplain.ne hd (by decide)⟩
    · exact ⟨hlastComponent.plain.ne hd (by decide), hlastComponent.plain.ne hd (by decide)⟩
  · intro d hd
    have hmem := List.mem_of_mem_head? (hstart hd)
    obtain ⟨hbang, hhash⟩ := hfirst.start d (hstart hd)
    exact ⟨hfirst.plain.ne hmem (by decide), hbang, hfirst.plain.ne hmem (by decide), hhash⟩

/-! ### The substitutions -/

/-- What the substitutions of a dotted name have in common, as it is written: the markers, the
separator section and the data section. -/
structure Frame where
  before : Option Mark
  join : Text
  data : Text
  after : Option Mark

namespace Frame

def head (f : Frame) (dots : Nat) (path : Text) : Text :=
  headText f.before dots path f.join

/-- The body with this path and everything else of the frame around it. -/
def body (f : Frame) (dots : Nat) (path : Text) : Text :=
  f.head dots path ++ (f.data ++ Mark.close f.after)

/-- The body of the nested form: each component but the last one has an inline template that
consists of the components after it. -/
def nested (f : Frame) : Nat → Text → List Text → Text
  | dots, c, [] => f.body dots c
  | dots, c, next :: more =>
    f.head dots c ++ ('|' :: '!' :: (enclose (f.nested 0 next more) ++ Mark.close f.after))

structure Valid (f : Frame) : Prop where
  join : f.join.IsJoin
  joinBraceless : f.join.Braceless
  data : f.data.AtBar

/-- A data section is read as what was written, with the escapes of an inline template resolved. -/
def ReadsData (written : Text) (data : Option DataClause) : Prop :=
  match written with
  | '|' :: '!' :: inline => ∃ offset, data = some (.inline (unescapeTail inline) offset)
  | '|' :: name => data = some (.named (Text.trim name))
  | _ => data = none

/-- The clauses are exactly the parts that were written, and nothing of one part is read as
another. -/
structure Reads (f : Frame) (dots : Nat) (path : Text) (clauses : Clauses) : Prop where
  before : clauses.before = f.before
  insert : clauses.insert = false
  rewind : clauses.rewind = dots
  path : clauses.path = path
  join : clauses.join = (takeJoin f.join).1
  data : ReadsData f.data clauses.data
  after : clauses.after = f.after

end Frame

/-- Two data sections that differ at most in the offset of an inline template, which is where errors
in it are told. -/
inductive DataClause.Same : Option DataClause → Option DataClause → Prop
  | none : Same none none
  | named (name : Text) : Same (some (.named name)) (some (.named name))
  | inline (source : Text) (offset offset' : Nat) :
    Same (some (.inline source offset)) (some (.inline source offset'))

theorem DataClause.Same.refl (data : Option DataClause) : Same data data := by
  rcases data with _ | _ | _
  · exact .none
  · exact .inline _ _ _
  · exact .named _

theorem Clauses.readData_same {raw raw' : Text} (body body' : Text) (marked : Bool) (rest : Text)
    (h : raw.trimStart.blankTail = raw'.trimStart.blankTail) :
    DataClause.Same (readData raw body marked rest) (readData raw' body' marked rest) := by
  unfold readData
  split
  · rw [h]
    exact .inline _ _ _
  · exact .named _
  · exact .none

open SubstitutionError

/-- A data section has the same meaning wherever it is written: its target is the same up to the
places of what is inside. -/
theorem compileTarget_same {data data' : Option DataClause} (h : DataClause.Same data data')
    {start : Nat} {target : Target} (htarget : (compileTarget start data).result = .ok target)
    (start' : Nat) : ∃ target', (compileTarget start' data').result = .ok target' ∧
      ∀ source source' place place',
        target.Resembles (Placement.Agrees gist source source') place place' target' := by
  cases h with
  | none =>
    rw [compileTarget] at htarget
    cases htarget
    exact ⟨.own, by rw [compileTarget]; rfl, fun _ _ _ _ => .inl ⟨rfl, rfl⟩⟩
  | named name =>
    cases name with
    | nil =>
      rw [compileTarget] at htarget
      cases htarget
      exact ⟨.own, by rw [compileTarget]; rfl, fun _ _ _ _ => .inl ⟨rfl, rfl⟩⟩
    | cons c name =>
      have hnamed (start : Nat) : compileTarget start (some (.named (c :: name))) =
          .done (.named (c :: name)) := by
        rw [compileTarget]
        simp
      rw [hnamed] at htarget
      cases htarget
      exact ⟨.named (c :: name), by rw [hnamed]; rfl, fun _ _ _ _ => .inl ⟨rfl, rfl⟩⟩
  | inline inner offset offset' =>
    obtain ⟨body, hbody, rfl⟩ := compileTarget_inline_eq_ok.1 htarget
    refine ⟨.inline (body.shift (start' + offset')), ?_, fun source source' place place' => ?_⟩
    · exact compileTarget_inline_eq_ok.2 ⟨body, hbody, rfl⟩
    refine .inr ⟨_, _, rfl, rfl, ?_⟩
    apply Body.Resembles.shift
    · exact fun _ _ h => h.inner
    · exact fun _ _ => Placement.agrees_gist rfl rfl rfl

/-! ### Reading the bodies -/

/-- The components of a dotted path are usable as names, so that the clauses are in order. -/
theorem Clauses.components_dottedPath {clauses : Clauses} {first : Text} {more : List Text}
    (hfirst : first.IsComponent) (hmore : ∀ c ∈ more, c.IsComponent)
    (hpath : clauses.path = dottedPath first more) (hinsert : clauses.insert = false) :
    clauses.components = (first, more) ∧ clauses.fault? = none := by
  have hdot {c : Text} (h : c.IsComponent) : '.' ∉ c := fun hmem => by simpa using h.plain '.' hmem
  have hsplit := splitOn_dottedPath (hdot hfirst) fun c hc => hdot (hmore c hc)
  have htrim : more.map Text.trim = more :=
    (List.map_congr_left fun c hc => (hmore c hc).trimmed).trans (List.map_id more)
  have hcomponents : clauses.components = (first, more) := by
    rw [components, hpath, hsplit]
    simp only [hfirst.trimmed, htrim]
  have hempty : (first :: more).any List.isEmpty = false := by
    have hfilled {c : Text} (h : c.IsComponent) : c.isEmpty = false := by simpa using h.ne_nil
    rw [List.any_cons, hfilled hfirst, Bool.false_or, List.any_eq_false]
    intro c hc
    simp [hfilled (hmore c hc)]
  refine ⟨hcomponents, ?_⟩
  rw [fault?, hinsert, hcomponents]
  simp [hempty]

@[simp] theorem Text.trimEnd_close (mark : Option Mark) :
    Text.trimEnd (Mark.close mark) = Mark.close mark := by
  rcases mark with _ | _ | _ <;> decide

theorem Text.blankTail_close (mark : Option Mark) : Text.blankTail (Mark.close mark) = [] := by
  rcases mark with _ | _ | _ <;> decide

namespace Frame

variable {f : Frame}

/-- How the end of a body is split depends on its last component only, not on what stands before it
in the path. -/
theorem split_body (hf : f.Valid) {c : Text} (hc : c.IsComponent) :
    ∃ kept mark, Text.AtBar kept ∧ ∀ dots lead,
      splitAfterMark (f.head dots (lead ++ c) ++ Text.trimEnd (f.data ++ Mark.close f.after)) =
        (f.head dots (lead ++ c) ++ kept, mark) := by
  obtain ⟨front, e, hend, he⟩ : ∃ front e, c ++ f.join = front ++ [e] ∧ Text.Firm e := by
    rcases List.eq_nil_or_concat f.join with hnil | ⟨front, e, hjoin⟩
    · rcases List.eq_nil_or_concat c with hnil' | ⟨front, e, rfl⟩
      · exact absurd hnil' hc.ne_nil
      · exact ⟨front, e, by simp [hnil], hc.firm (by simp)⟩
    · exact ⟨c ++ front, e, by simp [hjoin], hf.join.last e (by simp [hjoin])⟩
  have hhead (dots : Nat) (lead rest : Text) : f.head dots (lead ++ c) ++ rest =
      (Mark.open f.before ++ (List.replicate dots '.' ++ (lead ++ front))) ++ e :: rest := by
    simp [head, headText, hend]
  obtain ⟨kept, mark, hsplit⟩ := splitAfterMark_append he
    (Text.trimEnd (f.data ++ Mark.close f.after))
  refine ⟨kept, mark, ?_, fun dots lead => by rw [hhead, hhead, hsplit]⟩
  have hnone := hsplit []
  rcases hf.data.cases with hdata | ⟨rest, hdata⟩
  · have hclose := splitAfterMark_close he [] f.after
    rw [hdata, List.nil_append (Mark.close f.after), Text.trimEnd_close, hclose] at hnone
    have hnil : kept = [] := by simpa using (congrArg Prod.fst hnone).symm
    rw [hnil]
    exact fun _ h => by cases h
  · obtain ⟨cut, hcut⟩ := splitAfterMark_isPrefix
      ([] ++ e :: Text.trimEnd (f.data ++ Mark.close f.after))
    rw [hnone] at hcut
    simp only [List.nil_append, List.cons_append, List.cons.injEq, true_and] at hcut
    have hprefix : kept <+: f.data ++ Mark.close f.after :=
      List.IsPrefix.trans ⟨cut, hcut⟩ (Text.trimEnd_isPrefix _)
    obtain ⟨more, hmore⟩ := hprefix
    intro d hd
    rw [hdata] at hmore
    cases kept with
    | nil => cases hd
    | cons g kept =>
      obtain rfl : g = d := Option.some.inj hd
      exact (List.cons.inj hmore).1

/-- The value of a body is filled into the target of a dotted name, after some of its components.
This is what is compared at each depth of nesting. -/
def Means (f : Frame) (dots : Nat) (c : Text) (more : List Text) (target : Target) (raw : Text) :
    Prop :=
  ∃ clauses, Directive.read raw = .substitution clauses ∧ clauses.fault? = none ∧
    clauses.before = f.before ∧ clauses.join = (takeJoin f.join).1 ∧ clauses.after = f.after ∧
    ∀ start, ∃ target', clauses.Compiles start (.value dots c target') ∧
      ∀ source source' place place', Placement.Agrees gist source source' place place' →
        place'.joining = clauses.joining →
        (Target.ofLinks more target).Resembles (Placement.Agrees gist source source') place place'
          target'

/-- A body with a single component means the component and what its data section means, with no
links after it. -/
theorem Means.of_read {dots : Nat} {c raw : Text} {more : List Text} {target : Target}
    {data : Option DataClause} (hc : c.IsComponent)
    (hread : Directive.read raw =
      .substitution ⟨f.before, false, dots, c, (takeJoin f.join).1, data, f.after⟩)
    (hdata : ∀ start, ∃ target', (compileTarget start data).result = .ok target' ∧
      ∀ source source' place place', Placement.Agrees gist source source' place place' →
        place'.joining = Clauses.joining
          ⟨f.before, false, dots, c, (takeJoin f.join).1, data, f.after⟩ →
        (Target.ofLinks more target).Resembles (Placement.Agrees gist source source') place place'
          target') :
    f.Means dots c more target raw := by
  have hnil : ∀ c ∈ ([] : List Text), c.IsComponent := by simp
  obtain ⟨hcomponents, hfault⟩ := Clauses.components_dottedPath hc hnil
    (by rw [dottedPath, List.flatMap_nil, List.append_nil] :
      Clauses.path ⟨f.before, false, dots, c, (takeJoin f.join).1, data, f.after⟩ = _) rfl
  refine ⟨_, hread, hfault, rfl, rfl, rfl, fun start => ?_⟩
  obtain ⟨target', htarget, hresembles⟩ := hdata (start + 2)
  refine ⟨target', .inr ⟨rfl, target', htarget, ?_⟩, hresembles⟩
  rw [hcomponents]
  rfl

/-- The body of the last component alone means what the whole dotted name means once the others are
passed. -/
theorem means_body (hf : f.Valid) {first : Text} {more : List Text} (hfirst : first.IsComponent)
    (hmore : ∀ c ∈ more, c.IsComponent) {n start : Nat} {clauses : Clauses} {target : Target}
    (hread : Directive.read (f.body n (dottedPath first more)) = .substitution clauses)
    (hafter : clauses.after = f.after)
    (htarget : (compileTarget start clauses.data).result = .ok target) (dots : Nat) :
    f.Means dots (more.getLastD first) [] target (f.body dots (more.getLastD first)) := by
  obtain ⟨lead, hlead, -⟩ := dottedPath_eq_append hfirst hmore
  have hlast := getLastD_mem hfirst hmore
  obtain ⟨kept, mark, hkept, hsplit⟩ := split_body hf hlast
  have hpath := isPath_dottedPath hfirst hmore
  have hnil : ∀ c ∈ ([] : List Text), c.IsComponent := by simp
  have hpath' : (more.getLastD first).IsPath := by
    simpa [dottedPath] using isPath_dottedPath hlast hnil
  rw [hlead] at hread hpath
  have hwhole := Directive.read_headText f.before n hpath hf.join hkept (hsplit n lead)
  have hpart := Directive.read_headText f.before dots hpath' hf.join hkept (hsplit dots [])
  obtain rfl := Directive.substitution.inj (hread.symm.trans hwhole)
  obtain rfl : mark = f.after := hafter
  refine .of_read hlast hpart fun start' => ?_
  have htail := blankTail_headText_append f.before n hpath hf.join (f.data ++ Mark.close f.after)
  have htail' := blankTail_headText_append f.before dots hpath' hf.join
    (f.data ++ Mark.close f.after)
  have hsame := Clauses.readData_same
    (headText f.before n (lead ++ more.getLastD first) f.join ++ kept)
    (headText f.before dots (more.getLastD first) f.join ++ kept) f.after.isSome kept
    (htail.trans htail'.symm)
  obtain ⟨target', htarget', hresembles⟩ := compileTarget_same hsame htarget start'
  exact ⟨target', htarget', fun source source' place place' _ _ =>
    hresembles source source' place place'⟩

/-- The body of a component is read with the template for those after it as its data section,
whatever that template is. -/
theorem read_nest (hf : f.Valid) (dots : Nat) {c : Text} (hc : c.IsComponent) (inner : Text) :
    ∃ offset, Directive.read
      (f.head dots c ++ ('|' :: '!' :: (enclose inner ++ Mark.close f.after))) = .substitution
        ⟨f.before, false, dots, c, (takeJoin f.join).1, some (.inline (enclose inner) offset),
          f.after⟩ := by
  have hnil : ∀ c ∈ ([] : List Text), c.IsComponent := by simp
  have hpath : c.IsPath := by simpa [dottedPath] using isPath_dottedPath hc hnil
  have htail : '|' :: '!' :: (enclose inner ++ Mark.close f.after) =
      ('|' :: '!' :: '{' :: '{' :: inner ++ ['}']) ++ '}' :: Mark.close f.after := by
    simp [enclose]
  have htrim : Text.trimEnd ('|' :: '!' :: (enclose inner ++ Mark.close f.after)) =
      '|' :: '!' :: (enclose inner ++ Mark.close f.after) := by
    rw [htail, Text.trimEnd_append_cons firm_brace.1, Text.trimEnd_close]
  have hsplit : splitAfterMark (f.head dots c ++
      Text.trimEnd ('|' :: '!' :: (enclose inner ++ Mark.close f.after))) =
        (f.head dots c ++ ('|' :: '!' :: enclose inner), f.after) := by
    have hclose := splitAfterMark_close firm_brace
      (f.head dots c ++ ('|' :: '!' :: '{' :: '{' :: inner ++ ['}'])) f.after
    rw [htrim, htail, ← List.append_assoc, hclose]
    simp [enclose]
  have hbar : Text.AtBar ('|' :: '!' :: enclose inner) := fun d hd => (Option.some.inj hd).symm
  have hread := Directive.read_headText f.before dots hpath hf.join hbar hsplit
  have hblank := blankTail_headText_append f.before dots hpath hf.join
    ('|' :: '!' :: (enclose inner ++ Mark.close f.after))
  rw [htail, Text.blankTail_append_cons firm_brace.1, Text.blankTail_close, ← htail] at hblank
  unfold Clauses.readData at hread
  simp only [hblank, List.append_nil, ite_self, unescapeTail_enclose] at hread
  exact ⟨_, hread⟩

/-- The body of a component with a template for those after it means the component and then what the
template means. -/
theorem means_nest (hf : f.Valid) {dots : Nat} {c next inner : Text} {more : List Text}
    {target : Target} (hc : c.IsComponent) (hinner : inner.IsBody)
    (h : f.Means 0 next more target inner) :
    f.Means dots c (next :: more) target
      (f.head dots c ++ ('|' :: '!' :: (enclose inner ++ Mark.close f.after))) := by
  obtain ⟨offset, hread⟩ := read_nest hf dots hc inner
  refine .of_read hc hread fun start => ?_
  obtain ⟨clauses, hreadInner, hfault, hbefore, hjoin, hafter, hcompiles⟩ := h
  obtain ⟨target', hcompile, hresembles⟩ := hcompiles (start + offset)
  have hinline := compileSource_enclose hinner hreadInner hfault hcompile
  refine ⟨.inline (.piece [] ⟨.ofBody inner (start + offset), clauses.joining, [], []⟩
    (.value 0 next target') (.tail [])), ?_, fun source source' place place' hplace hjoining => ?_⟩
  · rw [compileTarget]
    exact Draft.result_map_eq_ok.2 ⟨_, hinline, rfl⟩
  · have hsame : place.inner.joining = clauses.joining := by
      rw [Placement.inner, hplace.joining, hjoining]
      simp only [Clauses.joining, hbefore, hjoin, hafter]
    have hagrees : Placement.Agrees gist source source' place.inner
        ⟨.ofBody inner (start + offset), clauses.joining, [], []⟩ :=
      Placement.agrees_gist hsame rfl rfl
    exact .inr ⟨_, _, rfl, rfl, .value hagrees (hresembles _ _ _ _ hagrees rfl) (.tail [])⟩

theorem plain_open (before : Option Mark) (dots : Nat) :
    Text.Avoids (Mark.open before ++ List.replicate dots '.') ['{', '}', '\\'] := by
  have hopen : Text.Avoids (Mark.open before) ['{', '}', '\\'] := by
    rcases before with _ | _ | _ <;> decide
  refine hopen.append fun d hd => ?_
  obtain rfl := List.eq_of_mem_replicate hd
  decide

theorem braceless_head (hf : f.Valid) (dots : Nat) {c : Text} (hc : c.IsComponent) :
    Text.Braceless (f.head dots c) := by
  intro d hd
  rw [head, headText, ← List.append_assoc] at hd
  rcases List.mem_append.1 hd with hd | hd
  · exact (plain_open f.before dots).braceless (by decide) (by decide) d hd
  · rcases List.mem_append.1 hd with hd | hd
    · exact hc.plain.braceless (by decide) (by decide) d hd
    · exact hf.joinBraceless d hd

/-- What follows the path of a body decides alone whether the body is whole, as the path has no
braces. -/
theorem isBody_body {n : Nat} {lead c : Text} (hlead : lead.Avoids ['{', '}', '\\'])
    (h : (f.body n (lead ++ c)).IsBody) (dots : Nat) : (f.body dots c).IsBody := by
  have hsplit (n : Nat) (lead : Text) : f.body n (lead ++ c) =
      (Mark.open f.before ++ List.replicate n '.' ++ lead) ++
        (c ++ (f.join ++ (f.data ++ Mark.close f.after))) := by
    simp [body, head, headText]
  have hiff (n : Nat) {lead : Text} (hlead : lead.Avoids ['{', '}', '\\']) :
      (f.body n (lead ++ c)).IsBody ↔
        Text.IsBody (c ++ (f.join ++ (f.data ++ Mark.close f.after))) := by
    have hplain := (plain_open f.before n).append hlead
    rw [hsplit]
    exact Text.isBody_append_iff (hplain.braceless (by decide) (by decide))
      (hplain.getLast?_ne (by decide))
  have hnil : Text.Avoids [] ['{', '}', '\\'] := by decide
  exact (hiff dots hnil).2 ((hiff n hlead).1 h)

/-- Each body of the nested form means what the dotted name means from there on. The induction is on
the components that are left. -/
theorem means_nested (hf : f.Valid) {target : Target} (dots : Nat) {c : Text} {more : List Text}
    (hc : c.IsComponent) (hmore : ∀ c ∈ more, c.IsComponent)
    (hbody : ∀ dots, (f.body dots (more.getLastD c)).IsBody)
    (hlast : ∀ dots, f.Means dots (more.getLastD c) [] target (f.body dots (more.getLastD c))) :
    (f.nested dots c more).IsBody ∧ f.Means dots c more target (f.nested dots c more) := by
  induction more generalizing dots c with
  | nil => exact ⟨hbody dots, hlast dots⟩
  | cons next more ih =>
    rw [List.getLastD_cons] at hbody hlast
    have hnext := hmore next List.mem_cons_self
    obtain ⟨hinner, hmeans⟩ := ih 0 hnext (fun c hc => hmore c (List.mem_cons_of_mem next hc)) hbody
      hlast
    refine ⟨?_, means_nest hf hc hinner hmeans⟩
    have hsplit : f.nested dots c (next :: more) = (f.head dots c ++ ['|', '!']) ++
        (enclose (f.nested 0 next more) ++ Mark.close f.after) := by
      simp [nested]
    rw [hsplit, Text.isBody_append_iff]
    · refine hinner.enclose ?_ ?_
      · rcases f.after with _ | _ | _ <;> simp [Text.Braceless, Mark.close]
      · rcases f.after with _ | _ | _ <;> simp [Mark.close]
    · intro d hd
      rcases List.mem_append.1 hd with hd | hd
      · exact braceless_head hf dots hc d hd
      · simp only [List.mem_cons, List.not_mem_nil, or_false] at hd
        rcases hd with rfl | rfl <;> decide
    · simp

end Frame

/-- The data section of a source that is a single substitution compiles wherever it stands, if the
source compiles. -/
theorem exists_compileTarget {raw : Text} {clauses : Clauses} {compiled : Compiled}
    (hcompile : compile (enclose raw) = .ok compiled)
    (hcut : Outline.ofSource 0 (enclose raw) = ([], .body raw 0 [] .done))
    (hread : Directive.read raw = .substitution clauses) (hinsert : clauses.insert = false)
    (start : Nat) : ∃ target, (compileTarget start clauses.data).result = .ok target := by
  have hroot := (compile_eq_ok.1 hcompile).2
  rw [compileSource, hcut] at hroot
  rcases compileOutline_body_eq_ok.1 hroot with ⟨hcomment, -⟩ |
    ⟨clauses', action, -, hread', -, haction, -⟩
  · rw [hread] at hcomment
    cases hcomment
  · obtain rfl := Directive.substitution.inj (hread.symm.trans hread')
    rcases haction with ⟨hinsert', -⟩ | ⟨-, target, htarget, -⟩
    · rw [hinsert] at hinsert'
      cases hinsert'
    · obtain ⟨target', htarget', -⟩ := compileTarget_same (.refl clauses.data) htarget start
      exact ⟨target', htarget'⟩

/-- A dotted name means its nested form: in plain text, the substitution of a dotted name and that
of its nested form give the same text, or errors of the same kind and name. -/
theorem fillWithin_nested {f : Frame} (hf : f.Valid) (dots : Nat) {first : Text} {more : List Text}
    (hfirst : first.IsComponent) (hmore : ∀ c ∈ more, c.IsComponent) {compiled : Compiled}
    {clauses : Clauses}
    (hcompile : compile (enclose (f.body dots (dottedPath first more))) = .ok compiled)
    (hcut : Outline.ofSource 0 (enclose (f.body dots (dottedPath first more))) =
      ([], .body (f.body dots (dottedPath first more)) 0 [] .done))
    (hread : Directive.read (f.body dots (dottedPath first more)) = .substitution clauses)
    (hparts : f.Reads dots (dottedPath first more) clauses) {before after : Text}
    (hbefore : before.Avoids ['{', '}', '\\']) (hafter : after.Avoids ['{', '}', '\\'])
    (templates : TemplateMap) (limit : Nat) (data : Provider) (t : Tally) :
    seen gist (resultOf (before ++ (enclose (f.body dots (dottedPath first more)) ++ after)) limit
        templates data t) =
      seen gist (resultOf (before ++ (enclose (f.nested dots first more) ++ after)) limit
        templates data t) := by
  have hbraceless {text : Text} (h : text.Avoids ['{', '}', '\\']) : text.Braceless :=
    h.braceless (by decide) (by decide)
  have hlastChar : before.getLast? ≠ some '\\' := hbefore.getLast?_ne (by decide)
  have hraw := Outline.isBody_of_ofSource hcut
  obtain ⟨hcomponents, hfault⟩ := Clauses.components_dottedPath hfirst hmore hparts.path
    hparts.insert
  -- the data section at the place where the surrounding text puts it
  obtain ⟨target, htarget⟩ := exists_compileTarget hcompile hcut hread hparts.insert
    (0 + Text.bytes before + 2)
  have hlast := Frame.means_body hf hfirst hmore hread hparts.after htarget
  obtain ⟨lead, hlead, hplain⟩ := dottedPath_eq_append hfirst hmore
  have hbody := Frame.isBody_body (hplain.mono (by decide)) (hlead ▸ hraw)
  obtain ⟨hnested, clauses', hread', hfault', hbefore', hjoin', hafter', hcompiles⟩ :=
    Frame.means_nested hf dots hfirst hmore hbody hlast
  obtain ⟨target', hcompile', hresembles⟩ := hcompiles (0 + Text.bytes before)
  have hdotted := compileSource_between hraw (hbraceless hbefore) hlastChar (hbraceless hafter)
    hread hfault (.inr ⟨hparts.insert, target, htarget, rfl⟩)
  have hnest := compileSource_between hnested (hbraceless hbefore) hlastChar (hbraceless hafter)
    hread' hfault' hcompile'
  rw [hcomponents, hparts.rewind, hparts.before, hparts.after] at hdotted
  rw [hbefore', hafter'] at hnest
  refine seen_fillWithin (compile_of_compileSource hdotted) (compile_of_compileSource hnest) ?_ rfl
    templates limit data t
  have hagrees (source source' : Text) : Placement.Agrees gist source source'
      (clauses.place (.ofBody (f.body dots (dottedPath first more)) (0 + Text.bytes before)) true
        before after)
      (clauses'.place (.ofBody (f.nested dots first more) (0 + Text.bytes before)) true
        before after) := by
    apply Placement.agrees_gist
    · simp only [Clauses.place, Clauses.joining, hparts.before, hparts.join, hparts.after, hbefore',
        hjoin', hafter']
    · simp only [Clauses.place, hparts.before, hbefore']
    · simp only [Clauses.place, hparts.after, hafter']
  exact .value (hagrees _ _) (hresembles _ _ _ _ (hagrees _ _) rfl) (.tail _)

/-- A list of markers around a name with a separator and an inline template: everything that a frame
can have. -/
def Frame.marked : Frame :=
  ⟨some .line, ['%', ','], ['|', '!', '<', '{', '{', '}', '}'], some .lines⟩

/-- The elements of the first component are filled one by one into the template of the second, with
the text around the whole name only once. -/
theorem fillWithin_nested_list :
    seen gist (resultOf (['x', '\n'] ++
        (enclose (Frame.marked.body 1 (dottedPath ['a'] [['b']])) ++ ['\n', 'y'])) 9 .empty
          (.map none [(['a'], .sequence [.map none [(['b'], .scalar ['1'])],
            .map none [(['b'], .scalar ['2'])]])]) .empty) =
      seen gist (resultOf (['x', '\n'] ++
        (enclose (Frame.marked.nested 1 ['a'] [['b']]) ++ ['\n', 'y'])) 9 .empty
          (.map none [(['a'], .sequence [.map none [(['b'], .scalar ['1'])],
            .map none [(['b'], .scalar ['2'])]])]) .empty) := by
  have hvalid : Frame.marked.Valid := by
    refine ⟨⟨?_, by decide, ?_⟩, by decide, ?_⟩
    · rintro _ ⟨rfl⟩
      rfl
    · rintro _ ⟨rfl⟩
      exact ⟨by decide, by decide, by decide⟩
    · rintro _ ⟨rfl⟩
      rfl
  have hfirst : Text.IsComponent ['a'] := by
    refine ⟨by decide, by decide, by decide, ?_⟩
    rintro _ ⟨rfl⟩
    decide
  have hmore : ∀ c ∈ [['b']], Text.IsComponent c := by
    intro c hc
    obtain rfl := List.mem_singleton.1 hc
    refine ⟨by decide, by decide, by decide, ?_⟩
    rintro _ ⟨rfl⟩
    decide
  have hread : Directive.read (Frame.marked.body 1 (dottedPath ['a'] [['b']])) = .substitution
      ⟨some .line, false, 1, ['a', '.', 'b'], some ⟨false, [',']⟩,
        some (.inline ['<', '{', '{', '}', '}'] 9), some .lines⟩ := by
    rfl
  have hbody : Text.IsBody (Frame.marked.body 1 (dottedPath ['a'] [['b']])) := ⟨by rfl, by rfl⟩
  have hcut : Outline.ofSource 0 (enclose (Frame.marked.body 1 (dottedPath ['a'] [['b']]))) =
      ([], .body (Frame.marked.body 1 (dottedPath ['a'] [['b']])) 0 [] .done) := by
    have hnone : Text.Braceless [] := by simp [Text.Braceless]
    simpa using Outline.ofSource_between hbody 0 hnone (by simp) hnone
  have hcompile : (compile (enclose (Frame.marked.body 1
      (dottedPath ['a'] [['b']])))).toOption.isSome = true := by
    decide +kernel
  obtain ⟨compiled, hcompile⟩ := exists_compile hcompile
  exact fillWithin_nested hvalid 1 hfirst hmore hcompile hcut hread
    ⟨rfl, rfl, rfl, rfl, rfl, ⟨9, rfl⟩, rfl⟩ (by decide) (by decide) .empty 9 _ .empty

end Stencil
