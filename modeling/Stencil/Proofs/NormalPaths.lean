import Mathlib.Tactic.Common
import Stencil.FilePath

/-!
# Normal paths

A normal path is written with names between single slashes. To normalize a path is to follow its
pieces one after another, from the root or from an unknown place: empty pieces and single dots lead
nowhere, and two dots lead back from the last name, if there is one. A joined path then leads where
its second part leads from the place of its first part.
-/
namespace Stencil

/-- The first part and the others are all the parts, so that the facts about splitting in the
library can be used. -/
theorem Text.splitOn_eq (sep : Char) (t : Text) :
    (splitOn sep t).1 :: (splitOn sep t).2 = List.splitOn sep t := by
  induction t with
  | nil => simp [splitOn]
  | cons c rest ih =>
    rw [List.splitOn_cons_eq_if_modifyHead, ← ih]
    by_cases hc : c = sep <;> simp [splitOn, hc]

namespace FilePath

/-! ### Pieces -/

theorem pieces_eq_splitOn (path : Text) : pieces path = List.splitOn '/' path :=
  Text.splitOn_eq '/' path

@[simp] theorem pieces_nil : pieces [] = [[]] := rfl

@[simp] theorem pieces_slash (path : Text) : pieces ('/' :: path) = [] :: pieces path := by
  rw [pieces_eq_splitOn, pieces_eq_splitOn, List.splitOn_cons_eq_if_modifyHead, if_pos (by decide)]

theorem pieces_append_slash (p q : Text) : pieces (p ++ '/' :: q) = pieces p ++ pieces q := by
  simp only [pieces_eq_splitOn, List.splitOn_append_cons_self]

theorem slash_notMem_of_mem_pieces {path piece : Text} (h : piece ∈ pieces path) : '/' ∉ piece := by
  induction path generalizing piece with
  | nil =>
    obtain rfl : piece = [] := by simpa using h
    exact List.not_mem_nil
  | cons c rest ih =>
    rw [pieces_eq_splitOn, List.splitOn_cons_eq_if_modifyHead, ← pieces_eq_splitOn] at h
    obtain ⟨first, more, hpieces⟩ : ∃ first more, pieces rest = first :: more := ⟨_, _, rfl⟩
    rw [hpieces] at h ih
    by_cases hc : c = '/'
    · have hcases : piece = [] ∨ piece ∈ first :: more := by simpa [hc] using h
      rcases hcases with rfl | hmem
      · exact List.not_mem_nil
      · exact ih hmem
    · have hcases : piece = c :: first ∨ piece ∈ more := by simpa [hc] using h
      rcases hcases with rfl | hmem
      · simpa [eq_comm, hc] using ih List.mem_cons_self
      · exact ih (List.mem_cons_of_mem first hmem)

/-! ### Following a path -/

/-- Where one piece of a path leads from some names: on, back, or nowhere for an empty piece and a
single dot. -/
def step (names : List Text) (piece : Text) : List Text :=
  if piece = [] ∨ piece = ['.'] then names
  else if piece = ['.', '.'] then names.dropLast
  else names ++ [piece]

/-- Where the pieces of a path lead from some names, one after another. This is the reference that
paths are judged by. -/
def follow (names : List Text) (path : Text) : List Text :=
  (pieces path).foldl step names

@[simp] theorem step_nil (names : List Text) : step names [] = names := rfl

@[simp] theorem follow_nil (names : List Text) : follow names [] = names := rfl

@[simp] theorem follow_slash (names : List Text) (path : Text) :
    follow names ('/' :: path) = follow names path := by
  simp [follow]

theorem follow_append_slash (names : List Text) (p q : Text) :
    follow names (p ++ '/' :: q) = follow (follow names p) q := by
  rw [follow, pieces_append_slash, List.foldl_append]
  rfl

/-- A name that a path can lead to: not empty, without a slash, and neither of the two kinds of
dots. -/
structure IsName (name : Text) : Prop where
  ne_nil : name ≠ []
  noSlash : '/' ∉ name
  ne_current : name ≠ ['.']
  ne_parent : name ≠ ['.', '.']

theorem IsName.step {name : Text} (h : IsName name) (names : List Text) :
    step names name = names ++ [name] := by
  rw [FilePath.step, if_neg (by simp [h.ne_nil, h.ne_current]), if_neg h.ne_parent]

theorem isName_of_mem_step {names : List Text} {piece : Text} (hpiece : '/' ∉ piece)
    (h : ∀ name ∈ names, IsName name) : ∀ name ∈ step names piece, IsName name := by
  unfold step
  split_ifs with hstay hback
  · exact h
  · exact fun name hname => h name (List.dropLast_subset names hname)
  · intro name hname
    rcases List.mem_append.1 hname with hname | hname
    · exact h name hname
    · obtain rfl := List.mem_singleton.1 hname
      rw [not_or] at hstay
      exact ⟨hstay.1, hpiece, hstay.2, hback⟩

/-- A path leads to names and nothing else, if it starts from names. -/
theorem isName_of_mem_follow {names : List Text} (path : Text) (h : ∀ name ∈ names, IsName name) :
    ∀ name ∈ follow names path, IsName name := by
  have hpieces : ∀ piece ∈ pieces path, '/' ∉ piece := fun _ => slash_notMem_of_mem_pieces
  unfold follow
  generalize pieces path = run at hpieces
  induction run generalizing names with
  | nil => exact h
  | cons piece run ih =>
    rw [List.foldl_cons]
    refine ih (isName_of_mem_step (hpieces piece List.mem_cons_self) h) fun other hother => ?_
    exact hpieces other (List.mem_cons_of_mem piece hother)

/-- Names lead to themselves, one further down with each of them. -/
theorem foldl_step_names {names : List Text} (h : ∀ name ∈ names, IsName name)
    (before : List Text) : names.foldl step before = before ++ names := by
  induction names generalizing before with
  | nil => simp
  | cons name names ih =>
    rw [List.foldl_cons, (h name List.mem_cons_self).step,
      ih fun other hother => h other (List.mem_cons_of_mem name hother), List.append_assoc]
    rfl

/-! ### The place of a path -/

theorem foldl_push_partsOfPiece (place : Normal) (piece : Text) :
    (partsOfPiece piece).foldl Normal.push place =
      { place with names := step place.names piece } := by
  unfold partsOfPiece
  split
  · rfl
  · rfl
  · rfl
  · rename_i hnil hcurrent hparent
    have hstay : ¬ (piece = [] ∨ piece = ['.']) := not_or.2 ⟨hnil, hcurrent⟩
    rw [step, if_neg hstay, if_neg hparent]
    rfl

theorem foldl_push_pieces (place : Normal) (run : List Text) :
    (run.flatMap partsOfPiece).foldl Normal.push place =
      { place with names := run.foldl step place.names } := by
  induction run generalizing place with
  | nil => rfl
  | cons piece run ih => rw [List.flatMap_cons, List.foldl_append, foldl_push_partsOfPiece, ih,
      List.foldl_cons]

/-- The place of a path is where its pieces lead from nothing, at the root or at an unknown
place. -/
theorem ofPath_eq (path : Text) : Normal.ofPath path = ⟨isAbsolute path, follow [] path⟩ := by
  unfold Normal.ofPath parts
  rw [List.foldl_append, foldl_push_pieces]
  by_cases habsolute : isAbsolute path = true
  · rw [if_pos habsolute, habsolute]
    rfl
  · rw [if_neg habsolute, Bool.eq_false_iff.2 habsolute]
    split_ifs <;> rfl

/-- A joined path leads on from the place of its first part, unless its second part starts anew. -/
theorem ofPath_join (p q : Text) : Normal.ofPath (join p q) =
    if isAbsolute q then Normal.ofPath q else ⟨isAbsolute p, follow (follow [] p) q⟩ := by
  unfold join
  split_ifs with hq hend
  · rfl
  · rcases List.eq_nil_or_concat p with rfl | ⟨front, c, rfl⟩
    · simpa [ofPath_eq, isAbsolute] using hq
    · rw [List.concat_eq_append] at *
      obtain rfl : c = '/' := by simpa using hend
      have habsolute : isAbsolute (front ++ '/' :: q) = isAbsolute (front ++ ['/']) := by
        cases front <;> rfl
      rw [ofPath_eq, List.append_assoc, List.singleton_append, follow_append_slash,
        follow_append_slash, follow_nil, habsolute]
  · have habsolute : isAbsolute (p ++ '/' :: q) = isAbsolute p := by
      cases p with
      | nil => exact absurd rfl hend
      | cons c p => rfl
    rw [ofPath_eq, follow_append_slash, habsolute]

/-! ### Writing a place -/

/-- What comes after the slash of the root, if there is one, and the whole path otherwise. -/
def relative (path : Text) : Text :=
  if isAbsolute path then path.tail else path

/-- What is written between the slashes of a path, after the slash of the root. The empty path has
nothing between its slashes. -/
def components (path : Text) : List Text :=
  if relative path = [] then [] else pieces (relative path)

/-- Only names stand between the slashes, and no slash comes after the last one. So nothing can be
left out. -/
structure IsNormal (path : Text) : Prop where
  names : ∀ piece ∈ components path, piece ≠ [] ∧ piece ≠ ['.'] ∧ piece ≠ ['.', '.']
  noTrailing : path.getLast? = some '/' → path = ['/']

theorem isAbsolute_eq_true {path : Text} (h : isAbsolute path = true) :
    ∃ rest, path = '/' :: rest :=
  List.head?_eq_some_iff.1 (by simpa [isAbsolute] using h)

theorem isAbsolute_eq_false {path : Text} (h : ∀ rest, path ≠ '/' :: rest) :
    isAbsolute path = false := by
  rw [← Bool.not_eq_true]
  intro habsolute
  obtain ⟨rest, hrest⟩ := isAbsolute_eq_true habsolute
  exact h rest hrest

theorem root_append_relative (path : Text) :
    (if isAbsolute path then ['/'] else []) ++ relative path = path := by
  unfold relative
  by_cases h : isAbsolute path = true
  · obtain ⟨rest, rfl⟩ := isAbsolute_eq_true h
    rfl
  · rw [if_neg h, if_neg h, List.nil_append]

theorem follow_relative (names : List Text) (path : Text) :
    follow names (relative path) = follow names path := by
  conv_rhs => rw [← root_append_relative path]
  split_ifs
  · rw [List.singleton_append, follow_slash]
  · rw [List.nil_append]

/-- A slash at the end leaves an empty piece after it, which is no name. -/
theorem nil_mem_components {front : Text} (h : front ≠ []) : [] ∈ components (front ++ ['/']) := by
  have hrelative : relative (front ++ ['/']) = relative front ++ ['/'] := by
    obtain ⟨c, rest, rfl⟩ := List.exists_cons_of_ne_nil h
    unfold relative
    split_ifs <;> simp_all [isAbsolute]
  rw [components, if_neg (by simp [hrelative]), hrelative, pieces_append_slash]
  simp

namespace Normal

variable {place : Normal}

/-- Names between slashes are a text that starts with no slash, as the first name is not empty. -/
theorem isAbsolute_intercalate {names : List Text} (h : ∀ name ∈ names, IsName name) :
    isAbsolute (['/'].intercalate names) = false := by
  cases names with
  | nil => rfl
  | cons name names =>
    obtain ⟨hnil, hslash, -⟩ := h name List.mem_cons_self
    obtain ⟨c, rest, rfl⟩ := List.exists_cons_of_ne_nil hnil
    have hc : c ≠ '/' := fun heq => hslash (heq ▸ List.mem_cons_self)
    cases names with
    | nil => simpa [isAbsolute] using hc
    | cons next names => simpa [isAbsolute, List.intercalate_cons_cons] using hc

theorem isAbsolute_text (h : ∀ name ∈ place.names, IsName name) :
    isAbsolute place.text = place.absolute := by
  unfold text
  cases hplace : place.absolute with
  | true => rfl
  | false => simpa using isAbsolute_intercalate h

theorem relative_text (h : ∀ name ∈ place.names, IsName name) :
    relative place.text = ['/'].intercalate place.names := by
  rw [relative, isAbsolute_text h, text]
  cases place.absolute <;> rfl

theorem components_text (h : ∀ name ∈ place.names, IsName name) :
    components place.text = place.names := by
  rw [components, relative_text h]
  by_cases hne : place.names = []
  · simp [hne]
  · have hsplit := List.splitOn_intercalate '/' (fun name hname => (h name hname).noSlash) hne
    rw [← pieces_eq_splitOn] at hsplit
    rw [hsplit]
    split_ifs with hempty
    · rw [hempty] at hsplit
      exact absurd rfl (h [] (by simp [← hsplit])).ne_nil
    · rfl

/-- A place without detours is written as a normal path, at the root as well as anywhere else. -/
theorem isNormal_text (h : ∀ name ∈ place.names, IsName name) : IsNormal place.text := by
  refine ⟨fun piece hpiece => ?_, fun hlast => ?_⟩
  · rw [components_text h] at hpiece
    exact ⟨(h piece hpiece).ne_nil, (h piece hpiece).ne_current, (h piece hpiece).ne_parent⟩
  · obtain ⟨front, hfront⟩ := List.getLast?_eq_some_iff.1 hlast
    by_cases hne : front = []
    · rw [hfront, hne, List.nil_append]
    · have hempty := nil_mem_components hne
      rw [← hfront, components_text h] at hempty
      exact absurd rfl (h [] hempty).ne_nil

end Normal

theorem normalize_eq (path : Text) : normalize path =
    (if isAbsolute path then ['/'] else []) ++ ['/'].intercalate (follow [] path) := by
  rw [normalize, ofPath_eq, Normal.text]
  cases isAbsolute path <;> rfl

/-- What is written between the slashes of a normal path leads to itself, without a step back. -/
theorem follow_of_isNormal {path : Text} (h : IsNormal path) :
    follow [] path = components path := by
  rw [← follow_relative]
  by_cases hempty : relative path = []
  · rw [components, if_pos hempty, hempty]
    rfl
  · have hcomponents : components path = pieces (relative path) := if_neg hempty
    rw [hcomponents]
    refine foldl_step_names (fun piece hpiece => ?_) []
    obtain ⟨hnil, hcurrent, hparent⟩ := h.names piece (hcomponents ▸ hpiece)
    exact ⟨hnil, slash_notMem_of_mem_pieces hpiece, hcurrent, hparent⟩

/-- A normal path stays as it is, which makes normalizing idempotent. -/
theorem normalize_of_isNormal {path : Text} (h : IsNormal path) : normalize path = path := by
  have hrelative : ['/'].intercalate (components path) = relative path := by
    unfold components
    split_ifs with hempty
    · rw [hempty]
      rfl
    · rw [pieces_eq_splitOn, List.intercalate_splitOn]
  rw [normalize_eq, follow_of_isNormal h, hrelative, root_append_relative]

theorem isName_of_mem_ofPath (path : Text) : ∀ name ∈ (Normal.ofPath path).names, IsName name := by
  rw [ofPath_eq]
  exact isName_of_mem_follow path fun name hname => by cases hname

theorem isNormal_normalize (path : Text) : IsNormal (normalize path) :=
  Normal.isNormal_text (isName_of_mem_ofPath path)

theorem isAbsolute_normalize (path : Text) : isAbsolute (normalize path) = isAbsolute path := by
  rw [normalize, Normal.isAbsolute_text (isName_of_mem_ofPath path), ofPath_eq]

theorem follow_normalize (path : Text) : follow [] (normalize path) = follow [] path := by
  rw [follow_of_isNormal (isNormal_normalize path), normalize,
    Normal.components_text (isName_of_mem_ofPath path), ofPath_eq]

/-- To normalize is a projection onto the normal paths that goes through joining. A normal path is
the root, if the path starts there, with the names that the pieces of the path lead to. -/
theorem normalize_projects (p q : Text) :
    IsNormal (normalize p) ∧ isAbsolute (normalize p) = isAbsolute p ∧
      normalize (normalize p) = normalize p ∧
      normalize (join p q) = normalize (join (normalize p) q) ∧
      normalize (join p q) = (if isAbsolute q then normalize q
        else Normal.text ⟨isAbsolute p, follow (follow [] p) q⟩) ∧
      normalize p = (if isAbsolute p then ['/'] else []) ++ ['/'].intercalate (follow [] p) := by
  have hjoin (p : Text) : normalize (join p q) = if isAbsolute q then normalize q
      else Normal.text ⟨isAbsolute p, follow (follow [] p) q⟩ := by
    rw [normalize, ofPath_join]
    split_ifs <;> rfl
  refine ⟨isNormal_normalize p, isAbsolute_normalize p,
    normalize_of_isNormal (isNormal_normalize p), ?_, hjoin p, normalize_eq p⟩
  rw [hjoin, hjoin, isAbsolute_normalize, follow_normalize]

end FilePath

end Stencil
