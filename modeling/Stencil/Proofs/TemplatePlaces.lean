import Stencil.Derivation
import Stencil.Proofs.NormalPaths

/-!
# The places of template files

The path of a template file is followed from a base: the directory of the project when it starts
with a slash, and the template directory in it otherwise. Without a step back it stays inside of its
base.
Only a path that starts with two slashes is not followed from the project.
-/
namespace Stencil

namespace FilePath

/-- The path leads to the base or to somewhere below it. Both paths are normalized first, so detours
in them do not matter. -/
def Inside (base path : Text) : Prop :=
  isAbsolute path = isAbsolute base ∧ components (normalize base) <+: components (normalize path)

theorem components_normalize (path : Text) : components (normalize path) = follow [] path := by
  rw [← follow_of_isNormal (isNormal_normalize path), follow_normalize]

theorem isPrefix_step (names : List Text) {piece : Text} (h : piece ≠ ['.', '.']) :
    names <+: step names piece := by
  unfold step
  split_ifs with hstay
  · exact List.prefix_refl names
  · exact List.prefix_append names [piece]

/-- A path without a step back only adds names. What was followed before stays at the front. -/
theorem isPrefix_follow (names : List Text) {path : Text} (h : ['.', '.'] ∉ pieces path) :
    names <+: follow names path := by
  unfold follow
  generalize pieces path = run at h
  induction run generalizing names with
  | nil => exact List.prefix_refl names
  | cons piece run ih =>
    rw [List.mem_cons, not_or] at h
    exact (isPrefix_step names (Ne.symm h.1)).trans (ih _ h.2)

theorem normalize_join_relative (p : Text) {q : Text} (h : isAbsolute q = false) :
    normalize (join p q) = Normal.text ⟨isAbsolute p, follow (follow [] p) q⟩ := by
  rw [normalize, ofPath_join, if_neg (by simp [h])]

theorem isAbsolute_join (p : Text) {q : Text} (h : isAbsolute q = false) :
    isAbsolute (join p q) = isAbsolute p := by
  have hplace := ofPath_join p q
  rw [if_neg (by simp [h]), ofPath_eq, Normal.mk.injEq] at hplace
  exact hplace.1

end FilePath

open FilePath

namespace Derivation

/-- The directory that the path of a template file is followed from. A slash at the start of the
path stands for the project. -/
def templateBase (project path : Text) : Text :=
  if isAbsolute path then project else join project templateDirectory

theorem isAbsolute_templateBase (project path : Text) :
    isAbsolute (templateBase project path) = isAbsolute project := by
  unfold templateBase
  split_ifs
  · rfl
  · exact isAbsolute_join project (by decide)

/-- The place of a template file is where its path leads from its base. A single slash at the start
does not lead to the root of the file system. -/
theorem resolve_eq {project path : Text} (h : ¬ ['/', '/'] <+: path) :
    resolve project path = Normal.text ⟨isAbsolute project,
      follow (components (normalize (templateBase project path))) path⟩ := by
  rw [components_normalize]
  unfold resolve
  split
  · rename_i rest
    have hrest : isAbsolute rest = false := by
      refine isAbsolute_eq_false ?_
      rintro more rfl
      exact h ⟨more, rfl⟩
    rw [normalize_join_relative project hrest, follow_slash]
    rfl
  · rename_i hslash
    have hrelative : isAbsolute path = false := isAbsolute_eq_false hslash
    have hbase : templateBase project path = join project templateDirectory := by
      rw [templateBase, if_neg (by simp [hrelative])]
    rw [normalize_join_relative _ hrelative, hbase, isAbsolute_join project (by decide)]

theorem isName_of_mem_place (project path : Text) : ∀ name ∈
    follow (components (normalize (templateBase project path))) path, IsName name := by
  rw [components_normalize]
  exact isName_of_mem_follow path (isName_of_mem_follow _ fun name hname => by cases hname)

theorem inside_resolve {project path : Text} (h : ¬ ['/', '/'] <+: path)
    (hback : ['.', '.'] ∉ pieces path) :
    Inside (templateBase project path) (resolve project path) := by
  have hnames := isName_of_mem_place project path
  rw [Inside, resolve_eq h, Normal.isAbsolute_text hnames, isAbsolute_templateBase,
    normalize_of_isNormal (Normal.isNormal_text hnames), Normal.components_text hnames]
  exact ⟨rfl, isPrefix_follow _ hback⟩

theorem resolve_of_twoSlashes (project : Text) {path : Text} (h : ['/', '/'] <+: path) :
    resolve project path = normalize path := by
  obtain ⟨rest, rfl⟩ := h
  have hanew : join project ('/' :: rest) = '/' :: rest := if_pos rfl
  show normalize (join project ('/' :: rest)) = normalize ('/' :: '/' :: rest)
  rw [hanew, normalize_eq, normalize_eq, follow_slash, follow_slash, follow_slash]
  rfl

/-- The path of a template file is followed from its base, and without a step back it stays inside
of it. A path that starts with two slashes starts anew at the root instead, wherever the project
is. -/
theorem resolve_follows (project path : Text) :
    (¬ ['/', '/'] <+: path →
      resolve project path = Normal.text ⟨isAbsolute project,
        follow (components (normalize (templateBase project path))) path⟩ ∧
      (['.', '.'] ∉ pieces path → Inside (templateBase project path) (resolve project path))) ∧
    (['/', '/'] <+: path → resolve project path = normalize path) :=
  ⟨fun h => ⟨resolve_eq h, inside_resolve h⟩, resolve_of_twoSlashes project⟩

/-- A project below a detour, and a path with empty pieces and dots. The place is normal, and it is
inside of the template directory. -/
theorem resolve_follows_detour :
    ¬ ['/', '/'] <+: "x/.//y".toList ∧ ['.', '.'] ∉ pieces "x/.//y".toList ∧
      resolve "/a/../b".toList "x/.//y".toList = "/b/templates/x/y".toList ∧
      Inside "/a/../b/templates".toList (resolve "/a/../b".toList "x/.//y".toList) := by
  have hslashes : ¬ ['/', '/'] <+: "x/.//y".toList := by decide
  have hback : ['.', '.'] ∉ pieces "x/.//y".toList := by decide
  obtain ⟨hplace, hinside⟩ := (resolve_follows "/a/../b".toList "x/.//y".toList).1 hslashes
  have hnames : follow (components (normalize (templateBase "/a/../b".toList "x/.//y".toList)))
      "x/.//y".toList = ["b".toList, "templates".toList, "x".toList, "y".toList] := by
    decide
  rw [hnames] at hplace
  exact ⟨hslashes, hback, hplace.trans (by decide), hinside hback⟩

/-- The path of a template file with two slashes is not followed from the project that it is
relative to, and leads out of it. -/
theorem resolve_follows_twoSlashes :
    isAbsolute "/crate".toList = true ∧ ['.', '.'] ∉ pieces "//x".toList ∧
      Normal.text ⟨true, follow (components (normalize (templateBase "/crate".toList "//x".toList)))
        "//x".toList⟩ = "/crate/x".toList ∧
      resolve "/crate".toList "//x".toList = "/x".toList ∧
      ¬ Inside (templateBase "/crate".toList "//x".toList)
        (resolve "/crate".toList "//x".toList) := by
  refine ⟨by decide, by decide, by decide, by decide, fun h => ?_⟩
  exact absurd h.2 (by decide)

end Derivation

end Stencil
