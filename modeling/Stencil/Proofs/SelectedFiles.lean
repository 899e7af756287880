import Mathlib.Data.List.Nodup
import Stencil.Proofs.Delivery
import Stencil.Proofs.FirstFault

/-!
# Selected files

A directory is loaded file by file, but what comes out depends only on the files that the extension
selects. Different files have different names, so they also differ in what stands before the
extension, and no template takes the place of another one. One selected file that is not text is
enough for the load to fail, and then a session keeps the maps that it has.
-/
namespace Stencil

/-- The text ends with `tail`, and `s` is what stands before that. There is only one such text. -/
theorem Text.stripTail?_eq_some_iff {tail t s : Text} :
    stripTail? tail t = some s ↔ t = s ++ tail := by
  unfold stripTail?
  constructor
  · intro h
    split at h
    · rename_i htail
      obtain ⟨front, rfl⟩ := List.isSuffixOf_iff_suffix.1 htail
      simp at h
      rw [h]
    · simp at h
  · rintro rfl
    rw [if_pos (List.isSuffixOf_iff_suffix.2 (List.suffix_append s tail))]
    simp

/-- Bytes are text when they are the UTF-8 form of one, and of one only. -/
theorem decodeText?_eq_some_iff {bytes : ByteArray} {source : Text} :
    decodeText? bytes = some source ↔ bytes = source.utf8.toByteArray := by
  rw [decodeText?, ← Text.toByteArray_ofList]
  constructor
  · intro h
    obtain ⟨s, hs, rfl⟩ := Option.map_eq_some_iff.1 h
    unfold String.fromUTF8? at hs
    split at hs
    · cases hs
      rw [String.ofList_toList]
      rfl
    · simp at hs
  · rintro rfl
    have hvalid := (String.ofList source).isValidUTF8
    rw [String.fromUTF8?, dif_pos hvalid]
    show some (String.ofList source).toList = some source
    rw [String.toList_ofList]

/-! ### Selecting -/

namespace DirectoryEntry

/-- The entry is a regular file whose name is text that ends with the extension, and before the
extension stands the name of a template. -/
structure Selected (ending : Text) (entry : DirectoryEntry) (name : Text) (content : ByteArray) :
    Prop where
  file : entry.item = .file content
  named : entry.name = some (name ++ ending)
  nonempty : name ≠ []

def IsSelected (ending : Text) (entry : DirectoryEntry) : Prop :=
  ∃ name content, entry.Selected ending name content

variable {ending name : Text} {entry : DirectoryEntry} {content : ByteArray}

theorem selected?_eq_some_iff :
    entry.selected? ending = some (name, content) ↔ entry.Selected ending name content := by
  constructor
  · intro h
    unfold selected? at h
    split at h
    · rename_i hitem hstrip
      cases h
      obtain ⟨full, hfull, hstrip⟩ := Option.bind_eq_some_iff.1 hstrip
      rw [Text.stripTail?_eq_some_iff] at hstrip
      exact ⟨hitem, by rw [hfull, hstrip], List.cons_ne_nil _ _⟩
    · simp at h
  · rintro ⟨hfile, hnamed, hnonempty⟩
    obtain ⟨c, rest, rfl⟩ := List.exists_cons_of_ne_nil hnonempty
    have hstrip : entry.name.bind (Text.stripTail? ending) = some (c :: rest) := by
      rw [hnamed]
      exact Text.stripTail?_eq_some_iff.2 rfl
    simp only [selected?, hfile, hstrip]

theorem isSelected_iff : entry.IsSelected ending ↔ (entry.selected? ending).isSome = true := by
  rw [Option.isSome_iff_exists]
  constructor
  · rintro ⟨name, content, h⟩
    exact ⟨(name, content), selected?_eq_some_iff.2 h⟩
  · rintro ⟨⟨name, content⟩, h⟩
    exact ⟨name, content, selected?_eq_some_iff.1 h⟩

instance (ending : Text) (entry : DirectoryEntry) : Decidable (entry.IsSelected ending) :=
  decidable_of_iff _ isSelected_iff.symm

/-- The template that a selected file with readable content becomes, with its name. It has no form
yet. -/
def loaded? (ending : Text) (entry : DirectoryEntry) : Option (Text × Template) :=
  (entry.selected? ending).bind fun file =>
    (decodeText? file.2).map fun source => (file.1, .new source)

theorem loaded?_eq_some_iff {template : Template} :
    entry.loaded? ending = some (name, template) ↔
      template.isCompiled = false ∧
        entry.Selected ending name template.source.utf8.toByteArray := by
  constructor
  · intro h
    obtain ⟨⟨found, content⟩, hselected, h⟩ := Option.bind_eq_some_iff.1 h
    obtain ⟨source, hsource, h⟩ := Option.map_eq_some_iff.1 h
    cases h
    obtain rfl : content = source.utf8.toByteArray := decodeText?_eq_some_iff.1 hsource
    exact ⟨rfl, selected?_eq_some_iff.1 hselected⟩
  · rintro ⟨hform, hselected⟩
    obtain ⟨source, form⟩ := template
    obtain rfl : form = none := by simpa [Template.isCompiled] using hform
    have hdecode := decodeText?_eq_some_iff.2 (rfl : source.utf8.toByteArray = _)
    rw [loaded?, selected?_eq_some_iff.2 hselected, Option.bind_some, hdecode]
    rfl

end DirectoryEntry

/-! ### Loading -/

namespace TemplateMap

/-- Entries are found under their names when no two of them share one, wherever they are in the
list. -/
theorem get?_extend_of_mem {templates : TemplateMap} {entries : List (Text × Template)}
    {name : Text} {template : Template}
    (hunique : ∀ other, (name, other) ∈ entries → other = template)
    (h : (name, template) ∈ entries) : (templates.extend entries).get? name = some template := by
  induction entries generalizing templates with
  | nil => simp at h
  | cons entry rest ih =>
    have hrest : ∀ other, (name, other) ∈ rest → other = template :=
      fun other hother => hunique other (List.mem_cons_of_mem entry hother)
    show ((templates.insert entry.1 entry.2).extend rest).get? name = some template
    by_cases hmem : (name, template) ∈ rest
    · exact ih hrest hmem
    · obtain rfl : entry = (name, template) := by simpa [hmem, eq_comm] using h
      obtain hsame | ⟨other, hother, hget⟩ :=
        get?_extend (templates.insert name template) rest name
      · rw [hsame, get?_insert, if_pos rfl]
      · rw [hget, hrest other hother]

theorem get?_ofList_iff {entries : List (Text × Template)} {name : Text} {template : Template}
    (hunique : ∀ a b, (name, a) ∈ entries → (name, b) ∈ entries → a = b) :
    (ofList entries).get? name = some template ↔ (name, template) ∈ entries := by
  constructor
  · exact Session.mem_of_get?_ofList
  · intro h
    exact get?_extend_of_mem (fun other hother => hunique other template hother h) h

/-- A map of entries with different names has as many of them, as none takes the place of
another. -/
theorem size_ofList {entries : List (Text × Template)} (h : (entries.map Prod.fst).Nodup) :
    (ofList entries).size = entries.length := by
  apply List.Perm.length_eq
  rw [List.perm_ext_iff_of_nodup (nodup_entries _) (List.Nodup.of_map _ h)]
  rintro ⟨name, template⟩
  rw [← get?_ofList_iff fun a b ha hb => congrArg Prod.snd (List.inj_on_of_nodup_map h ha hb rfl)]
  exact ⟨get?_of_mem, mem_of_get?⟩

end TemplateMap

namespace Directory

/-- The content of each selected file is text. That of other entries does not matter. -/
def Readable (ending : Text) (directory : Directory) : Prop :=
  ∀ entry ∈ directory, ∀ name content, entry.Selected ending name content →
    ∃ source : Text, content = source.utf8.toByteArray

/-- The map has a template for each selected file and no others, and none of them was compiled. -/
structure Gives (ending : Text) (directory : Directory) (templates : TemplateMap) : Prop where
  get? : ∀ name template, templates.get? name = some template ↔ template.isCompiled = false ∧
    ∃ entry ∈ directory, entry.Selected ending name template.source.utf8.toByteArray
  size : templates.size = directory.countP fun entry => decide (entry.IsSelected ending)

variable {ending : Text} {directory : Directory}

theorem readable_cons {entry : DirectoryEntry} :
    Readable ending (entry :: directory) ↔
      (∀ name content, entry.selected? ending = some (name, content) →
        ∃ source, decodeText? content = some source) ∧ directory.Readable ending := by
  simp only [Readable, List.forall_mem_cons, DirectoryEntry.selected?_eq_some_iff,
    decodeText?_eq_some_iff]

theorem loadEntries_of_readable (h : directory.Readable ending) :
    directory.loadEntries ending = .ok (directory.filterMap (DirectoryEntry.loaded? ending)) := by
  induction directory with
  | nil => rfl
  | cons entry rest ih =>
    obtain ⟨hentry, hrest⟩ := readable_cons.1 h
    rw [loadEntries]
    cases hselected : entry.selected? ending with
    | none =>
      have hloaded : entry.loaded? ending = none := by rw [DirectoryEntry.loaded?, hselected]; rfl
      rw [List.filterMap_cons_none hloaded, ← ih hrest]
    | some file =>
      obtain ⟨source, hsource⟩ := hentry file.1 file.2 hselected
      have hloaded : entry.loaded? ending = some (file.1, .new source) := by
        rw [DirectoryEntry.loaded?, hselected, Option.bind_some, hsource]
        rfl
      simp only [hsource, ih hrest, List.filterMap_cons_some hloaded]
      rfl

theorem loadEntries_of_not_readable (h : ¬ directory.Readable ending) :
    directory.loadEntries ending = .error .invalidData := by
  induction directory with
  | nil => exact absurd (fun entry hentry => absurd hentry List.not_mem_nil) h
  | cons entry rest ih =>
    rw [readable_cons] at h
    rw [loadEntries]
    cases hselected : entry.selected? ending with
    | none => exact ih fun hrest => h ⟨by simp [hselected], hrest⟩
    | some file =>
      obtain ⟨name, content⟩ := file
      cases hsource : decodeText? content with
      | none => simp only [hsource]
      | some source =>
        have hrest : ¬ Readable ending rest := by
          intro hrest
          apply h ⟨?_, hrest⟩
          rintro _ _ hfile
          obtain ⟨rfl, rfl⟩ := Prod.mk.inj (Option.some.inj (hselected.symm.trans hfile))
          exact ⟨source, hsource⟩
        simp only [hsource, ih hrest]
        rfl

theorem mem_filterMap_loaded? {name : Text} {template : Template} :
    (name, template) ∈ directory.filterMap (DirectoryEntry.loaded? ending) ↔
      template.isCompiled = false ∧
        ∃ entry ∈ directory, entry.Selected ending name template.source.utf8.toByteArray := by
  simp only [List.mem_filterMap, DirectoryEntry.loaded?_eq_some_iff]
  tauto

/-- Files with different names have different names without the extension, also when the extension
occurs in a name twice. -/
theorem nodup_loaded (h : (directory.filterMap DirectoryEntry.name).Nodup) :
    ((directory.filterMap (DirectoryEntry.loaded? ending)).map Prod.fst).Nodup := by
  rw [List.Nodup, List.pairwise_filterMap] at h
  rw [List.Nodup, List.pairwise_map, List.pairwise_filterMap]
  refine h.imp fun {a b} hne => ?_
  rintro ⟨name, template⟩ ha ⟨name', template'⟩ hb heq
  obtain ⟨-, ha⟩ := DirectoryEntry.loaded?_eq_some_iff.1 ha
  obtain ⟨-, hb⟩ := DirectoryEntry.loaded?_eq_some_iff.1 hb
  apply hne _ ha.named _ hb.named
  rw [show name = name' from heq]

theorem length_loaded (h : directory.Readable ending) :
    (directory.filterMap (DirectoryEntry.loaded? ending)).length =
      directory.countP fun entry => decide (entry.IsSelected ending) := by
  rw [List.length_filterMap_eq_countP]
  apply List.countP_congr
  intro entry hentry
  rw [decide_eq_true_eq, Option.isSome_iff_exists]
  constructor
  · rintro ⟨⟨name, template⟩, hloaded⟩
    exact ⟨name, _, (DirectoryEntry.loaded?_eq_some_iff.1 hloaded).2⟩
  · rintro ⟨name, content, hselected⟩
    obtain ⟨source, rfl⟩ := h entry hentry name content hselected
    exact ⟨(name, .new source), DirectoryEntry.loaded?_eq_some_iff.2 ⟨rfl, hselected⟩⟩

/-- No two templates come in under one name, and so none is lost. -/
theorem eq_of_mem_loaded (h : (directory.filterMap DirectoryEntry.name).Nodup) {name : Text}
    {a b : Template} (ha : (name, a) ∈ directory.filterMap (DirectoryEntry.loaded? ending))
    (hb : (name, b) ∈ directory.filterMap (DirectoryEntry.loaded? ending)) : a = b :=
  congrArg Prod.snd (List.inj_on_of_nodup_map (nodup_loaded h) ha hb rfl)

theorem gives_of_readable (hnames : (directory.filterMap DirectoryEntry.name).Nodup)
    (h : directory.Readable ending) :
    directory.Gives ending (.ofList (directory.filterMap (DirectoryEntry.loaded? ending))) where
  get? name template := by
    rw [← mem_filterMap_loaded?]
    exact TemplateMap.get?_ofList_iff fun a b => eq_of_mem_loaded hnames
  size := by rw [TemplateMap.size_ofList (nodup_loaded hnames), length_loaded h]

theorem load_of_readable (h : directory.Readable ending) :
    directory.load ending =
      .ok (.ofList (directory.filterMap (DirectoryEntry.loaded? ending))) := by
  rw [load, loadEntries_of_readable h]
  rfl

theorem load_of_not_readable (h : ¬ directory.Readable ending) :
    directory.load ending = .error .invalidData := by
  rw [load, loadEntries_of_not_readable h]
  rfl

section

variable {directory' : Directory}
  (h : ∀ entry : DirectoryEntry, entry.IsSelected ending →
    (entry ∈ directory' ↔ entry ∈ directory))

include h

theorem readable_congr : directory'.Readable ending ↔ directory.Readable ending := by
  constructor
  · intro hreadable entry hentry name content hselected
    exact hreadable entry ((h entry ⟨name, content, hselected⟩).2 hentry) name content hselected
  · intro hreadable entry hentry name content hselected
    exact hreadable entry ((h entry ⟨name, content, hselected⟩).1 hentry) name content hselected

theorem mem_loaded_congr (name : Text) (template : Template) :
    (name, template) ∈ directory'.filterMap (DirectoryEntry.loaded? ending) ↔
      (name, template) ∈ directory.filterMap (DirectoryEntry.loaded? ending) := by
  rw [mem_filterMap_loaded?, mem_filterMap_loaded?]
  apply and_congr_right
  intro _
  apply exists_congr
  intro entry
  exact and_congr_left fun hselected => h entry ⟨_, _, hselected⟩

/-- Directories with the same selected files give the same map, in whatever order they are listed
and whatever else is in them. -/
theorem load_congr (hnames : (directory.filterMap DirectoryEntry.name).Nodup) :
    directory'.load ending = directory.load ending := by
  by_cases hreadable : directory.Readable ending
  · rw [load_of_readable hreadable, load_of_readable ((readable_congr h).2 hreadable)]
    apply congrArg Except.ok
    apply TemplateMap.eq_of_get?
    intro name
    ext template
    rw [TemplateMap.get?_ofList_iff fun a b => eq_of_mem_loaded hnames,
      TemplateMap.get?_ofList_iff fun a b => ?_, mem_loaded_congr h]
    rw [mem_loaded_congr h, mem_loaded_congr h]
    exact eq_of_mem_loaded hnames
  · rw [load_of_not_readable hreadable, load_of_not_readable (mt (readable_congr h).1 hreadable)]

end

/-! ### Loading in a session -/

/-- A session that loads a directory has the new map in place of the old one, and the other maps as
they were. -/
theorem run_load_ok {settings : Settings} {templates : TemplateMap}
    (h : directory.load settings.ending = .ok templates) (session : Session) (map : Text) :
    (session.run map (.load settings (.ok directory))).2 = .loaded (.ok templates.size) ∧
      ∀ other, (session.run map (.load settings (.ok directory))).1.map other =
        if other = map then templates else session.map other := by
  have hrun : session.run map (.load settings (.ok directory)) =
      ((session.setMap map (session.map map)).setMap map templates,
        .loaded (.ok templates.size)) := by
    have hload : (Except.ok directory).bind (Directory.load settings.ending) = .ok templates := h
    rw [Session.run, Session.step, hload]
  rw [hrun]
  refine ⟨rfl, fun other => ?_⟩
  rw [Session.map_setMap, Session.map_mention]

/-- A load that fails leaves the session as it is, with the map that was loaded before. -/
theorem run_load_error {settings : Settings} {fault : TransferFault}
    (h : directory.load settings.ending = .error fault) (session : Session) (map : Text) :
    let next := session.run map (.load settings (.ok directory))
    next.2 = .loaded (.error fault) ∧ (∀ other, next.1.map other = session.map other) ∧
      next.1.templates = session.templates ∧ next.1.providers = session.providers ∧
      next.1.tally = session.tally := by
  have hrun : session.run map (.load settings (.ok directory)) =
      (session.setMap map (session.map map), .loaded (.error fault)) := by
    have hload : (Except.ok directory).bind (Directory.load settings.ending) = .error fault := h
    rw [Session.run, Session.step, hload]
  rw [hrun]
  exact ⟨rfl, Session.map_mention session map, rfl, rfl, rfl⟩

/-- A load succeeds exactly when all selected files are text. It then gives one template that is
not compiled for each of them, under the name without the extension and with the content of the
file. Otherwise it fails and keeps what there is. Other entries make no difference, and neither
does the order of the listing. -/
theorem load_selected (settings : Settings) {directory : Directory}
    (hnames : (directory.filterMap DirectoryEntry.name).Nodup) :
    (directory.Readable settings.ending → ∃ templates,
      directory.load settings.ending = .ok templates ∧
      directory.Gives settings.ending templates ∧
      ∀ (session : Session) (map : Text),
        let next := session.run map (.load settings (.ok directory))
        next.2 = .loaded (.ok templates.size) ∧
          ∀ other, next.1.map other = if other = map then templates else session.map other) ∧
    (¬ directory.Readable settings.ending →
      directory.load settings.ending = .error .invalidData ∧
      ∀ (session : Session) (map : Text),
        let next := session.run map (.load settings (.ok directory))
        next.2 = .loaded (.error .invalidData) ∧
          (∀ other, next.1.map other = session.map other) ∧
          next.1.templates = session.templates ∧ next.1.providers = session.providers ∧
          next.1.tally = session.tally) ∧
    ∀ directory' : Directory,
      (∀ entry : DirectoryEntry, entry.IsSelected settings.ending →
        (entry ∈ directory' ↔ entry ∈ directory)) →
      directory'.load settings.ending = directory.load settings.ending := by
  refine ⟨fun hreadable => ?_, fun hreadable => ?_, fun _ hsame => load_congr hsame hnames⟩
  · have hload := load_of_readable hreadable
    exact ⟨_, hload, gives_of_readable hnames hreadable, run_load_ok hload⟩
  · have hload := load_of_not_readable hreadable
    exact ⟨hload, run_load_error hload⟩

/-- Two files whose names end in one extension and in two of them, next to a file that is only an
extension, a directory, a link, and names and contents that are not text. -/
def mixedDirectory : Directory :=
  [⟨some ".t".toList, .file ⟨#[0x61]⟩⟩, ⟨some "a.t.t".toList, .file ⟨#[0x62]⟩⟩,
    ⟨some "d.t".toList, .directory⟩, ⟨none, .file ⟨#[0x63]⟩⟩,
    ⟨some "a.t".toList, .file ⟨#[0xC3, 0xA9]⟩⟩, ⟨some "l.t".toList, .link "a.t".toList⟩,
    ⟨some "x".toList, .file ⟨#[0xFF]⟩⟩, ⟨none, .directory⟩]

/-- Both files come in, and neither takes the place of the other, although one name is the other
with the extension. -/
theorem load_selected_mixed :
    (mixedDirectory.filterMap DirectoryEntry.name).Nodup ∧ mixedDirectory.Readable ".t".toList ∧
      ∃ templates, mixedDirectory.load ".t".toList = .ok templates ∧ templates.size = 2 ∧
        templates.get? "a".toList = some (.new "é".toList) ∧
        templates.get? "a.t".toList = some (.new "b".toList) := by
  have hnames : (mixedDirectory.filterMap DirectoryEntry.name).Nodup := by decide
  have hreadable : mixedDirectory.Readable ".t".toList := by
    have hload : (mixedDirectory.loadEntries ".t".toList).toOption.isSome = true := by
      decide +kernel
    by_contra hnot
    rw [loadEntries_of_not_readable hnot] at hload
    cases hload
  obtain ⟨templates, hload, hgives, -⟩ := (load_selected ⟨[], ".t".toList⟩ hnames).1 hreadable
  refine ⟨hnames, hreadable, templates, hload, ?_, ?_, ?_⟩
  · rw [hgives.size]
    decide +kernel
  · rw [hgives.get?]
    exact ⟨rfl, ⟨some "a.t".toList, .file ⟨#[0xC3, 0xA9]⟩⟩, by simp [mixedDirectory],
      congrArg DirectoryItem.file (by decide), rfl, by decide⟩
  · rw [hgives.get?]
    exact ⟨rfl, ⟨some "a.t.t".toList, .file ⟨#[0x62]⟩⟩, by simp [mixedDirectory],
      congrArg DirectoryItem.file (by decide), rfl, by decide⟩

end Directory

end Stencil
