import Mathlib
import Stencil.Proofs.Entering
import Stencil.Proofs.JoinedTexts
import Stencil.Proofs.Links

/-!
# Links to sequences

A link whose value is a sequence fills the elements one after another, up to the first one that
fails, and joins their texts as the clauses of its substitution say. Only a text that is not empty
is written, with what stands around the link. A template that the link names has to be there even if
the sequence has no elements.
-/
namespace Stencil

open Filling

/-! ### Filling one after another -/

/-- The report with other notes before its own. A step that comes after another one is reported so,
with the notes of both in the order in which they are taken. -/
def Report.after {α : Type} (notes : List Note) (report : Report α) : Report α :=
  { report with notes := notes ++ report.notes }

theorem Report.after_after {α : Type} (notes more : List Note) (report : Report α) :
    (report.after more).after notes = report.after (notes ++ more) := by
  simp [Report.after]

namespace Filling

variable {α β : Type} {p : Filling α} {next : α → Filling β} {notes : List Note} {t t' : Tally}

theorem run_bind_of_ok {a : α} (h : p.run t = ⟨.ok a, notes, t'⟩) :
    (p >>= next).run t = ((next a).run t').after notes := by
  rw [run_bind, h]
  rfl

theorem run_bind_of_error {reason : Stop} (h : p.run t = ⟨.error reason, notes, t'⟩) :
    (p >>= next).run t = ⟨.error reason, notes, t'⟩ := by
  rw [run_bind, h]

theorem run_unwrap_bind {v : Provider} {found : Option Unwrapped}
    {next : Option Unwrapped → Filling β} (h : v.unwrap t = (found, t')) :
    (unwrap v >>= next).run t = (next found).run t' := by
  simp [run_bind, unwrap, h]

end Filling

section

variable (templates : TemplateMap) (enter : Enter) (spot : Spot) (target : Target)
  (scopes : Scopes)

/-- What filling an element by itself reports. The part that the target gives, or else the template
of the element, is filled in a new scope. -/
inductive FillsItem (item : Provider) (t : Tally) : Report Text → Prop
  | empty {t' : Tally} : item.unwrap t = (none, t') →
    FillsItem item t ⟨.error (.failed (.substitution (spot.error .emptyValue))), [], t'⟩
  | given {u : Unwrapped} {part : Part} {t' : Tally} : item.unwrap t = (some u, t') →
    target ≠ .own → target.Chooses templates spot.source spot.place u.own part →
    FillsItem item t ((enter part (u.core :: scopes)).run t')
  | own {core : Core} {own : OwnTemplate} {compiled : Compiled} {t' : Tally} :
    item.unwrap t = (some ⟨core, some own⟩, t') → target = .own →
    own.template.compile = .ok compiled →
    FillsItem item t (((enter compiled.part (core :: scopes)).run t').after
      [.used (.own own.cell) own.template])
  | malformed {core : Core} {own : OwnTemplate} {e : SyntaxError} {t' : Tally} :
    item.unwrap t = (some ⟨core, some own⟩, t') → target = .own →
    own.template.compile = .error e →
    FillsItem item t ⟨.error (.failed (.malformed e)), [.used (.own own.cell) own.template], t'⟩
  | noTemplate {core : Core} {t' : Tally} : item.unwrap t = (some ⟨core, none⟩, t') →
    target = .own →
    FillsItem item t ⟨.error (.failed (.substitution (spot.error .noElementTemplate))), [], t'⟩

/-- Filled one after another, the items give these texts. The counters are passed on from item to
item, and the notes are those of all items. -/
inductive FillsItems : List Provider → Tally → List Text → List Note → Tally → Prop
  | nil {t : Tally} : FillsItems [] t [] [] t
  | cons {item : Provider} {rest : List Provider} {text : Text} {texts : List Text}
      {notes more : List Note} {t t' t'' : Tally} :
    FillsItem templates enter spot target scopes item t ⟨.ok text, notes, t'⟩ →
    FillsItems rest t' texts more t'' →
    FillsItems (item :: rest) t (text :: texts) (notes ++ more) t''

/-- Filled one after another, an item fails for this reason. The items before it give texts, and
those after it are not filled at all. -/
inductive FailsItems : List Provider → Tally → Stop → List Note → Tally → Prop
  | here {item : Provider} {rest : List Provider} {reason : Stop} {notes : List Note}
      {t t' : Tally} :
    FillsItem templates enter spot target scopes item t ⟨.error reason, notes, t'⟩ →
    FailsItems (item :: rest) t reason notes t'
  | later {item : Provider} {rest : List Provider} {text : Text} {reason : Stop}
      {notes more : List Note} {t t' t'' : Tally} :
    FillsItem templates enter spot target scopes item t ⟨.ok text, notes, t'⟩ →
    FailsItems rest t' reason more t'' → FailsItems (item :: rest) t reason (notes ++ more) t''

end

/-- Fills a link of a substitution: the value of its name, as many scopes out as there are dots, is
filled as the target says. -/
def Spot.fillLink (spot : Spot) (templates : TemplateMap) (enter : Enter) (dots : Nat)
    (target : Target) (scopes : Scopes) : Filling Text :=
  fillAction templates enter spot.source spot.place scopes (.value dots spot.name target)

/-- A template name as the target is one of the map, and its template compiles. Nothing is asked of
targets of another kind. -/
def Target.Available (templates : TemplateMap) (target : Target) : Prop :=
  ∀ name, target = .named name →
    ∃ template compiled, templates.get? name = some template ∧ template.compile = .ok compiled

/-- What is noted when the part of a target is asked for. A template of the map is used then, even
if no element is filled into it. -/
def Target.uses (templates : TemplateMap) : Target → List Note
  | .named name => (templates.get? name).toList.map fun template => .used (.named name) template
  | _ => []

section

variable {templates : TemplateMap} {enter : Enter} {spot : Spot} {target : Target}
  {scopes : Scopes} {given : Option Part} {item : Provider} {items : List Provider} {t t' : Tally}

theorem Target.Supplied.eq_none {source : Text} {place : Placement}
    (h : Target.own.Supplied templates source place given) : given = none := by
  rcases h with ⟨-, h⟩ | ⟨part, -, hchooses⟩
  · exact h
  · cases hchooses none

theorem FillsItem.run_eq (hgiven : target.Supplied templates spot.source spot.place given)
    {report : Report Text}
    (h : FillsItem templates enter spot target scopes item t report) :
    (fillElement enter spot given scopes item).run t = report := by
  cases h with
  | empty hitem => exact run_unwrap_bind hitem
  | given hitem hne hchooses =>
    rcases hgiven with ⟨hown, -⟩ | ⟨part', rfl, hchooses'⟩
    · exact absurd hown hne
    · obtain rfl := hchooses.unique (hchooses' _)
      exact run_unwrap_bind hitem
  | own hitem hown hcompile =>
    subst hown
    obtain rfl := hgiven.eq_none
    refine (run_unwrap_bind hitem).trans ?_
    simp only [choosePart, ownPart, hcompile]
    rfl
  | malformed hitem hown hcompile =>
    subst hown
    obtain rfl := hgiven.eq_none
    refine (run_unwrap_bind hitem).trans ?_
    simp only [choosePart, ownPart, hcompile]
    rfl
  | noTemplate hitem hown =>
    subst hown
    obtain rfl := hgiven.eq_none
    exact run_unwrap_bind hitem

/-- An element is filled in one of these ways, unless the target gives no part. So the ways are all
there are, and each of them reports what filling the element does. -/
theorem exists_fillsItem (hgiven : target.Supplied templates spot.source spot.place given)
    (item : Provider) (t : Tally) :
    ∃ report, FillsItem templates enter spot target scopes item t report := by
  cases hitem : item.unwrap t with
  | mk found t' =>
    cases found with
    | none => exact ⟨_, .empty hitem⟩
    | some u =>
      obtain ⟨core, own⟩ := u
      by_cases htarget : target = .own
      · cases own with
        | none => exact ⟨_, .noTemplate hitem htarget⟩
        | some own =>
          cases hcompile : own.template.compile with
          | error e => exact ⟨_, .malformed hitem htarget hcompile⟩
          | ok compiled => exact ⟨_, .own hitem htarget hcompile⟩
      · rcases hgiven with ⟨hown, -⟩ | ⟨part, -, hchooses⟩
        · exact absurd hown htarget
        · exact ⟨_, .given hitem htarget (hchooses own)⟩

theorem FillsItems.run_eq (hgiven : target.Supplied templates spot.source spot.place given)
    {texts : List Text} {notes : List Note}
    (h : FillsItems templates enter spot target scopes items t texts notes t') :
    (fillElements enter spot given scopes items).run t = ⟨.ok texts, notes, t'⟩ := by
  induction h with
  | nil => rfl
  | cons hitem _ ih =>
    refine (run_bind_of_ok (hitem.run_eq hgiven)).trans ?_
    rw [run_map, ih]
    rfl

theorem FailsItems.run_eq (hgiven : target.Supplied templates spot.source spot.place given)
    {reason : Stop} {notes : List Note}
    (h : FailsItems templates enter spot target scopes items t reason notes t') :
    (fillElements enter spot given scopes items).run t = ⟨.error reason, notes, t'⟩ := by
  induction h with
  | here hitem => exact run_bind_of_error (hitem.run_eq hgiven)
  | later hitem _ ih =>
    refine (run_bind_of_ok (hitem.run_eq hgiven)).trans ?_
    rw [run_map, ih]
    rfl

/-- Either all elements give texts or one of them is the first to fail. What happens to a sequence
is thus known from its elements taken one by one. -/
theorem fillsItems_or_failsItems (hgiven : target.Supplied templates spot.source spot.place given)
    (items : List Provider) (t : Tally) :
    (∃ texts notes t',
      FillsItems templates enter spot target scopes items t texts notes t') ∨
    ∃ reason notes t',
      FailsItems templates enter spot target scopes items t reason notes t' := by
  induction items generalizing t with
  | nil => exact .inl ⟨[], [], t, .nil⟩
  | cons item rest ih =>
    obtain ⟨⟨result, notes, t'⟩, hitem⟩ := exists_fillsItem hgiven item t
    cases result with
    | error reason => exact .inr ⟨_, _, _, .here hitem⟩
    | ok text =>
      rcases ih t' with ⟨_, _, _, hrest⟩ | ⟨_, _, _, hrest⟩
      · exact .inl ⟨_, _, _, .cons hitem hrest⟩
      · exact .inr ⟨_, _, _, .later hitem hrest⟩

/-- The part of an available target is there, whatever the counters. Asking for it notes what the
target uses and leaves the counters alone. -/
theorem run_targetPart (spot : Spot) (h : target.Available templates) :
    ∃ given, target.Supplied templates spot.source spot.place given ∧
      ∀ t, (targetPart templates spot target).run t = ⟨.ok given, target.uses templates, t⟩ := by
  match target with
  | .own => exact ⟨none, .inl ⟨rfl, rfl⟩, fun t => rfl⟩
  | .inline body => exact ⟨_, .inr ⟨_, rfl, fun own => .inline⟩, fun t => rfl⟩
  | .link other target => exact ⟨_, .inr ⟨_, rfl, fun own => .link⟩, fun t => rfl⟩
  | .named other =>
    obtain ⟨template, compiled, hget, hcompile⟩ := h other rfl
    refine ⟨_, .inr ⟨_, rfl, fun own => .named hget hcompile⟩, fun t => ?_⟩
    simp only [targetPart, namedPart, Target.uses, hget, hcompile]
    rfl

theorem run_targetPart_missing {name : Text} (hget : templates.get? name = none) :
    (targetPart templates spot (.named name)).run t =
      ⟨.error (.failed (.substitution (Spot.error { spot with name := name } .missingTemplate))),
        [], t⟩ := by
  simp only [targetPart, namedPart, hget]
  rfl

theorem run_targetPart_malformed {name : Text} {template : Template} {e : SyntaxError}
    (hget : templates.get? name = some template) (hcompile : template.compile = .error e) :
    (targetPart templates spot (.named name)).run t =
      ⟨.error (.failed (.malformedNamed name e)), [.used (.named name) template], t⟩ := by
  simp only [targetPart, namedPart, hget, hcompile]
  rfl

section

variable {dots depth : Nat} {v : Provider} {notes : List Note}

/-- Once the value and the part of the target are there, a link fills the value. The notes of the
target come before those of the value. -/
theorem run_link (hv : scopes.Resolves dots spot.name depth v)
    (htarget : (targetPart templates spot target).run t = ⟨.ok given, notes, t⟩) :
    (spot.fillLink templates enter dots target scopes).run t =
      ((fillValue enter spot given scopes v).run t).after
        ((if 0 < depth then [.outer spot.name depth] else []) ++ notes) := by
  refine (run_bind_of_ok ((spot.resolvesIn dots scopes).found depth v hv t)).trans ?_
  rw [run_bind_of_ok htarget, Report.after_after]

/-- Without the part of its target a link fails, whatever the value is. The value is looked up
before that, but it is not unwrapped. -/
theorem run_link_of_error {reason : Stop} (hv : scopes.Resolves dots spot.name depth v)
    (htarget : (targetPart templates spot target).run t = ⟨.error reason, notes, t⟩) :
    (spot.fillLink templates enter dots target scopes).run t =
      ⟨.error reason, (if 0 < depth then [.outer spot.name depth] else []) ++ notes, t⟩ := by
  refine (run_bind_of_ok ((spot.resolvesIn dots scopes).found depth v hv t)).trans ?_
  rw [run_bind_of_error htarget, Report.after]

end

end

/-! ### Filling and joining -/

/-- How a link with these clauses fills the items of its value, where it notes `outer` first and the
counters go from `t` to `t'` when it takes the wrappers off the value. -/
structure Clauses.JoinsItems (clauses : Clauses) (templates : TemplateMap) (enter : Enter)
    (spot : Spot) (dots : Nat) (target : Target) (scopes : Scopes) (items : List Provider)
    (outer : List Note) (t t' : Tally) : Prop where
  /-- Without the template that the link names, no item is filled. The error is about that name,
  even if there are no items. -/
  missing : ∀ other, target = .named other → templates.get? other = none →
    (spot.fillLink templates enter dots target scopes).run t =
      ⟨.error (.failed (.substitution (Spot.error { spot with name := other } .missingTemplate))),
        outer, t⟩
  malformed : ∀ other template e, target = .named other → templates.get? other = some template →
    template.compile = .error e →
    (spot.fillLink templates enter dots target scopes).run t =
      ⟨.error (.failed (.malformedNamed other e)), outer ++ [.used (.named other) template], t⟩
  either : target.Available templates →
    (∃ texts notes t'', FillsItems templates enter spot target scopes items t' texts notes t'') ∨
    ∃ reason notes t'', FailsItems templates enter spot target scopes items t' reason notes t''
  failed : target.Available templates → ∀ reason notes t'',
    FailsItems templates enter spot target scopes items t' reason notes t'' →
    (spot.fillLink templates enter dots target scopes).run t =
      ⟨.error reason, outer ++ target.uses templates ++ notes, t''⟩
  joined : target.Available templates → ∀ texts notes t'',
    FillsItems templates enter spot target scopes items t' texts notes t'' →
    (spot.fillLink templates enter dots target scopes).run t =
      ⟨.ok (clauses.joined texts), outer ++ target.uses templates ++ notes, t''⟩
  /-- The texts are joined and written with what stands around the link. Nothing is written around
  an empty text. -/
  written : target.Available templates → ∀ texts notes t'',
    FillsItems templates enter spot target scopes items t' texts notes t'' → ∀ literal rest,
      let text := clauses.joined texts
      let around := if text = [] then [] else spot.place.leading ++ text ++ spot.place.trailing
      let report := (fillBody templates enter spot.source scopes rest).run t''
      (fillBody templates enter spot.source scopes
          (.piece literal spot.place (.value dots spot.name target) rest)).run t =
        ⟨report.result.map (literal ++ around ++ ·),
          outer ++ target.uses templates ++ notes ++ report.notes, report.tally⟩

theorem joinsItems_of_joining {templates : TemplateMap} {enter : Enter} {spot : Spot}
    {dots depth : Nat} {target : Target} {scopes : Scopes} {clauses : Clauses} {v : Provider}
    {items : List Provider} {own : Option OwnTemplate} {t t' : Tally}
    (hjoining : spot.place.joining = clauses.joining)
    (hv : scopes.Resolves dots spot.name depth v)
    (hitems : v.unwrap t = (some ⟨.sequence items, own⟩, t')) :
    clauses.JoinsItems templates enter spot dots target scopes items
      (if 0 < depth then [.outer spot.name depth] else []) t t' := by
  have hvalue (given : Option Part) : (fillValue enter spot given scopes v).run t =
      (clauses.joined <$> fillElements enter spot given scopes items).run t' := by
    refine (run_unwrap_bind hitems).trans ?_
    simp only [hjoining, funext clauses.join_joining]
  have hjoined : target.Available templates → ∀ texts notes t'',
      FillsItems templates enter spot target scopes items t' texts notes t'' →
      (spot.fillLink templates enter dots target scopes).run t =
        ⟨.ok (clauses.joined texts), (if 0 < depth then [.outer spot.name depth] else []) ++
          target.uses templates ++ notes, t''⟩ := by
    intro havailable texts notes t'' hfills
    obtain ⟨given, hgiven, hrun⟩ := run_targetPart spot havailable
    rw [run_link hv (hrun t), hvalue, run_map, hfills.run_eq hgiven]
    rfl
  refine ⟨?_, ?_, ?_, ?_, hjoined, ?_⟩
  · rintro other rfl hget
    rw [run_link_of_error hv (run_targetPart_missing hget), List.append_nil]
  · rintro other template e rfl hget hcompile
    exact run_link_of_error hv (run_targetPart_malformed hget hcompile)
  · intro havailable
    obtain ⟨given, hgiven, -⟩ := run_targetPart spot havailable
    exact fillsItems_or_failsItems hgiven items t'
  · intro havailable reason notes t'' hfails
    obtain ⟨given, hgiven, hrun⟩ := run_targetPart spot havailable
    rw [run_link hv (hrun t), hvalue, run_map, hfails.run_eq hgiven]
    rfl
  · intro havailable texts notes t'' hfills literal rest
    refine (run_bind_of_ok (hjoined havailable texts notes t'' hfills)).trans ?_
    rw [run_map, Report.after]
    cases clauses.joined texts <;> simp [Placement.wrap]

/-- A link whose value is a sequence fills the elements one by one, until one of them fails, and
joins their texts as the clauses of its substitution say. -/
theorem fillAction_sequence {source : Text} {compiled : Compiled} {body : Body}
    {piece : Body.Piece} {i : Nat} {place : Placement} {dots : Nat} {name : Text} {target : Target}
    (hcompile : compile source = .ok compiled) (hbody : compiled.root.Holds body)
    (hpiece : body.pieces[i]? = some piece) (hlink : piece.Link place dots name target) :
    ∃ text start whole raw clauses, source.Holds text ∧
      (compileSource start text).result = .ok body ∧ text.pieces[i]? = some (whole, raw) ∧
      Directive.read raw = .substitution clauses ∧
      (∀ texts, (texts.foldl place.joining.write ([], true)).1 = clauses.joined texts) ∧
      ∀ (templates : TemplateMap) (enter : Enter) (scopes : Scopes) (depth : Nat) (v : Provider)
        (items : List Provider) (own : Option OwnTemplate) (t t' : Tally),
        scopes.Resolves dots name depth v → v.unwrap t = (some ⟨.sequence items, own⟩, t') →
        clauses.JoinsItems templates enter ⟨source, place, name⟩ dots target scopes items
          (if 0 < depth then [.outer name depth] else []) t t' := by
  obtain ⟨text, start, whole, raw, clauses, htext, hsource, hraw, hread, hjoining⟩ :=
    compile_joining hcompile hbody hpiece hlink
  refine ⟨text, start, whole, raw, clauses, htext, hsource, hraw, hread, fun texts => ?_,
    fun _ _ _ _ _ _ _ _ _ hv hitems => joinsItems_of_joining hjoining hv hitems⟩
  rw [Joining.foldl_write, hjoining, clauses.join_joining]

/-- A leading separator between markers. What the markers took is written again only because the
joined text is not empty. -/
def joinedSource : Text :=
  "a\n \x7b\x7b<v%%, |!\x7b\x7b\x7d\x7d>\x7d\x7d\nb".toList

def joinedPlace : Placement :=
  ⟨⟨3, 20⟩, ⟨[',', ' '], true, true⟩, [' '], ['\n']⟩

/-- The template for the elements, whose empty name stands for the element itself. It has no markers
and no separator of its own. -/
def joinedElement : Body :=
  .piece [] ⟨⟨13, 17⟩, ⟨['\n'], false, false⟩, [], []⟩ (.value 0 [] .own) (.tail [])

def joinedTarget : Target :=
  .inline joinedElement

def joinedBody : Body :=
  .piece ['a', '\n'] joinedPlace (.value 0 ['v'] joinedTarget) (.tail ['b'])

/-- An empty text and a counter are among the elements. The empty text is left out by the joining,
and the counter has another text at each use. -/
def joinedItems : List Provider :=
  [.scalar ['x'], .scalar [], .pointer (.counter 0)]

def joinedScope : Core :=
  .map none [(['v'], .delegate none (.sequence joinedItems))]

def joinedPiece : Body.Piece :=
  ⟨['a', '\n'], joinedPlace, .value 0 ['v'] joinedTarget⟩

theorem fillAction_sequence_counter :
    compile joinedSource = .ok ⟨joinedSource, joinedBody⟩ ∧ joinedBody.Holds joinedBody ∧
    joinedBody.pieces[0]? = some joinedPiece ∧ joinedPiece.Link joinedPlace 0 ['v'] joinedTarget ∧
    Scopes.Resolves [joinedScope] 0 ['v'] 0 (.delegate none (.sequence joinedItems)) ∧
    FillsItems .empty (fillPart .empty 8) ⟨joinedSource, joinedPlace, ['v']⟩ joinedTarget
      [joinedScope] joinedItems .empty [['x'], [], ['1']] [] ⟨[(0, 1)]⟩ ∧
    (fillBody .empty (fillPart .empty 8) joinedSource [joinedScope] joinedBody).run .empty =
      ⟨.ok "a\n , x, 1\nb".toList, [], ⟨[(0, 1)]⟩⟩ := by
  have hcompile : compile joinedSource = .ok ⟨joinedSource, joinedBody⟩ := by cbv
  have hpiece : joinedBody.pieces[0]? = some joinedPiece := rfl
  have hlink : joinedPiece.Link joinedPlace 0 ['v'] joinedTarget := .first rfl
  have hv : Scopes.Resolves [joinedScope] 0 ['v'] 0 (.delegate none (.sequence joinedItems)) :=
    .entry (by simp) (by simp) rfl rfl (by simp)
  have hfills : FillsItems .empty (fillPart .empty 8) ⟨joinedSource, joinedPlace, ['v']⟩
      joinedTarget [joinedScope] joinedItems .empty [['x'], [], ['1']] [] ⟨[(0, 1)]⟩ := by
    have hitem {item : Provider} {u : Unwrapped} {text : Text} {t t' : Tally}
        (hunwrap : item.unwrap t = (some u, t'))
        (hrun : (fillPart .empty 8 ⟨joinedSource, joinedElement⟩ [u.core, joinedScope]).run t' =
          ⟨.ok text, [], t'⟩) :
        FillsItem .empty (fillPart .empty 8) ⟨joinedSource, joinedPlace, ['v']⟩ joinedTarget
          [joinedScope] item t ⟨.ok text, [], t'⟩ :=
      hrun ▸ .given hunwrap (by simp [joinedTarget]) .inline
    exact .cons (hitem rfl rfl) (.cons (hitem rfl rfl) (.cons (hitem rfl rfl) .nil))
  obtain ⟨text, start, whole, raw, clauses, -, -, -, -, hwrite, hjoins⟩ :=
    fillAction_sequence hcompile .self hpiece hlink
  have hjoined : clauses.joined [['x'], [], ['1']] = ", x, 1".toList := (hwrite _).symm
  have havailable : joinedTarget.Available .empty := fun other hother => by
    simp [joinedTarget] at hother
  have hwritten := (hjoins .empty (fillPart .empty 8) _ _ _ _ _ _ _ hv rfl).written havailable _ _ _
    hfills ['a', '\n'] (.tail ['b'])
  rw [hjoined] at hwritten
  exact ⟨hcompile, .self, hpiece, hlink, hv, hfills, hwritten⟩

/-- A name with a template that is not there. The value of the name will be a sequence without
elements. -/
def unsuppliedSource : Text :=
  "\x7b\x7bv|t\x7d\x7d".toList

/-- No element fails, but the link does not give the empty text. The template that it names is
missing, and that is the error of the whole fill. -/
theorem fillAction_sequence_unsupplied :
    Directive.read "v|t".toList =
      .substitution ⟨none, false, 0, ['v'], none, some (.named ['t']), none⟩ ∧
    Clauses.joined ⟨none, false, 0, ['v'], none, some (.named ['t']), none⟩ [] = [] ∧
    (∀ place scopes, FillsItems .empty (fillPart .empty 8) ⟨unsuppliedSource, place, ['v']⟩
      (.named ['t']) scopes [] .empty [] [] .empty) ∧
    (((Template.new unsuppliedSource).fillWithin 9 .empty
        (.map none [(['v'], .sequence [])])).run .empty).result =
      .error (.failed (.substitution
        ⟨.missingTemplate, ['t'], unsuppliedSource, unsuppliedSource⟩)) :=
  ⟨by decide +kernel, rfl, fun _ _ => .nil, by decide +kernel⟩

end Stencil
