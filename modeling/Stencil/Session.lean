import Stencil.Check
import Stencil.Directory
import Stencil.Fill
import Stencil.Shape
import Stencil.Sink

/-!
# Sessions

A session holds templates, template maps and providers by name and takes one step at a time.
Each step gives a reply. Templates keep their compiled form from the first step that needed
it, and counters go on counting from step to step.

Steps come one after another, so what two callers could see of each other in the middle of a step
is not told. A fill that enters more templates than the limit of the session allows is stopped.
-/
namespace Stencil

/-! ## Keeping compiled forms -/

namespace Note

/-- Whether the template at a site was asked for its form. Then it has its form afterwards, if it
compiles. -/
def usedAt (notes : List Note) (site : Site) : Bool :=
  notes.any fun
    | .used other _ => other == site
    | .outer _ _ => false

end Note

/-- A template map after a fill with these notes: what was asked for has its form now. -/
def TemplateMap.settle (notes : List Note) (templates : TemplateMap) : TemplateMap :=
  templates.mapTemplates fun name template =>
    if Note.usedAt notes (.named name) then template.prepare else template

def OwnTemplate.settle (notes : List Note) (own : OwnTemplate) : OwnTemplate :=
  if Note.usedAt notes (.own own.cell) then { own with template := own.template.prepare } else own

mutual

/-- A provider after a fill with these notes. Only the templates in it may change, and of them only
the forms. -/
def Provider.settle (notes : List Note) : Provider → Provider
  | .scalar text => .scalar text
  | .sequence items => .sequence (settleItems notes items)
  | .map own entries => .map (own.map (OwnTemplate.settle notes)) (settleEntries notes entries)
  | .absent => .absent
  | .present inner => .present (inner.settle notes)
  | .pointer inner => .pointer (inner.settle notes)
  | .callback inner => .callback (inner.settle notes)
  | .delegate own inner => .delegate (own.map (OwnTemplate.settle notes)) (inner.settle notes)
  | .counter id => .counter id
  | .json value => .json value

def Provider.settleItems (notes : List Note) : List Provider → List Provider
  | [] => []
  | item :: rest => item.settle notes :: settleItems notes rest

def Provider.settleEntries (notes : List Note) : List (Text × Provider) → List (Text × Provider)
  | [] => []
  | (key, value) :: rest => (key, value.settle notes) :: settleEntries notes rest

end

/-! ## Named values -/

/-- Values by name, the names in the order in which they came. A new value under a known name takes
the old place. -/
abbrev Named (α : Type) := List (Text × α)

namespace Named

def put {α : Type} (name : Text) (value : α) : Named α → Named α
  | [] => [(name, value)]
  | (key, old) :: rest =>
    if key = name then (name, value) :: rest else (key, old) :: put name value rest

end Named

/-! ## Steps -/

structure Session where
  templates : Named Template
  maps : Named TemplateMap
  providers : Named Provider
  tally : Tally
  /-- How many parts may be entered at the same time in a fill. No step changes it. -/
  limit : Nat

inductive Step
  | new (id source : Text)
  | clone (id target : Text)
  | source (id : Text)
  | describe (id : Text)
  | isCompiled (id : Text)
  | compile (id : Text)
  | fill (id : Text) (data : Provider)
  /-- Fills without named templates, whatever the map of the step holds. -/
  | render (id : Text) (data : Provider)
  | fillInto (id : Text) (data : Provider) (sink : Sink)
  | store (id : Text) (data : Provider)
  | clearMap
  | cloneMap (target : Text)
  | replaceMap (entries : List (Text × Template))
  | extendMap (entries : List (Text × Template))
  | insert (name source : Text)
  | insertCopy (name id : Text)
  | get (name : Text)
  | contains (name : Text)
  | size
  | names
  | entries
  | check
  | load (settings : Settings) (directory : Except TransferFault Directory)

/-- Why a sink did not get a text: there was none, or the sink did not take it. -/
inductive DeliveryError
  | fill (reason : Stop)
  | sink (fault : TransferFault)

/-- The kind of fault that a delivery error is to its caller: a text that cannot be made is
invalid data. -/
def DeliveryError.fault : DeliveryError → TransferFault
  | .fill _ => .invalidData
  | .sink fault => fault

inductive Reply
  | nothing
  | text (text : Text)
  | flag (value : Bool)
  | compiled (result : Except SyntaxError Compiled)
  | filled (result : Except Stop Text)
  | delivered (result : Except DeliveryError Unit) (held : ByteArray)
  | template (found : Option Template)
  | size (size : Nat)
  | names (names : List Text)
  | entries (entries : List (Text × Text))
  | checked (result : Except FillError Unit)
  | loaded (result : Except TransferFault Nat)
  /-- The step is about a template that is not there, and does nothing. -/
  | unknown

namespace Session

def empty (limit : Nat := depthLimit) : Session := ⟨[], [], [], .empty, limit⟩

def map (session : Session) (id : Text) : TemplateMap :=
  (session.maps.lookup id).getD .empty

def setMap (session : Session) (id : Text) (templates : TemplateMap) : Session :=
  { session with maps := Named.put id templates session.maps }

def setTemplate (session : Session) (id : Text) (template : Template) : Session :=
  { session with templates := Named.put id template session.templates }

/-- Fills the template that is kept under `id` with the templates of a map. The template keeps its
form, and so do those that stored providers carry. -/
def runFill (session : Session) (id : Text) (template : Template) (templates : TemplateMap)
    (data : Provider) : Session × Report Text :=
  let report := (template.fillWithin session.limit templates data).run session.tally
  ({ session with
      templates := Named.put id template.prepare session.templates
      providers := session.providers.map fun entry => (entry.1, entry.2.settle report.notes)
      tally := report.tally },
    report)

/-- Fills with the map `map`, whose templates keep their forms too, as far as they were asked
for. -/
def fillWith (session : Session) (map id : Text) (template : Template) (data : Provider) :
    Session × Except Stop Text :=
  let templates := session.map map
  let (next, report) := session.runFill id template templates data
  (next.setMap map (templates.settle report.notes), report.result)

/-- A filled text goes to the sink in one piece, and a failed fill leaves the sink alone. So no half
of a text is followed by an error. -/
def deliver (sink : Sink) : Except Stop Text → Reply
  | .error reason => .delivered (.error (.fill reason)) sink.held
  | .ok text =>
    match sink.write text with
    | (sink, none) => .delivered (.ok ()) sink.held
    | (sink, some fault) => .delivered (.error (.sink fault)) sink.held

def withTemplate (session : Session) (id : Text) (f : Template → Session × Reply) :
    Session × Reply :=
  match session.templates.lookup id with
  | none => (session, .unknown)
  | some template => f template

def insert (session : Session) (map name : Text) (template : Template) : Session × Reply :=
  let templates := session.map map
  (session.setMap map (templates.insert name template), .template (templates.get? name))

/-- Takes a step that works on the map `map`, which there is from now on. A step about a template
that is not there is only refused. -/
def step (session : Session) (map : Text) : Step → Session × Reply
  | .new id source => (session.setTemplate id (.new source), .nothing)
  | .clone id target => session.withTemplate id fun template =>
    (session.setTemplate target template, .nothing)
  | .source id => session.withTemplate id fun template => (session, .text template.source)
  | .describe id => session.withTemplate id fun template => (session, .text template.describe)
  | .isCompiled id => session.withTemplate id fun template => (session, .flag template.isCompiled)
  | .compile id => session.withTemplate id fun template =>
    (session.setTemplate id template.prepare, .compiled template.compile)
  | .fill id data => session.withTemplate id fun template =>
    let (session, result) := session.fillWith map id template data
    (session, .filled result)
  | .render id data => session.withTemplate id fun template =>
    let (session, report) := session.runFill id template .empty data
    (session, .filled report.result)
  | .fillInto id data sink => session.withTemplate id fun template =>
    let (session, result) := session.fillWith map id template data
    (session, deliver sink result)
  | .store id data => ({ session with providers := Named.put id data session.providers }, .nothing)
  | .clearMap => (session.setMap map .empty, .nothing)
  | .cloneMap target => (session.setMap target (session.map map), .nothing)
  | .replaceMap entries => (session.setMap map (.ofList entries), .nothing)
  | .extendMap entries => (session.setMap map ((session.map map).extend entries), .nothing)
  | .insert name source => session.insert map name (.new source)
  | .insertCopy name id => session.withTemplate id fun template => session.insert map name template
  | .get name => (session, .template ((session.map map).get? name))
  | .contains name => (session, .flag ((session.map map).contains name))
  | .size => (session, .size (session.map map).size)
  | .names => (session, .names (session.map map).names)
  | .entries =>
    (session, .entries ((session.map map).entries.map fun entry => (entry.1, entry.2.source)))
  | .check =>
    let templates := session.map map
    (session.setMap map templates.checked, .checked templates.check)
  | .load settings directory =>
    match directory.bind (Directory.load settings.ending) with
    | .error fault => (session, .loaded (.error fault))
    | .ok templates => (session.setMap map templates, .loaded (.ok templates.size))

/-- Creates the map that a step mentions, and takes the step. A map that was never mentioned counts
as empty. -/
def run (session : Session) (map : Text) (s : Step) : Session × Reply :=
  (session.setMap map (session.map map)).step map s

end Session

end Stencil
