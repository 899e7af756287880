import Stencil.FilePath
import Stencil.FunctionPath

/-!
# Deriving providers

A provider can be derived for a struct with named fields: it is a map from the names of its
fields, and attributes rename or skip fields or give it a template of its own. This module
decides which items are accepted and what is generated for them. The item is given as the data that
parsing it results in, and what is generated is told by names, fields and bounds, without the
program text that they are written as.
-/
namespace Stencil.Derivation

/-! ## Items -/

inductive ItemKind
  | namedFields
  | tuple
  | unit
  | enumeration
  | union
deriving DecidableEq, Repr

inductive GenericKind
  | type
  | lifetime
  | constant
deriving DecidableEq, Repr

structure Generic where
  name : Text
  kind : GenericKind
deriving DecidableEq, Repr

inductive AttributeValue
  | string (value : Text)
  | path (path : Text)
  | integer
  | boolean
deriving DecidableEq, Repr

/-- One argument of an attribute: `key`, `key = value` or `key(value)`. Each of them is accepted in
some places and refused in others. -/
inductive Argument
  | flag (key : Text)
  | pair (key : Text) (value : AttributeValue)
  | list (key : Text)
deriving DecidableEq, Repr

/-- An attribute with its arguments, which are missing when there are no parentheses. That differs
from an empty list. -/
structure Attribute where
  name : Text
  arguments : Option (List Argument)
deriving DecidableEq, Repr

structure Field where
  name : Text
  attributes : List Attribute
deriving DecidableEq, Repr

structure Item where
  kind : ItemKind
  generics : List Generic
  attributes : List Attribute
  fields : List Field
deriving DecidableEq, Repr

/-! ## Errors -/

inductive Error
  | unnamedFields
  | notAStruct
  | missingArguments
  | expectedPair
  | expectedKeyName
  | expectedString
  | expectedFunction
  | unknownKey
  | severalTemplates
  | unknownFieldArgument
  | duplicateRename
  | unusableName
deriving DecidableEq, Repr

def Error.message : Error → String
  | .unnamedFields => "only struct with named fields is supported"
  | .notAStruct => "only struct is supported"
  | .missingArguments => "expected attribute arguments in parentheses: #[provider(...)]"
  | .expectedPair => "expected `=`"
  | .expectedKeyName => "expected this path to be an identifier"
  | .expectedString => "expected string"
  | .expectedFunction => "expected path to a function"
  | .unknownKey => "no such key, expected `template`, `source`, or `path`"
  | .severalTemplates => "only single either of `template`, `source`, or `path` allowed"
  | .unknownFieldArgument => "expected `rename = \"..\"` or `skip`"
  | .duplicateRename => "duplicate `rename` key"
  | .unusableName => "provider name cannot be empty or contain `.`, `|`, or `%`"

/-! ## What is generated -/

/-- Where the template of a struct comes from: a function that gives it, a source that is written
out, or a file. -/
inductive TemplateOrigin
  | function (path : Text)
  | source (text : Text)
  | file (path : Text)
deriving DecidableEq, Repr

structure Derived where
  /-- The names of the provider with the fields they stand for, in the order in which they are
  tried. -/
  arms : List (Text × Text)
  template : Option TemplateOrigin
  /-- The type parameters that have to be providers themselves, in their order. Lifetimes and
  constants need not be. -/
  bounds : List Text
deriving DecidableEq, Repr

/-- The field that a name stands for: the first one among those with this name, and none that is
skipped. -/
def Derived.lookup (derived : Derived) (name : Text) : Option Text :=
  derived.arms.lookup name

/-! ## Attributes -/

/-- The argument lists of the attributes that are meant for the derivation. Other attributes are
passed over. -/
def argumentLists (attributes : List Attribute) : List (Option (List Argument)) :=
  (attributes.filter fun a => a.name = "provider".toList).map Attribute.arguments

def stringValue : AttributeValue → Except Error Text
  | .string value => .ok value
  | _ => .error .expectedString

def functionValue : AttributeValue → Except Error Text
  | .path path => .ok (FunctionPath.plain path)
  | _ => .error .expectedFunction

/-- What the attributes of a field ask for, over all of them and in the order in which they come. -/
structure FieldOptions where
  rename : Option Text
  skip : Bool
deriving DecidableEq, Repr

namespace FieldOptions

def none : FieldOptions := ⟨.none, false⟩

/-- Takes one argument into account. A field has at most one name of its own, and `skip` may be
repeated. -/
def add (options : FieldOptions) : Argument → Except Error FieldOptions
  | .flag key =>
    if key = "skip".toList then .ok { options with skip := true }
    else .error .unknownFieldArgument
  | .list _ => .error .unknownFieldArgument
  | .pair key value =>
    if key = "rename".toList then
      match stringValue value, options.rename with
      | .error e, _ => .error e
      | .ok _, some _ => .error .duplicateRename
      | .ok name, .none => .ok { options with rename := some name }
    else .error .unknownFieldArgument

def addAll (options : FieldOptions) (arguments : Option (List Argument)) :
    Except Error FieldOptions :=
  match arguments with
  | .none => .error .missingArguments
  | some arguments => arguments.foldlM add options

def ofAttributes (attributes : List Attribute) : Except Error FieldOptions :=
  (argumentLists attributes).foldlM addAll none

end FieldOptions

/-- A field name without the marks of a raw identifier, as templates write it. -/
def plainName : Text → Text
  | 'r' :: '#' :: rest => plainName rest
  | name => name

/-- Whether templates can refer to a name at all: it is not empty and has none of the characters
that end a component of a path. -/
def isUsableName (name : Text) : Bool :=
  !name.isEmpty && !name.any fun c => c = '.' || c = '|' || c = '%'

/-- The arm of a field, unless the field is skipped. The name that results is checked, whether it
was given by an attribute or not. -/
def fieldArm (field : Field) : Except Error (Option (Text × Text)) := do
  let options ← FieldOptions.ofAttributes field.attributes
  if options.skip then
    return .none
  let name := options.rename.getD (plainName field.name)
  if isUsableName name then
    return some (name, field.name)
  else
    throw .unusableName

/-! ## The template of a struct -/

/-- Where template files are, seen from the directory of the project. -/
def templateDirectory : Text :=
  "templates".toList

/-- The place of a template file: one leading slash stands for the directory of the project, and
all else is inside of its template directory. -/
def resolve (project path : Text) : Text :=
  FilePath.normalize <| match path with
    | '/' :: rest => FilePath.join project rest
    | path => FilePath.join (FilePath.join project templateDirectory) path

/-- The keys and values of an argument list that holds nothing else. The first argument of another
form is an error. -/
def pairs : List Argument → Except Error (List (Text × AttributeValue))
  | [] => .ok []
  | .pair key value :: rest => (pairs rest).map ((key, value) :: ·)
  | .flag _ :: _ => .error .expectedPair
  | .list _ :: _ => .error .expectedPair

/-- The template that one key gives. A file is read relative to the project, and is only named
here. -/
def templateOfPair (project key : Text) (value : AttributeValue) : Except Error TemplateOrigin :=
  if key.contains ':' then .error .expectedKeyName
  else if key = "template".toList then (functionValue value).map .function
  else if key = "source".toList then (stringValue value).map .source
  else if key = "path".toList then
    (stringValue value).map fun path => .file (resolve project path)
  else .error .unknownKey

def addTemplate (project : Text) (found : Option TemplateOrigin) (pair : Text × AttributeValue) :
    Except Error (Option TemplateOrigin) := do
  let template ← templateOfPair project pair.1 pair.2
  if found.isSome then
    throw .severalTemplates
  return some template

def addTemplates (project : Text) (found : Option TemplateOrigin)
    (arguments : Option (List Argument)) : Except Error (Option TemplateOrigin) :=
  match arguments with
  | .none => .error .missingArguments
  | some arguments => do (← pairs arguments).foldlM (addTemplate project) found

def templateOrigin (project : Text) (attributes : List Attribute) :
    Except Error (Option TemplateOrigin) :=
  (argumentLists attributes).foldlM (addTemplates project) .none

/-- Derives a provider. The directory of the project is where template files are looked for. The
kind of the item is judged first, then the fields in their order, then the template. -/
def derive (project : Text) (item : Item) : Except Error Derived := do
  match item.kind with
  | .namedFields => pure ()
  | .tuple | .unit => throw .unnamedFields
  | .enumeration | .union => throw .notAStruct
  let arms ← item.fields.mapM fieldArm
  let template ← templateOrigin project item.attributes
  return {
    arms := arms.filterMap id
    template := template
    bounds := (item.generics.filter fun generic => generic.kind = .type).map Generic.name }

end Stencil.Derivation
