import TransitionNetwork.Document.Plain
import TransitionNetwork.Json.Basic

/-!
Documents: the common content of JSON and YAML files, and how typed values are taken from it.

A quoted text is a string and nothing else. What an unquoted scalar means depends on what is wanted
there: where a string is wanted it is its own text, elsewhere it is its value under the core schema.
A missing value, as behind the colon in `rules:`, is the empty plain scalar; it stands for an empty
list, an empty map or a record with all defaults.
-/

namespace TransitionNetwork

inductive Document
  | scalar (value : Scalar)
  | plain (text : String)
  | list (items : List Document)
  | map (entries : List (Document × Document))
  deriving Inhabited

namespace Document

def null : Document := .scalar .null

def string (text : String) : Document := .scalar (.string text)

mutual

def ofJson : Json → Document
  | .null => .scalar .null
  | .bool value => .scalar (.bool value)
  | .number literal => .scalar (.number literal)
  | .string text => .scalar (.string text)
  | .array items => .list (ofItems items)
  | .object entries => .map (ofEntries entries)

def ofItems : List Json → List Document
  | [] => []
  | item :: items => ofJson item :: ofItems items

def ofEntries : List (String × Json) → List (Document × Document)
  | [] => []
  | (key, value) :: entries => (.scalar (.string key), ofJson value) :: ofEntries entries

end

/-- The text where a string is wanted. -/
def text? : Document → Option String
  | .scalar (.string text) => some text
  | .plain text => some text
  | _ => none

/-- The value where the content decides the type. -/
def value? : Document → Option Scalar
  | .scalar value => some value
  | .plain text => some (.ofPlain text)
  | _ => none

/-- A string where the content decides the type. -/
def strictText? (document : Document) : Option String :=
  match document.value? with
  | some (.string text) => some text
  | _ => none

def items? : Document → Option (List Document)
  | .list items => some items
  | .plain "" => some []
  | _ => none

def entries? : Document → Option (List (Document × Document))
  | .map entries => some entries
  | .plain "" => some []
  | _ => none

/-- The entries of a map whose keys are texts. -/
def namedEntries? (document : Document) : Option (List (String × Document)) := do
  let entries ← document.entries?
  entries.mapM fun (key, value) => key.text?.map (·, value)

def listOf? {α : Type} (read : Document → Option α) (document : Document) : Option (List α) := do
  let items ← document.items?
  items.mapM read

/-- An optional text: null in any spelling is none. -/
def optionalText? (document : Document) : Option (Option String) :=
  match document.value? with
  | some .null => some none
  | _ => document.text?.map some

def bool? : Document → Option Bool
  | .scalar (.bool value) => some value
  | .plain text => Scalar.readBool? text
  | _ => none

def natural? : Document → Option Nat
  | .plain text => Scalar.readNatural? text
  | _ => none

/-- The fields of a record, in the order of `names`; a field that is not written is none. A record is
written as a map, in which no field may stand twice and other keys do not count, or as a list of the
first fields. -/
def fields? (names : List String) : Document → Option (List (Option Document))
  | .list items =>
    if items.length ≤ names.length then
      some (items.map some ++ List.replicate (names.length - items.length) none)
    else none
  | document => do
    let entries ← document.namedEntries?
    if names.all fun name => (entries.filter (·.1 = name)).length ≤ 1 then
      some (names.map fun name => entries.lookup name)
    else none

/-- Reads a field that has a default. -/
def orDefault {α : Type} (default : α) (read : Document → Option α) :
    Option Document → Option α
  | none => some default
  | some document => read document

/-- A number as JSON: an integer of 64 bits by its digits, any other by its digits and a power of ten.
A number beyond the range of doubles has no value. -/
def numberJson? (literal : String) : Option Json :=
  match (Scalar.readInteger? literal).bind Scalar.ofInteger with
  | some (.number integer) => some (.number integer)
  | _ =>
    match Scalar.readFloat? literal with
    | some (.number fraction) => some (.number fraction)
    | _ => none

mutual

/-- The JSON value of a document whose keys are all texts. An infinity is null; a number beyond the
range of doubles and a plain integer wider than 64 bits have no value. -/
def toJson? : Document → Option Json
  | .scalar value => scalarJson? value
  | .plain text => scalarJson? (.ofPlain text)
  | .list items => (itemsJson? items).map .array
  | .map entries => (entriesJson? entries).map .object

def itemsJson? : List Document → Option (List Json)
  | [] => some []
  | item :: items => do
    let item ← toJson? item
    let items ← itemsJson? items
    return item :: items

def entriesJson? : List (Document × Document) → Option (List (String × Json))
  | [] => some []
  | (key, value) :: entries => do
    let key ← key.text?
    let value ← toJson? value
    let entries ← entriesJson? entries
    return (key, value) :: entries

def scalarJson? : Scalar → Option Json
  | .null => some .null
  | .bool value => some (.bool value)
  | .number literal => numberJson? literal
  | .wideInteger => none
  | .unbounded => some .null
  | .string text => some (.string text)

end

end Document

end TransitionNetwork
