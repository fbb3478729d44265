import TransitionNetwork.Yaml.Layout
import TransitionNetwork.Document.Basic

/-!
From the lexemes of a YAML document to its content.

Block and flow collections, plain, quoted and block scalars, anchors and aliases are understood; tags
and directives are not. A text holds one document.
-/

namespace TransitionNetwork.Yaml

/-- The lexemes that are left and the anchored content so far, newest first. -/
structure Unread where
  lexemes : List Lexeme
  anchors : List (String × Document) := []

/-- Reads from the lexemes that are left, or fails. -/
abbrev Reader := StateT Unread Option

namespace Reader

def peek : Reader (Option Lexeme) := do
  return (← get).lexemes.head?

def advance : Reader Unit :=
  modify fun unread => { unread with lexemes := unread.lexemes.drop 1 }

/-- Reads the given lexeme or fails. -/
def expect (lexeme : Lexeme) : Reader Unit := do
  if (← peek) = some lexeme then advance else failure

def anchor (name : String) (content : Document) : Reader Unit :=
  modify fun unread => { unread with anchors := (name, content) :: unread.anchors }

/-- The content that an alias stands for. -/
def resolve (name : String) : Reader Document := do
  match (← get).anchors.lookup name with
  | some content => return content
  | none => failure

/-- Content that is not written. -/
def missing : Document := .plain ""

mutual

/-- Content with its anchor, or an alias. Each call reads with less fuel. -/
def content (block inMap : Bool) : Nat → Reader Document
  | 0 => failure
  | fuel + 1 => do
    match ← peek with
    | some (.alias name) =>
      advance
      resolve name
    | some (.anchor name) =>
      advance
      let bare ← bareContent block inMap true fuel
      anchor name bare
      return bare
    | _ => bareContent block inMap false fuel

/-- Content behind its anchor, if it has one. Block collections stand only in a block; a list may stand
in a map without further indentation. -/
def bareContent (block inMap anchored : Bool) : Nat → Reader Document
  | 0 => failure
  | fuel + 1 => do
    match ← peek with
    | some (.scalar text plain) =>
      advance
      return if plain then .plain text else .string text
    | some .flowListStart =>
      advance
      return .list (← flowItems true fuel)
    | some .flowMapStart =>
      advance
      return .map (← flowEntries true fuel)
    | some .blockEntry =>
      if inMap then return .list (← looseItems fuel) else absent anchored
    | some .blockListStart =>
      if block then
        advance
        return .list (← blockItems fuel)
      else absent anchored
    | some .blockMapStart =>
      if block then
        advance
        return .map (← blockEntries fuel)
      else absent anchored
    | _ => absent anchored

/-- An anchor may have nothing behind it. -/
def absent (anchored : Bool) : Reader Document :=
  if anchored then return missing else failure

/-- The items of an indented list and its end. -/
def blockItems : Nat → Reader (List Document)
  | 0 => failure
  | fuel + 1 => do
    match ← peek with
    | some .blockEnd =>
      advance
      return []
    | some .blockEntry =>
      advance
      let item ← contentUnless [.blockEntry, .blockEnd] true false fuel
      return item :: (← blockItems fuel)
    | _ => failure

/-- The items of a list that is not indented against its key. It ends where the items do. -/
def looseItems : Nat → Reader (List Document)
  | 0 => failure
  | fuel + 1 => do
    match ← peek with
    | some .blockEntry =>
      advance
      let item ← contentUnless [.blockEntry, .key, .value, .blockEnd] true false fuel
      return item :: (← looseItems fuel)
    | _ => return []

/-- The entries of an indented map and its end. -/
def blockEntries : Nat → Reader (List (Document × Document))
  | 0 => failure
  | fuel + 1 => do
    match ← peek with
    | some .blockEnd =>
      advance
      return []
    | some .key =>
      advance
      let key ← contentUnless [.key, .value, .blockEnd] true true fuel
      let value ← valueUnless [.key, .value, .blockEnd] true true fuel
      return (key, value) :: (← blockEntries fuel)
    | _ => failure

/-- The items of a list in brackets, the first or those behind a comma, and the end of the list. A key
among them makes a map of one entry. -/
def flowItems (first : Bool) : Nat → Reader (List Document)
  | 0 => failure
  | fuel + 1 => do
    if (← peek) = some .flowListEnd then
      advance
      return []
    else
      if !first then expect .flowEntry
      match ← peek with
      | some .flowListEnd =>
        advance
        return []
      | some .key =>
        advance
        let key ← contentUnless [.value, .flowEntry, .flowListEnd] false false fuel
        let value ← valueUnless [.flowEntry, .flowListEnd] false false fuel
        return .map [(key, value)] :: (← flowItems false fuel)
      | _ =>
        let item ← content false false fuel
        return item :: (← flowItems false fuel)

/-- The entries of a map in braces, the first or those behind a comma, and the end of the map. -/
def flowEntries (first : Bool) : Nat → Reader (List (Document × Document))
  | 0 => failure
  | fuel + 1 => do
    if (← peek) = some .flowMapEnd then
      advance
      return []
    else
      if !first then expect .flowEntry
      match ← peek with
      | some .flowMapEnd =>
        advance
        return []
      | some .key =>
        advance
        let key ← contentUnless [.value, .flowEntry, .flowMapEnd] false false fuel
        let value ← valueUnless [.flowEntry, .flowMapEnd] false false fuel
        return (key, value) :: (← flowEntries false fuel)
      | _ =>
        let key ← content false false fuel
        return (key, missing) :: (← flowEntries false fuel)

/-- Content, unless one of the given lexemes shows that it is missing. -/
def contentUnless (ends : List Lexeme) (block inMap : Bool) : Nat → Reader Document
  | 0 => failure
  | fuel + 1 => do
    if (← peek).any ends.contains then return missing else content block inMap fuel

/-- The content behind a colon, or nothing without one. -/
def valueUnless (ends : List Lexeme) (block inMap : Bool) : Nat → Reader Document
  | 0 => failure
  | fuel + 1 => do
    if (← peek) = some .value then
      advance
      contentUnless ends block inMap fuel
    else return missing

end

/-- The one document of a text: nothing, content, or a divider with or without content behind it. -/
def document (fuel : Nat) : Reader Document := do
  match ← peek with
  | none => return missing
  | some .documentStart =>
    advance
    match ← peek with
    | none => return missing
    | some .documentStart => return missing
    | some .documentEnd => return missing
    | some _ => content true false fuel
  | some _ => content true false fuel

/-- More fuel than the content of so many lexemes can need: none of them is read in more than four
calls. -/
def enoughFuel (lexemes : List Lexeme) : Nat := 4 * lexemes.length + 8

end Reader

/-- The content of a text that holds one document. Only document ends may follow it. -/
def read? (text : String) : Option Document := do
  let lexemes ← lex? text
  let (content, unread) ← Reader.document (Reader.enoughFuel lexemes) |>.run { lexemes }
  if unread.lexemes.all (· = .documentEnd) then some content else none

end TransitionNetwork.Yaml
