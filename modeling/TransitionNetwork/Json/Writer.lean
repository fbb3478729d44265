import TransitionNetwork.Json.Basic
import TransitionNetwork.Text.Digits

/-!
Two ways to write a JSON value: `compact`, without a blank, and `pretty`, with a line for each item
and two blanks of indentation for each level.

In a string the quote, the backslash and the characters below U+0020 are escaped; everything else
stands for itself.
-/

namespace TransitionNetwork.Json

/-- The letter of the short escape of a control character. -/
def shortEscape? (c : Char) : Option Char :=
  match c.toNat with
  | 0x8 => some 'b'
  | 0x9 => some 't'
  | 0xA => some 'n'
  | 0xC => some 'f'
  | 0xD => some 'r'
  | _ => none

def escapeChar (c : Char) : List Char :=
  if c = '"' ∨ c = '\\' then ['\\', c]
  else
    match shortEscape? c with
    | some letter => ['\\', letter]
    | none =>
      if c.toNat < 0x20 then '\\' :: 'u' :: Text.hexDigits 4 c.toNat else [c]

def escape : List Char → List Char
  | [] => []
  | c :: rest => escapeChar c ++ escape rest

def quote (text : String) : List Char :=
  '"' :: (escape text.toList ++ ['"'])

mutual

/-- The characters of a value written without blanks. -/
def compactChars : Json → List Char
  | .null => ['n', 'u', 'l', 'l']
  | .bool true => ['t', 'r', 'u', 'e']
  | .bool false => ['f', 'a', 'l', 's', 'e']
  | .number literal => literal.toList
  | .string text => quote text
  | .array [] => ['[', ']']
  | .array (item :: items) => '[' :: (compactChars item ++ compactItems items)
  | .object [] => ['\x7b', '\x7d']
  | .object ((key, value) :: entries) =>
    '\x7b' :: (quote key ++ ':' :: (compactChars value ++ compactEntries entries))

/-- The items after the first, with the closing bracket. -/
def compactItems : List Json → List Char
  | [] => [']']
  | item :: items => ',' :: (compactChars item ++ compactItems items)

/-- The entries after the first, with the closing brace. -/
def compactEntries : List (String × Json) → List Char
  | [] => ['\x7d']
  | (key, value) :: entries =>
    ',' :: (quote key ++ ':' :: (compactChars value ++ compactEntries entries))

end

def compact (value : Json) : String :=
  String.ofList value.compactChars

/-- A line break and the indentation of a level. -/
def newline (level : Nat) : List Char :=
  '\n' :: List.replicate (2 * level) ' '

mutual

/-- The characters of a value at a level, each item and entry on a line of its own. -/
def prettyChars (level : Nat) : Json → List Char
  | .null => ['n', 'u', 'l', 'l']
  | .bool true => ['t', 'r', 'u', 'e']
  | .bool false => ['f', 'a', 'l', 's', 'e']
  | .number literal => literal.toList
  | .string text => quote text
  | .array [] => ['[', ']']
  | .array (item :: items) =>
    '[' :: (newline (level + 1) ++ prettyChars (level + 1) item ++ prettyItems level items)
  | .object [] => ['\x7b', '\x7d']
  | .object ((key, value) :: entries) =>
    '\x7b' :: (newline (level + 1) ++ quote key ++ ':' :: ' ' :: prettyChars (level + 1) value ++
      prettyEntries level entries)

def prettyItems (level : Nat) : List Json → List Char
  | [] => newline level ++ [']']
  | item :: items =>
    ',' :: (newline (level + 1) ++ prettyChars (level + 1) item ++ prettyItems level items)

def prettyEntries (level : Nat) : List (String × Json) → List Char
  | [] => newline level ++ ['\x7d']
  | (key, value) :: entries =>
    ',' :: (newline (level + 1) ++ quote key ++ ':' :: ' ' :: prettyChars (level + 1) value ++
      prettyEntries level entries)

end

def pretty (value : Json) : String :=
  String.ofList (value.prettyChars 0)

end TransitionNetwork.Json
