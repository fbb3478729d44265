import TransitionNetwork.Json.Basic
import TransitionNetwork.Text.Digits

/-!
A strict JSON reader.

`lex` cuts the text into lexemes. `Reading.step` takes one lexeme at a time and keeps the containers
that are still open, innermost first, so reading is a fold over the lexemes. Nothing outside the
standard is accepted: no comments, no trailing commas, no leading zeros, no raw control characters in
strings, no lone surrogates.
-/

namespace TransitionNetwork.Json

inductive Lexeme
  | openBracket
  | closeBracket
  | openBrace
  | closeBrace
  | comma
  | colon
  | scalar (value : Json)
  deriving Inhabited

/-! ### Strings -/

def isHighSurrogate (code : Nat) : Bool := 0xD800 ≤ code && code ≤ 0xDBFF

def isLowSurrogate (code : Nat) : Bool := 0xDC00 ≤ code && code ≤ 0xDFFF

/-- The character that a surrogate pair stands for. -/
def joinSurrogates (high low : Nat) : Char :=
  Char.ofNat (0x10000 + (high - 0xD800) * 0x400 + (low - 0xDC00))

/-- The character that a letter after a backslash stands for. -/
def unescape? (letter : Char) : Option Char :=
  match letter with
  | '"' => some '"'
  | '\\' => some '\\'
  | '/' => some '/'
  | 'b' => some (Char.ofNat 0x8)
  | 'f' => some (Char.ofNat 0xC)
  | 'n' => some '\n'
  | 'r' => some '\r'
  | 't' => some '\t'
  | _ => none

/-- The content of a string whose opening quote has been read, and what follows its closing
quote. -/
def readString : List Char → Option (List Char × List Char)
  | [] => none
  | c :: rest =>
    if c = '"' then some ([], rest)
    else if c = '\\' then
      match rest with
      | [] => none
      | letter :: rest =>
        if letter = 'u' then
          match rest with
          | h₁ :: h₂ :: h₃ :: h₄ :: rest =>
            match Text.readDigits? 16 [h₁, h₂, h₃, h₄] with
            | none => none
            | some code =>
              if isHighSurrogate code then
                match rest with
                | '\\' :: 'u' :: l₁ :: l₂ :: l₃ :: l₄ :: rest =>
                  match Text.readDigits? 16 [l₁, l₂, l₃, l₄] with
                  | none => none
                  | some low =>
                    if isLowSurrogate low then
                      (readString rest).map fun (text, rest) => (joinSurrogates code low :: text, rest)
                    else none
                | _ => none
              else if isLowSurrogate code then none
              else (readString rest).map fun (text, rest) => (Char.ofNat code :: text, rest)
          | _ => none
        else
          match unescape? letter with
          | none => none
          | some c => (readString rest).map fun (text, rest) => (c :: text, rest)
    else if c.toNat < 0x20 then none
    else (readString rest).map fun (text, rest) => (c :: text, rest)

/-! ### Numbers -/

def isNumberChar (c : Char) : Bool :=
  c.isDigit || c = '-' || c = '+' || c = '.' || c = 'e' || c = 'E'

def isDigits (digits : List Char) : Bool :=
  !digits.isEmpty && digits.all Char.isDigit

/-- What may follow the digits before the exponent: nothing, or an exponent. -/
def isExponentPart : List Char → Bool
  | [] => true
  | c :: rest =>
    (c = 'e' || c = 'E') &&
      match rest with
      | '+' :: digits => isDigits digits
      | '-' :: digits => isDigits digits
      | digits => isDigits digits

/-- What may follow the digits before the point. -/
def isFractionPart : List Char → Bool
  | '.' :: rest =>
    !(rest.takeWhile Char.isDigit).isEmpty && isExponentPart (rest.dropWhile Char.isDigit)
  | rest => isExponentPart rest

/-- A number literal: no leading zero, no bare point, no plus sign in front. -/
def isNumber (literal : List Char) : Bool :=
  let unsigned := match literal with
    | '-' :: rest => rest
    | rest => rest
  let whole := unsigned.takeWhile Char.isDigit
  !whole.isEmpty && (whole.length = 1 || whole.head? ≠ some '0') &&
    isFractionPart (unsigned.dropWhile Char.isDigit)

/-! ### Lexemes -/

def isSpace (c : Char) : Bool :=
  c = ' ' || c = '\t' || c = '\n' || c = '\r'

/-- What is left of the text behind a given start. -/
def dropStart? : (start text : List Char) → Option (List Char)
  | [], text => some text
  | c :: start, d :: text => if c = d then dropStart? start text else none
  | _ :: _, [] => none

/-- The lexeme that begins with `c`, and the text after it. -/
def readLexeme (c : Char) (rest : List Char) : Option (Lexeme × List Char) :=
  if c = '[' then some (.openBracket, rest)
  else if c = ']' then some (.closeBracket, rest)
  else if c = '\x7b' then some (.openBrace, rest)
  else if c = '\x7d' then some (.closeBrace, rest)
  else if c = ',' then some (.comma, rest)
  else if c = ':' then some (.colon, rest)
  else if c = '"' then
    (readString rest).map fun (text, rest) => (.scalar (.string (String.ofList text)), rest)
  else if c = 't' then
    (dropStart? ['r', 'u', 'e'] rest).map fun rest => (.scalar (.bool true), rest)
  else if c = 'f' then
    (dropStart? ['a', 'l', 's', 'e'] rest).map fun rest => (.scalar (.bool false), rest)
  else if c = 'n' then
    (dropStart? ['u', 'l', 'l'] rest).map fun rest => (.scalar .null, rest)
  else if c = '-' || c.isDigit then
    let literal := c :: rest.takeWhile isNumberChar
    if isNumber literal then
      some (.scalar (.number (String.ofList literal)), rest.dropWhile isNumberChar)
    else none
  else none

/-- All lexemes of a text. A step that does not shorten the text counts as a failure. -/
def lex : List Char → Option (List Lexeme)
  | [] => some []
  | c :: rest =>
    if isSpace c then lex rest
    else
      match readLexeme c rest with
      | none => none
      | some (lexeme, after) =>
        if after.length ≤ rest.length then (lex after).map (lexeme :: ·) else none
termination_by text => text.length

/-! ### Values -/

/-- A container that is still open, with what has been read of it. -/
inductive Frame
  | array (items : List Json)
  | object (entries : List (String × Json)) (key : String)

/-- What has been read and what may come next. -/
inductive Reading
  /-- A value has to follow. -/
  | expectValue (frames : List Frame)
  /-- Behind an opening bracket: a value or the closing bracket. -/
  | expectItem (frames : List Frame)
  /-- Behind an opening brace: a key or the closing brace. -/
  | expectFirstKey (frames : List Frame)
  /-- Behind a comma in an object: a key. -/
  | expectKey (entries : List (String × Json)) (frames : List Frame)
  /-- Behind a key: a colon. -/
  | expectColon (entries : List (String × Json)) (key : String) (frames : List Frame)
  /-- Behind a value: a comma or the end of the innermost container. -/
  | complete (value : Json) (frames : List Frame)

/-- Begins a value. -/
def Reading.begin (frames : List Frame) : Lexeme → Option Reading
  | .openBracket => some (.expectItem frames)
  | .openBrace => some (.expectFirstKey frames)
  | .scalar value => some (.complete value frames)
  | _ => none

def Reading.step : Reading → Lexeme → Option Reading
  | .expectValue frames, lexeme => begin frames lexeme
  | .expectItem frames, .closeBracket => some (.complete (.array []) frames)
  | .expectItem frames, lexeme => begin (.array [] :: frames) lexeme
  | .expectFirstKey frames, .closeBrace => some (.complete (.object []) frames)
  | .expectFirstKey frames, .scalar (.string key) => some (.expectColon [] key frames)
  | .expectKey entries frames, .scalar (.string key) => some (.expectColon entries key frames)
  | .expectColon entries key frames, .colon => some (.expectValue (.object entries key :: frames))
  | .complete value (.array items :: frames), .comma =>
    some (.expectValue (.array (items ++ [value]) :: frames))
  | .complete value (.array items :: frames), .closeBracket =>
    some (.complete (.array (items ++ [value])) frames)
  | .complete value (.object entries key :: frames), .comma =>
    some (.expectKey (entries ++ [(key, value)]) frames)
  | .complete value (.object entries key :: frames), .closeBrace =>
    some (.complete (.object (entries ++ [(key, value)])) frames)
  | _, _ => none

/-- The value, once it is complete and no container is open. -/
def Reading.result? : Reading → Option Json
  | .complete value [] => some value
  | _ => none

/-- The value that a text holds, if the text is one JSON value with blanks around it. -/
def read? (text : String) : Option Json := do
  let lexemes ← lex text.toList
  let reading ← lexemes.foldlM Reading.step (.expectValue [])
  reading.result?

end TransitionNetwork.Json
