/-!
The lexemes of a YAML document and the marks that say where in the text one stands.

Line feeds, carriage returns, the two together and the next-line character all end a line in the same
way, so they are made line feeds before anything else is read.
-/

namespace TransitionNetwork.Yaml

inductive Lexeme
  | documentStart
  | documentEnd
  | blockListStart
  | blockMapStart
  | blockEnd
  | flowListStart
  | flowListEnd
  | flowMapStart
  | flowMapEnd
  | blockEntry
  | flowEntry
  | key
  | value
  | alias (name : String)
  | anchor (name : String)
  | scalar (text : String) (plain : Bool)
  deriving DecidableEq, Repr, Inhabited

/-- Where in the text one stands: the line, the column and the number of characters before. -/
structure Mark where
  line : Nat := 0
  column : Nat := 0
  index : Nat := 0
  deriving DecidableEq, Repr, Inhabited

def isBreak (c : Char) : Bool :=
  c = '\n' || c = Char.ofNat 0x2028 || c = Char.ofNat 0x2029

def isSpace (c : Char) : Bool :=
  c = ' ' || c = '\t'

/-- Whether the text ends here or goes on with a blank or a new line. -/
def endsWord : List Char → Bool
  | [] => true
  | c :: _ => isSpace c || isBreak c

/-- The mark behind a character. -/
def Mark.after (mark : Mark) (c : Char) : Mark :=
  if isBreak c then { line := mark.line + 1, column := 0, index := mark.index + 1 }
  else { mark with column := mark.column + 1, index := mark.index + 1 }

/-- The mark behind some characters. -/
def Mark.afterAll (mark : Mark) (text : List Char) : Mark :=
  text.foldl Mark.after mark

/-- Makes every line end with a line feed. -/
def normalizeBreaks : List Char → List Char
  | [] => []
  | '\r' :: '\n' :: rest => '\n' :: normalizeBreaks rest
  | c :: rest =>
    (if c = '\r' ∨ c = Char.ofNat 0x85 then '\n' else c) :: normalizeBreaks rest

/-- The characters that a document may hold. -/
def isPrintable (c : Char) : Bool :=
  let code := c.toNat
  code = 0x9 || code = 0xA || code = 0xD || (0x20 ≤ code && code ≤ 0x7E) || code = 0x85 ||
    (0xA0 ≤ code && code ≤ 0xFFFD) || 0x10000 ≤ code

/-- Whether the text begins with the given character three times and a word ends behind them, as the
lines that divide documents do. -/
def isTriple (c : Char) : List Char → Bool
  | c₁ :: c₂ :: c₃ :: rest => c₁ = c && c₂ = c && c₃ = c && endsWord rest
  | _ => false

/-- Whether a line that divides documents begins here. -/
def atDivider (mark : Mark) (text : List Char) : Bool :=
  mark.column = 0 && (isTriple '-' text || isTriple '.' text)

end TransitionNetwork.Yaml
