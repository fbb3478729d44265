import TransitionNetwork.Yaml.Scalar

/-!
From the text of a YAML document to its lexemes.

Indentation opens and closes block collections. A key is recognised only by the colon behind it, so
the place where a key may have begun is kept until the colon comes or can come no more; then the
lexeme for the key, and the one that opens its map, are put in front of it.
-/

namespace TransitionNetwork.Yaml

/-- A place where a key may have begun. -/
structure KeyStart where
  /-- The number of lexemes before it. -/
  lexemes : Nat
  mark : Mark
  /-- Whether nothing but a key can stand there. -/
  required : Bool
  deriving DecidableEq, Repr

/-- How far the text has been read. -/
structure Layout where
  rest : List Char
  mark : Mark := {}
  lexemes : List Lexeme := []
  /-- The columns of the open block collections, innermost first. -/
  indents : List Nat := []
  /-- For each open flow collection, innermost first, the key that may have begun in it; the last is
  for the block around them. -/
  keyStarts : List (Option KeyStart) := [none]
  /-- Whether a key may begin here. -/
  keyAllowed : Bool := true

namespace Layout

/-- Whether a flow collection is open. -/
def inFlow (layout : Layout) : Bool := 1 < layout.keyStarts.length

/-- One more than the column of the innermost block collection, or zero outside of all. -/
def nextIndent (layout : Layout) : Nat :=
  match layout.indents with
  | [] => 0
  | column :: _ => column + 1

def keyStart? (layout : Layout) : Option KeyStart :=
  layout.keyStarts.head?.join

def setKeyStart (layout : Layout) (key : Option KeyStart) : Layout :=
  { layout with keyStarts := key :: layout.keyStarts.drop 1 }

def push (layout : Layout) (lexeme : Lexeme) : Layout :=
  { layout with lexemes := layout.lexemes ++ [lexeme] }

/-- Steps over characters. -/
def skip (layout : Layout) (count : Nat) : Layout :=
  { layout with
    rest := layout.rest.drop count
    mark := layout.mark.afterAll (layout.rest.take count) }

/-! ### Keys that may have begun -/

/-- Gives up a key that may have begun; a required one cannot be given up. -/
def dropKey? (layout : Layout) : Option Layout :=
  match layout.keyStart? with
  | some key => if key.required then none else some (layout.setKeyStart none)
  | none => some layout

/-- The longest key that is recognised without an indicator. -/
def maxKeyLength : Nat := 1024

/-- A key ends on the line where it began. -/
def isStale (mark : Mark) (key : KeyStart) : Bool :=
  key.mark.line < mark.line || key.mark.index + maxKeyLength < mark.index

/-- Gives up the keys whose colon can come no more. -/
def dropStaleKeys? (layout : Layout) : Option Layout :=
  let stale := layout.keyStarts.filterMap fun key => key.filter (isStale layout.mark)
  if stale.any (·.required) then none
  else
    some { layout with
      keyStarts := layout.keyStarts.map fun key => key.filter (!isStale layout.mark ·) }

/-- Notes that a key may begin here. -/
def noteKey? (layout : Layout) : Option Layout :=
  if layout.keyAllowed then do
    let required := !layout.inFlow && layout.indents.head? = some layout.mark.column
    let dropped ← layout.dropKey?
    return dropped.setKeyStart
      (some { lexemes := layout.lexemes.length, mark := layout.mark, required })
  else some layout

/-! ### Block collections -/

/-- Opens a block collection at a column to the right of the innermost one. Its lexeme is put at the
given place. -/
def openBlock (layout : Layout) (column place : Nat) (lexeme : Lexeme) : Layout :=
  if !layout.inFlow && layout.nextIndent ≤ column then
    { layout with
      indents := column :: layout.indents
      lexemes := layout.lexemes.insertIdx place lexeme }
  else layout

/-- Closes the block collections that lie to the right of a column. -/
def closeBlocks (layout : Layout) (column : Nat) : Layout :=
  if layout.inFlow then layout
  else
    let closed := layout.indents.takeWhile (column < ·)
    { layout with
      indents := layout.indents.drop closed.length
      lexemes := layout.lexemes ++ closed.map fun _ => .blockEnd }

/-- Closes all block collections. -/
def closeAllBlocks (layout : Layout) : Layout :=
  if layout.inFlow then layout
  else
    { layout with
      indents := []
      lexemes := layout.lexemes ++ layout.indents.map fun _ => .blockEnd }

/-! ### Blanks and comments -/

/-- How many characters before the next lexeme do not count, the mark behind them and whether a key
may begin there. Tabs do not count where no key may begin. -/
def countBlanks (flow comment : Bool) (mark : Mark) (keyAllowed : Bool) (count : Nat) :
    List Char → Nat × Bool
  | [] => (count, keyAllowed)
  | c :: rest =>
    if isBreak c then
      countBlanks flow false (mark.after c) (keyAllowed || !flow) (count + 1) rest
    else if comment || c = ' ' || (c = '\t' && (flow || !keyAllowed)) ||
        (mark.column = 0 && c.toNat = 0xFEFF) then
      countBlanks flow comment (mark.after c) keyAllowed (count + 1) rest
    else if c = '#' then countBlanks flow true (mark.after c) keyAllowed (count + 1) rest
    else (count, keyAllowed)

def skipBlanks (layout : Layout) : Layout :=
  let (count, keyAllowed) :=
    countBlanks layout.inFlow false layout.mark layout.keyAllowed 0 layout.rest
  { layout.skip count with keyAllowed }

/-! ### Lexemes -/

/-- A line that divides documents. -/
def divider? (layout : Layout) (lexeme : Lexeme) : Option Layout := do
  let layout ← layout.closeAllBlocks.dropKey?
  return { (layout.push lexeme).skip 3 with keyAllowed := false }

def flowStart? (layout : Layout) (lexeme : Lexeme) : Option Layout := do
  let layout ← layout.noteKey?
  return { (layout.push lexeme).skip 1 with
    keyStarts := none :: layout.keyStarts, keyAllowed := true }

/-- The end of a flow collection. Outside of all it closes nothing. -/
def flowEnd? (layout : Layout) (lexeme : Lexeme) : Option Layout := do
  let layout ← layout.dropKey?
  let keyStarts := if layout.inFlow then layout.keyStarts.drop 1 else layout.keyStarts
  return { (layout.push lexeme).skip 1 with keyStarts, keyAllowed := false }

def flowEntry? (layout : Layout) : Option Layout := do
  let layout ← layout.dropKey?
  return { (layout.push .flowEntry).skip 1 with keyAllowed := true }

def blockEntry? (layout : Layout) : Option Layout :=
  if !layout.inFlow && !layout.keyAllowed then none
  else do
    let layout := layout.openBlock layout.mark.column layout.lexemes.length .blockListStart
    let layout ← layout.dropKey?
    return { (layout.push .blockEntry).skip 1 with keyAllowed := true }

/-- A question mark in front of a key. -/
def explicitKey? (layout : Layout) : Option Layout :=
  if !layout.inFlow && !layout.keyAllowed then none
  else do
    let layout := layout.openBlock layout.mark.column layout.lexemes.length .blockMapStart
    let layout ← layout.dropKey?
    return { (layout.push .key).skip 1 with keyAllowed := !layout.inFlow }

/-- The colon behind a key. -/
def colon? (layout : Layout) : Option Layout :=
  match layout.keyStart? with
  | some key =>
    let layout := { layout with lexemes := layout.lexemes.insertIdx key.lexemes .key }
    let layout := layout.openBlock key.mark.column key.lexemes .blockMapStart
    some { ((layout.setKeyStart none).push .value).skip 1 with keyAllowed := false }
  | none =>
    if !layout.inFlow && !layout.keyAllowed then none
    else
      let layout := layout.openBlock layout.mark.column layout.lexemes.length .blockMapStart
      some { (layout.push .value).skip 1 with keyAllowed := !layout.inFlow }

def isNameChar (c : Char) : Bool :=
  c.isAlphanum || c = '_' || c = '-'

/-- A name behind an ampersand or an asterisk. -/
def name? (layout : Layout) (lexeme : String → Lexeme) : Option Layout := do
  let layout ← layout.noteKey?
  let name := (layout.rest.drop 1).takeWhile isNameChar
  let behind := (layout.rest.drop 1).dropWhile isNameChar
  let ends := endsWord behind ||
    behind.head?.any ['?', ':', ',', ']', '\x7d', '%', '@', '\x60'].contains
  if name = [] || !ends then none
  else
    return { (layout.push (lexeme (String.ofList name))).skip (name.length + 1) with
      keyAllowed := false }

/-- Goes on behind a scalar. -/
def behind (layout : Layout) (scalar : ScalarEnd) (plain keyAllowed : Bool) : Layout :=
  { layout.push (.scalar (String.ofList scalar.text) plain) with
    rest := scalar.rest, mark := scalar.mark, keyAllowed }

def blockScalar? (layout : Layout) (folded : Bool) : Option Layout := do
  let layout ← layout.dropKey?
  let skipped := layout.skip 1
  let scalar ← readBlock folded layout.nextIndent skipped.mark skipped.rest
  return layout.behind scalar false true

def quotedScalar? (layout : Layout) (double : Bool) : Option Layout := do
  let layout ← layout.noteKey?
  let skipped := layout.skip 1
  let scalar ←
    if double then readDoubleQuoted skipped.mark [] .none 0 skipped.rest
    else readSingleQuoted skipped.mark [] .none skipped.rest
  return layout.behind scalar false false

def plainScalar? (layout : Layout) : Option Layout := do
  let layout ← layout.noteKey?
  let scalar ← readPlain layout.inFlow layout.nextIndent layout.mark [] .none layout.rest
  return layout.behind scalar true scalar.broken

/-- Whether a plain scalar may begin with `c`. -/
def beginsPlain (flow : Bool) (c : Char) (rest : List Char) : Bool :=
  let indicators := ['-', '?', ':', ',', '[', ']', '\x7b', '\x7d', '#', '&', '*', '!', '|', '>',
    '\x27', '"', '%', '@', '\x60']
  (!isSpace c && !indicators.contains c) || (c = '-' && !rest.head?.any isSpace) ||
    (!flow && (c = '?' || c = ':') && !endsWord rest)

/-- Reads the lexeme that begins with `c`. -/
def lexeme? (layout : Layout) (c : Char) (rest : List Char) : Option Layout :=
  let flow := layout.inFlow
  if layout.mark.column = 0 && isTriple '-' layout.rest then layout.divider? .documentStart
  else if layout.mark.column = 0 && isTriple '.' layout.rest then layout.divider? .documentEnd
  else if c = '[' then layout.flowStart? .flowListStart
  else if c = '\x7b' then layout.flowStart? .flowMapStart
  else if c = ']' then layout.flowEnd? .flowListEnd
  else if c = '\x7d' then layout.flowEnd? .flowMapEnd
  else if c = ',' then layout.flowEntry?
  else if c = '-' && endsWord rest then layout.blockEntry?
  else if c = '?' && (flow || endsWord rest) then layout.explicitKey?
  else if c = ':' && (flow || endsWord rest) then layout.colon?
  else if c = '*' then layout.name? .alias
  else if c = '&' then layout.name? .anchor
  else if c = '|' && !flow then layout.blockScalar? false
  else if c = '>' && !flow then layout.blockScalar? true
  else if c = '\x27' then layout.quotedScalar? false
  else if c = '"' then layout.quotedScalar? true
  else if beginsPlain flow c rest then layout.plainScalar?
  else none

/-- The lexemes of the whole text. A step that does not shorten the text counts as a failure. -/
def run (layout : Layout) : Option (List Lexeme) :=
  let skipped := layout.skipBlanks
  match skipped.dropStaleKeys? with
  | none => none
  | some fresh =>
    match fresh.rest with
    | [] => fresh.closeAllBlocks.dropKey?.map (·.lexemes)
    | c :: rest =>
      match (fresh.closeBlocks fresh.mark.column).lexeme? c rest with
      | none => none
      | some next => if next.rest.length < layout.rest.length then run next else none
termination_by layout.rest.length

end Layout

/-- The lexemes of a text. -/
def lex? (text : String) : Option (List Lexeme) :=
  if text.toList.all isPrintable then
    Layout.run { rest := normalizeBreaks text.toList }
  else none

end TransitionNetwork.Yaml
