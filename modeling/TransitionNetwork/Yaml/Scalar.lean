import TransitionNetwork.Yaml.Lexeme
import TransitionNetwork.Text.Digits

/-!
The scalars of a YAML document: plain, quoted, literal and folded.

Each reader takes the text behind the start of the scalar and answers the scalar, the text that
follows it and the mark there.
-/

namespace TransitionNetwork.Yaml

/-- The blanks and line ends between two words of a scalar that may go over several lines. -/
inductive Gap
  | none
  /-- Blanks within a line. -/
  | spaces (text : List Char)
  /-- A line end and the line ends after it. -/
  | lines (first : Char) (more : List Char)
  /-- A line end that was escaped and the line ends after it. -/
  | escaped (more : List Char)

namespace Gap

/-- One line end is folded into a blank; of several the first is dropped. -/
def text : Gap → List Char
  | none => []
  | spaces text => text
  | lines first more => if first = '\n' then if more = [] then [' '] else more else first :: more
  | escaped more => more

/-- Whether the gap goes over a line end. -/
def isBroken : Gap → Bool
  | lines .. => true
  | escaped _ => true
  | _ => false

/-- Takes one more blank or line end. Blanks at the beginning of a line do not count. -/
def extend (gap : Gap) (c : Char) : Gap :=
  if isBreak c then
    match gap with
    | lines first more => lines first (more ++ [c])
    | escaped more => escaped (more ++ [c])
    | _ => lines c []
  else
    match gap with
    | none => spaces [c]
    | spaces text => spaces (text ++ [c])
    | broken => broken

end Gap

/-- A scalar that has been read, and where reading goes on. -/
structure ScalarEnd where
  text : List Char
  rest : List Char
  mark : Mark
  /-- Whether the scalar was followed by a line end that has been read. -/
  broken : Bool := false

/-! ### Plain scalars -/

/-- Whether a plain scalar ends before `c`. -/
def endsPlain (flow : Bool) (c : Char) (rest : List Char) : Bool :=
  (c = ':' && endsWord rest) || (flow && [',', '[', ']', '\x7b', '\x7d'].contains c)

/-- A colon directly before an indicator has no meaning in a flow collection. -/
def misplacedColon (flow : Bool) (c : Char) (rest : List Char) : Bool :=
  flow && c = ':' && rest.head?.any [',', '?', '[', ']', '\x7b', '\x7d'].contains

/-- Reads on in a plain scalar whose lines are indented by at least `indent`. -/
def readPlain (flow : Bool) (indent : Nat) (mark : Mark) (text : List Char) (gap : Gap) :
    List Char → Option ScalarEnd
  | [] => some { text, rest := [], mark, broken := gap.isBroken }
  | c :: rest =>
    let stop : ScalarEnd := { text, rest := c :: rest, mark, broken := gap.isBroken }
    if isSpace c || isBreak c then
      if c = '\t' && gap.isBroken && mark.column < indent then none
      else readPlain flow indent (mark.after c) text (gap.extend c) rest
    else
      let resumed := match gap with
        | .none => false
        | _ => true
      if gap.isBroken && !flow && mark.column < indent then some stop
      else if atDivider mark (c :: rest) then some stop
      else if resumed && c = '#' then some stop
      else if misplacedColon flow c rest then none
      else if endsPlain flow c rest then some stop
      else readPlain flow indent (mark.after c) (text ++ gap.text ++ [c]) .none rest

/-! ### Quoted scalars -/

/-- Reads on in a single-quoted scalar; a quote in it is written twice. -/
def readSingleQuoted (mark : Mark) (text : List Char) (gap : Gap) : List Char → Option ScalarEnd
  | [] => none
  | c :: rest =>
    if atDivider mark (c :: rest) then none
    else if isSpace c || isBreak c then
      readSingleQuoted (mark.after c) text (gap.extend c) rest
    else
      let text := text ++ gap.text
      if c = '\x27' then
        match rest with
        | '\x27' :: rest =>
          readSingleQuoted ((mark.after c).after c) (text ++ [c]) .none rest
        | rest => some { text, rest, mark := mark.after c }
      else readSingleQuoted (mark.after c) (text ++ [c]) .none rest

/-- The character that a letter after a backslash stands for. -/
def unescape? : Char → Option Char
  | '0' => some (Char.ofNat 0)
  | 'a' => some (Char.ofNat 0x7)
  | 'b' => some (Char.ofNat 0x8)
  | 't' => some '\t'
  | '\t' => some '\t'
  | 'n' => some '\n'
  | 'v' => some (Char.ofNat 0xB)
  | 'f' => some (Char.ofNat 0xC)
  | 'r' => some '\r'
  | 'e' => some (Char.ofNat 0x1B)
  | ' ' => some ' '
  | '"' => some '"'
  | '\x27' => some '\x27'
  | '/' => some '/'
  | '\\' => some '\\'
  | 'N' => some (Char.ofNat 0x85)
  | '_' => some (Char.ofNat 0xA0)
  | 'L' => some (Char.ofNat 0x2028)
  | 'P' => some (Char.ofNat 0x2029)
  | _ => none

/-- How many hexadecimal digits follow a letter after a backslash. -/
def codeLength? : Char → Option Nat
  | 'x' => some 2
  | 'u' => some 4
  | 'U' => some 8
  | _ => none

/-- The character with the code that the digits write. -/
def readCode? (digits : List Char) : Option Char :=
  (Text.readDigits? 16 digits).bind fun code =>
    if code.isValidChar then some (Char.ofNat code) else none

/-- Reads on in a double-quoted scalar. The first `skip` characters have been dealt with already. -/
def readDoubleQuoted (mark : Mark) (text : List Char) (gap : Gap) (skip : Nat) :
    List Char → Option ScalarEnd
  | [] => none
  | c :: rest =>
    match skip with
    | skip + 1 => readDoubleQuoted (mark.after c) text gap skip rest
    | 0 =>
      if atDivider mark (c :: rest) then none
      else if isSpace c || isBreak c then
        readDoubleQuoted (mark.after c) text (gap.extend c) 0 rest
      else
        let text := text ++ gap.text
        if c = '"' then some { text, rest, mark := mark.after c }
        else if c = '\\' then
          match rest with
          | [] => none
          | letter :: digits =>
            if isBreak letter then readDoubleQuoted (mark.after c) text (.escaped []) 1 rest
            else
              match codeLength? letter with
              | some length =>
                if digits.length < length then none
                else
                  match readCode? (digits.take length) with
                  | some c => readDoubleQuoted (mark.after '\\') (text ++ [c]) .none (length + 1) rest
                  | none => none
              | none =>
                match unescape? letter with
                | some c => readDoubleQuoted (mark.after '\\') (text ++ [c]) .none 1 rest
                | none => none
        else readDoubleQuoted (mark.after c) (text ++ [c]) .none 0 rest

/-! ### Literal and folded scalars -/

/-- What happens to the line ends at the end of a block scalar. -/
inductive Chomping
  | strip
  | clip
  | keep
  deriving DecidableEq, Repr

structure BlockHeader where
  chomping : Chomping := .clip
  /-- The indentation against the parent, if it is given. -/
  increment : Option Nat := none

/-- The signs behind the indicator of a block scalar, in either order, and how many there are. -/
def readHeader? (text : List Char) : Option (BlockHeader × Nat) :=
  let chomping? (c : Char) : Option Chomping :=
    if c = '+' then some .keep else if c = '-' then some .strip else none
  let digit? (c : Char) : Option Nat := if c.isDigit then some (c.toNat - '0'.toNat) else none
  let nonzero (header : BlockHeader) (length : Nat) : Option (BlockHeader × Nat) :=
    if header.increment = some 0 then none else some (header, length)
  match text with
  | [] => some ({}, 0)
  | first :: rest =>
    match chomping? first, digit? first with
    | some chomping, _ =>
      match rest.head?.bind digit? with
      | some increment => nonzero { chomping, increment := some increment } 2
      | none => some ({ chomping }, 1)
    | none, some increment =>
      match rest.head?.bind chomping? with
      | some chomping => nonzero { chomping, increment := some increment } 2
      | none => nonzero { increment := some increment } 1
    | none, none => some ({}, 0)

/-- Empty lines and the indentation behind them. -/
structure BlockBreaks where
  breaks : List Char
  /-- The largest indentation that was seen. -/
  widest : Nat
  rest : List Char
  mark : Mark

/-- Reads empty lines and the indentation of the line behind them, up to `indent` columns if it is
known. A tab may not stand in the indentation. -/
def readBlockBreaks (indent : Option Nat) (mark : Mark) (breaks : List Char) (widest : Nat) :
    List Char → Option BlockBreaks
  | [] => some { breaks, widest := max widest mark.column, rest := [], mark }
  | c :: rest =>
    let inIndentation := indent.all (mark.column < ·)
    if c = ' ' && inIndentation then
      readBlockBreaks indent (mark.after c) breaks widest rest
    else
      let widest := max widest mark.column
      if c = '\t' && inIndentation then none
      else if isBreak c then readBlockBreaks indent (mark.after c) (breaks ++ [c]) widest rest
      else some { breaks, widest, rest := c :: rest, mark }

/-- The lines of a block scalar that have been read. -/
structure BlockText where
  text : List Char := []
  /-- The end of the last line. -/
  lineEnd : List Char := []
  /-- The ends of the empty lines behind it. -/
  emptyLines : List Char := []
  /-- Whether the last line begins with a blank. -/
  indented : Bool := false

/-- Joins a line to the lines before. In a folded scalar the line end between two lines that do not
begin with a blank becomes a blank, or nothing if empty lines follow. -/
def BlockText.add (block : BlockText) (folded : Bool) (line lineEnd : List Char) : BlockText :=
  let indented := line.head?.any isSpace
  let joint :=
    if folded && block.lineEnd = ['\n'] && !block.indented && !indented then
      if block.emptyLines = [] then [' '] else []
    else block.lineEnd
  { text := block.text ++ joint ++ block.emptyLines ++ line, lineEnd, indented }

/-- The text of a block scalar with the line ends at its end. -/
def BlockText.finish (block : BlockText) : Chomping → List Char
  | .strip => block.text
  | .clip => block.text ++ block.lineEnd
  | .keep => block.text ++ block.lineEnd ++ block.emptyLines

/-- Reads the lines of a block scalar that stand at its indentation. -/
def readBlockLines (folded : Bool) (indent : Nat) (mark : Mark) (block : BlockText)
    (text : List Char) : Option (BlockText × List Char × Mark) :=
  if text = [] || mark.column ≠ indent then some (block, text, mark)
  else
    let line := text.takeWhile (!isBreak ·)
    let behind := text.dropWhile (!isBreak ·)
    let lineEnd := behind.take 1
    match readBlockBreaks (some indent) ((mark.afterAll line).afterAll lineEnd) [] 0
        (behind.drop 1) with
    | none => none
    | some next =>
      if _shorter : next.rest.length < text.length then
        readBlockLines folded indent next.mark
          { block.add folded line lineEnd with emptyLines := next.breaks } next.rest
      else none
termination_by text.length

/-- Reads a block scalar behind its indicator. The parent is indented by one less than
`parentIndent`. -/
def readBlock (folded : Bool) (parentIndent : Nat) (mark : Mark) (text : List Char) :
    Option ScalarEnd := do
  let (header, length) ← readHeader? text
  let mark := mark.afterAll (text.take length)
  let text := text.drop length
  let blanks := text.takeWhile isSpace
  let mark := mark.afterAll blanks
  let text := text.drop blanks.length
  let comment := if text.head? = some '#' then text.takeWhile (!isBreak ·) else []
  let mark := mark.afterAll comment
  let text := text.drop comment.length
  if text.head?.any (!isBreak ·) then none
  else
    let mark := mark.afterAll (text.take 1)
    let given := header.increment.map fun increment => (parentIndent - 1) + increment
    let first ← readBlockBreaks given mark [] 0 (text.drop 1)
    let indent := given.getD (max first.widest (max parentIndent 1))
    let (block, rest, mark) ← readBlockLines folded indent first.mark
      { emptyLines := first.breaks } first.rest
    return { text := block.finish header.chomping, rest, mark, broken := true }

end TransitionNetwork.Yaml
