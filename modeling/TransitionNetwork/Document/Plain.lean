import TransitionNetwork.Text.Digits

/-!
The value of an unquoted scalar under the core schema of YAML 1.2.

A plain scalar may be null, a truth value, an integer, a decimal fraction or, failing all that, a
string. Digits after a leading zero, as in `007`, make a string.
-/

namespace TransitionNetwork

/-- A value without parts. -/
inductive Scalar
  | null
  | bool (value : Bool)
  /-- A number by its decimal literal. -/
  | number (literal : String)
  /-- An integer that needs more than 64 bits but no more than 128. -/
  | wideInteger
  /-- An infinity, or not a number. -/
  | unbounded
  | string (text : String)
  deriving DecidableEq, Repr, Inhabited

namespace Scalar

def isNullWord (text : String) : Bool :=
  text = "" || text = "~" || text = "null" || text = "Null" || text = "NULL"

def readBool? (text : String) : Option Bool :=
  if text = "true" || text = "True" || text = "TRUE" then some true
  else if text = "false" || text = "False" || text = "FALSE" then some false
  else none

def dropPlus : List Char → List Char
  | '+' :: rest => rest
  | text => text

/-- Two digits or more of which the first is a zero, after an optional sign. -/
def hasLeadingZero (text : List Char) : Bool :=
  let digits := match text with
    | '+' :: rest => rest
    | '-' :: rest => rest
    | rest => rest
  1 < digits.length && digits.head? = some '0' && digits.all Char.isDigit

/-- An integer without a sign: hexadecimal behind `0x`, octal behind `0o`, binary behind `0b`, else
decimal. -/
def readMagnitude? : List Char → Option Nat
  | '0' :: 'x' :: digits => Text.readDigits? 16 digits
  | '0' :: 'o' :: digits => Text.readDigits? 8 digits
  | '0' :: 'b' :: digits => Text.readDigits? 2 digits
  | digits => if hasLeadingZero digits then none else Text.readDigits? 10 digits

/-- An integer with an optional sign. -/
def readInteger? (text : String) : Option Int :=
  match text.toList with
  | '+' :: rest => (readMagnitude? rest).map Int.ofNat
  | '-' :: rest => (readMagnitude? rest).map fun magnitude => -Int.ofNat magnitude
  | rest => (readMagnitude? rest).map Int.ofNat

/-- A natural number that fits into 64 bits. -/
def readNatural? (text : String) : Option Nat :=
  (readMagnitude? (dropPlus text.toList)).filter (· < Text.wordLimit)

/-- Decimal digits with a point and an exponent: the digits of the number and the power of ten they
are scaled by. -/
def readFraction? (text : List Char) : Option (List Char × Int) :=
  let whole := text.takeWhile Char.isDigit
  let behindWhole := text.dropWhile Char.isDigit
  let (fraction, behind) := match behindWhole with
    | '.' :: rest => (rest.takeWhile Char.isDigit, rest.dropWhile Char.isDigit)
    | rest => ([], rest)
  if whole.isEmpty && fraction.isEmpty then none
  else
    let scaled (exponent : Int) := some (whole ++ fraction, exponent - fraction.length)
    match behind with
    | [] => scaled 0
    | mark :: exponent =>
      if mark = 'e' || mark = 'E' then
        match exponent with
        | '-' :: digits => (Text.readDigits? 10 digits).bind fun n => scaled (-Int.ofNat n)
        | '+' :: digits => (Text.readDigits? 10 digits).bind fun n => scaled n
        | digits => (Text.readDigits? 10 digits).bind fun n => scaled n
      else none

/-- The least magnitude that rounds past the largest double. -/
def doubleLimit : Nat := Nat.pow 2 1024 - Nat.pow 2 970

/-- Whether digits times a power of ten stay below the range of doubles. -/
def isFinite (digits : List Char) (exponent : Int) : Bool :=
  let significant := digits.dropWhile (· = '0')
  let magnitude := (significant.length : Int) + exponent
  if significant = [] || magnitude < 300 then true
  else if 320 < magnitude then false
  else
    let value := (Text.readDigits? 10 significant).getD 0
    if 0 ≤ exponent then value * Nat.pow 10 exponent.toNat < doubleLimit
    else value < doubleLimit * Nat.pow 10 (-exponent).toNat

def isInfinityWord (text : String) : Bool :=
  [".inf", ".Inf", ".INF", "+.inf", "+.Inf", "+.INF", "-.inf", "-.Inf", "-.INF"].contains text

def isNanWord (text : String) : Bool :=
  [".nan", ".NaN", ".NAN"].contains text

/-- A decimal fraction in the range of doubles, an infinity or not a number. -/
def readFloat? (text : String) : Option Scalar :=
  if isInfinityWord text || isNanWord text then some .unbounded
  else
    let (sign, magnitude) := match text.toList with
      | '+' :: rest => ([], rest)
      | '-' :: rest => (['-'], rest)
      | rest => ([], rest)
    match readFraction? magnitude with
    | some (digits, exponent) =>
      if isFinite digits exponent then
        let significant := match digits.dropWhile (· = '0') with
          | [] => ['0']
          | rest => rest
        some (.number (String.ofList (sign ++ significant) ++ s!"e{exponent}"))
      else none
    | none => none

/-- Whether an integer fits into so many bits, with a sign or without. -/
def fitsBits (bits : Nat) (value : Int) : Bool :=
  match value with
  | .ofNat magnitude => magnitude < Nat.pow 2 bits
  | .negSucc magnitude => magnitude < Nat.pow 2 (bits - 1)

/-- An integer is a number when it fits into 64 bits. -/
def ofInteger (value : Int) : Option Scalar :=
  if fitsBits 64 value then some (.number (toString value))
  else if fitsBits 128 value then some .wideInteger
  else none

/-- The value of a plain scalar. -/
def ofPlain (text : String) : Scalar :=
  if isNullWord text then .null
  else
    match readBool? text with
    | some value => .bool value
    | none =>
      match (readInteger? text).bind ofInteger with
      | some integer => integer
      | none =>
        if hasLeadingZero text.toList then .string text
        else (readFloat? text).getD (.string text)

end Scalar

end TransitionNetwork
