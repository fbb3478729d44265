/-!
Digits: reading natural numbers, with or without the bound of 64 bits, and writing hexadecimal ones.
-/

namespace TransitionNetwork.Text

/-- The value of a digit in bases up to sixteen. -/
def digitValue? (c : Char) : Option Nat :=
  if '0' ≤ c ∧ c ≤ '9' then some (c.toNat - '0'.toNat)
  else if 'a' ≤ c ∧ c ≤ 'f' then some (c.toNat - 'a'.toNat + 10)
  else if 'A' ≤ c ∧ c ≤ 'F' then some (c.toNat - 'A'.toNat + 10)
  else none

/-- The number that the digits continue, `value` being what stands before them. -/
def readDigitsFrom (base value : Nat) : List Char → Option Nat
  | [] => some value
  | c :: rest =>
    match digitValue? c with
    | some digit => if digit < base then readDigitsFrom base (value * base + digit) rest else none
    | none => none

/-- A number in the given base: one digit or more and nothing else. -/
def readDigits? (base : Nat) (digits : List Char) : Option Nat :=
  if digits = [] then none else readDigitsFrom base 0 digits

/-- The least number that does not fit into 64 bits. -/
def wordLimit : Nat := Nat.pow 2 64

def readWord? (base : Nat) (digits : List Char) : Option Nat :=
  (readDigits? base digits).filter (· < wordLimit)

/-- A decimal number with an optional plus sign that fits into 64 bits. -/
def readDecimal? (text : String) : Option Nat :=
  match text.toList with
  | '+' :: digits => readWord? 10 digits
  | digits => readWord? 10 digits

/-! ### Hexadecimal digits -/

def hexDigit (n : Nat) : Char :=
  if n < 10 then Char.ofNat ('0'.toNat + n) else Char.ofNat ('a'.toNat + (n - 10))

/-- The last `width` hexadecimal digits of a number, in lowercase. -/
def hexDigits (width n : Nat) : List Char :=
  match width with
  | 0 => []
  | width + 1 => hexDigits width (n / 16) ++ [hexDigit (n % 16)]

end TransitionNetwork.Text
