import TransitionNetwork.Text.CaseData

/-!
Full Unicode lowercasing of a text.

Every character is replaced by its lowercase form, which for the capital I with a dot is two
characters. Capital sigma alone looks at its neighbours: at the end of a word it becomes the final
form.
-/

namespace TransitionNetwork.Text

def inRanges (ranges : List (Nat × Nat)) (c : Char) : Bool :=
  ranges.any fun (first, last) => first ≤ c.toNat && c.toNat ≤ last

def LowercaseRun.applies (run : LowercaseRun) (code : Nat) : Bool :=
  run.first ≤ code && code ≤ run.last && (code - run.first) % run.stride = 0

/-- The lowercase form of a character that does not depend on its neighbours. -/
def lowerChar (c : Char) : List Char :=
  if c.toNat = 0x130 then ['i', Char.ofNat 0x307]
  else
    match lowercaseRuns.find? (·.applies c.toNat) with
    | some run => [Char.ofNat (c.toNat + run.shift).toNat]
    | none => [c]

/-- Whether the first character that is not case-ignorable exists and is cased. -/
def meetsCased (text : List Char) : Bool :=
  match text.dropWhile (inRanges caseIgnorableRanges) with
  | c :: _ => inRanges casedRanges c
  | [] => false

/-- The lowercase form of capital sigma between the text before it, nearest character first, and
the text after it. -/
def lowerSigma (before after : List Char) : Char :=
  if meetsCased before && !meetsCased after then Char.ofNat 0x3C2 else Char.ofNat 0x3C3

def lowerFrom (before : List Char) : List Char → List Char
  | [] => []
  | c :: after =>
    let lower := if c.toNat = 0x3A3 then [lowerSigma before after] else lowerChar c
    lower ++ lowerFrom (c :: before) after

def lowercase (text : String) : String :=
  String.ofList (lowerFrom [] text.toList)

end TransitionNetwork.Text
