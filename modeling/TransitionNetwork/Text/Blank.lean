/-!
Cutting text into words, pieces and lines.

A blank is a character with the Unicode property White_Space. `words` cuts at blanks and drops empty
words; `pieces` cuts at one character and keeps them.
-/

namespace TransitionNetwork.Text

/-- The Unicode property White_Space: 25 code points, of which six are ASCII. -/
def isBlank (c : Char) : Bool :=
  let code := c.toNat
  (0x9 ≤ code && code ≤ 0xD) || code = 0x20 || code = 0x85 || code = 0xA0 || code = 0x1680 ||
    (0x2000 ≤ code && code ≤ 0x200A) || code = 0x2028 || code = 0x2029 || code = 0x202F ||
    code = 0x205F || code = 0x3000

/-- The maximal runs of characters that do not separate, `current` being the start of the run that
the characters continue. -/
def runsFrom (separates : Char → Bool) (current : List Char) : List Char → List (List Char)
  | [] => if current = [] then [] else [current]
  | c :: rest =>
    if separates c then
      if current = [] then runsFrom separates [] rest
      else current :: runsFrom separates [] rest
    else runsFrom separates (current ++ [c]) rest

/-- The nonempty words between separators, in order. -/
def wordsBy (separates : Char → Bool) (text : String) : List String :=
  (runsFrom separates [] text.toList).map String.ofList

/-- The nonempty words between blanks, in order. -/
def words (text : String) : List String :=
  wordsBy isBlank text

/-- The pieces between the occurrences of `mark`, empty ones included: one more than there are
marks. -/
def piecesOf (mark : Char) : List Char → List (List Char)
  | [] => [[]]
  | c :: rest =>
    if c = mark then [] :: piecesOf mark rest
    else
      match piecesOf mark rest with
      | [] => [[c]]
      | piece :: pieces => (c :: piece) :: pieces

def pieces (mark : Char) (text : String) : List String :=
  (piecesOf mark text.toList).map String.ofList

/-- The lines of a text. A line feed ends a line, so text that ends with one has no line after it. -/
def lines (text : String) : List String :=
  let all := pieces '\n' text
  if all.getLast? = some "" then all.dropLast else all

def trimStart (text : String) : String :=
  String.ofList (text.toList.dropWhile isBlank)

def trimEnd (text : String) : String :=
  String.ofList (text.toList.reverse.dropWhile isBlank).reverse

def trim (text : String) : String :=
  trimEnd (trimStart text)

/-- Lowercases the ASCII letters and keeps every other character. -/
def asciiLower (text : String) : String :=
  String.ofList (text.toList.map Char.toLower)

/-- Equality up to the case of ASCII letters. -/
def sameUpToAsciiCase (left right : String) : Bool :=
  asciiLower left = asciiLower right

/-! ### Lemmas -/

theorem runsFrom_cons_of_not {separates : Char → Bool} {c : Char} (h : separates c = false)
    (current rest : List Char) :
    runsFrom separates current (c :: rest) = runsFrom separates (current ++ [c]) rest := by
  simp [runsFrom, h]

/-- Characters that do not separate extend the current run. -/
theorem runsFrom_append {separates : Char → Bool} {word : List Char}
    (h : ∀ c ∈ word, separates c = false) (current rest : List Char) :
    runsFrom separates current (word ++ rest) = runsFrom separates (current ++ word) rest := by
  induction word generalizing current with
  | nil => simp
  | cons c word ih =>
      rw [List.cons_append, runsFrom_cons_of_not (h c List.mem_cons_self),
        ih fun other hother => h other (List.mem_cons_of_mem c hother)]
      simp

/-- A run ends at the separator that follows it. -/
theorem runsFrom_separator {separates : Char → Bool} {c : Char} (h : separates c = true)
    {current : List Char} (hcurrent : current ≠ []) (rest : List Char) :
    runsFrom separates current (c :: rest) = current :: runsFrom separates [] rest := by
  simp [runsFrom, h, hcurrent]

theorem piecesOf_ne_nil (mark : Char) (text : List Char) : piecesOf mark text ≠ [] := by
  cases text with
  | nil => simp [piecesOf]
  | cons c rest =>
      rw [piecesOf]
      split
      · simp
      · split <;> simp

end TransitionNetwork.Text
