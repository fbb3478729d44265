/-!
Arguments of a command: options with their values, and words.

An option has a long name, written with two dashes, and may have a letter, written with one. Its value
is attached, with or without an equals sign behind the letter, or is the next argument, unless that
looks like an option itself. A lone dash is a word, and behind two dashes by themselves all is words.
-/

namespace TransitionNetwork

structure OptionForm where
  name : String
  letter : Option Char := none
  takesValue : Bool := true
  deriving DecidableEq, Repr, Inhabited

/-- One thing that stands among the arguments. -/
inductive Argument
  /-- An option with its value. -/
  | setting (name value : String)
  /-- An option without a value. -/
  | switch (name : String)
  | word (text : String)
  /-- Two dashes by themselves. -/
  | separator
  /-- An option that does not exist, lacks its value or has one that it does not take. -/
  | invalid
  deriving DecidableEq, Repr, Inhabited

namespace Argument

/-- Whether an argument is an option, or the end of them, by its looks. -/
def looksLikeOption (text : String) : Bool :=
  match text.toList with
  | '-' :: _ :: _ => true
  | _ => false

/-- The option of a form, its value being attached or the next argument. -/
def ofForm (form : OptionForm) (attached : Option (List Char)) (rest : List String) :
    Argument × List String :=
  if form.takesValue then
    match attached, rest with
    | some value, rest => (.setting form.name (String.ofList value), rest)
    | none, value :: rest =>
      if looksLikeOption value then (.invalid, value :: rest)
      else (.setting form.name value, rest)
    | none, [] => (.invalid, [])
  else if attached.isSome then (.invalid, rest)
  else (.switch form.name, rest)

/-- The value behind the letter of an option. -/
def attachedToLetter : List Char → Option (List Char)
  | [] => none
  | '=' :: value => some value
  | value => some value

/-- The value behind the name of an option. -/
def attachedToName (text : List Char) : Option (List Char) :=
  match text.dropWhile (· ≠ '=') with
  | _ :: value => some value
  | [] => none

/-- Reads one argument, and the next with it if that is its value. -/
def read (forms : List OptionForm) (text : String) (rest : List String) :
    Argument × List String :=
  match text.toList with
  | ['-', '-'] => (.separator, rest)
  | '-' :: '-' :: long =>
    let name := String.ofList (long.takeWhile (· ≠ '='))
    match forms.find? (·.name = name) with
    | some form => ofForm form (attachedToName long) rest
    | none => (.invalid, rest)
  | '-' :: letter :: behind =>
    match forms.find? (·.letter = some letter) with
    | some form =>
      if form.takesValue then ofForm form (attachedToLetter behind) rest
      else (.switch form.name, rest)
    | none => (.invalid, rest)
  | _ => (.word text, rest)

theorem length_ofForm_le (form : OptionForm) (attached : Option (List Char)) (rest : List String) :
    (ofForm form attached rest).2.length ≤ rest.length := by
  unfold ofForm
  split
  · split
    · exact Nat.le_refl _
    · split <;> simp
    · simp
  · split <;> simp

/-- Reading an argument adds nothing to what follows. -/
theorem length_read_le (forms : List OptionForm) (text : String) (rest : List String) :
    (read forms text rest).2.length ≤ rest.length := by
  unfold read
  split
  · simp
  · dsimp only
    split
    · exact length_ofForm_le ..
    · simp
  · split
    · split
      · exact length_ofForm_le ..
      · simp
    · simp
  · simp

/-- Reads the arguments before the first word, and keeps what follows the word. -/
def readToWord (forms : List OptionForm) :
    List String → List Argument × Option (String × List String)
  | [] => ([], none)
  | text :: rest =>
    have := length_read_le forms text rest
    let behind := (read forms text rest).2
    match (read forms text rest).1 with
    | .word first => ([], some (first, behind))
    | argument =>
      let (arguments, found) := readToWord forms behind
      (argument :: arguments, found)
termination_by arguments => arguments.length
decreasing_by simp; omega

/-- Reads all arguments. -/
def readAll (forms : List OptionForm) : List String → List Argument
  | [] => []
  | text :: rest =>
    have := length_read_le forms text rest
    let behind := (read forms text rest).2
    match (read forms text rest).1 with
    | .separator => behind.map .word
    | argument => argument :: readAll forms behind
termination_by arguments => arguments.length
decreasing_by simp; omega

end Argument

end TransitionNetwork
