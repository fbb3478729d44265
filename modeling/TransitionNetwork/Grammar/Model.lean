import TransitionNetwork.Grammar.Basic
import TransitionNetwork.Document.Basic

/-!
Reading a grammar back from its own JSON form. Nothing is checked or merged: the lists are taken as
they stand.
-/

namespace TransitionNetwork

/-- A symbol is written as a record of its type and its name, or as the list of the two. Only the
name of the empty production may be null or missing. -/
def Symbol.ofDocument? (document : Document) : Option Symbol :=
  let parts := match document with
    | .list [type, name] => some (some type, some name)
    | .list _ => none
    | document =>
      match document.fields? ["type", "name"] with
      | some [type, name] => some (type, name)
      | _ => none
  match parts with
  | some (some type, name) =>
    match type.text? with
    | some "terminal" => (name.bind Document.text?).map .terminal
    | some "nonterminal" => (name.bind Document.text?).map .nonterminal
    | some "epsilon" =>
      match name with
      | none => some .epsilon
      | some (.scalar .null) => some .epsilon
      | some _ => none
    | _ => none
  | _ => none

def Rule.ofDocument? (document : Document) : Option Rule :=
  match document.fields? ["generator", "elements"] with
  | some [some generator, some elements] => do
    let generator ← generator.text?
    let elements ← elements.listOf? Symbol.ofDocument?
    return { generator, elements }
  | _ => none

def Grammar.ofDocument? (document : Document) : Option Grammar :=
  match document.fields? ["start", "nonterminals", "terminals", "rules"] with
  | some [start, some nonterminals, some terminals, some rules] => do
    let start ← Document.orDefault none Document.optionalText? start
    let nonterminals ← nonterminals.listOf? Document.text?
    let terminals ← terminals.listOf? Document.text?
    let rules ← rules.listOf? Rule.ofDocument?
    return { start, nonterminals, terminals, rules }
  | _ => none

end TransitionNetwork
