import TransitionNetwork.Grammar.Basic
import TransitionNetwork.Json.Writer

/-!
The JSON form of a grammar, in which it is shown and over which its checksum is taken.
-/

namespace TransitionNetwork

def Symbol.toJson : Symbol → Json
  | .terminal name => .object [("type", .string "terminal"), ("name", .string name)]
  | .nonterminal name => .object [("type", .string "nonterminal"), ("name", .string name)]
  | .epsilon => .object [("type", .string "epsilon")]

def Rule.toJson (rule : Rule) : Json :=
  .object [("generator", .string rule.generator),
    ("elements", .array (rule.elements.map Symbol.toJson))]

/-- The start symbol is left out when there is none. -/
def Grammar.toJson (grammar : Grammar) : Json :=
  .object ((grammar.start.toList.map fun name => ("start", .string name)) ++
    [("nonterminals", .array (grammar.nonterminals.map .string)),
      ("terminals", .array (grammar.terminals.map .string)),
      ("rules", .array (grammar.rules.map Rule.toJson))])

end TransitionNetwork
