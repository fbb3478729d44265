import TransitionNetwork.Document.Format
import TransitionNetwork.Grammar.Compile
import TransitionNetwork.Grammar.Model
import TransitionNetwork.Proofs.JsonReading

/-! The JSON form of a grammar identifies it. Each part of the form is read back as the part that it was
written for: a start symbol that is left out as no start symbol, an element without a name as the empty
production, and every list with its items in order. Nothing of the form is a number, so its text is read back
as the form, and from the text there is a way back to the grammar. -/

namespace TransitionNetwork

/-! ### Lists -/

theorem Document.ofItems_eq_map (items : List Json) : ofItems items = items.map ofJson := by
  induction items with
  | nil => rfl
  | cons item items ih => rw [ofItems, ih, List.map_cons]

/-- A list is read back if its items are. -/
theorem Document.listOf?_ofJson {α : Type} {read : Document → Option α} {write : α → Json}
    (h : ∀ value, read (ofJson (write value)) = some value) (values : List α) :
    (ofJson (.array (values.map write))).listOf? read = some values := by
  have hitems : (values.map fun value => ofJson (write value)).mapM read = some values := by
    induction values with
    | nil => rfl
    | cons value values ih => simp [h, ih]
  rw [ofJson, ofItems_eq_map, List.map_map]
  exact hitems

/-! ### Symbols and rules -/

theorem Symbol.valid_toJson (symbol : Symbol) : symbol.toJson.Valid := by
  cases symbol <;> exact .object (by simp [Json.Valid.string])

theorem Rule.valid_toJson (rule : Rule) : rule.toJson.Valid := by
  have helements : (Json.array (rule.elements.map Symbol.toJson)).Valid :=
    .array (List.forall_mem_map.mpr fun symbol _ => symbol.valid_toJson)
  exact .object (by simp [Json.Valid.string, helements])

theorem Symbol.ofDocument?_toJson (symbol : Symbol) :
    ofDocument? (.ofJson symbol.toJson) = some symbol := by
  cases symbol <;> rfl

theorem Rule.ofDocument?_toJson (rule : Rule) : ofDocument? (.ofJson rule.toJson) = some rule := by
  have hfields : (Document.ofJson rule.toJson).fields? ["generator", "elements"] =
      some [some (.string rule.generator), some (.ofJson (.array (rule.elements.map Symbol.toJson)))] := rfl
  rw [ofDocument?, hfields]
  dsimp only
  rw [Document.listOf?_ofJson Symbol.ofDocument?_toJson]
  rfl

/-! ### Grammars -/

namespace Grammar

/-- The fields of a grammar are found again, whether or not there is a start symbol. -/
theorem fields?_toJson (grammar : Grammar) :
    (Document.ofJson grammar.toJson).fields? ["start", "nonterminals", "terminals", "rules"] =
      some [grammar.start.map .string, some (.ofJson (.array (grammar.nonterminals.map .string))),
        some (.ofJson (.array (grammar.terminals.map .string))),
        some (.ofJson (.array (grammar.rules.map Rule.toJson)))] := by
  obtain ⟨start, nonterminals, terminals, rules⟩ := grammar
  cases start <;> rfl

theorem ofDocument?_toJson (grammar : Grammar) : ofDocument? (.ofJson grammar.toJson) = some grammar := by
  have hstart : Document.orDefault none Document.optionalText? (grammar.start.map .string) =
      some grammar.start := by
    cases grammar.start <;> rfl
  have hnames : ∀ names : List String,
      (Document.ofJson (.array (names.map .string))).listOf? Document.text? = some names :=
    Document.listOf?_ofJson fun _ => rfl
  rw [ofDocument?, fields?_toJson]
  dsimp only
  rw [hstart, hnames, hnames, Document.listOf?_ofJson Rule.ofDocument?_toJson]
  rfl

theorem valid_toJson (grammar : Grammar) : grammar.toJson.Valid := by
  have hnames : ∀ names : List String, (Json.array (names.map .string)).Valid := fun names =>
    .array (List.forall_mem_map.mpr fun name _ => .string name)
  have hrules : (Json.array (grammar.rules.map Rule.toJson)).Valid :=
    .array (List.forall_mem_map.mpr fun rule _ => rule.valid_toJson)
  refine .object (List.forall_mem_append.mpr ⟨?_, by simp [hnames, hrules]⟩)
  exact List.forall_mem_map.mpr fun name _ => .string name

theorem read?_compact_toJson (grammar : Grammar) :
    (Document.read? .json grammar.toJson.compact).bind ofDocument? = some grammar := by
  rw [Document.read?, Json.read?_compact grammar.valid_toJson, Option.map_some, Option.bind_some,
    ofDocument?_toJson]

/-- The text over which the checksum of a grammar is taken identifies the grammar: reading it gives the
grammar back, whatever characters its names are made of, and no other grammar has the same text. -/
theorem identified_by_compact (grammar : Grammar) :
    grammar.checksum = Checksum.ofText grammar.toJson.compact ∧
    (Document.read? .json grammar.toJson.compact).bind ofDocument? = some grammar ∧
    ∀ other : Grammar, other.toJson.compact = grammar.toJson.compact ↔ other = grammar := by
  refine ⟨rfl, grammar.read?_compact_toJson, fun other => ⟨fun htext => ?_, fun hsame => by rw [hsame]⟩⟩
  have hread := other.read?_compact_toJson
  rw [htext, grammar.read?_compact_toJson] at hread
  exact (Option.some.inj hread).symm

/-- A name that would end its string and begin the next one, if its quotes were not escaped, besides names
with a control character, a backslash and characters of two and four bytes. -/
def oddlyNamed : Grammar where
  nonterminals := ["a\",\"b"]
  terminals := ["\x01\t", "\\é😀"]
  rules := [⟨"a\",\"b", [.terminal "\x01\t", .epsilon]⟩]

theorem oddlyNamed_identified :
    oddlyNamed.toJson.compact =
        "\x7b\"nonterminals\":[\"a\\\",\\\"b\"],\"terminals\":[\"\\u0001\\t\",\"\\\\é😀\"],\"rules\":[\x7b" ++
          "\"generator\":\"a\\\",\\\"b\",\"elements\":[\x7b\"type\":\"terminal\",\"name\":\"\\u0001\\t\"\x7d," ++
          "\x7b\"type\":\"epsilon\"\x7d]\x7d]\x7d" ∧
      (Document.read? .json oddlyNamed.toJson.compact).bind ofDocument? = some oddlyNamed ∧
      ({ oddlyNamed with nonterminals := ["a", "b"] } : Grammar).toJson.compact ≠
        oddlyNamed.toJson.compact := by
  obtain ⟨-, hread, hsame⟩ := identified_by_compact oddlyNamed
  exact ⟨by decide +kernel, hread, fun htext => absurd ((hsame _).mp htext) (by decide)⟩

end Grammar

end TransitionNetwork
