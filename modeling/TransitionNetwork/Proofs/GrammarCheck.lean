import TransitionNetwork.Grammar.Check
import TransitionNetwork.Proofs.GrammarDerivation

/-! What a grammar that passes its check is like. The check goes through the declarations and the rules one
after the other and reports the first fault; where none is reported, the start symbol and the symbols of
every rule are declared, terminals are apart from nonterminals, and every nonterminal has a rule. -/

namespace TransitionNetwork.Grammar

variable {grammar : Grammar} {start name : String} {rule : Rule}

/-- The checks before that for left recursion: the start symbol is declared, terminals are apart from
nonterminals, the rules use declared symbols, and every nonterminal has a rule. -/
structure Wellformed (grammar : Grammar) : Prop where
  start : ∃ start, grammar.start = some start ∧ grammar.hasNonterminal start = true
  clash : grammar.clash? = none
  rules : grammar.rulesError? = none
  barren : grammar.barren? = none

/-- What a successful check says beside the absence of left recursion. -/
theorem check_eq_ok (h : grammar.check = .ok start) :
    grammar.start = some start ∧ start ∈ grammar.nonterminals ∧ grammar.Wellformed := by
  rw [check] at h
  split at h
  · cases h
  · next start' hstart =>
    split at h
    · next hdeclared =>
      split at h
      · cases h
      · next hnone =>
        cases h
        simp only [Option.orElse_eq_orElse, Option.orElse_eq_or, Option.or_eq_none_iff] at hnone
        exact ⟨hstart, hasNonterminal_iff.mp hdeclared, ⟨start, hstart, hdeclared⟩, hnone.1,
          hnone.2.1, hnone.2.2.1⟩
    · cases h

namespace Wellformed

theorem declares (h : grammar.Wellformed) (hrule : rule ∈ grammar.rules) :
    rule.generator ∈ grammar.nonterminals ∧
      ∀ symbol ∈ rule.elements, grammar.symbolError? rule symbol = none := by
  have hnone := List.findSome?_eq_none_iff.mp h.rules rule hrule
  rw [ruleError?] at hnone
  split at hnone
  · next hdeclared => exact ⟨hasNonterminal_iff.mp hdeclared, List.findSome?_eq_none_iff.mp hnone⟩
  · cases hnone

theorem mem_nonterminals (h : grammar.Wellformed) (hrule : rule ∈ grammar.rules)
    (hname : .nonterminal name ∈ rule.elements) : name ∈ grammar.nonterminals := by
  have hsymbol := (h.declares hrule).2 _ hname
  rw [symbolError?] at hsymbol
  split at hsymbol
  · next hdeclared => exact hasNonterminal_iff.mp hdeclared
  · cases hsymbol

/-- No terminal of a rule is a nonterminal, since the check reports such a symbol. -/
theorem terminalsApart (h : grammar.Wellformed) : grammar.TerminalsApart := by
  intro rule hrule name hterminal hnonterminal
  have hsymbol := (h.declares hrule).2 _ hterminal
  rw [symbolError?, if_pos (hasNonterminal_iff.mpr hnonterminal)] at hsymbol
  cases hsymbol

/-- Every nonterminal has a rule, since the check reports one that has none. -/
theorem exists_rule (h : grammar.Wellformed) (hname : name ∈ grammar.nonterminals) :
    ∃ rule, rule ∈ grammar.rulesFor name := by
  have hnone := h.barren
  rw [barren?, Option.map_eq_none_iff, List.find?_eq_none] at hnone
  apply List.exists_mem_of_ne_nil
  simpa using hnone name hname

end Wellformed

theorem generator_mem_of_check (h : grammar.check = .ok start) (hrule : rule ∈ grammar.rules) :
    rule.generator ∈ grammar.nonterminals :=
  ((check_eq_ok h).2.2.declares hrule).1

end TransitionNetwork.Grammar
