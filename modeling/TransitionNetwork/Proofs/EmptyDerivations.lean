import TransitionNetwork.Grammar.Nullable
import TransitionNetwork.Proofs.GrammarDerivation

/-! Nonterminals that derive the empty string. The search for them adds the generator of a rule as soon as
all elements of the rule vanish. What it ends with is the least set of nonterminals that is closed under
the rules in this way: it is closed, and whatever holds of the generator of a rule when it holds of the
elements holds of the whole set. So it has exactly the nonterminals from which nothing can be derived. -/

namespace TransitionNetwork

/-- A symbol that stands for nothing, provided the nonterminals with a property do. -/
def Symbol.Vanishes (holds : String → Prop) : Symbol → Prop
  | .epsilon => True
  | .terminal _ => False
  | .nonterminal name => holds name

theorem Symbol.vanishes_iff {known : List String} {symbol : Symbol} :
    symbol.vanishes known = true ↔ symbol.Vanishes (· ∈ known) := by
  cases symbol <;> simp [vanishes, Vanishes]

theorem Rule.epsilon_not_mem_body (rule : Rule) : .epsilon ∉ rule.body := by
  intro hmem
  simpa using (List.mem_filter.mp hmem).2

/-- Epsilon elements vanish anyhow. -/
theorem Rule.forall_mem_body_vanishes {holds : String → Prop} {rule : Rule} :
    (∀ symbol ∈ rule.body, symbol.Vanishes holds) ↔
      ∀ symbol ∈ rule.elements, symbol.Vanishes holds := by
  constructor
  · intro h symbol hsymbol
    by_cases hepsilon : symbol = .epsilon
    · rw [hepsilon]
      trivial
    · exact h symbol (List.mem_filter.mpr ⟨hsymbol, by simpa using hepsilon⟩)
  · exact fun h symbol hsymbol => h symbol (mem_elements_of_mem_body hsymbol)

namespace Grammar

variable {grammar : Grammar} {holds : String → Prop}

/-- A property that every rule hands on from its elements to its generator. -/
def ClosedUnder (grammar : Grammar) (holds : String → Prop) : Prop :=
  ∀ rule ∈ grammar.rules, (∀ symbol ∈ rule.body, symbol.Vanishes holds) → holds rule.generator

/-! ### The search -/

theorem ClosedUnder.nullableFrom (h : grammar.ClosedUnder holds) (known : List String)
    (hknown : ∀ name ∈ known, holds name) : ∀ name ∈ grammar.nullableFrom known, holds name := by
  fun_induction grammar.nullableFrom known with
  | case1 known hnone => exact hknown
  | case2 known rule hfound ih =>
      refine ih (List.forall_mem_cons.mpr
        ⟨h rule (List.mem_of_find?_eq_some hfound) ?_, hknown⟩)
      have hvanishes := List.find?_some hfound
      rw [Bool.and_eq_true, List.all_eq_true] at hvanishes
      intro symbol hsymbol
      have hsymbol := Symbol.vanishes_iff.mp
        (hvanishes.2 symbol (Rule.mem_elements_of_mem_body hsymbol))
      cases symbol with
      | epsilon => trivial
      | terminal name => exact hsymbol
      | nonterminal name => exact hknown name hsymbol

/-- The search ends when no rule shows one more nonterminal. -/
theorem newlyNullable?_nullableFrom (grammar : Grammar) (known : List String) :
    grammar.newlyNullable? (grammar.nullableFrom known) = none := by
  fun_induction grammar.nullableFrom known with
  | case1 known hnone => exact hnone
  | case2 known rule hfound ih => exact ih

/-- Every property that is closed under the rules holds of the nullable nonterminals. -/
theorem ClosedUnder.of_mem_nullable (h : grammar.ClosedUnder holds) {name : String}
    (hname : name ∈ grammar.nullable) : holds name :=
  h.nullableFrom [] nofun name hname

theorem closedUnder_nullable (grammar : Grammar) :
    grammar.ClosedUnder (· ∈ grammar.nullable) := by
  intro rule hrule hbody
  have hnone := List.find?_eq_none.mp (grammar.newlyNullable?_nullableFrom []) rule hrule
  by_cases hmem : rule.generator ∈ grammar.nullable
  · exact hmem
  · have hnew : (!(grammar.nullableFrom []).contains rule.generator) = true := by
      simpa [nullable] using hmem
    rw [Bool.and_eq_true, List.all_eq_true] at hnone
    exact absurd ⟨hnew, fun symbol hsymbol =>
      Symbol.vanishes_iff.mpr (Rule.forall_mem_body_vanishes.mp hbody symbol hsymbol)⟩ hnone

/-! ### Derivations of nothing -/

theorem derives_nil_of_vanishes {symbols : List Symbol}
    (h : ∀ symbol ∈ symbols, symbol.Vanishes grammar.DerivesEmpty)
    (hepsilon : .epsilon ∉ symbols) : grammar.Derives symbols [] := by
  induction symbols with
  | nil => exact .refl
  | cons symbol symbols ih =>
      obtain ⟨hsymbol, hrest⟩ := List.forall_mem_cons.mp h
      rw [List.mem_cons, not_or] at hepsilon
      have hnothing := ih hrest hepsilon.2
      cases symbol with
      | epsilon => exact absurd rfl hepsilon.1
      | terminal name => exact absurd hsymbol id
      | nonterminal name => exact Derives.append hsymbol hnothing

theorem closedUnder_derivesEmpty (grammar : Grammar) :
    grammar.ClosedUnder grammar.DerivesEmpty := by
  intro rule hrule hbody
  exact (derives_body hrule).trans
    (derives_nil_of_vanishes hbody rule.epsilon_not_mem_body)

/-- What nothing is derived from vanishes, symbol by symbol. The induction is on the derivation from its
first step on. -/
theorem ClosedUnder.vanishes_of_derives (h : grammar.ClosedUnder holds) {symbols : List Symbol}
    (hderives : grammar.Derives symbols []) : ∀ symbol ∈ symbols, symbol.Vanishes holds := by
  induction hderives using Relation.ReflTransGen.head_induction_on with
  | refl => exact nofun
  | head hstep _ ih =>
      obtain ⟨rule, hrule, left, right, rfl, rfl⟩ := hstep
      simp only [List.forall_mem_append, List.forall_mem_cons] at ih ⊢
      exact ⟨ih.1.1, h rule hrule ih.1.2, ih.2⟩

/-- The nullable nonterminals are those that derive the empty string. -/
theorem mem_nullable_iff {name : String} :
    name ∈ grammar.nullable ↔ grammar.DerivesEmpty name := by
  constructor
  · exact grammar.closedUnder_derivesEmpty.of_mem_nullable
  · intro hderives
    exact grammar.closedUnder_nullable.vanishes_of_derives hderives (.nonterminal name)
      List.mem_cons_self

end Grammar

end TransitionNetwork
