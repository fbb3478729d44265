import TransitionNetwork.Grammar.Basic
import TransitionNetwork.Tree.Basic
import Mathlib.Logic.Relation

/-! Derivations of a grammar and their trees. A derivation replaces nonterminals by the bodies of their
rules; epsilon elements stand for nothing, so a body is a right-hand side without them. A derivation tree
from which the subtrees without tokens are erased still shows which rule was used at each node, up to
nonterminals that derive the empty string (`Condenses`). Such a tree derives the tokens at its leaves. -/

namespace TransitionNetwork

/-- The right-hand side of a rule without its epsilon elements. -/
def Rule.body (rule : Rule) : List Symbol :=
  rule.elements.filter (· ≠ .epsilon)

theorem Rule.mem_elements_of_mem_body {rule : Rule} {symbol : Symbol} (h : symbol ∈ rule.body) :
    symbol ∈ rule.elements :=
  (List.mem_filter.mp h).1

namespace Grammar

variable {grammar : Grammar}

/-! ### Derivations -/

/-- One step of a derivation. -/
def Rewrites (grammar : Grammar) (before after : List Symbol) : Prop :=
  ∃ rule ∈ grammar.rules, ∃ left right,
    before = left ++ .nonterminal rule.generator :: right ∧ after = left ++ rule.body ++ right

def Derives (grammar : Grammar) : List Symbol → List Symbol → Prop :=
  Relation.ReflTransGen grammar.Rewrites

/-- A nonterminal that derives the empty string. -/
def DerivesEmpty (grammar : Grammar) (name : String) : Prop :=
  grammar.Derives [.nonterminal name] []

theorem Rewrites.append {before after : List Symbol} (h : grammar.Rewrites before after)
    (left right : List Symbol) :
    grammar.Rewrites (left ++ before ++ right) (left ++ after ++ right) := by
  obtain ⟨rule, hrule, left', right', rfl, rfl⟩ := h
  exact ⟨rule, hrule, left ++ left', right' ++ right, by simp, by simp⟩

theorem Derives.append_right {before after : List Symbol} (h : grammar.Derives before after)
    (right : List Symbol) : grammar.Derives (before ++ right) (after ++ right) := by
  induction h with
  | refl => exact .refl
  | tail _ hstep ih => exact ih.tail (by simpa using hstep.append [] right)

theorem Derives.append_left {before after : List Symbol} (h : grammar.Derives before after)
    (left : List Symbol) : grammar.Derives (left ++ before) (left ++ after) := by
  induction h with
  | refl => exact .refl
  | tail _ hstep ih => exact ih.tail (by simpa using hstep.append left [])

theorem Derives.append {before after before' after' : List Symbol}
    (h : grammar.Derives before after) (h' : grammar.Derives before' after') :
    grammar.Derives (before ++ before') (after ++ after') :=
  (h.append_right before').trans (h'.append_left after)

theorem Derives.replace {before left right body : List Symbol} {name : String}
    (h : grammar.Derives before (left ++ .nonterminal name :: right))
    (hbody : grammar.Derives [.nonterminal name] body) :
    grammar.Derives before (left ++ (body ++ right)) :=
  h.trans ((hbody.append_right right).append_left left)

theorem derives_body {rule : Rule} (hrule : rule ∈ grammar.rules) :
    grammar.Derives [.nonterminal rule.generator] rule.body :=
  .single ⟨rule, hrule, [], [], rfl, by simp⟩

/-! ### Leaving out nonterminals that derive nothing -/

/-- The second list is the first with some nonterminals left out that derive the empty string. -/
inductive Condenses (grammar : Grammar) : List Symbol → List Symbol → Prop
  | nil : Condenses grammar [] []
  | keep (symbol : Symbol) {symbols kept : List Symbol} (h : Condenses grammar symbols kept) :
      Condenses grammar (symbol :: symbols) (symbol :: kept)
  | drop {name : String} (hempty : grammar.DerivesEmpty name) {symbols kept : List Symbol}
      (h : Condenses grammar symbols kept) :
      Condenses grammar (.nonterminal name :: symbols) kept

theorem Condenses.derives {symbols kept : List Symbol} (h : grammar.Condenses symbols kept) :
    grammar.Derives symbols kept := by
  induction h with
  | nil => exact .refl
  | keep symbol _ ih => exact ih.append_left [symbol]
  | drop hempty _ ih => exact Derives.append hempty ih

theorem Condenses.append {symbols kept symbols' kept' : List Symbol}
    (h : grammar.Condenses symbols kept) (h' : grammar.Condenses symbols' kept') :
    grammar.Condenses (symbols ++ symbols') (kept ++ kept') := by
  induction h with
  | nil => exact h'
  | keep symbol _ ih => exact ih.keep symbol
  | drop hempty _ ih => exact ih.drop hempty

theorem Condenses.mem {symbols kept : List Symbol} (h : grammar.Condenses symbols kept)
    {symbol : Symbol} (hmem : symbol ∈ kept) : symbol ∈ symbols := by
  induction h with
  | nil => exact hmem
  | keep other _ ih =>
      rcases List.mem_cons.mp hmem with rfl | hmem
      · exact List.mem_cons_self
      · exact List.mem_cons_of_mem _ (ih hmem)
  | drop _ _ ih => exact List.mem_cons_of_mem _ (ih hmem)

end Grammar

/-! ### Trees -/

namespace Shape

def token : Shape → Option Token
  | .node _ _ token _ => token

/-- A node with a token stands for a terminal, any other for a nonterminal. -/
def symbol (shape : Shape) : Symbol :=
  if shape.token.isSome then .terminal shape.label else .nonterminal shape.label

/-- The tokens of the leaves, from left to right. -/
def tokens (shape : Shape) : List Token :=
  shape.preorder.filterMap fun node => if node.children.isEmpty then node.token else none

theorem preorderAll_eq_flatMap (shapes : List Shape) :
    preorderAll shapes = shapes.flatMap preorder := by
  induction shapes with
  | nil => rw [preorderAll, List.flatMap_nil]
  | cons shape shapes ih => rw [preorderAll, List.flatMap_cons, ih]

@[simp] theorem preorder_node (index : Nat) (label : String) (token : Option Token)
    (children : List Shape) :
    preorder (.node index label token children) =
      .node index label token children :: children.flatMap preorder := by
  rw [preorder, preorderAll_eq_flatMap]

theorem mem_preorder_self (shape : Shape) : shape ∈ shape.preorder := by
  cases shape
  rw [preorder_node]
  exact List.mem_cons_self

@[simp] theorem tokens_leaf (index : Nat) (label : String) (token : Option Token) :
    tokens (.node index label token []) = token.toList := by
  cases token <;> simp [tokens, children, Shape.token]

theorem tokens_node (index : Nat) (label : String) (children : List Shape) :
    tokens (.node index label none children) = children.flatMap tokens := by
  rw [tokens, preorder_node, List.filterMap_cons]
  simp only [Shape.token, ite_self]
  rw [List.filterMap_flatMap]
  rfl

end Shape

namespace Grammar

variable {grammar : Grammar}

/-- A derivation tree without empty subtrees: a token, or a node that has children and whose children
are the body of a rule but for nonterminals that derive the empty string. -/
inductive Derived (grammar : Grammar) : Shape → Prop
  | leaf (index : Nat) (token : Token) : Derived grammar (.node index token.category (some token) [])
  | node (index : Nat) {rule : Rule} (hrule : rule ∈ grammar.rules) {children : List Shape}
      (hchildren : children ≠ []) (hbody : grammar.Condenses rule.body (children.map Shape.symbol))
      (h : ∀ child ∈ children, Derived grammar child) :
      Derived grammar (.node index rule.generator none children)

/-- The terminals of tokens. -/
def categories (tokens : List Token) : List Symbol :=
  tokens.map fun token => .terminal token.category

theorem derives_flatMap {children : List Shape}
    (h : ∀ child ∈ children, grammar.Derives [child.symbol] (categories child.tokens)) :
    grammar.Derives (children.map Shape.symbol) (categories (children.flatMap Shape.tokens)) := by
  induction children with
  | nil => exact .refl
  | cons child children ih =>
      rw [List.flatMap_cons, categories, List.map_append]
      exact (h child List.mem_cons_self).append
        (ih fun other hother => h other (List.mem_cons_of_mem _ hother))

/-- A body whose remaining symbols are trees derives the tokens of these trees. -/
theorem derives_tokens_of_condenses {rule : Rule} (hrule : rule ∈ grammar.rules)
    {children : List Shape} (hbody : grammar.Condenses rule.body (children.map Shape.symbol))
    (h : ∀ child ∈ children, grammar.Derives [child.symbol] (categories child.tokens)) :
    grammar.Derives [.nonterminal rule.generator]
      (categories (children.flatMap Shape.tokens)) :=
  ((derives_body hrule).trans hbody.derives).trans (derives_flatMap h)

theorem Derived.derives {shape : Shape} (h : grammar.Derived shape) :
    grammar.Derives [shape.symbol] (categories shape.tokens) := by
  induction h with
  | leaf index token =>
      rw [Shape.tokens_leaf]
      exact .refl
  | node index hrule hchildren hbody _ ih =>
      rw [Shape.tokens_node]
      exact derives_tokens_of_condenses hrule hbody ih

theorem Derived.leaf_of_mem {shape : Shape} (h : grammar.Derived shape) :
    ∀ node ∈ shape.preorder, node.children = [] →
      ∃ token, node.token = some token ∧ node.label = token.category := by
  induction h with
  | leaf index token =>
      intro node hnode _
      rw [Shape.preorder_node, List.flatMap_nil, List.mem_singleton] at hnode
      subst hnode
      exact ⟨token, rfl, rfl⟩
  | node index hrule hchildren hbody _ ih =>
      intro node hnode hleaf
      rw [Shape.preorder_node] at hnode
      rcases List.mem_cons.mp hnode with rfl | hnode
      · exact absurd hleaf hchildren
      · obtain ⟨child, hchild, hnode⟩ := List.mem_flatMap.mp hnode
        exact ih child hchild node hnode hleaf

/-- No terminal of a rule is a nonterminal. -/
def TerminalsApart (grammar : Grammar) : Prop :=
  ∀ rule ∈ grammar.rules, ∀ name, .terminal name ∈ rule.elements → name ∉ grammar.nonterminals

theorem Derived.rule_of_mem (hapart : grammar.TerminalsApart) {shape : Shape}
    (h : grammar.Derived shape)
    (hsymbol : ∀ name, shape.symbol = .terminal name → name ∉ grammar.nonterminals) :
    ∀ node ∈ shape.preorder, node.label ∈ grammar.nonterminals →
      ∃ rule ∈ grammar.rulesFor node.label,
        grammar.Condenses rule.body (node.children.map Shape.symbol) := by
  induction h with
  | leaf index token =>
      intro node hnode hlabel
      rw [Shape.preorder_node, List.flatMap_nil, List.mem_singleton] at hnode
      subst hnode
      exact absurd hlabel (hsymbol token.category rfl)
  | @node index rule hrule children hchildren hbody _ ih =>
      intro node hnode hlabel
      rw [Shape.preorder_node] at hnode
      rcases List.mem_cons.mp hnode with rfl | hnode
      · exact ⟨rule, mem_rulesFor.mpr ⟨hrule, rfl⟩, hbody⟩
      · obtain ⟨child, hchild, hnode⟩ := List.mem_flatMap.mp hnode
        refine ih child hchild (fun name hname => ?_) node hnode hlabel
        have hmem := hbody.mem (List.mem_map_of_mem hchild)
        rw [hname] at hmem
        exact hapart rule hrule name (Rule.mem_elements_of_mem_body hmem)

/-- A tree is a derivation tree for tokens, its empty subtrees erased. -/
structure DerivationTree (grammar : Grammar) (start : String) (tokens : List Token)
    (shape : Shape) : Prop where
  start_mem : start ∈ grammar.nonterminals
  label_eq : shape.label = start
  /-- Below the root, every leaf is a token. -/
  leaf : ∀ node ∈ Shape.preorderAll shape.children, node.children = [] →
    ∃ token, node.token = some token ∧ node.label = token.category
  tokens_eq : shape.tokens = tokens
  /-- At every nonterminal a rule is used. -/
  rule : ∀ node ∈ shape.preorder, node.label ∈ grammar.nonterminals →
    ∃ rule ∈ grammar.rulesFor node.label,
      grammar.Condenses rule.body (node.children.map Shape.symbol)

/-- A root over trees without empty subtrees; only the root itself may be empty. -/
theorem derivationTree_node (hapart : grammar.TerminalsApart) (index : Nat) {rule : Rule}
    (hrule : rule ∈ grammar.rules) (hstart : rule.generator ∈ grammar.nonterminals)
    {children : List Shape}
    (hbody : grammar.Condenses rule.body (children.map Shape.symbol))
    (h : ∀ child ∈ children, grammar.Derived child) :
    grammar.DerivationTree rule.generator (children.flatMap Shape.tokens)
      (.node index rule.generator none children) := by
  constructor
  · exact hstart
  · rfl
  · intro node hnode
    rw [Shape.preorderAll_eq_flatMap] at hnode
    obtain ⟨child, hchild, hnode⟩ := List.mem_flatMap.mp hnode
    exact (h child hchild).leaf_of_mem node hnode
  · exact Shape.tokens_node index rule.generator children
  · by_cases hchildren : children = []
    · subst hchildren
      intro node hnode _
      rw [Shape.preorder_node, List.flatMap_nil, List.mem_singleton] at hnode
      subst hnode
      exact ⟨rule, mem_rulesFor.mpr ⟨hrule, rfl⟩, hbody⟩
    · refine (Derived.node index hrule hchildren hbody h).rule_of_mem hapart ?_
      intro name hname
      cases hname

end Grammar

end TransitionNetwork
