import TransitionNetwork.Proofs.PredictiveGrammar
import Mathlib.Data.List.Chain

/-! Tables of lookahead. A table lists for each nonterminal terminals that may come first in it and
terminals that may follow it. If the lists are closed under the rules, they hold all firsts and all that
follows; if they tell apart how the rules of each nonterminal go on, the grammar is predictive. Both can be
checked by evaluation. -/

namespace TransitionNetwork

structure LookaheadTable where
  first : String → List String
  follow : String → List String

namespace LookaheadTable

variable {table : LookaheadTable} {grammar : Grammar}

def firsts (table : LookaheadTable) : Symbol → List String
  | .terminal name => [name]
  | .nonterminal name => table.first name
  | .epsilon => []

/-- The terminals are listed as following the symbol, which matters for a nonterminal only. -/
def Admits (table : LookaheadTable) (terminals : List String) : Symbol → Prop
  | .nonterminal name => ∀ terminal ∈ terminals, terminal ∈ table.follow name
  | _ => True

instance (terminals : List String) : DecidablePred (table.Admits terminals)
  | .nonterminal _ => inferInstanceAs (Decidable (∀ terminal ∈ terminals, _))
  | .terminal _ => inferInstanceAs (Decidable True)
  | .epsilon => inferInstanceAs (Decidable True)

/-- What comes first in the second symbol follows the first one. -/
def Beside (table : LookaheadTable) (left right : Symbol) : Prop :=
  table.Admits (table.firsts right) left

instance : DecidableRel table.Beside := fun left right =>
  inferInstanceAs (Decidable (table.Admits (table.firsts right) left))

/-- The lists are closed under a rule: at its beginning, between its symbols and at its end. -/
def Fits (table : LookaheadTable) (rule : Rule) : Prop :=
  (∀ symbol ∈ rule.body.head?, ∀ terminal ∈ table.firsts symbol,
    terminal ∈ table.first rule.generator) ∧
  rule.body.IsChain table.Beside ∧
  ∀ symbol ∈ rule.body.getLast?, table.Admits (table.follow rule.generator) symbol

instance : DecidablePred table.Fits := fun _ => inferInstanceAs (Decidable (_ ∧ _ ∧ _))

/-- Two bodies of a nonterminal are told apart where they part, or where one of them ends. -/
def parts (table : LookaheadTable) (nonterminal : String) : List Symbol → List Symbol → Bool
  | [], [] => true
  | [], symbol :: _ | symbol :: _, [] =>
    (table.firsts symbol).all fun terminal => !(table.follow nonterminal).contains terminal
  | left :: lefts, right :: rights =>
    if left = right then table.parts nonterminal lefts rights
    else (table.firsts left).all fun terminal => !(table.firsts right).contains terminal

/-- The lists fit all rules and tell apart those of each nonterminal. -/
def Decides (table : LookaheadTable) (grammar : Grammar) : Prop :=
  (∀ rule ∈ grammar.rules, table.Fits rule) ∧
  ∀ rule ∈ grammar.rules, ∀ other ∈ grammar.rulesFor rule.generator,
    table.parts rule.generator rule.body other.body = true

instance : DecidablePred table.Decides := fun _ => inferInstanceAs (Decidable (_ ∧ _))

/-! ### The lists are complete -/

/-- The first symbol of a sentential form has no firsts that the symbol it comes from has not. -/
theorem firsts_of_derives (hfree : grammar.EpsilonFree)
    (hfits : ∀ rule ∈ grammar.rules, table.Fits rule) {symbol : Symbol} {form : List Symbol}
    (h : grammar.Derives [symbol] form) :
    ∃ head rest, form = head :: rest ∧
      ∀ terminal ∈ table.firsts head, terminal ∈ table.firsts symbol := by
  induction h with
  | refl => exact ⟨symbol, [], rfl, fun _ hterminal => hterminal⟩
  | tail _ hstep ih =>
      obtain ⟨head, rest, rfl, hfirsts⟩ := ih
      obtain ⟨rule, hrule, left, right, hbefore, rfl⟩ := hstep
      cases left with
      | nil =>
          obtain ⟨rfl, rfl⟩ := List.cons.inj hbefore
          obtain ⟨first, others, hbody⟩ := List.exists_cons_of_ne_nil (hfree.body_ne_nil hrule)
          refine ⟨first, others ++ rest, by simp [hbody], fun terminal hterminal => ?_⟩
          exact hfirsts terminal ((hfits rule hrule).1 first (by simp [hbody]) terminal hterminal)
      | cons other left =>
          obtain ⟨rfl, rfl⟩ := List.cons.inj hbefore
          exact ⟨head, left ++ rule.body ++ right, by simp, hfirsts⟩

theorem mem_firsts (hfree : grammar.EpsilonFree)
    (hfits : ∀ rule ∈ grammar.rules, table.Fits rule) {symbol : Symbol} {terminal : String}
    (h : grammar.First symbol terminal) : terminal ∈ table.firsts symbol := by
  obtain ⟨rest, hderives⟩ := h
  obtain ⟨head, _, hform, hfirsts⟩ := firsts_of_derives hfree hfits hderives
  obtain ⟨rfl, -⟩ := List.cons.inj hform
  exact hfirsts terminal List.mem_cons_self

theorem Admits.mono {terminals others : List String} {symbol : Symbol}
    (h : table.Admits terminals symbol) (hsub : ∀ terminal ∈ others, terminal ∈ terminals) :
    table.Admits others symbol := by
  cases symbol with
  | nonterminal name => exact fun terminal hterminal => h terminal (hsub terminal hterminal)
  | terminal => trivial
  | epsilon => trivial

/-- Everywhere in a sentential form, what comes first in a symbol follows the one before it. -/
theorem isChain_of_derives (hfree : grammar.EpsilonFree)
    (hfits : ∀ rule ∈ grammar.rules, table.Fits rule) {symbol : Symbol} {form : List Symbol}
    (h : grammar.Derives [symbol] form) : form.IsChain table.Beside := by
  induction h with
  | refl => exact List.IsChain.singleton symbol
  | tail _ hstep ih =>
      obtain ⟨rule, hrule, left, right, rfl, rfl⟩ := hstep
      obtain ⟨hfirst, hinside, hlast⟩ := hfits rule hrule
      obtain ⟨hleft, hrest, hjoin⟩ := List.isChain_append.mp ih
      obtain ⟨hnext, hright⟩ := List.isChain_cons.mp hrest
      obtain ⟨first, others, hbody⟩ := List.exists_cons_of_ne_nil (hfree.body_ne_nil hrule)
      rw [List.append_assoc]
      refine hleft.append (hinside.append hright ?_) ?_
      · -- the last symbol of the body is followed by what follows the nonterminal
        intro last hmem after hafter
        exact (hlast last hmem).mono (hnext after hafter)
      · -- the body begins with firsts of the nonterminal
        intro before hbefore head hhead
        rw [hbody, List.cons_append, List.head?_cons, Option.mem_some_iff] at hhead
        subst hhead
        exact (hjoin before hbefore _ rfl).mono (hfirst first (by simp [hbody]))

theorem mem_follow (hfree : grammar.EpsilonFree)
    (hfits : ∀ rule ∈ grammar.rules, table.Fits rule) {start nonterminal terminal : String}
    (h : grammar.Follow start nonterminal terminal) : terminal ∈ table.follow nonterminal := by
  obtain ⟨left, right, hderives⟩ := h
  have hchain := (isChain_of_derives hfree hfits hderives).right_of_append
  exact (List.isChain_cons.mp hchain).1 _ rfl terminal List.mem_cons_self

/-! ### A table that decides -/

theorem apart_of_parts {nonterminal : String} {begun lefts rights : List Symbol}
    {left right : Symbol} (hne : left ≠ right)
    (h : table.parts nonterminal (begun ++ left :: lefts) (begun ++ right :: rights) = true) :
    ∀ terminal ∈ table.firsts left, terminal ∉ table.firsts right := by
  induction begun with
  | nil => simpa [parts, hne] using h
  | cons symbol begun ih =>
      apply ih
      simpa [parts] using h

theorem apart_of_ends {nonterminal : String} {begun rest : List Symbol} {symbol : Symbol}
    (h : table.parts nonterminal begun (begun ++ symbol :: rest) = true) :
    ∀ terminal ∈ table.firsts symbol, terminal ∉ table.follow nonterminal := by
  induction begun with
  | nil => simpa [parts] using h
  | cons other begun ih =>
      apply ih
      simpa [parts] using h

/-- A grammar for which there is a table that decides is predictive. -/
theorem Decides.predictive (h : table.Decides grammar) (hfree : grammar.EpsilonFree)
    (start : String) : grammar.Predictive start where
  first_apart := by
    rintro nonterminal begun left right ⟨rule, hrule, lefts, hbody⟩ ⟨other, hother, rights, hbody'⟩
      hne terminal hleft hright
    obtain ⟨hmem, rfl⟩ := Grammar.mem_rulesFor.mp hrule
    have hparts := h.2 rule hmem other hother
    rw [← hbody, ← hbody', List.append_assoc, List.append_assoc] at hparts
    exact apart_of_parts hne hparts terminal (mem_firsts hfree h.1 hleft)
      (mem_firsts hfree h.1 hright)
  follow_apart := by
    rintro rule hrule symbol ⟨other, hother, rest, hbody⟩ terminal hfirst hfollow
    have hparts := h.2 rule hrule other hother
    rw [← hbody, List.append_assoc] at hparts
    exact apart_of_ends hparts terminal (mem_firsts hfree h.1 hfirst)
      (mem_follow hfree h.1 hfollow)

end LookaheadTable

end TransitionNetwork
