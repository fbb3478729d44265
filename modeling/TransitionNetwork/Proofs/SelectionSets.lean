import TransitionNetwork.Proofs.EmptyDerivations
import TransitionNetwork.Proofs.LookaheadTables

/-! Selection sets. What is left of a right-hand side behind a beginning is selected by the terminals that
it may begin with and, if it may be empty, by those that follow its nonterminal. A grammar is selective if
the next terminal tells apart how the rules of a nonterminal go on behind every beginning that they share;
in contrast to predictive grammars there may be empty right-hand sides. As there, a table that is closed
under the rules holds all that is needed, so that the property can be checked by evaluation. -/

namespace TransitionNetwork

namespace Grammar

variable {grammar : Grammar} {nonterminal terminal : String}

/-- A terminal that a form derived from some symbols begins with. -/
def FirstOf (grammar : Grammar) (symbols : List Symbol) (terminal : String) : Prop :=
  ∃ rest, grammar.Derives symbols (.terminal terminal :: rest)

/-- A terminal that selects a rule of a nonterminal which goes on with `next` behind a beginning, or ends
there. -/
def Selects (grammar : Grammar) (start nonterminal : String) (begun : List Symbol)
    (next : Option Symbol) (terminal : String) : Prop :=
  ∃ rule ∈ grammar.rulesFor nonterminal, ∃ rest, rule.body = begun ++ rest ∧ rest.head? = next ∧
    (grammar.FirstOf rest terminal ∨
      grammar.Derives rest [] ∧ grammar.Follow start nonterminal terminal)

/-- Behind every beginning, no terminal selects two ways to go on. -/
def Selective (grammar : Grammar) (start : String) : Prop :=
  ∀ nonterminal begun left right, left ≠ right → ∀ terminal,
    grammar.Selects start nonterminal begun left terminal →
      ¬ grammar.Selects start nonterminal begun right terminal

theorem Continues.selects {begun : List Symbol} {symbol : Symbol}
    (h : grammar.Continues nonterminal begun symbol) (hfirst : grammar.First symbol terminal)
    (start : String) :
    grammar.Selects start nonterminal begun (some symbol) terminal := by
  obtain ⟨rule, hrule, rest, hbody⟩ := h
  obtain ⟨rest', hderives⟩ := hfirst
  rw [List.append_assoc] at hbody
  exact ⟨rule, hrule, symbol :: rest, hbody.symm, rfl, .inl ⟨rest' ++ rest, hderives.append_right rest⟩⟩

end Grammar

/-- A table of lookahead with the nonterminals that may be empty. -/
structure SelectionTable extends LookaheadTable where
  empty : List String

namespace SelectionTable

variable {table : SelectionTable} {grammar : Grammar} {ends others : List String}
  {symbols : List Symbol} {terminal : String}

/-- The terminals that symbols may begin with when they stand before something that may begin with the
given ones. -/
def ahead (table : SelectionTable) (ends : List String) : List Symbol → List String
  | [] => ends
  | .terminal name :: _ => [name]
  | .nonterminal name :: rest =>
    table.first name ++ if name ∈ table.empty then table.ahead ends rest else []
  | .epsilon :: _ => []

/-- Before something that may begin with the given terminals, what may come behind a nonterminal is listed
as following it. -/
def Covers (table : SelectionTable) (ends : List String) : List Symbol → Prop
  | [] => True
  | .nonterminal name :: rest =>
    (∀ terminal ∈ table.ahead ends rest, terminal ∈ table.follow name) ∧ table.Covers ends rest
  | .terminal _ :: rest => table.Covers ends rest
  | .epsilon :: rest => table.Covers ends rest

instance decidableCovers (table : SelectionTable) (ends : List String) :
    DecidablePred (table.Covers ends)
  | [] => inferInstanceAs (Decidable True)
  | .nonterminal name :: rest =>
    have := decidableCovers table ends rest
    inferInstanceAs (Decidable ((∀ terminal ∈ table.ahead ends rest, terminal ∈ table.follow name) ∧
      table.Covers ends rest))
  | .terminal _ :: rest => decidableCovers table ends rest
  | .epsilon :: rest => decidableCovers table ends rest

/-- The lists are closed under a rule. -/
def Fits (table : SelectionTable) (rule : Rule) : Prop :=
  (rule.body.all (·.vanishes table.empty) = true → rule.generator ∈ table.empty) ∧
  (∀ terminal ∈ table.ahead [] rule.body, terminal ∈ table.first rule.generator) ∧
  table.Covers (table.follow rule.generator) rule.body

instance : DecidablePred table.Fits := fun _ => inferInstanceAs (Decidable ((_ → _) ∧ _ ∧ _))

/-- Two rules of a nonterminal that begin alike are told apart by what is left of them, unless they go on
alike. -/
def Separates (table : SelectionTable) (rule other : Rule) (begun : Nat) : Prop :=
  rule.body.take begun = other.body.take begun →
  (rule.body.drop begun).head? ≠ (other.body.drop begun).head? →
  ∀ terminal ∈ table.ahead (table.follow rule.generator) (rule.body.drop begun),
    terminal ∉ table.ahead (table.follow rule.generator) (other.body.drop begun)

instance (rule other : Rule) : DecidablePred (table.Separates rule other) :=
  fun _ => inferInstanceAs (Decidable (_ → _ → ∀ terminal ∈ table.ahead _ _, _))

/-- The lists fit all rules and tell apart those of each nonterminal. -/
def Decides (table : SelectionTable) (grammar : Grammar) : Prop :=
  (∀ rule ∈ grammar.rules, table.Fits rule) ∧
  ∀ rule ∈ grammar.rules, ∀ other ∈ grammar.rulesFor rule.generator,
    ∀ begun ≤ rule.body.length, table.Separates rule other begun

instance : DecidablePred table.Decides := fun _ => inferInstanceAs (Decidable (_ ∧ _))

/-! ### What symbols may begin with -/

theorem ahead_append (left right : List Symbol) :
    table.ahead ends (left ++ right) = table.ahead (table.ahead ends right) left := by
  induction left with
  | nil => rfl
  | cons symbol left ih =>
      cases symbol with
      | nonterminal name => rw [List.cons_append, ahead, ahead, ih]
      | terminal name => rfl
      | epsilon => rfl

theorem ahead_mono (hsub : ∀ terminal ∈ ends, terminal ∈ others) :
    ∀ terminal ∈ table.ahead ends symbols, terminal ∈ table.ahead others symbols := by
  induction symbols with
  | nil => exact hsub
  | cons symbol symbols ih =>
      intro terminal hterminal
      cases symbol with
      | nonterminal name =>
          rw [ahead, List.mem_append] at hterminal ⊢
          rcases hterminal with hfirst | hbehind
          · exact .inl hfirst
          · split at hbehind
            · next hempty =>
              rw [if_pos hempty]
              exact .inr (ih terminal hbehind)
            · cases hbehind
      | terminal name => exact hterminal
      | epsilon => exact hterminal

/-- What comes behind some symbols is seen through them only if all of them may be empty. -/
theorem ahead_cases (h : terminal ∈ table.ahead ends symbols) :
    terminal ∈ table.ahead [] symbols ∨
      symbols.all (·.vanishes table.empty) = true ∧ terminal ∈ ends := by
  induction symbols with
  | nil => exact .inr ⟨rfl, h⟩
  | cons symbol symbols ih =>
      cases symbol with
      | nonterminal name =>
          rw [ahead, List.mem_append] at h ⊢
          rcases h with hfirst | hbehind
          · exact .inl (.inl hfirst)
          · split at hbehind
            · next hempty =>
              rw [if_pos hempty]
              refine (ih hbehind).imp .inr fun ⟨hvanish, hends⟩ => ⟨?_, hends⟩
              rw [List.all_cons, hvanish, Symbol.vanishes, List.contains_iff_mem.mpr hempty]
              rfl
            · cases hbehind
      | terminal name => exact .inl h
      | epsilon => exact .inl h

/-- A rule replaces a nonterminal by symbols that may begin with no more. -/
theorem Fits.ahead_body {rule : Rule} (h : table.Fits rule) (right : List Symbol) :
    ∀ terminal ∈ table.ahead ends (rule.body ++ right),
      terminal ∈ table.ahead ends (.nonterminal rule.generator :: right) := by
  intro terminal hterminal
  rw [ahead_append] at hterminal
  rw [ahead, List.mem_append]
  rcases ahead_cases hterminal with hbody | ⟨hvanish, hright⟩
  · exact .inl (h.2.1 terminal hbody)
  · rw [if_pos (h.1 hvanish)]
    exact .inr hright

theorem ahead_of_derives (hfits : ∀ rule ∈ grammar.rules, table.Fits rule)
    {before after : List Symbol} (h : grammar.Derives before after) :
    ∀ terminal ∈ table.ahead ends after, terminal ∈ table.ahead ends before := by
  induction h with
  | refl => exact fun _ hterminal => hterminal
  | tail _ hstep ih =>
      obtain ⟨rule, hrule, left, right, rfl, rfl⟩ := hstep
      intro terminal hterminal
      apply ih terminal
      rw [List.append_assoc, ahead_append] at hterminal
      rw [ahead_append]
      exact ahead_mono ((hfits rule hrule).ahead_body right) terminal hterminal

/-! ### What follows a nonterminal -/

theorem Covers.mono (h : table.Covers ends symbols) (hsub : ∀ terminal ∈ others, terminal ∈ ends) :
    table.Covers others symbols := by
  induction symbols with
  | nil => trivial
  | cons symbol symbols ih =>
      cases symbol with
      | nonterminal name =>
          exact ⟨fun terminal hterminal => h.1 terminal (ahead_mono hsub terminal hterminal), ih h.2⟩
      | terminal name => exact ih h
      | epsilon => exact ih h

theorem covers_append {left right : List Symbol} :
    table.Covers ends (left ++ right) ↔
      table.Covers (table.ahead ends right) left ∧ table.Covers ends right := by
  induction left with
  | nil => exact ⟨fun h => ⟨trivial, h⟩, And.right⟩
  | cons symbol left ih =>
      cases symbol with
      | nonterminal name =>
          rw [List.cons_append, Covers, Covers, ih, ahead_append, and_assoc]
      | terminal name => exact ih
      | epsilon => exact ih

/-- In every sentential form, what may come behind a nonterminal is listed as following it. -/
theorem covers_of_derives (hfits : ∀ rule ∈ grammar.rules, table.Fits rule) {start : String}
    {form : List Symbol} (h : grammar.Derives [.nonterminal start] form) : table.Covers [] form := by
  induction h with
  | refl => exact ⟨nofun, trivial⟩
  | tail _ hstep ih =>
      obtain ⟨rule, hrule, left, right, rfl, rfl⟩ := hstep
      obtain ⟨hleft, hbehind, hright⟩ := covers_append.mp ih
      have hfit := hfits rule hrule
      rw [List.append_assoc, covers_append, covers_append]
      exact ⟨hleft.mono (hfit.ahead_body right), hfit.2.2.mono hbehind, hright⟩

theorem mem_follow (hfits : ∀ rule ∈ grammar.rules, table.Fits rule) {start nonterminal : String}
    (h : grammar.Follow start nonterminal terminal) : terminal ∈ table.follow nonterminal := by
  obtain ⟨left, right, hderives⟩ := h
  exact (covers_append.mp (covers_of_derives hfits hderives)).2.1 terminal List.mem_cons_self

/-! ### A table that decides -/

/-- The terminals that select what is left of a rule are listed. -/
theorem mem_ahead_of_selected (hfits : ∀ rule ∈ grammar.rules, table.Fits rule)
    {start nonterminal : String}
    (h : grammar.FirstOf symbols terminal ∨
      grammar.Derives symbols [] ∧ grammar.Follow start nonterminal terminal) :
    terminal ∈ table.ahead (table.follow nonterminal) symbols := by
  rcases h with ⟨rest, hfirst⟩ | ⟨hempty, hfollow⟩
  · exact ahead_of_derives hfits hfirst terminal List.mem_cons_self
  · exact ahead_of_derives hfits hempty terminal (mem_follow hfits hfollow)

/-- A grammar for which there is a table that decides is selective. -/
theorem Decides.selective (h : table.Decides grammar) (start : String) : grammar.Selective start := by
  rintro nonterminal begun left right hne terminal ⟨rule, hrule, rest, hbody, hleft, hselects⟩
    ⟨other, hother, rest', hbody', hright, hselects'⟩
  obtain ⟨hmem, rfl⟩ := Grammar.mem_rulesFor.mp hrule
  have hseparates := h.2 rule hmem other hother begun.length (by simp [hbody])
  rw [Separates, hbody, hbody', List.take_left, List.take_left, List.drop_left, List.drop_left,
    hleft, hright] at hseparates
  exact hseparates rfl hne terminal (mem_ahead_of_selected h.1 hselects)
    (mem_ahead_of_selected h.1 hselects')

end SelectionTable

end TransitionNetwork
