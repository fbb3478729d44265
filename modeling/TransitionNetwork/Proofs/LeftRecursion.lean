import TransitionNetwork.Proofs.CallEligibility
import TransitionNetwork.Proofs.EmptyDerivations

/-! Left recursion. A nonterminal is left-recursive if it derives, in one step or more, a sentential form
that begins with it. The check looks for a way back to a nonterminal along leading calls: those at the
beginning of a right-hand side, and behind nonterminals that derive the empty string. Every such way is a
derivation, and every derivation that begins with a nonterminal has come to it along such a way. -/

namespace TransitionNetwork

namespace Grammar

variable {grammar : Grammar} {name : String}

/-! ### Leading calls -/

theorem mem_leading_cons {nullable : List String} {symbol : Symbol} {symbols : List Symbol} :
    name ∈ leading nullable (symbol :: symbols) ↔ symbol = .nonterminal name ∨
      symbol.Vanishes (· ∈ nullable) ∧ name ∈ leading nullable symbols := by
  cases symbol with
  | epsilon => simp [leading, Symbol.Vanishes]
  | terminal other => simp [leading, Symbol.Vanishes]
  | nonterminal other =>
      by_cases hother : other ∈ nullable <;> simp [leading, Symbol.Vanishes, hother, eq_comm]

/-- What stands behind some symbols may lead if all of these vanish. -/
theorem mem_leading_append {nullable : List String} {left right : List Symbol} :
    name ∈ leading nullable (left ++ right) ↔ name ∈ leading nullable left ∨
      (∀ symbol ∈ left, symbol.Vanishes (· ∈ nullable)) ∧ name ∈ leading nullable right := by
  induction left with
  | nil => simp [leading]
  | cons symbol left ih =>
      rw [List.cons_append, mem_leading_cons, mem_leading_cons, List.forall_mem_cons, ih]
      tauto

/-- A call that leads a right-hand side leads its body. -/
theorem mem_leading_body {nullable : List String} {rule : Rule} :
    name ∈ leading nullable rule.body ↔ name ∈ leading nullable rule.elements := by
  rw [Rule.body]
  induction rule.elements with
  | nil => rfl
  | cons symbol symbols ih =>
      by_cases hepsilon : symbol = .epsilon
      · rw [List.filter_cons_of_neg (by simpa using hepsilon), ih, hepsilon, leading]
      · rw [List.filter_cons_of_pos (by simpa using hepsilon), mem_leading_cons, mem_leading_cons, ih]

theorem mem_leadingCalls_iff {nullable : List String} {nonterminal : String} :
    name ∈ grammar.leadingCalls nullable nonterminal ↔
      ∃ rule ∈ grammar.rulesFor nonterminal, name ∈ leading nullable rule.body := by
  simp only [leadingCalls, List.mem_flatMap, mem_leading_body]

/-! ### Derivations along leading calls -/

/-- A nonterminal derives, in one step or more, a sentential form that begins with it. -/
def LeftRecursive (grammar : Grammar) (name : String) : Prop :=
  ∃ rest, Relation.TransGen grammar.Rewrites [.nonterminal name] (.nonterminal name :: rest)

theorem derives_of_mem_leading {symbols : List Symbol} (hepsilon : .epsilon ∉ symbols)
    (h : name ∈ leading grammar.nullable symbols) :
    ∃ rest, grammar.Derives symbols (.nonterminal name :: rest) := by
  induction symbols with
  | nil => cases h
  | cons symbol symbols ih =>
      rw [List.mem_cons, not_or] at hepsilon
      rcases mem_leading_cons.mp h with rfl | ⟨hvanishes, hlater⟩
      · exact ⟨symbols, .refl⟩
      · obtain ⟨rest, hrest⟩ := ih hepsilon.2 hlater
        refine ⟨rest, ?_⟩
        cases symbol with
        | epsilon => exact absurd rfl hepsilon.1
        | terminal other => exact absurd hvanishes id
        | nonterminal other => exact Derives.append (mem_nullable_iff.mp hvanishes) hrest

/-- A leading call stands at the beginning of a form that is derived in one step or more. -/
theorem transGen_of_mem_leadingCalls {nonterminal : String}
    (h : name ∈ grammar.leadingCalls grammar.nullable nonterminal) :
    ∃ rest, Relation.TransGen grammar.Rewrites [.nonterminal nonterminal]
      (.nonterminal name :: rest) := by
  obtain ⟨rule, hrule, hleading⟩ := mem_leadingCalls_iff.mp h
  obtain ⟨hmem, rfl⟩ := mem_rulesFor.mp hrule
  obtain ⟨rest, hderives⟩ := derives_of_mem_leading rule.epsilon_not_mem_body hleading
  exact ⟨rest, .head' ⟨rule, hmem, [], [], rfl, by simp⟩ hderives⟩

theorem derives_of_reaches {first : String}
    (h : Reaches (grammar.leadingCalls grammar.nullable) first name) :
    ∃ rest, grammar.Derives [.nonterminal first] (.nonterminal name :: rest) := by
  induction h using Relation.ReflTransGen.head_induction_on with
  | refl => exact ⟨[], .refl⟩
  | head hedge _ ih =>
      obtain ⟨rest, hfirst⟩ := transGen_of_mem_leadingCalls hedge
      obtain ⟨others, hrest⟩ := ih
      exact ⟨others ++ rest, hfirst.to_reflTransGen.trans (hrest.append_right rest)⟩

/-- The nonterminal at the beginning of a form has come there along leading calls. The induction is on the
derivation from its first step on: the symbol that is replaced stands before, at or behind the call that
leads the next form. -/
theorem reaches_of_derives {symbols : List Symbol} {rest : List Symbol}
    (h : grammar.Derives symbols (.nonterminal name :: rest)) :
    ∃ first ∈ leading grammar.nullable symbols,
      Reaches (grammar.leadingCalls grammar.nullable) first name := by
  induction h using Relation.ReflTransGen.head_induction_on with
  | refl => exact ⟨name, mem_leading_cons.mpr (.inl rfl), .refl⟩
  | head hstep _ ih =>
      obtain ⟨rule, hrule, left, right, rfl, rfl⟩ := hstep
      obtain ⟨first, hfirst, hreaches⟩ := ih
      simp only [mem_leading_append, List.forall_mem_append] at hfirst
      rcases hfirst with (hleft | ⟨hleft, hbody⟩) | ⟨⟨hleft, hbody⟩, hright⟩
      · exact ⟨first, mem_leading_append.mpr (.inl hleft), hreaches⟩
      · have hedge : first ∈ grammar.leadingCalls grammar.nullable rule.generator :=
          mem_leadingCalls_iff.mpr ⟨rule, mem_rulesFor.mpr ⟨hrule, rfl⟩, hbody⟩
        exact ⟨rule.generator, mem_leading_append.mpr (.inr ⟨hleft, mem_leading_cons.mpr (.inl rfl)⟩),
          .head hedge hreaches⟩
      · have hnullable := grammar.closedUnder_nullable rule hrule hbody
        exact ⟨first, mem_leading_append.mpr
          (.inr ⟨hleft, mem_leading_cons.mpr (.inr ⟨hnullable, hright⟩)⟩), hreaches⟩

/-- A way back along leading calls is left recursion. -/
theorem leftRecursive_iff_reaches :
    grammar.LeftRecursive name ↔ ∃ first ∈ grammar.leadingCalls grammar.nullable name,
      Reaches (grammar.leadingCalls grammar.nullable) first name := by
  constructor
  · rintro ⟨rest, hderives⟩
    obtain ⟨next, hstep, hrest⟩ := Relation.TransGen.head'_iff.mp hderives
    obtain ⟨rule, hrule, left, right, hname, rfl⟩ := hstep
    -- the only symbol there is to replace is the nonterminal itself
    obtain ⟨rfl, rfl, hgenerator⟩ : left = [] ∧ right = [] ∧ name = rule.generator := by
      cases left with
      | nil =>
          obtain ⟨hsymbol, rfl⟩ := List.cons.inj hname
          exact ⟨rfl, rfl, Symbol.nonterminal.inj hsymbol⟩
      | cons symbol left => simp at hname
    rw [List.nil_append, List.append_nil] at hrest
    obtain ⟨first, hfirst, hreaches⟩ := reaches_of_derives hrest
    exact ⟨first, mem_leadingCalls_iff.mpr
      ⟨rule, mem_rulesFor.mpr ⟨hrule, hgenerator.symm⟩, hfirst⟩, hreaches⟩
  · rintro ⟨first, hfirst, hreaches⟩
    obtain ⟨rest, hstep⟩ := transGen_of_mem_leadingCalls hfirst
    obtain ⟨others, hrest⟩ := derives_of_reaches hreaches
    exact ⟨others ++ rest, hstep.trans_left (hrest.append_right rest)⟩

/-! ### The check -/

theorem mem_of_mem_leading {nullable : List String} {symbols : List Symbol}
    (h : name ∈ leading nullable symbols) : .nonterminal name ∈ symbols := by
  induction symbols with
  | nil => cases h
  | cons symbol symbols ih =>
      rcases mem_leading_cons.mp h with rfl | ⟨-, hlater⟩
      · exact List.mem_cons_self
      · exact List.mem_cons_of_mem _ (ih hlater)

theorem Wellformed.leadingCalls_mem (h : grammar.Wellformed) {nullable : List String}
    {nonterminal : String} (hname : name ∈ grammar.leadingCalls nullable nonterminal) :
    name ∈ grammar.nonterminals := by
  obtain ⟨rule, hrule, hleading⟩ := mem_leadingCalls_iff.mp hname
  exact h.mem_nonterminals (mem_rulesFor.mp hrule).1
    (Rule.mem_elements_of_mem_body (mem_of_mem_leading hleading))

/-- The search for a way back answers whether a nonterminal is left-recursive. -/
theorem Wellformed.isLeftRecursive_iff (h : grammar.Wellformed) :
    grammar.isLeftRecursive grammar.nullable name = true ↔ grammar.LeftRecursive name := by
  rw [leftRecursive_iff_reaches]
  constructor
  · intro hfound
    obtain ⟨first, hfirst, reached, hreaches, hreached⟩ := reaches_of_explore _ _ hfound
    rw [decide_eq_true_eq] at hreached
    rw [hreached] at hreaches
    exact ⟨first, hfirst, hreaches⟩
  · rintro ⟨first, hfirst, hreaches⟩
    by_contra hfailed
    obtain ⟨hexplored, -, -, hvisited⟩ :=
      explored_of_explore _ _ nofun nofun (Bool.eq_false_iff.mpr hfailed)
    have hseen := hvisited first hfirst (h.leadingCalls_mem hfirst)
    have hgoal := hexplored.goal_of_reaches (fun _ _ _ => h.leadingCalls_mem) hseen hreaches
    exact of_decide_eq_false hgoal rfl

/-- The first left-recursive nonterminal is reported. -/
theorem Wellformed.recursionError?_eq_some_iff (h : grammar.Wellformed) {error : CompileError} :
    grammar.recursionError? = some error ↔ ∃ name earlier later, error = .leftRecursion name ∧
      grammar.nonterminals = earlier ++ name :: later ∧ grammar.LeftRecursive name ∧
      ∀ other ∈ earlier, ¬ grammar.LeftRecursive other := by
  simp only [recursionError?, leftRecursive?, Option.map_eq_some_iff,
    List.find?_eq_some_iff_append, h.isLeftRecursive_iff, Bool.not_eq_true',
    ← Bool.not_eq_true]
  constructor
  · rintro ⟨name, ⟨hname, earlier, later, hsplit, hearlier⟩, rfl⟩
    exact ⟨name, earlier, later, rfl, hsplit, hname, hearlier⟩
  · rintro ⟨name, earlier, later, rfl, hsplit, hname, hearlier⟩
    exact ⟨name, ⟨hname, earlier, later, hsplit, hearlier⟩, rfl⟩

theorem Wellformed.recursionError?_eq_none_iff (h : grammar.Wellformed) :
    grammar.recursionError? = none ↔ ∀ name ∈ grammar.nonterminals, ¬ grammar.LeftRecursive name := by
  simp only [recursionError?, leftRecursive?, Option.map_eq_none_iff, List.find?_eq_none,
    h.isLeftRecursive_iff]

/-- Nothing but left recursion can keep a wellformed grammar from passing its check. -/
theorem Wellformed.check_eq_error_iff (h : grammar.Wellformed) {error : CompileError} :
    grammar.check = .error error ↔ grammar.recursionError? = some error := by
  obtain ⟨start, hstart, hdeclared⟩ := h.start
  simp only [check, hstart, hdeclared, if_true, h.clash, h.rules, h.barren,
    Option.orElse_eq_orElse, Option.orElse_eq_or, Option.none_or]
  cases grammar.recursionError? with
  | none => simp
  | some found => simp

/-- For a grammar that has passed the other checks, the nullable nonterminals are those that derive the
empty string, and it is rejected exactly if some nonterminal is left-recursive; the first of them in the
order of declaration is reported. -/
theorem Wellformed.leftRecursion_exact (h : grammar.Wellformed) :
    (∀ name, name ∈ grammar.nullable ↔ grammar.DerivesEmpty name) ∧
      (grammar.recursionError? = none ↔
        ∀ name ∈ grammar.nonterminals, ¬ grammar.LeftRecursive name) ∧
      ∀ error, (grammar.check = .error error ↔ grammar.recursionError? = some error) ∧
        (grammar.recursionError? = some error ↔ ∃ name earlier later, error = .leftRecursion name ∧
          grammar.nonterminals = earlier ++ name :: later ∧ grammar.LeftRecursive name ∧
          ∀ other ∈ earlier, ¬ grammar.LeftRecursive other) :=
  ⟨fun _ => mem_nullable_iff, h.recursionError?_eq_none_iff,
    fun _ => ⟨h.check_eq_error_iff, h.recursionError?_eq_some_iff⟩⟩

/-- Behind an article that may be left out, a noun may begin with a sentence. -/
def roundabout : Grammar where
  start := some "S"
  nonterminals := ["E", "S", "B"]
  terminals := ["s", "e", "b"]
  rules := [⟨"S", [.nonterminal "E", .epsilon, .nonterminal "B", .terminal "s"]⟩, ⟨"E", [.epsilon]⟩,
    ⟨"E", [.terminal "e"]⟩, ⟨"B", [.nonterminal "S", .terminal "b"]⟩, ⟨"B", [.terminal "b"]⟩]

/-- The nonterminal that is declared first is nullable and harmless; the second one comes back to itself
behind it. -/
theorem roundabout_leftRecursion :
    roundabout.Wellformed ∧ roundabout.DerivesEmpty "E" ∧ ¬ roundabout.LeftRecursive "E" ∧
      roundabout.LeftRecursive "S" ∧ roundabout.check = .error (.leftRecursion "S") := by
  have h : roundabout.Wellformed := ⟨⟨"S", rfl, by decide⟩, by decide, by decide, by decide⟩
  obtain ⟨hnullable, -, herror⟩ := h.leftRecursion_exact
  obtain ⟨hcheck, hfirst⟩ := herror (.leftRecursion "S")
  have hfound : roundabout.recursionError? = some (.leftRecursion "S") := by cbv
  have hempty : roundabout.nullable = ["E"] := by cbv
  obtain ⟨name, earlier, later, hname, hsplit, hrecursive, hearlier⟩ := hfirst.mp hfound
  cases hname
  refine ⟨h, (hnullable "E").mp (hempty ▸ List.mem_cons_self), ?_, hrecursive, hcheck.mpr hfound⟩
  cases earlier with
  | nil => exact absurd (List.cons.inj hsplit).1 (by decide)
  | cons other earlier =>
      rw [← (List.cons.inj hsplit).1] at hearlier
      exact hearlier "E" List.mem_cons_self

end Grammar

end TransitionNetwork
