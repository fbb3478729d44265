import TransitionNetwork.Proofs.CandidateSearch
import TransitionNetwork.Proofs.CompiledNetwork
import Mathlib.Order.Bounds.Basic

/-! Readings that the search overlooks. Over a compiled grammar, tokens that are accepted can be followed
to the end, since nothing is accepted from an error state. The search stops at the least vector whose
tokens can be followed and settles; what settling says is the verdict, and no choice is revised after it.
So a sentence is rejected in spite of an accepted reading exactly if the least viable vector is not
accepted and a greater one is. -/

namespace TransitionNetwork

namespace Grammar

variable {grammar : Grammar} {start : String} {network : Network} {limits : Limits}

/-- Every machine at work is that of a nonterminal. -/
def Runs {σ : Type} (grammar : Grammar) (configuration : Configuration σ) : Prop :=
  ∀ cursor ∈ configuration.active :: configuration.frames,
    ∃ nonterminal, cursor.automaton = grammar.machine nonterminal

theorem Runs.stuck_of_atError {σ : Type} {configuration : Configuration σ}
    (h : grammar.Runs configuration) (herror : configuration.active.atError = true) :
    grammar.Stuck configuration := by
  obtain ⟨nonterminal, hautomaton⟩ := h configuration.active List.mem_cons_self
  have hcursor : configuration.active = grammar.cursor nonterminal configuration.active.state := by
    rw [Grammar.cursor, ← hautomaton]
  rw [hcursor] at herror
  refine ⟨nonterminal, ?_⟩
  rw [hcursor, atError_cursor.mp herror]

variable {σ : Type} [Recorder σ] {before after : Configuration σ}

theorem Runs.move (hnetwork : grammar.Describes start network) (h : grammar.Runs before)
    {symbol : Option String} (hmove : before.Move network limits symbol after) :
    grammar.Runs after := by
  cases hmove with
  | enter _ _ hcallee =>
      exact List.forall_mem_cons.mpr ⟨⟨_, hnetwork.callee_eq hcallee⟩, h⟩
  | leave =>
      obtain ⟨-, hframes⟩ := List.forall_mem_cons.mp h
      obtain ⟨hframe, hframes⟩ := List.forall_mem_cons.mp hframes
      exact List.forall_mem_cons.mpr ⟨hframe, hframes⟩
  | dismiss => exact (List.forall_mem_cons.mp h).2
  | epsilon =>
      obtain ⟨hactive, hframes⟩ := List.forall_mem_cons.mp h
      exact List.forall_mem_cons.mpr ⟨hactive, hframes⟩

theorem Runs.moves (hnetwork : grammar.Describes start network) (h : grammar.Runs before)
    {symbol : Option String} (hmoves : before.Moves network limits symbol after) :
    grammar.Runs after := by
  induction hmoves with
  | refl => exact h
  | tail _ hmove ih => exact ih.move hnetwork hmove

theorem Runs.attempt (hnetwork : grammar.Describes start network) (h : grammar.Runs before)
    {symbol : String} (hattempt : before.Attempt network limits symbol true after) :
    grammar.Runs after := by
  obtain ⟨ready, taken, hready, htake, htaken⟩ := hattempt
  refine Runs.moves hnetwork ?_ htaken
  obtain ⟨hactive, hframes⟩ := List.forall_mem_cons.mp (h.moves hnetwork hready)
  cases htake with
  | transition => exact List.forall_mem_cons.mpr ⟨hactive, hframes⟩
  | alternate => exact List.forall_mem_cons.mpr ⟨hactive, hframes⟩

end Grammar

namespace Analyser

variable {grammar : Grammar} {start : String} {analyser after : Analyser} {tokens : List Token}

theorem runs_of_feed (hnetwork : grammar.Describes start analyser.network)
    (hruns : grammar.Runs analyser.configuration) {token : Token}
    (hfeed : analyser.feed token = (true, after)) :
    grammar.Runs after.configuration ∧ after.network = analyser.network := by
  obtain ⟨session, recorded, hattempt, -, rfl⟩ := feed_of_consumed hfeed
  have hholding : grammar.Runs (analyser.holding token).configuration := hruns
  have hafter := hholding.attempt hnetwork hattempt
  exact ⟨hafter, rfl⟩

/-- Tokens that are accepted never lead to an error state on the way. -/
theorem follow_of_feedAll (hnetwork : grammar.Describes start analyser.network)
    (hruns : grammar.Runs analyser.configuration) (haccepted : (analyser.feedAll tokens).1 = true) :
    (analyser.follow tokens).isSome := by
  induction tokens generalizing analyser with
  | nil => rfl
  | cons token tokens ih =>
      rcases hfeed : analyser.feed token with ⟨consumed, next⟩
      rw [feedAll, hfeed] at haccepted
      cases consumed with
      | false => cases haccepted
      | true =>
          obtain ⟨hruns', hsame⟩ := runs_of_feed hnetwork hruns hfeed
          have herror : next.session.atError = false := by
            rw [Bool.eq_false_iff]
            intro herror
            have hrejected : (next.feedAll tokens).1 = false :=
              feedAll_of_stuck (hruns'.stuck_of_atError herror)
            rw [hrejected] at haccepted
            cases haccepted
          have hrest := ih (hsame ▸ hnetwork) hruns' haccepted
          obtain ⟨final, hfinal⟩ := Option.isSome_iff_exists.mp hrest
          rw [follow_cons_iff.mpr ⟨next, hfeed, herror, hfinal⟩]
          rfl

theorem runs_start {network : Network} (hnetwork : grammar.Describes start network)
    (limits : AnalyserLimits) : grammar.Runs (Analyser.start network limits).configuration := by
  intro cursor hcursor
  rcases List.mem_cons.mp hcursor with rfl | hframe
  · exact ⟨start, hnetwork.start_eq⟩
  · cases hframe

variable {compiled : GrammarNetwork} {limits : AnalyserLimits} {positions : List (List Token)}
  {choices : List Nat}

/-- The choices pick tokens that make an accepted sentence. -/
def Acceptable (analyser : Analyser) (positions : List (List Token)) (choices : List Nat) : Prop :=
  ∃ tokens, pick positions choices = some tokens ∧ (analyser.analyseTokens tokens).1 = true

theorem Acceptable.viable (hcompile : grammar.compile = .ok compiled)
    (hreachable : Reachable compiled.network limits analyser)
    (h : analyser.Acceptable positions choices) : analyser.Viable positions choices := by
  obtain ⟨-, hnetwork⟩ := Grammar.describes_of_compile hcompile
  obtain ⟨tokens, hpick, haccepted⟩ := h
  refine ⟨tokens, hpick, ?_⟩
  rw [analyseTokens] at haccepted
  rw [hreachable.ready.reset_eq] at haccepted ⊢
  exact follow_of_feedAll hnetwork (runs_start hnetwork limits) haccepted

theorem acceptable_iff (hpick : pick positions choices = some tokens) :
    analyser.Acceptable positions choices ↔ (analyser.analyseTokens tokens).1 = true := by
  constructor
  · rintro ⟨other, hother, haccepted⟩
    rw [hpick] at hother
    cases hother
    exact haccepted
  · exact fun haccepted => ⟨tokens, hpick, haccepted⟩

/-- The search rejects a sentence that has an accepted reading exactly if it stays within its budget,
the least viable vector is not accepted and a greater vector is. -/
theorem overlooks_iff (hcompile : grammar.compile = .ok compiled)
    (hreachable : Reachable compiled.network limits analyser) (positions : List (List Token)) :
    ((analyser.analyseCandidates positions).1 = .ok false ∧
        ∃ choices, analyser.Acceptable positions choices) ↔
      (∃ restarts result, Searches positions analyser.reset (List.replicate positions.length 0) none 0
        restarts result ∧ restarts ≤ limits.maxRestarts) ∧
      ∃ least, IsLeast {choices | analyser.Viable positions choices} least ∧
        ¬ analyser.Acceptable positions least ∧
        ∃ greater, least < greater ∧ analyser.Acceptable positions greater := by
  have hready := hreachable.ready
  obtain ⟨restarts, result, hsearch, hresult⟩ := searches_least hready positions
  obtain ⟨hbudget, hwithin⟩ := analyseCandidates_of_searches hsearch
  rw [hready.limits_eq] at hbudget hwithin
  constructor
  · rintro ⟨hrejected, greater, hgreater⟩
    have hle : restarts ≤ limits.maxRestarts := by
      by_contra hless
      rw [hbudget.mpr (Nat.lt_of_not_le hless)] at hrejected
      cases hrejected
    rw [hwithin hle] at hrejected
    have hviable := hgreater.viable hcompile hreachable
    rcases hresult with ⟨least, tokens, hleast, hpick, hagrees⟩ | ⟨hnone, -⟩
    · have hnot : ¬ analyser.Acceptable positions least := by
        rw [acceptable_iff hpick, ← hagrees.verdict_eq, Except.ok.inj hrejected]
        exact Bool.false_ne_true
      refine ⟨⟨restarts, result, hsearch, hle⟩, least, hleast, hnot, greater, ?_, hgreater⟩
      refine lt_of_le_of_ne (hleast.2 hviable) ?_
      rintro rfl
      exact hnot hgreater
    · exact absurd hviable (hnone greater)
  · rintro ⟨⟨restarts', result', hsearch', hle⟩, least, hleast, hnot, greater, -, hgreater⟩
    obtain ⟨rfl, rfl⟩ := hsearch.unique hsearch'
    refine ⟨?_, greater, hgreater⟩
    rw [hwithin hle]
    rcases hresult with ⟨choices, tokens, hleast', hpick, hagrees⟩ | ⟨-, hfalse⟩
    · rw [hleast.unique hleast', acceptable_iff hpick, ← hagrees.verdict_eq] at hnot
      rw [Bool.eq_false_iff.mpr hnot]
    · rw [hfalse]

/-- A verb needs an object, a noun stands for itself. -/
def utterance : Grammar where
  start := some "A"
  nonterminals := ["A"]
  terminals := ["v", "s", "n"]
  rules := [⟨"A", [.terminal "v", .terminal "s"]⟩, ⟨"A", [.terminal "n"]⟩]

/-- One word, a verb or a noun. Read as a verb it is consumed and the object is missing at the end; the
noun is not tried. -/
theorem utterance_answers :
    ∃ compiled, utterance.compile = .ok compiled ∧
      ((Analyser.start compiled.network).analyseCandidates
        [[⟨"v", "w", []⟩, ⟨"n", "w", []⟩]]).1 = .ok false ∧
      (Analyser.start compiled.network).Acceptable [[⟨"v", "w", []⟩, ⟨"n", "w", []⟩]] [1] := by
  have hrejected : (match utterance.compile with
      | .ok compiled => ((Analyser.start compiled.network).analyseCandidates
          [[⟨"v", "w", []⟩, ⟨"n", "w", []⟩]]).1
      | .error _ => .ok true) = .ok false := by cbv
  have haccepted : (match utterance.compile with
      | .ok compiled => ((Analyser.start compiled.network).analyseTokens [⟨"n", "w", []⟩]).1
      | .error _ => false) = true := by cbv
  split at hrejected
  · next compiled hcompile =>
    rw [hcompile] at haccepted
    exact ⟨compiled, hcompile, hrejected, [⟨"n", "w", []⟩], rfl, haccepted⟩
  · cases hrejected

/-- It is not so that a sentence is rejected only if none of its readings is accepted. -/
theorem not_search_complete :
    ¬ ∀ (grammar : Grammar) (compiled : GrammarNetwork) (limits : AnalyserLimits)
        (analyser : Analyser) (positions : List (List Token)), grammar.compile = .ok compiled →
      Reachable compiled.network limits analyser →
      (analyser.analyseCandidates positions).1 = .ok false →
      ∀ choices, ¬ analyser.Acceptable positions choices := by
  intro hcomplete
  obtain ⟨compiled, hcompile, hrejected, haccepted⟩ := utterance_answers
  exact hcomplete utterance compiled {} _ _ hcompile .start hrejected [1] haccepted

/-- The least viable vector reads the word as a verb. -/
theorem utterance_overlooks :
    ∃ compiled, utterance.compile = .ok compiled ∧
      ∃ least, IsLeast {choices | (Analyser.start compiled.network).Viable
          [[⟨"v", "w", []⟩, ⟨"n", "w", []⟩]] choices} least ∧
        ¬ (Analyser.start compiled.network).Acceptable
          [[⟨"v", "w", []⟩, ⟨"n", "w", []⟩]] least ∧
        ∃ greater, least < greater ∧ (Analyser.start compiled.network).Acceptable
          [[⟨"v", "w", []⟩, ⟨"n", "w", []⟩]] greater := by
  obtain ⟨compiled, hcompile, hrejected, haccepted⟩ := utterance_answers
  have hreachable : Reachable compiled.network {} (Analyser.start compiled.network) := .start
  have hoverlooks := (overlooks_iff hcompile hreachable [[⟨"v", "w", []⟩, ⟨"n", "w", []⟩]]).mp
    ⟨hrejected, [1], haccepted⟩
  exact ⟨compiled, hcompile, hoverlooks.2⟩

end Analyser

end TransitionNetwork
