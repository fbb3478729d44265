import TransitionNetwork.Proofs.AnalyserRuns

/-! Analyses do not depend on history. An analysis may stop anywhere: at a word that is not consumed, at one
that has no reading, at an error state or with its restarts used up. It leaves open calls, machines that have
moved, detached nodes and a token behind. Each of them is made of feeding, settling and resetting, though, so
the analyser that it leaves is still one that a reset takes back to the beginning; and every analysis that
comes to a result begins with a reset. -/

namespace TransitionNetwork

/-- What can be asked of an analyser. -/
inductive Analysis
  /-- Words of a tokenizer, each in its preferred reading or in all of them. -/
  | words (mode : Mode) (words : List Readings)
  /-- Prepared tokens. -/
  | tokens (tokens : List Token)
  /-- Prepared words with their readings. -/
  | candidates (positions : List (List Token))

namespace Analyser

/-- Carries an analysis out. -/
def carryOut (analyser : Analyser) : Analysis → Except AnalysisError Bool × Analyser
  | .words mode words => analyser.analyse mode words
  | .tokens tokens =>
    let (accepted, analyser) := analyser.analyseTokens tokens
    (.ok accepted, analyser)
  | .candidates positions => analyser.analyseCandidates positions

/-- The analyser behind a series of analyses, whatever their results. -/
def after (analyser : Analyser) (analyses : List Analysis) : Analyser :=
  analyses.foldl (fun analyser analysis => (analyser.carryOut analysis).2) analyser

variable {network : Network} {limits : AnalyserLimits} {analyser : Analyser}

/-! ### What an analysis leaves behind -/

theorem Reachable.of_feed (h : Reachable network limits analyser) {token : Token} {consumed : Bool}
    {next : Analyser} (hfeed : analyser.feed token = (consumed, next)) :
    Reachable network limits next := by
  have hfed := h.feed token
  rw [hfeed] at hfed
  exact hfed

theorem Reachable.feedAll (h : Reachable network limits analyser) (tokens : List Token) :
    Reachable network limits (analyser.feedAll tokens).2 := by
  induction tokens generalizing analyser with
  | nil => exact h.settle
  | cons token tokens ih =>
      rw [Analyser.feedAll]
      split
      · next hfeed => exact ih (h.of_feed hfeed)
      · next hfeed => exact h.of_feed hfeed

theorem Reachable.feedWords (h : Reachable network limits analyser) (words : List Readings) :
    Reachable network limits (analyser.feedWords words).2 := by
  induction words generalizing analyser with
  | nil => exact h.settle
  | cons readings words ih =>
      rw [Analyser.feedWords]
      split
      · exact h
      · split
        · next hfeed => exact ih (h.of_feed hfeed)
        · next hfeed => exact h.of_feed hfeed

theorem Reachable.feedFirst (h : Reachable network limits analyser) (number : Nat)
    (candidates : List Token) :
    Reachable network limits (analyser.feedFirst number candidates).2 := by
  induction candidates generalizing analyser number with
  | nil => exact h
  | cons token candidates ih =>
      rw [Analyser.feedFirst]
      split
      · next hfeed => exact h.of_feed hfeed
      · next hfeed => exact ih (h.of_feed hfeed) (number + 1)

theorem Reachable.of_tryPosition (h : Reachable network limits analyser) {candidates : List Token}
    {first : Nat} {progress : Progress} {next : Analyser}
    (htry : analyser.tryPosition candidates first = (progress, next)) :
    Reachable network limits next := by
  have hfed := h.feedFirst first (candidates.drop first)
  rw [tryPosition] at htry
  split at htry
  · next hfirst =>
    cases htry
    rw [hfirst] at hfed
    exact hfed
  · next hfirst =>
    rw [hfirst] at hfed
    split at htry
    · cases htry
      exact hfed
    · cases htry
      exact hfed

theorem Reachable.search (h : Reachable network limits analyser) (positions : List (List Token))
    (choices : List Nat) (revise : Option Nat) (restarts position : Nat) :
    Reachable network limits
      (Analyser.search positions analyser choices revise restarts position).2 := by
  fun_induction Analyser.search positions analyser choices revise restarts position with
  | case1 analyser choices revise restarts position _ _ choice next htry ih =>
      exact ih (h.of_tryPosition htry)
  | case2 analyser choices revise restarts next _ _ _ htry => exact h.of_tryPosition htry
  | case3 analyser choices revise next _ _ _ _ htry => exact h.of_tryPosition htry
  | case4 analyser choices revise next previous restarts _ _ _ htry ih =>
      exact ih (h.of_tryPosition htry).reset
  | case5 analyser choices revise position _ _ choice next htry => exact h.of_tryPosition htry
  | case6 analyser choices revise position _ _ choice next htry restarts ih =>
      exact ih (h.of_tryPosition htry).reset
  | case7 analyser choices revise restarts position _ accepted next hsettle =>
      have hsettled := h.settle
      rw [hsettle] at hsettled
      exact hsettled

theorem Reachable.analyseCandidates (h : Reachable network limits analyser)
    (positions : List (List Token)) :
    Reachable network limits (analyser.analyseCandidates positions).2 := by
  have hsearched := h.reset.search positions (List.replicate positions.length 0) none
    analyser.limits.maxRestarts 0
  rw [Analyser.analyseCandidates]
  split
  · next hsearch =>
    rw [hsearch] at hsearched
    exact hsearched
  · next hsearch =>
    rw [hsearch] at hsearched
    exact hsearched

theorem Reachable.analyse (h : Reachable network limits analyser) (mode : Mode)
    (words : List Readings) : Reachable network limits (analyser.analyse mode words).2 := by
  cases mode with
  | single => exact h.reset.feedWords words
  | backtracking =>
      rw [Analyser.analyse, analyseBacktracking]
      split
      · exact h
      · exact h.analyseCandidates _

theorem Reachable.carryOut (h : Reachable network limits analyser) (analysis : Analysis) :
    Reachable network limits (analyser.carryOut analysis).2 := by
  cases analysis with
  | words mode words => exact h.analyse mode words
  | tokens tokens => exact h.reset.feedAll tokens
  | candidates positions => exact h.analyseCandidates positions

theorem Reachable.after (h : Reachable network limits analyser) (analyses : List Analysis) :
    Reachable network limits (analyser.after analyses) := by
  induction analyses generalizing analyser with
  | nil => exact h
  | cons analysis analyses ih => exact ih (h.carryOut analysis)

/-! ### What the next analysis makes of it -/

theorem Reachable.analyseSingle_eq (h : Reachable network limits analyser) (words : List Readings) :
    analyser.analyseSingle words = (Analyser.start network limits).analyseSingle words := by
  rw [analyseSingle, analyseSingle, h.ready.reset_eq, (ready_start network limits).reset_eq]

theorem Reachable.analyseCandidates_eq (h : Reachable network limits analyser)
    (positions : List (List Token)) :
    analyser.analyseCandidates positions =
      (Analyser.start network limits).analyseCandidates positions := by
  have hlimits : analyser.limits = (Analyser.start network limits).limits := h.ready.limits_eq
  rw [Analyser.analyseCandidates, Analyser.analyseCandidates, h.ready.reset_eq,
    (ready_start network limits).reset_eq, hlimits]

/-- An analysis is that of a new analyser, or its words cannot be read and nothing is changed. -/
theorem Reachable.carryOut_cases (h : Reachable network limits analyser) (analysis : Analysis) :
    analyser.carryOut analysis = (Analyser.start network limits).carryOut analysis ∨
      ∃ error, analyser.carryOut analysis = (.error (.tokenizer error), analyser) ∧
        (Analyser.start network limits).carryOut analysis =
          (.error (.tokenizer error), Analyser.start network limits) := by
  cases analysis with
  | tokens tokens =>
      left
      rw [Analyser.carryOut, Analyser.carryOut, h.analyseTokens_eq, Reachable.start.analyseTokens_eq]
  | candidates positions => exact .inl (h.analyseCandidates_eq positions)
  | words mode words =>
      cases mode with
      | single => exact .inl (h.analyseSingle_eq words)
      | backtracking =>
          rw [Analyser.carryOut, Analyser.carryOut, Analyser.analyse, Analyser.analyse,
            analyseBacktracking, analyseBacktracking]
          cases allReadings words with
          | error error => exact .inr ⟨error, rfl, rfl⟩
          | ok positions => exact .inl (h.analyseCandidates_eq positions)

/-- Behind any series of analyses the next one has the result that it has on a new analyser, and unless its
words cannot be read it leaves the analyser as it leaves a new one: with the same tree, detached nodes
included, and every machine and every open call in the same place. -/
theorem carryOut_after (network : Network) (limits : AnalyserLimits) (earlier : List Analysis)
    (next : Analysis) :
    let used := (start network limits).after earlier
    (used.carryOut next).1 = ((start network limits).carryOut next).1 ∧
      ((∀ error, (used.carryOut next).1 ≠ .error (.tokenizer error)) →
        (used.carryOut next).2 = ((start network limits).carryOut next).2) := by
  intro used
  have h : Reachable network limits used := Reachable.start.after earlier
  rcases h.carryOut_cases next with hsame | ⟨error, hused, hfresh⟩
  · rw [hsame]
    exact ⟨rfl, fun _ => rfl⟩
  · rw [hused, hfresh]
    exact ⟨rfl, fun hread => absurd rfl (hread error)⟩

/-- A noun phrase may stand in front of the verb. -/
def statement : Grammar where
  start := some "S"
  nonterminals := ["S", "N"]
  terminals := ["v", "d", "n"]
  rules := [⟨"S", [.nonterminal "N", .terminal "v"]⟩, ⟨"N", [.terminal "d", .terminal "n"]⟩]

/-- Three analyses that come to nothing: one stops inside a noun phrase, one at a word that is not known,
and the last has no restart left. -/
def setbacks : List Analysis :=
  [.tokens [⟨"d", "the", []⟩],
    .words .single [.ok [⟨"d", "the", []⟩], .error (.unknownWord "snark")],
    .candidates [[⟨"d", "the", []⟩], [⟨"v", "runs", []⟩]]]

theorem statement_carryOut_after :
    ∃ compiled, statement.compile = .ok compiled ∧
      let fresh := start compiled.network { maxRestarts := 0 }
      (fresh.after setbacks).session.depth = 1 ∧ (fresh.after setbacks).tree.nodes.length = 3 ∧
        (fresh.after setbacks).carryOut
            (.tokens [⟨"d", "the", []⟩, ⟨"n", "dog", []⟩, ⟨"v", "runs", []⟩]) =
          fresh.carryOut (.tokens [⟨"d", "the", []⟩, ⟨"n", "dog", []⟩, ⟨"v", "runs", []⟩]) := by
  have hused : (match statement.compile with
      | .ok compiled =>
        let used := (start compiled.network { maxRestarts := 0 }).after setbacks
        (used.session.depth, used.tree.nodes.length, (used.carryOut
          (.tokens [⟨"d", "the", []⟩, ⟨"n", "dog", []⟩, ⟨"v", "runs", []⟩])).1)
      | .error _ => (0, 0, .ok false)) = (1, 3, .ok true) := by cbv
  split at hused
  · next compiled hcompile =>
    obtain ⟨hdepth, hrest⟩ := Prod.mk.inj hused
    obtain ⟨hnodes, haccepted⟩ := Prod.mk.inj hrest
    obtain ⟨hresult, hsame⟩ := carryOut_after compiled.network { maxRestarts := 0 } setbacks
      (.tokens [⟨"d", "the", []⟩, ⟨"n", "dog", []⟩, ⟨"v", "runs", []⟩])
    refine ⟨compiled, hcompile, hdepth, hnodes, Prod.ext hresult (hsame fun error herror => ?_)⟩
    rw [haccepted] at herror
    cases herror
  · cases hused

end Analyser

end TransitionNetwork
