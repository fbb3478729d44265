import TransitionNetwork.Proofs.ViablePrefix

/-! Symbols that are skipped. A session that executes a list of symbols goes on behind one that is not
consumed, while an analyser rejects the sentence there. What a session does is the same for every recorder,
and a rejected symbol leaves no trace, so an execution comes to the same end as one of the consumed symbols
alone. The two ways to run a sentence therefore agree where every symbol is consumed, and otherwise up to
the symbols that are skipped. -/

namespace TransitionNetwork

/-! ### The recorder has no say -/

section

variable {σ τ : Type} [Recorder σ] [Recorder τ]

theorem Cursor.applyWithin_recorder (input : String) (moves : Nat) (cursor : Cursor) (recorder : σ)
    (recorder' : τ) :
    (cursor.applyWithin input moves recorder).1 = (cursor.applyWithin input moves recorder').1 ∧
      (cursor.applyWithin input moves recorder).2.1 =
        (cursor.applyWithin input moves recorder').2.1 := by
  fun_induction applyWithin input moves cursor recorder generalizing recorder' with
  | case1 moves cursor recorder transition htransition =>
      rw [applyWithin.eq_def, htransition]
      exact ⟨rfl, rfl⟩
  | case2 cursor recorder htransition epsilon hepsilon =>
      rw [applyWithin.eq_def, htransition, hepsilon]
      exact ⟨rfl, rfl⟩
  | case3 cursor recorder htransition epsilon hepsilon moves _ _ hmoved ih =>
      cases hmoved
      rw [applyWithin.eq_def input _ cursor recorder', htransition, hepsilon]
      exact ih _
  | case4 moves cursor recorder htransition hepsilon alternate halternate =>
      rw [applyWithin.eq_def, htransition, hepsilon, halternate]
      exact ⟨rfl, rfl⟩
  | case5 moves cursor recorder htransition hepsilon halternate =>
      rw [applyWithin.eq_def, htransition, hepsilon, halternate]
      exact ⟨rfl, rfl⟩

theorem Cursor.apply_recorder {input : String} {cursor after : Cursor} {recorder recorded : σ}
    {consumed : Bool} (h : cursor.apply input recorder = (consumed, after, recorded))
    (recorder' : τ) :
    ∃ recorded', cursor.apply input recorder' = (consumed, after, recorded') := by
  obtain ⟨hconsumed, hafter⟩ :=
    cursor.applyWithin_recorder input cursor.automaton.size recorder recorder'
  rw [apply] at h
  rw [h] at hconsumed hafter
  exact ⟨_, Prod.ext hconsumed.symm (Prod.ext hafter.symm rfl)⟩

theorem Cursor.stepEpsilon_recorder (cursor : Cursor) (recorder : σ) (recorder' : τ) :
    (cursor.stepEpsilon recorder).1 = (cursor.stepEpsilon recorder').1 := by
  rw [stepEpsilon, stepEpsilon]
  cases cursor.current.epsilon <;> rfl

end

namespace Session

theorem isAccepted_congr {σ : Type} {left right : Session} {recorder recorder' : σ}
    (h : left.configuration recorder = right.configuration recorder') :
    left.isAccepted = right.isAccepted := by
  obtain ⟨hactive, hframes, -⟩ := configuration_eq_iff.mp h
  rw [isAccepted, isAccepted, hactive, hframes]

variable {σ τ : Type} [Recorder σ] [Recorder τ] (network : Network) (limits : Limits)

theorem enterCall?_recorder (symbol : Option String) (session : Session) (recorder : σ)
    (recorder' : τ) :
    (session.enterCall? network limits symbol recorder).map Prod.fst =
      (session.enterCall? network limits symbol recorder').map Prod.fst := by
  rw [enterCall?, enterCall?]
  cases network.eligibleCall? symbol session.active.current.calls with
  | none => rfl
  | some call =>
      dsimp only
      by_cases hdepth : limits.maxCallDepth ≤ session.depth
      · rw [if_pos hdepth, if_pos hdepth]
        rfl
      · rw [if_neg hdepth, if_neg hdepth]
        cases network.machine? call.callee <;> rfl

theorem enterCall?_of_none_recorder {symbol : Option String} {session : Session} {recorder : σ}
    (h : session.enterCall? network limits symbol recorder = none) (recorder' : τ) :
    session.enterCall? network limits symbol recorder' = none := by
  have hsame := enterCall?_recorder network limits symbol session recorder recorder'
  rw [h, Option.map_none] at hsame
  exact Option.map_eq_none_iff.mp hsame.symm

theorem leaveCall_recorder (session : Session) (recorder : σ) (recorder' : τ) :
    (session.leaveCall recorder).1 = (session.leaveCall recorder').1 := by
  rw [leaveCall, leaveCall]
  cases session.frames with
  | nil => rfl
  | cons frame frames =>
      dsimp only
      by_cases haccept : session.active.atAccept = true
      · rw [if_pos haccept, if_pos haccept, Cursor.returnFrom, Cursor.returnFrom]
        cases frame.current.call? session.active.machine <;> rfl
      · rw [if_neg haccept, if_neg haccept]

theorem consume_recorder (symbol : String) (attempts calls : Nat) (session : Session) (recorder : σ)
    (recorder' : τ) :
    (session.consume network limits symbol attempts calls recorder).1 =
        (session.consume network limits symbol attempts calls recorder').1 ∧
      (session.consume network limits symbol attempts calls recorder).2.1 =
        (session.consume network limits symbol attempts calls recorder').2.1 := by
  fun_induction session.consume network limits symbol attempts calls recorder
      generalizing recorder' with
  | case1 attempts calls session recorder hbounds entered recorded henter after _ hleave ih =>
      have hsame := enterCall?_recorder network limits (some symbol) session recorder recorder'
      rw [henter, Option.map_some] at hsame
      obtain ⟨⟨entered', recorded'⟩, henter', hentered⟩ := Option.map_eq_some_iff.mp hsame.symm
      change entered' = entered at hentered
      subst hentered
      have hafter := leaveCall_recorder entered' recorded recorded'
      rw [hleave] at hafter
      change after = (entered'.leaveCall recorded').1 at hafter
      rw [consume_of_enterCall? hbounds henter', ← hafter]
      exact ih _
  | case2 attempts calls session recorder hbounds henter active recorded after _ hleave happly =>
      have henter' := enterCall?_of_none_recorder network limits henter recorder'
      obtain ⟨recorded', happly'⟩ := Cursor.apply_recorder happly recorder'
      have hafter := leaveCall_recorder (session.control active) recorded recorded'
      rw [hleave] at hafter
      rw [consume_of_apply hbounds henter' happly', if_pos rfl]
      exact ⟨rfl, hafter⟩
  | case3 attempts calls session recorder hbounds henter consumed active recorded happly after _ hleave
      hrejected ih =>
      have henter' := enterCall?_of_none_recorder network limits henter recorder'
      obtain ⟨recorded', happly'⟩ := Cursor.apply_recorder happly recorder'
      have hafter := leaveCall_recorder (session.control active) recorded recorded'
      rw [hleave] at hafter
      change after = ((session.control active).leaveCall recorded').1 at hafter
      rw [consume_of_apply hbounds henter' happly', if_neg hrejected, ← hafter]
      exact ih _
  | case4 attempts calls session recorder hbounds =>
      rw [consume, if_neg hbounds]
      exact ⟨rfl, rfl⟩

theorem input_recorder (symbol : String) (session : Session) (recorder : σ) (recorder' : τ) :
    (session.input network limits symbol recorder).1 =
        (session.input network limits symbol recorder').1 ∧
      (session.input network limits symbol recorder).2.1 =
        (session.input network limits symbol recorder').2.1 := by
  have hsame := consume_recorder network limits symbol 0 0 session (Recorder.mark recorder).2
    (Recorder.mark recorder').2
  rcases hleft : session.consume network limits symbol 0 0 (Recorder.mark recorder).2 with
    ⟨consumed, after, recorded⟩
  rcases hright : session.consume network limits symbol 0 0 (Recorder.mark recorder').2 with
    ⟨consumed', after', recorded'⟩
  rw [hleft, hright] at hsame
  obtain ⟨hconsumed, hafter⟩ := hsame
  change consumed = consumed' at hconsumed
  change after = after' at hafter
  subst hconsumed hafter
  cases consumed with
  | true =>
      rw [input_of_consumed hleft, input_of_consumed hright]
      exact ⟨rfl, rfl⟩
  | false =>
      rw [input_of_rejected hleft, input_of_rejected hright]
      exact ⟨rfl, rfl⟩

theorem settleStep_recorder (session : Session) (recorder : σ) (recorder' : τ) :
    (session.settleStep network limits recorder).1 =
      (session.settleStep network limits recorder').1 := by
  have hepsilon := session.active.stepEpsilon_recorder recorder recorder'
  rcases hstep : session.active.stepEpsilon recorder with ⟨active, recorded⟩
  rcases hstep' : session.active.stepEpsilon recorder' with ⟨active', recorded'⟩
  rw [hstep, hstep'] at hepsilon
  change active = active' at hepsilon
  subst hepsilon
  have hleave := leaveCall_recorder (session.control active) recorded recorded'
  rw [settleStep, settleStep, hstep, hstep']
  dsimp only
  rcases hreturn : (session.control active).leaveCall recorded with ⟨left, after⟩
  rcases hreturn' : (session.control active).leaveCall recorded' with ⟨left', after'⟩
  rw [hreturn, hreturn'] at hleave
  change left = left' at hleave
  subst hleave
  have henter := enterCall?_recorder network limits none left after after'
  rw [← Option.getD_map Prod.fst, ← Option.getD_map Prod.fst, henter]

theorem settle_recorder (steps : Nat) (session : Session) (recorder : σ) (recorder' : τ) :
    (session.settle network limits steps recorder).1 =
      (session.settle network limits steps recorder').1 := by
  induction steps generalizing session recorder recorder' with
  | zero => rfl
  | succ steps ih =>
      rw [settle, settle]
      split
      · dsimp only
        rw [settleStep_recorder network limits session recorder recorder']
        exact ih _ _ _
      · rfl

theorem inputAll_recorder (symbols : List String) (session : Session) (recorder : σ)
    (recorder' : τ) :
    (session.inputAll network limits symbols recorder).1 =
        (session.inputAll network limits symbols recorder').1 ∧
      (session.inputAll network limits symbols recorder).2.1 =
        (session.inputAll network limits symbols recorder').2.1 := by
  induction symbols generalizing session recorder recorder' with
  | nil => exact ⟨rfl, rfl⟩
  | cons symbol symbols ih =>
      obtain ⟨hconsumed, hafter⟩ := input_recorder network limits symbol session recorder recorder'
      rw [inputAll, inputAll]
      dsimp only
      rw [hconsumed, hafter]
      obtain ⟨hall, hlast⟩ := ih (session.input network limits symbol recorder').2.1
        (session.input network limits symbol recorder).2.2
        (session.input network limits symbol recorder').2.2
      exact ⟨congrArg _ hall, hlast⟩

/-! ### Executions -/

theorem inputAll_of_input {symbol : String} {session after : Session} {recorder recorded : σ}
    {consumed : Bool}
    (h : session.input network limits symbol recorder = (consumed, after, recorded))
    (symbols : List String) :
    session.inputAll network limits (symbol :: symbols) recorder =
      (consumed && (after.inputAll network limits symbols recorded).1,
        (after.inputAll network limits symbols recorded).2) := by
  rw [inputAll, h]

/-- An execution inputs all symbols and finishes. -/
theorem execute_eq_inputAll (symbols : List String) (session : Session) (recorder : σ) :
    session.execute network limits symbols recorder =
      (session.inputAll network limits symbols recorder).2.1.finish network limits
        (session.inputAll network limits symbols recorder).2.2 := by
  rw [execute]
  induction symbols generalizing session recorder with
  | nil => rfl
  | cons symbol symbols ih => exact ih _ _

/-- Those of some symbols that are consumed when all are input one after the other. -/
def consumedOf (network : Network) (limits : Limits) : List String → Session → List String
  | [], _ => []
  | symbol :: symbols, session =>
    let (consumed, after, _) := session.input network limits symbol ()
    if consumed then symbol :: consumedOf network limits symbols after
    else consumedOf network limits symbols after

theorem consumedOf_of_input {symbol : String} {session after : Session} {consumed : Bool}
    {recorded : Unit} (h : session.input network limits symbol () = (consumed, after, recorded))
    (symbols : List String) :
    session.consumedOf network limits (symbol :: symbols) =
      if consumed then symbol :: after.consumedOf network limits symbols
      else after.consumedOf network limits symbols := by
  rw [consumedOf, h]

/-- The consumed symbols are consumed again when they are input alone, and lead to what a session shows
after all symbols. The induction is on the symbols; the two sessions show the same, but places of machines
that have tried a skipped symbol may differ. -/
theorem inputAll_consumedOf (symbols : List String) {left right : Session}
    (h : left.configuration () = right.configuration ()) :
    (right.inputAll network limits (left.consumedOf network limits symbols) ()).1 = true ∧
      shown (right.inputAll network limits (left.consumedOf network limits symbols) ()).2 =
        shown (left.inputAll network limits symbols ()).2 := by
  induction symbols generalizing left right with
  | nil => exact ⟨rfl, h.symm⟩
  | cons symbol symbols ih =>
      obtain ⟨hanswer, hshown⟩ := input_congr network limits h symbol
      rcases hinput : left.input network limits symbol () with ⟨consumed, after, recorded⟩
      rw [consumedOf_of_input network limits hinput, inputAll_of_input network limits hinput]
      cases consumed with
      | true =>
          rcases hinput' : right.input network limits symbol () with ⟨consumed', after', recorded'⟩
          rw [hinput, hinput'] at hanswer hshown
          change true = consumed' at hanswer
          subst hanswer
          rw [if_pos rfl, inputAll_of_input network limits hinput', Bool.true_and]
          exact ih hshown
      | false =>
          have hrewinds : Recorder.Rewinds () := fun _ _ => rfl
          obtain ⟨hactive, hframes, -⟩ :=
            leavesNoTrace_of_rewinds network limits left symbol hrewinds after recorded hinput
          have hback : after.configuration () = right.configuration () := by
            rw [← h, configuration_eq_iff]
            exact ⟨hactive, hframes, rfl⟩
          rw [if_neg Bool.false_ne_true]
          exact ih hback

end Session

namespace Analyser

variable {network : Network} {limits : AnalyserLimits} {analyser : Analyser}

/-- An analyser accepts just if all symbols are consumed and the session accepts when it has finished. -/
theorem feedAll_eq_inputAll (tokens : List Token) (analyser : Analyser) :
    (analyser.feedAll tokens).1 =
      let result := analyser.session.inputAll analyser.network analyser.limits.session
        (tokens.map Token.category) ()
      (result.1 && (result.2.1.finish analyser.network analyser.limits.session ()).1.isAccepted) := by
  induction tokens generalizing analyser with
  | nil =>
      rw [feedAll, settle]
      have hfinish := Session.settle_recorder analyser.network analyser.limits.session
        analyser.limits.session.maxSettleSteps analyser.session analyser.builder ()
      exact congrArg Session.isAccepted hfinish
  | cons token tokens ih =>
      obtain ⟨hconsumed, hafter⟩ := Session.input_recorder analyser.network analyser.limits.session
        token.category analyser.session (analyser.builder.setToken token) ()
      rcases hinput : analyser.session.input analyser.network analyser.limits.session token.category
        () with ⟨consumed, after, recorded⟩
      rcases hbuilt : analyser.session.input analyser.network analyser.limits.session token.category
        (analyser.builder.setToken token) with ⟨consumed', after', built⟩
      rw [hinput, hbuilt] at hconsumed hafter
      change consumed' = consumed at hconsumed
      change after' = after at hafter
      subst hconsumed hafter
      rw [List.map_cons, Session.inputAll_of_input _ _ hinput, feedAll, feed, hbuilt]
      cases consumed' with
      | true =>
          rw [Bool.true_and]
          exact ih _
      | false => rfl

theorem Reachable.analyseTokens_eq_inputAll (h : Reachable network limits analyser)
    (tokens : List Token) :
    (analyser.analyseTokens tokens).1 =
      let result := (Session.start network).inputAll network limits.session
        (tokens.map Token.category) ()
      (result.1 && (result.2.1.finish network limits.session ()).1.isAccepted) := by
  rw [h.analyseTokens_eq]
  exact feedAll_eq_inputAll tokens (Analyser.start network limits)

/-- An analyser accepts a sentence just if an execution of its categories is accepted and every one of
them is consumed. An execution is accepted just if an analyser accepts the sentence without the symbols
that are not consumed. -/
theorem Reachable.analyseTokens_iff_execute {σ : Type} [Recorder σ]
    (h : Reachable network limits analyser) (symbols : List String) (recorder : σ) :
    (∀ tokens : List Token, tokens.map Token.category = symbols →
      ((analyser.analyseTokens tokens).1 = true ↔
        ((Session.start network).execute network limits.session symbols recorder).1.isAccepted = true ∧
        ((Session.start network).inputAll network limits.session symbols recorder).1 = true)) ∧
    ∀ tokens : List Token,
      tokens.map Token.category =
        (Session.start network).consumedOf network limits.session symbols →
      (analyser.analyseTokens tokens).1 =
        ((Session.start network).execute network limits.session symbols recorder).1.isAccepted := by
  obtain ⟨hall, hlast⟩ := Session.inputAll_recorder network limits.session symbols
    (Session.start network) recorder ()
  have hexecute : ((Session.start network).execute network limits.session symbols recorder).1 =
      (((Session.start network).inputAll network limits.session symbols ()).2.1.finish network
        limits.session ()).1 := by
    rw [Session.execute_eq_inputAll, hlast]
    exact Session.settle_recorder network limits.session _ _ _ _
  rw [hexecute, hall]
  constructor
  · rintro tokens rfl
    rw [h.analyseTokens_eq_inputAll, Bool.and_eq_true, and_comm]
  · intro tokens htokens
    obtain ⟨hconsumed, hshown⟩ := Session.inputAll_consumedOf network limits.session symbols
      (rfl : (Session.start network).configuration () = (Session.start network).configuration ())
    have hfinish := Session.settle_congr network limits.session limits.session.maxSettleSteps hshown
    rw [h.analyseTokens_eq_inputAll, htokens]
    dsimp only
    rw [hconsumed, Bool.true_and]
    exact Session.isAccepted_congr hfinish

/-- A call at the beginning of a sentence of two words. -/
def pair : Grammar where
  start := some "S"
  nonterminals := ["S", "A"]
  terminals := ["a", "b"]
  rules := [⟨"S", [.nonterminal "A", .terminal "b"]⟩, ⟨"A", [.terminal "a"]⟩]

/-- A word that is not consumed, before two that are. -/
def strayed : List Token := [⟨"z", "z", []⟩, ⟨"a", "a", []⟩, ⟨"b", "b", []⟩]

/-- The sentence with the stray word is executed like the one without it, and not analysed like it. -/
theorem strayed_analyseTokens_iff_execute :
    ∃ compiled, pair.compile = .ok compiled ∧
      ((Session.start compiled.network).execute compiled.network {} ["z", "a", "b"] ()).1.isAccepted =
        true ∧
      ((Analyser.start compiled.network).analyseTokens strayed.tail).1 = true ∧
      (((Analyser.start compiled.network).analyseTokens strayed).1 = true ↔
        ((Session.start compiled.network).execute compiled.network {} ["z", "a", "b"]
          ()).1.isAccepted = true ∧
        ((Session.start compiled.network).inputAll compiled.network {} ["z", "a", "b"] ()).1 = true) := by
  have hok : (match pair.compile with
      | .ok compiled =>
        ((Session.start compiled.network).execute compiled.network {} ["z", "a", "b"]
            ()).1.isAccepted &&
          (Session.start compiled.network).consumedOf compiled.network {} ["z", "a", "b"] ==
            ["a", "b"]
      | .error _ => false) = true := by cbv
  split at hok
  · next compiled hcompile =>
    rw [Bool.and_eq_true, beq_iff_eq] at hok
    obtain ⟨haccepted, hconsumed⟩ := hok
    have hreachable : Reachable compiled.network {} (Analyser.start compiled.network) := .start
    have hruns := hreachable.analyseTokens_iff_execute ["z", "a", "b"] ()
    exact ⟨compiled, hcompile, haccepted, (hruns.2 strayed.tail hconsumed.symm).trans haccepted,
      hruns.1 strayed rfl⟩
  · cases hok

/-- It is not so that an execution is accepted only if an analyser accepts the sentence. -/
theorem not_execute_eq_analyseTokens :
    ¬ ∀ (grammar : Grammar) (compiled : GrammarNetwork), grammar.compile = .ok compiled →
      ∀ (limits : AnalyserLimits) (tokens : List Token),
        ((Session.start compiled.network).execute compiled.network limits.session
            (tokens.map Token.category) ()).1.isAccepted = true ↔
          ((Analyser.start compiled.network limits).analyseTokens tokens).1 = true := by
  intro hagree
  have hok : (match pair.compile with
      | .ok compiled =>
        ((Session.start compiled.network).execute compiled.network {} ["z", "a", "b"]
            ()).1.isAccepted &&
          !((Analyser.start compiled.network).analyseTokens strayed).1
      | .error _ => false) = true := by cbv
  split at hok
  · next compiled hcompile =>
    rw [Bool.and_eq_true, Bool.not_eq_true'] at hok
    obtain ⟨haccepted, hrejected⟩ := hok
    have hanalysed := (hagree pair compiled hcompile {} strayed).mp haccepted
    rw [hrejected] at hanalysed
    cases hanalysed
  · cases hok

end Analyser

end TransitionNetwork
