import TransitionNetwork.Proofs.PredictiveParse
import TransitionNetwork.Proofs.SettlingEnds
import TransitionNetwork.Proofs.SkippedSymbols
import TransitionNetwork.Proofs.TreeActions

/-! The bound on failed attempts is a bound on returns. In a compiled network a symbol fails at a state for
one of two reasons: a rule ends there, so that the machine goes to its final state and returns, or nothing
can be done, and then the symbol is never consumed. So a symbol that is consumed has failed just as often as
machines have returned before it, and no symbol is consumed that asks for more returns than attempts may
fail. A larger bound gives another verdict on a sentence exactly if the sentence is accepted under it and one
of its symbols asks for more returns than the smaller bound allows. -/

namespace TransitionNetwork

/-! ### Counting returns -/

/-- The returns from calls in a log; in a compiled network just they move to the parent node. -/
def Log.returns (log : Log) : Nat :=
  log.entries.countP (·.1 = .ascend)

theorem Log.returns_perform (action : Action) (machine : String) (log : Log) :
    (Recorder.perform action machine log).returns =
      log.returns + if action = .ascend then 1 else 0 := by
  simp [Recorder.perform, returns, List.countP_append, List.countP_singleton]

theorem Log.returns_record {action : Option Action} (h : action ≠ some .ascend) (machine : String)
    (log : Log) : (record action machine log).returns = log.returns := by
  cases action with
  | none => rfl
  | some action =>
      have hother : action ≠ .ascend := fun hascend => h (congrArg some hascend)
      rw [record, returns_perform, if_neg hother, Nat.add_zero]

namespace Grammar

variable {σ : Type} [Recorder σ] {grammar : Grammar} {nonterminal symbol : String}
  {cursor after : Cursor}

theorem buildsTree_current (h : cursor.automaton = grammar.machine nonterminal) :
    cursor.current.BuildsTree := by
  rw [Cursor.current, h]
  exact (grammar.buildsTrees_machine nonterminal).state cursor.state

/-- What a machine can do with a symbol: take it along a transition, end a rule, go to the error state, or
nothing. -/
theorem apply_cases (h : cursor.automaton = grammar.machine nonterminal) (symbol : String)
    (recorder : σ) :
    (∃ transition, cursor.current.transition? symbol = some transition ∧
      cursor.apply symbol recorder = (true, ⟨cursor.automaton, transition.target⟩,
        record transition.action cursor.machine recorder)) ∨
    cursor.apply symbol recorder = (false, ⟨cursor.automaton, Trie.final⟩, recorder) ∨
    (∃ alternate, cursor.current.alternate = some alternate ∧
      cursor.apply symbol recorder = (true, ⟨cursor.automaton, alternate.target⟩,
        record alternate.action cursor.machine recorder)) ∨
    cursor.current.transition? symbol = none ∧ cursor.current.epsilon = none ∧
      cursor.current.alternate = none ∧ cursor.apply symbol recorder = (false, cursor, recorder) := by
  cases htransition : cursor.current.transition? symbol with
  | some transition => exact .inl ⟨transition, rfl, Cursor.apply_of_transition? htransition recorder⟩
  | none =>
      refine .inr ?_
      cases hepsilon : cursor.current.epsilon with
      | some epsilon =>
          have haction := (buildsTree_current h).epsilon epsilon hepsilon
          have hfinal : cursor.automaton.state Trie.final =
              { name := Trie.finalName, kind := .accept } := by
            rw [h]
            exact current_final
          rw [← eq_final_of_epsilon h hepsilon] at hfinal ⊢
          exact .inl (Cursor.apply_of_ended htransition hepsilon haction hfinal recorder)
      | none =>
          refine .inr ?_
          cases halternate : cursor.current.alternate with
          | some alternate =>
              exact .inl ⟨alternate, rfl,
                Cursor.apply_of_alternate htransition hepsilon halternate recorder⟩
          | none =>
              exact .inr ⟨rfl, rfl, rfl,
                Cursor.apply_of_nothing htransition hepsilon halternate recorder⟩

/-- Where a symbol has failed the machine can do nothing more for it by itself. -/
theorem rest_of_apply (h : cursor.automaton = grammar.machine nonterminal) {recorder recorded : σ}
    (happly : cursor.apply symbol recorder = (false, after, recorded)) :
    recorded = recorder ∧ after.current.transition? symbol = none ∧ after.current.epsilon = none ∧
      after.current.alternate = none ∧ (after = cursor ∨ after.current.calls = []) := by
  rcases apply_cases h symbol recorder with ⟨transition, -, heq⟩ | heq | ⟨alternate, -, heq⟩ |
    ⟨htransition, hepsilon, halternate, heq⟩ <;> cases happly.symm.trans heq
  · have hcurrent : (⟨cursor.automaton, Trie.final⟩ : Cursor).current =
        { name := Trie.finalName, kind := .accept } := by
      rw [h]
      exact current_final
    rw [hcurrent]
    exact ⟨rfl, rfl, rfl, rfl, .inr rfl⟩
  · exact ⟨rfl, htransition, hepsilon, halternate, .inl rfl⟩

/-- Where a symbol has been taken the machine does not accept, and no return has been recorded. -/
theorem taken_of_apply (h : cursor.automaton = grammar.machine nonterminal) {log recorded : Log}
    (happly : cursor.apply symbol log = (true, after, recorded)) :
    after.atAccept = false ∧ recorded.returns = log.returns := by
  have hbuilds := buildsTree_current h
  have hstays : ∀ target, Trie.error ≤ target →
      (⟨cursor.automaton, target⟩ : Cursor).atAccept = false := by
    intro target htarget
    rw [Bool.eq_false_iff, h]
    intro haccept
    rw [atAccept_cursor.mp haccept] at htarget
    exact absurd htarget (by decide)
  rcases apply_cases h symbol log with ⟨transition, htransition, heq⟩ | heq |
    ⟨alternate, halternate, heq⟩ | ⟨-, -, -, heq⟩ <;> cases happly.symm.trans heq
  · have hmem := List.mem_of_find?_eq_some htransition
    refine ⟨hstays _ (error_lt_of_transition h hmem).le, Log.returns_record ?_ _ _⟩
    rw [hbuilds.transition transition hmem]
    decide
  · refine ⟨hstays _ (eq_error_of_alternate h halternate).ge, Log.returns_record ?_ _ _⟩
    rw [hbuilds.alternate alternate halternate]
    decide

end Grammar

/-! ### One symbol under different bounds -/

/-- The same limits with another bound on failed attempts. -/
def Limits.withAttempts (limits : Limits) (attempts : Nat) : Limits :=
  { limits with maxLocalAttempts := attempts }

namespace Session

variable {grammar : Grammar} {start : String} {network : Network} {limits : Limits}
  {session after : Session} {symbol : String}

/-- For this symbol there is nothing to enter, to take or to leave. -/
structure Exhausted (network : Network) (limits : Limits) (symbol : String) (session : Session) :
    Prop where
  steady : session.control session.active = session
  enterCall?_eq : ∀ log : Log, session.enterCall? network limits (some symbol) log = none
  apply_eq : ∀ log : Log, session.active.apply symbol log = (false, session.active, log)
  leaveCall_eq : ∀ log : Log, session.leaveCall log = (session, log)

/-- Then the symbol is never consumed, however often it is tried. -/
theorem Exhausted.consume_eq_false (h : session.Exhausted network limits symbol)
    (attempts calls : Nat) (log : Log) :
    (session.consume network limits symbol attempts calls log).1 = false := by
  fun_induction session.consume network limits symbol attempts calls log with
  | case1 attempts calls session log _ entered recorded henter =>
      rw [h.enterCall?_eq] at henter
      cases henter
  | case2 attempts calls session log _ _ active recorded left _ hleave happly =>
      rw [h.apply_eq] at happly
      cases happly
  | case3 attempts calls session log _ _ consumed active recorded happly left _ hleave _ ih =>
      rw [h.apply_eq] at happly
      cases happly
      rw [h.steady, h.leaveCall_eq] at hleave
      cases hleave
      exact ih h
  | case4 => rfl

/-- A symbol fails in a compiled network because the machine in control returns, or because nothing can be
done for it. -/
theorem Chained.returns_or_exhausted (hnetwork : grammar.Describes start network)
    (h : session.Chained network limits) {log recorded : Log} {active : Cursor}
    (henter : session.enterCall? network limits (some symbol) log = none)
    (happly : session.active.apply symbol log = (false, active, recorded)) :
    ((session.control active).leaveCall recorded).2.returns = log.returns + 1 ∨
      (session.control active).Exhausted network limits symbol ∧
        (session.control active).leaveCall recorded = (session.control active, recorded) := by
  have hmachine := hnetwork.machine_eq _ (h.chain.holds _ List.mem_cons_self).1
  obtain ⟨rfl, htransition, hepsilon, halternate, hwhere⟩ := Grammar.rest_of_apply hmachine happly
  have hchained := h.apply symbol recorded
  rw [happly] at hchained
  by_cases hreturns : session.frames = [] ∨ active.atAccept = false
  · right
    have hstays : ∀ log : Log, (session.control active).leaveCall log = (session.control active, log) := by
      intro log
      rcases hreturns with hframes | haccept
      · exact leaveCall_of_nil (by rw [frames_control, hframes]) log
      · exact leaveCall_of_not_atAccept (by rw [active_control, haccept]) log
    refine ⟨⟨?_, fun log => ?_, fun log => ?_, hstays⟩, hstays recorded⟩
    · rw [active_control, control_control]
    · rcases hwhere with rfl | hcalls
      · have hsame := enterCall?_congr network limits
          (configuration_control_active session log) (some symbol)
        rw [enterCall?_of_none_recorder network limits henter log, Option.map_none,
          Option.map_eq_none_iff] at hsame
        exact hsame
      · apply enterCall?_of_none
        rw [active_control, hcalls]
        rfl
    · rw [active_control]
      exact Cursor.apply_of_nothing htransition hepsilon halternate log
  · left
    rw [not_or, Bool.not_eq_false] at hreturns
    obtain ⟨frame, frames, hframes⟩ := List.exists_cons_of_ne_nil hreturns.1
    have hwaiting : (session.control active).frames = frame :: frames := hframes
    obtain ⟨call, hcall⟩ := hchained.call? hwaiting
    have hframe : frame ∈ session.active :: session.frames := by simp [hframes]
    have hbuilds := Grammar.buildsTree_current (hnetwork.machine_eq _ (h.chain.holds frame hframe).1)
    have hafter := (hbuilds.call call (List.mem_of_find?_eq_some hcall)).2
    have haccept : (session.control active).active.atAccept = true := by
      rw [active_control, hreturns.2]
    rw [leaveCall_of_call? hwaiting haccept hcall, hafter, record, Log.returns_perform, if_pos rfl]

/-- A machine that has been entered does not return at once. -/
theorem Chained.stays_of_enterCall? (hnetwork : grammar.Describes start network)
    (h : session.Chained network limits) {log recorded : Log}
    (henter : session.enterCall? network limits (some symbol) log = some (after, recorded)) :
    after.leaveCall recorded = (after, recorded) ∧ recorded.returns = log.returns := by
  have hbuilds := Grammar.buildsTree_current
    (hnetwork.machine_eq _ (h.chain.holds _ List.mem_cons_self).1)
  obtain ⟨call, callee, heligible, -, hcallee, rfl, rfl⟩ :=
    Session.enterCall?_eq_some henter
  have hbefore := (hbuilds.call call (Network.mem_of_eligibleCall? heligible)).1
  refine ⟨leaveCall_of_not_atAccept ?_ _, Log.returns_record (by rw [hbefore]; decide) _ _⟩
  rw [active_control, Bool.eq_false_iff, hnetwork.callee_eq hcallee]
  exact fun haccept => absurd (Grammar.atAccept_cursor.mp haccept) (by decide)

theorem enterCall?_withAttempts {σ : Type} [Recorder σ] (bound : Nat) (input : Option String)
    (session : Session) (recorder : σ) :
    session.enterCall? network (limits.withAttempts bound) input recorder =
      session.enterCall? network limits input recorder := rfl

theorem room_withAttempts {attempts calls bound : Nat}
    (h : attempts ≤ limits.maxLocalAttempts ∧ calls ≤ limits.maxCallDepth ∧ session.atError = false)
    (hbound : attempts ≤ bound) :
    attempts ≤ (limits.withAttempts bound).maxLocalAttempts ∧
      calls ≤ (limits.withAttempts bound).maxCallDepth ∧ session.atError = false :=
  ⟨hbound, h.2⟩

/-- With so many attempts the symbol is consumed and leads to this result, and with fewer it is not
consumed. -/
def Takes (network : Network) (limits : Limits) (symbol : String) (attempts calls : Nat)
    (session : Session) (log : Log) (needed : Nat) (result : Session × Log) : Prop :=
  ∀ bound,
    (needed ≤ bound →
      session.consume network (limits.withAttempts bound) symbol attempts calls log =
        (true, result)) ∧
    (bound < needed →
      (session.consume network (limits.withAttempts bound) symbol attempts calls log).1 = false)

/-- One round: where the bound leaves room for it, the session goes on as it does from another one. -/
theorem takes_of_round {attempts calls attempts' calls' needed : Nat} {next : Session}
    {log log' : Log} {result : Session × Log}
    (hround : ∀ bound, attempts ≤ bound →
      session.consume network (limits.withAttempts bound) symbol attempts calls log =
        next.consume network (limits.withAttempts bound) symbol attempts' calls' log')
    (hneeded : attempts ≤ needed)
    (h : next.Takes network limits symbol attempts' calls' log' needed result) :
    session.Takes network limits symbol attempts calls log needed result := by
  intro bound
  by_cases hle : attempts ≤ bound
  · rw [hround bound hle]
    exact h bound
  · refine ⟨fun hbound => absurd (hneeded.trans hbound) hle, fun _ => ?_⟩
    rw [consume_of_spent (Nat.lt_of_not_le hle)]

/-- A symbol that is consumed has failed as often as machines have returned before it. The induction is on
the rounds that consume the symbol: a call that is entered and the move that takes the symbol record no
return, and a failed attempt records one. -/
theorem Chained.exists_takes (hnetwork : grammar.Describes start network)
    (h : session.Chained network limits) {attempts calls : Nat} {log recorded : Log}
    (hconsumed : session.consume network limits symbol attempts calls log = (true, after, recorded)) :
    ∃ returns, recorded.returns = log.returns + returns ∧
      session.Takes network limits symbol attempts calls log (attempts + returns)
        (after, recorded) := by
  fun_induction session.consume network limits symbol attempts calls log with
  | case1 attempts calls session log hbounds entered between henter left next hleave ih =>
      obtain ⟨hstays, hcount⟩ := h.stays_of_enterCall? hnetwork henter
      rw [hstays] at hleave
      cases hleave
      obtain ⟨returns, hreturns, htakes⟩ := ih (h.enter henter) hconsumed
      refine ⟨returns, by omega, takes_of_round (fun bound hle => ?_) (by omega) htakes⟩
      rw [← enterCall?_withAttempts bound] at henter
      rw [consume_of_enterCall? (room_withAttempts hbounds hle) henter, hstays]
  | case2 attempts calls session log hbounds henter active between left next hleave happly =>
      have hmachine := hnetwork.machine_eq _ (h.chain.holds _ List.mem_cons_self).1
      obtain ⟨haccept, hcount⟩ := Grammar.taken_of_apply hmachine happly
      rw [← active_control session active] at haccept
      rw [leaveCall_of_not_atAccept haccept] at hleave
      cases hleave
      cases hconsumed
      refine ⟨0, hcount, fun bound => ?_⟩
      by_cases hle : attempts ≤ bound
      · rw [← enterCall?_withAttempts bound] at henter
        rw [consume_of_apply (room_withAttempts hbounds hle) henter happly, if_pos rfl,
          leaveCall_of_not_atAccept haccept]
        exact ⟨fun _ => rfl, fun hlt => absurd hle (Nat.not_le_of_lt hlt)⟩
      · refine ⟨fun hbound => absurd hbound hle, fun _ => ?_⟩
        rw [consume_of_spent (Nat.lt_of_not_le hle)]
  | case3 attempts calls session log hbounds henter consumed active between happly left next hleave
      hfailed ih =>
      rw [Bool.not_eq_true] at hfailed
      subst hfailed
      have hchained := h.apply symbol log
      rw [happly] at hchained
      have hleft := hchained.leave between
      rw [hleave] at hleft
      rcases h.returns_or_exhausted hnetwork henter happly with hcount | ⟨hexhausted, hstays⟩
      · rw [hleave] at hcount
        change next.returns = log.returns + 1 at hcount
        obtain ⟨returns, hreturns, htakes⟩ := ih hleft hconsumed
        rw [Nat.add_right_comm] at htakes
        refine ⟨returns + 1, by omega, takes_of_round (fun bound hle => ?_) (by omega) htakes⟩
        rw [← enterCall?_withAttempts bound] at henter
        rw [consume_of_apply (room_withAttempts hbounds hle) henter happly, if_neg (by decide), hleave]
      · rw [hstays] at hleave
        cases hleave
        have hnever := hexhausted.consume_eq_false (attempts + 1) calls between
        rw [hconsumed] at hnever
        cases hnever
  | case4 => cases hconsumed

theorem Chained.input_withAttempts (hnetwork : grammar.Describes start network)
    (h : session.Chained network limits) {log : Log}
    (hinput : session.input network limits symbol ({} : Log) = (true, after, log)) (bound : Nat) :
    (log.returns ≤ bound →
      session.input network (limits.withAttempts bound) symbol ({} : Log) = (true, after, log)) ∧
    (bound < log.returns →
      (session.input network (limits.withAttempts bound) symbol ({} : Log)).1 = false) := by
  obtain ⟨returns, hreturns, htakes⟩ := h.exists_takes hnetwork (consume_of_input hinput)
  obtain ⟨hsame, hfails⟩ := htakes bound
  have hcount : log.returns = 0 + returns := hreturns
  rw [hcount]
  refine ⟨fun hle => input_of_consumed (hsame hle), fun hlt => ?_⟩
  rcases hconsume : session.consume network (limits.withAttempts bound) symbol 0 0
    (Recorder.mark ({} : Log)).2 with ⟨consumed, left, recorded⟩
  have hrejected := hfails hlt
  rw [hconsume] at hrejected
  change consumed = false at hrejected
  subst hrejected
  rw [input_of_rejected hconsume]

/-! ### Sentences under different bounds -/

/-- How many returns each of some symbols asks for when they are input one after the other. -/
def returnsAlong (network : Network) (limits : Limits) : List String → Session → List Nat
  | [], _ => []
  | symbol :: symbols, session =>
    let (_, after, log) := session.input network limits symbol ({} : Log)
    log.returns :: returnsAlong network limits symbols after

theorem input_unit_of_log {consumed : Bool} {log : Log}
    (h : session.input network limits symbol ({} : Log) = (consumed, after, log)) :
    session.input network limits symbol () = (consumed, after, ()) := by
  obtain ⟨hconsumed, hafter⟩ := input_recorder network limits symbol session ({} : Log) ()
  rw [h] at hconsumed hafter
  exact Prod.ext hconsumed.symm (Prod.ext hafter.symm rfl)

/-- Symbols that are all consumed under one bound are consumed in the same way under another that allows
the returns each of them asks for; else one of them is not consumed. -/
theorem Chained.inputAll_withAttempts (hnetwork : grammar.Describes start network)
    (h : session.Chained network limits) {symbols : List String}
    (hall : (session.inputAll network limits symbols ()).1 = true) (bound : Nat) :
    ((∀ returns ∈ session.returnsAlong network limits symbols, returns ≤ bound) →
      session.inputAll network (limits.withAttempts bound) symbols () =
        session.inputAll network limits symbols ()) ∧
    (¬ (∀ returns ∈ session.returnsAlong network limits symbols, returns ≤ bound) →
      (session.inputAll network (limits.withAttempts bound) symbols ()).1 = false) := by
  induction symbols generalizing session with
  | nil => exact ⟨fun _ => rfl, fun hmore => absurd nofun hmore⟩
  | cons symbol symbols ih =>
      rcases hinput : session.input network limits symbol ({} : Log) with ⟨consumed, next, log⟩
      have hunit := input_unit_of_log hinput
      rw [inputAll_of_input network limits hunit, Bool.and_eq_true] at hall
      obtain ⟨rfl, hrest⟩ := hall
      have hnext := h.input symbol ({} : Log)
      rw [hinput] at hnext
      obtain ⟨hsame, hfails⟩ := h.input_withAttempts hnetwork hinput bound
      obtain ⟨hrestSame, hrestFails⟩ := ih hnext hrest
      rw [returnsAlong, hinput, List.forall_mem_cons]
      rw [inputAll_of_input network limits hunit]
      by_cases hfirst : log.returns ≤ bound
      · rw [inputAll_of_input network _ (input_unit_of_log (hsame hfirst))]
        constructor
        · intro hle
          rw [hrestSame hle.2]
        · intro hmore
          rw [hrestFails fun hle => hmore ⟨hfirst, hle⟩]
          rfl
      · refine ⟨fun hle => absurd hle.1 hfirst, fun _ => ?_⟩
        rcases hrejected : session.input network (limits.withAttempts bound) symbol ({} : Log) with
          ⟨consumed, left, recorded⟩
        have hfalse := hfails (Nat.lt_of_not_le hfirst)
        rw [hrejected] at hfalse
        change consumed = false at hfalse
        subst hfalse
        rw [inputAll_of_input network _ (input_unit_of_log hrejected)]
        rfl

/-- Settling makes no attempts. -/
theorem settle_withAttempts {σ : Type} [Recorder σ] (bound steps : Nat) (session : Session)
    (recorder : σ) :
    session.settle network (limits.withAttempts bound) steps recorder =
      session.settle network limits steps recorder := by
  induction steps generalizing session recorder with
  | zero => rfl
  | succ steps ih =>
      rw [settle, settle]
      split
      · exact ih _ _
      · rfl

/-- All symbols are consumed, and the session accepts when it has finished. -/
def accepts (network : Network) (limits : Limits) (symbols : List String) (session : Session) : Bool :=
  let result := session.inputAll network limits symbols ()
  result.1 && (result.2.1.finish network limits ()).1.isAccepted

theorem Chained.accepts_withAttempts (hnetwork : grammar.Describes start network)
    (h : session.Chained network limits) {symbols : List String}
    (haccepts : session.accepts network limits symbols = true) (bound : Nat) :
    session.accepts network (limits.withAttempts bound) symbols = true ↔
      ∀ returns ∈ session.returnsAlong network limits symbols, returns ≤ bound := by
  rw [accepts, Bool.and_eq_true] at haccepts
  obtain ⟨hsame, hfails⟩ := h.inputAll_withAttempts hnetwork haccepts.1 bound
  constructor
  · intro hother
    rw [accepts, Bool.and_eq_true] at hother
    by_contra hmore
    rw [hfails hmore] at hother
    exact absurd hother.1 (by decide)
  · intro hle
    rw [accepts, hsame hle, haccepts.1, Bool.true_and, finish, settle_withAttempts]
    exact haccepts.2

end Session

/-- The same limits with another bound on failed attempts. -/
def AnalyserLimits.withAttempts (limits : AnalyserLimits) (attempts : Nat) : AnalyserLimits :=
  { limits with session := limits.session.withAttempts attempts }

namespace Analyser

variable {grammar : Grammar} {compiled : GrammarNetwork} {limits : AnalyserLimits}
  {analyser patient : Analyser} {attempts : Nat}

/-- A larger bound on failed attempts leaves the verdict on a sentence as it is, unless the sentence is
accepted under the larger bound and one of its symbols asks there for more returns from calls than the
smaller bound allows. -/
theorem Reachable.verdict_eq_iff (hcompile : grammar.compile = .ok compiled)
    (h : Reachable compiled.network limits analyser)
    (hpatient : Reachable compiled.network (limits.withAttempts attempts) patient)
    (hmore : limits.session.maxLocalAttempts ≤ attempts) (tokens : List Token) :
    (analyser.analyseTokens tokens).1 = (patient.analyseTokens tokens).1 ↔
      ((patient.analyseTokens tokens).1 = true →
        ∀ returns ∈ (Session.start compiled.network).returnsAlong compiled.network
          (limits.session.withAttempts attempts) (tokens.map Token.category),
          returns ≤ limits.session.maxLocalAttempts) := by
  have hnetwork := (Grammar.describes_of_compile hcompile).2
  have hverdict : (analyser.analyseTokens tokens).1 =
      (Session.start compiled.network).accepts compiled.network limits.session
        (tokens.map Token.category) := h.analyseTokens_eq_inputAll tokens
  have hother : (patient.analyseTokens tokens).1 =
      (Session.start compiled.network).accepts compiled.network
        (limits.session.withAttempts attempts) (tokens.map Token.category) :=
    hpatient.analyseTokens_eq_inputAll tokens
  rw [hverdict, hother]
  cases hpatience : (Session.start compiled.network).accepts compiled.network
    (limits.session.withAttempts attempts) (tokens.map Token.category) with
  | true =>
      have hback := (Session.chained_start compiled.network
        (limits.session.withAttempts attempts)).accepts_withAttempts hnetwork hpatience
        limits.session.maxLocalAttempts
      exact ⟨fun hsame _ => hback.mp hsame, fun hle => hback.mpr (hle rfl)⟩
  | false =>
      -- what the smaller bound accepts asks for no more returns than it allows, hence for no more than
      -- the larger one allows
      refine iff_of_true ?_ nofun
      by_contra haccepts
      rw [Bool.not_eq_false] at haccepts
      have hchained := Session.chained_start compiled.network limits.session
      have hle := (hchained.accepts_withAttempts hnetwork haccepts
        limits.session.maxLocalAttempts).mp haccepts
      have hagain := (hchained.accepts_withAttempts hnetwork haccepts attempts).mpr
        fun returns hreturns => (hle returns hreturns).trans hmore
      rw [hagain] at hpatience
      cases hpatience

/-- A list of words that is nested to its right, and a word behind it. -/
def row : Grammar where
  start := some "S"
  nonterminals := ["S", "L"]
  terminals := ["z", "a"]
  rules := [⟨"S", [.nonterminal "L", .terminal "z"]⟩, ⟨"L", [.terminal "a", .nonterminal "L"]⟩,
    ⟨"L", [.terminal "a"]⟩]

def rowOf (length : Nat) : List Token :=
  List.replicate length ⟨"a", "a", []⟩ ++ [⟨"z", "z", []⟩]

/-- Behind ten words the last one asks for ten returns, which are just allowed. -/
theorem row_verdict_eq :
    ∃ compiled, row.compile = .ok compiled ∧
      (Session.start compiled.network).returnsAlong compiled.network (Limits.withAttempts {} 20)
        ((rowOf 10).map Token.category) = List.replicate 10 0 ++ [10] ∧
      ((Analyser.start compiled.network).analyseTokens (rowOf 10)).1 =
        ((Analyser.start compiled.network (AnalyserLimits.withAttempts {} 20)).analyseTokens
          (rowOf 10)).1 := by
  have hok : (match row.compile with
      | .ok compiled => decide ((Session.start compiled.network).returnsAlong compiled.network
          (Limits.withAttempts {} 20) ((rowOf 10).map Token.category) = List.replicate 10 0 ++ [10])
      | .error _ => false) = true := by cbv
  split at hok
  · next compiled hcompile =>
    have hreturns := of_decide_eq_true hok
    have hallowed : ∀ returns ∈ List.replicate 10 0 ++ [10], returns ≤ 10 := by decide
    rw [← hreturns] at hallowed
    exact ⟨compiled, hcompile, hreturns,
      (Reachable.verdict_eq_iff hcompile .start .start (by decide) (rowOf 10)).mpr fun _ => hallowed⟩
  · cases hok

/-- It is not so that more attempts than ten never change a verdict: behind eleven words the last one asks for
eleven returns. -/
theorem not_attempts_harmless :
    ¬ ∀ (grammar : Grammar) (compiled : GrammarNetwork), grammar.compile = .ok compiled →
      grammar.EpsilonAlone → ∀ (attempts : Nat) (tokens : List Token), 10 ≤ attempts →
        ((Analyser.start compiled.network).analyseTokens tokens).1 =
          ((Analyser.start compiled.network (AnalyserLimits.withAttempts {} attempts)).analyseTokens
            tokens).1 := by
  intro hharmless
  have hok : (match row.compile with
      | .ok compiled => !((Analyser.start compiled.network).analyseTokens (rowOf 11)).1 &&
          ((Analyser.start compiled.network (AnalyserLimits.withAttempts {} 11)).analyseTokens
            (rowOf 11)).1
      | .error _ => false) = true := by cbv
  split at hok
  · next compiled hcompile =>
    rw [Bool.and_eq_true, Bool.not_eq_true'] at hok
    obtain ⟨hrejected, haccepted⟩ := hok
    have hsame := hharmless row compiled hcompile (by decide) 11 (rowOf 11) (by decide)
    rw [hrejected, haccepted] at hsame
    cases hsame
  · cases hok

end Analyser

end TransitionNetwork
