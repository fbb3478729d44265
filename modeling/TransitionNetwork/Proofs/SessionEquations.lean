import TransitionNetwork.Session

/-! The operations of a session case by case: what a machine does with a symbol, when a call is entered or
left and what comes of it, how a symbol is consumed and how settling goes on. Proofs about sessions go
through these equations and leave the operations themselves closed. -/

namespace TransitionNetwork

namespace Cursor

variable {σ : Type} [Recorder σ] {cursor : Cursor} {input : String}

/-! ### A machine and a symbol -/

theorem apply_of_transition? {transition : Transition}
    (h : cursor.current.transition? input = some transition) (recorder : σ) :
    cursor.apply input recorder = (true, ⟨cursor.automaton, transition.target⟩,
      record transition.action cursor.machine recorder) := by
  rw [apply, applyWithin.eq_def, h]
  rfl

/-- A machine at the end of a rule goes to its final state and does not take the input there. -/
theorem apply_of_ended {epsilon : Transition} (hnone : cursor.current.transition? input = none)
    (hepsilon : cursor.current.epsilon = some epsilon) (haction : epsilon.action = none)
    {name : String}
    (hfinal : cursor.automaton.state epsilon.target = { name, kind := .accept }) (recorder : σ) :
    cursor.apply input recorder = (false, ⟨cursor.automaton, epsilon.target⟩, recorder) := by
  have hsize : cursor.automaton.size = cursor.automaton.size - 1 + 1 := by
    have hpos : 0 < cursor.automaton.size := cursor.automaton.size_pos
    omega
  have hended : (⟨cursor.automaton, epsilon.target⟩ : Cursor).current = { name, kind := .accept } :=
    hfinal
  rw [apply, hsize, applyWithin, hnone, hepsilon]
  dsimp only [move]
  rw [haction, applyWithin, hended]
  rfl

theorem apply_of_alternate {alternate : Transition}
    (hnone : cursor.current.transition? input = none) (hepsilon : cursor.current.epsilon = none)
    (halternate : cursor.current.alternate = some alternate) (recorder : σ) :
    cursor.apply input recorder = (true, ⟨cursor.automaton, alternate.target⟩,
      record alternate.action cursor.machine recorder) := by
  rw [apply, applyWithin.eq_def, hnone, hepsilon, halternate]
  rfl

theorem apply_of_nothing (hnone : cursor.current.transition? input = none)
    (hepsilon : cursor.current.epsilon = none) (halternate : cursor.current.alternate = none)
    (recorder : σ) : cursor.apply input recorder = (false, cursor, recorder) := by
  rw [apply, applyWithin.eq_def, hnone, hepsilon, halternate]

end Cursor

namespace Session

variable {σ : Type} [Recorder σ] {network : Network} {limits : Limits} {session after : Session}
  {recorder recorded : σ}

/-! ### Entering a call -/

section

variable {input : Option String}

theorem enterCall?_of_none
    (h : network.eligibleCall? input session.active.current.calls = none) (recorder : σ) :
    session.enterCall? network limits input recorder = none := by
  rw [enterCall?, h]

theorem enterCall?_of_full (h : limits.maxCallDepth ≤ session.depth) (recorder : σ) :
    session.enterCall? network limits input recorder = none := by
  rw [enterCall?]
  cases network.eligibleCall? input session.active.current.calls with
  | none => rfl
  | some call => exact if_pos h

theorem enterCall?_of_some {call : Call} {callee : Automaton}
    (h : network.eligibleCall? input session.active.current.calls = some call)
    (hdepth : session.depth < limits.maxCallDepth)
    (hcallee : network.machine? call.callee = some callee) (recorder : σ) :
    session.enterCall? network limits input recorder =
      some ({ session with frames := session.active :: session.frames }.control (.start callee),
        record call.before callee.name recorder) := by
  rw [enterCall?, h]
  dsimp only
  rw [if_neg (Nat.not_le_of_lt hdepth), hcallee]

/-- A call that is entered is the first eligible one, and there was room for it. -/
theorem enterCall?_eq_some
    (h : session.enterCall? network limits input recorder = some (after, recorded)) :
    ∃ call callee, network.eligibleCall? input session.active.current.calls = some call ∧
      session.depth < limits.maxCallDepth ∧ network.machine? call.callee = some callee ∧
      after = { session with frames := session.active :: session.frames }.control (.start callee) ∧
      recorded = record call.before callee.name recorder := by
  rw [enterCall?] at h
  split at h
  · cases h
  · next call heligible =>
    split at h
    · cases h
    · next hdepth =>
      split at h
      · cases h
      · next callee hcallee =>
        cases h
        exact ⟨call, callee, heligible, Nat.lt_of_not_le hdepth, hcallee, rfl, rfl⟩

end

/-! ### Leaving a call -/

theorem leaveCall_of_nil (h : session.frames = []) (recorder : σ) :
    session.leaveCall recorder = (session, recorder) := by
  rw [leaveCall, h]

theorem leaveCall_of_not_atAccept (h : session.active.atAccept = false) (recorder : σ) :
    session.leaveCall recorder = (session, recorder) := by
  rw [leaveCall]
  split
  · rfl
  · rw [if_neg (by rw [h]; decide)]

section

variable {frame : Cursor} {frames : List Cursor}

/-- A caller that waits at a call of the machine in control goes on behind it. -/
theorem leaveCall_of_call? (hframes : session.frames = frame :: frames)
    (haccept : session.active.atAccept = true) {call : Call}
    (hcall : frame.current.call? session.active.machine = some call) (recorder : σ) :
    session.leaveCall recorder =
      ({ session with frames }.control ⟨frame.automaton, call.target⟩,
        record call.after frame.machine recorder) := by
  simp only [leaveCall, hframes, haccept, if_true, Cursor.returnFrom, hcall, Cursor.move]

/-- A caller that has no such call stays where it waits. -/
theorem leaveCall_of_call?_eq_none (hframes : session.frames = frame :: frames)
    (haccept : session.active.atAccept = true)
    (hcall : frame.current.call? session.active.machine = none) (recorder : σ) :
    session.leaveCall recorder = ({ session with frames }.control frame, recorder) := by
  simp only [leaveCall, hframes, haccept, if_true, Cursor.returnFrom, hcall]

end

/-! ### Consuming a symbol -/

variable {symbol : String} {attempts calls : Nat}

theorem consume_of_enterCall? {entered : Session}
    (hbounds : attempts ≤ limits.maxLocalAttempts ∧ calls ≤ limits.maxCallDepth ∧
      session.atError = false)
    (henter : session.enterCall? network limits (some symbol) recorder = some (entered, recorded)) :
    session.consume network limits symbol attempts calls recorder =
      (entered.leaveCall recorded).1.consume network limits symbol attempts (calls + 1)
        (entered.leaveCall recorded).2 := by
  rw [consume, if_pos hbounds, henter]

theorem consume_of_apply {consumed : Bool} {active : Cursor}
    (hbounds : attempts ≤ limits.maxLocalAttempts ∧ calls ≤ limits.maxCallDepth ∧
      session.atError = false)
    (henter : session.enterCall? network limits (some symbol) recorder = none)
    (happly : session.active.apply symbol recorder = (consumed, active, recorded)) :
    session.consume network limits symbol attempts calls recorder =
      if consumed then (true, (session.control active).leaveCall recorded)
      else
        ((session.control active).leaveCall recorded).1.consume network limits symbol
          (attempts + 1) calls ((session.control active).leaveCall recorded).2 := by
  rw [consume, if_pos hbounds, henter, happly]

/-- At an error state no symbol is consumed. -/
theorem consume_of_atError (h : session.atError = true) :
    session.consume network limits symbol attempts calls recorder =
      (false, session, recorder) := by
  rw [consume, if_neg (by simp [h])]

theorem consume_of_spent (h : limits.maxLocalAttempts < attempts) (calls : Nat) (recorder : σ) :
    session.consume network limits symbol attempts calls recorder = (false, session, recorder) := by
  rw [consume, if_neg fun hbounds => absurd hbounds.1 (Nat.not_le_of_lt h)]

theorem input_of_consumed
    (h : session.consume network limits symbol 0 0 (Recorder.mark recorder).2 =
      (true, after, recorded)) :
    session.input network limits symbol recorder = (true, after, recorded) := by
  rw [input]
  dsimp only
  rw [h]

theorem input_of_rejected
    (h : session.consume network limits symbol 0 0 (Recorder.mark recorder).2 =
      (false, after, recorded)) :
    session.input network limits symbol recorder =
      (false, { after with frames := session.frames }.control session.active,
        Recorder.rewind (Recorder.mark recorder).1 recorded) := by
  rw [input]
  dsimp only
  rw [h]

theorem consume_of_input
    (h : session.input network limits symbol recorder = (true, after, recorded)) :
    session.consume network limits symbol 0 0 (Recorder.mark recorder).2 =
      (true, after, recorded) := by
  rcases hconsume : session.consume network limits symbol 0 0 (Recorder.mark recorder).2 with
    ⟨consumed, result⟩
  cases consumed with
  | false =>
      rw [input_of_rejected hconsume] at h
      cases h
  | true =>
      rw [input_of_consumed hconsume] at h
      exact h

theorem atError_of_input
    (h : session.input network limits symbol recorder = (true, after, recorded)) :
    session.atError = false := by
  rw [Bool.eq_false_iff]
  intro herror
  have hconsume := consume_of_input h
  rw [consume_of_atError herror] at hconsume
  cases hconsume

/-! ### Settling -/

/-- A step of settling that makes an epsilon move and returns. -/
theorem settle_of_epsilon {epsilon : Transition}
    (hepsilon : session.active.current.epsilon = some epsilon) (haction : epsilon.action = none)
    {target : Nat} (htarget : epsilon.target = target) {left : Session}
    (hleave : (session.control ⟨session.active.automaton, target⟩).leaveCall recorder =
      (left, recorded))
    (heligible : network.eligibleCall? none left.active.current.calls = none) (steps : Nat) :
    session.settle network limits (steps + 1) recorder =
      left.settle network limits steps recorded := by
  have hunsettled : session.unsettled network = true := by
    rw [unsettled, hepsilon]
    rfl
  have hstep : session.settleStep network limits recorder = (left, recorded) := by
    rw [settleStep, Cursor.stepEpsilon, hepsilon]
    dsimp only [Cursor.move]
    rw [haction, htarget]
    dsimp only [record]
    rw [hleave]
    dsimp only
    rw [enterCall?_of_none heligible]
    rfl
  rw [settle, if_pos hunsettled, hstep]

theorem settle_of_settled (h : session.unsettled network = false) (steps : Nat) :
    session.settle network limits steps recorder = (session, recorder) := by
  cases steps with
  | zero => rfl
  | succ steps => rw [settle, if_neg (by rw [h]; decide)]

end Session

end TransitionNetwork
