import TransitionNetwork.Proofs.RecorderJournal
import TransitionNetwork.Proofs.SessionEquations

/-! The moves of a session. What a session shows is the machine in control, the frames and the recorder
(`Configuration`). Every operation of a session is a series of moves between configurations: entering a
call, leaving one and epsilon moves, and for a symbol that is consumed one move that takes it. What each
move keeps is therefore kept by every operation. -/

namespace TransitionNetwork

/-- What later operations of a session depend on. -/
structure Configuration (σ : Type) where
  active : Cursor
  frames : List Cursor
  recorder : σ

/-- The places of machines that are not in control are left out. -/
def Session.configuration {σ : Type} (session : Session) (recorder : σ) : Configuration σ :=
  ⟨session.active, session.frames, recorder⟩

namespace Configuration

variable {σ : Type} [Recorder σ]

/-- A move that takes no symbol; `symbol` is the one at hand, if there is one. -/
inductive Move (network : Network) (limits : Limits) (symbol : Option String) :
    Configuration σ → Configuration σ → Prop
  | enter {active : Cursor} {frames : List Cursor} {recorder : σ} {call : Call} {callee : Automaton}
      (heligible : network.eligibleCall? symbol active.current.calls = some call)
      (hdepth : frames.length < limits.maxCallDepth)
      (hcallee : network.machine? call.callee = some callee) :
      Move network limits symbol ⟨active, frames, recorder⟩
        ⟨.start callee, active :: frames, record call.before callee.name recorder⟩
  | leave {active frame : Cursor} {frames : List Cursor} {recorder : σ} {call : Call}
      (haccept : active.atAccept = true)
      (hcall : frame.current.call? active.machine = some call) :
      Move network limits symbol ⟨active, frame :: frames, recorder⟩
        ⟨⟨frame.automaton, call.target⟩, frames, record call.after frame.machine recorder⟩
  /-- A caller that has no such call stays where it waits. -/
  | dismiss {active frame : Cursor} {frames : List Cursor} {recorder : σ}
      (haccept : active.atAccept = true)
      (hcall : frame.current.call? active.machine = none) :
      Move network limits symbol ⟨active, frame :: frames, recorder⟩ ⟨frame, frames, recorder⟩
  | epsilon {active : Cursor} {frames : List Cursor} {recorder : σ} {epsilon : Transition}
      (hepsilon : active.current.epsilon = some epsilon) :
      Move network limits symbol ⟨active, frames, recorder⟩
        ⟨⟨active.automaton, epsilon.target⟩, frames,
          record epsilon.action active.machine recorder⟩

/-- A move that takes a symbol. -/
inductive Take (symbol : String) : Configuration σ → Configuration σ → Prop
  | transition {active : Cursor} {frames : List Cursor} {recorder : σ} {transition : Transition}
      (htransition : active.current.transition? symbol = some transition) :
      Take symbol ⟨active, frames, recorder⟩
        ⟨⟨active.automaton, transition.target⟩, frames,
          record transition.action active.machine recorder⟩
  | alternate {active : Cursor} {frames : List Cursor} {recorder : σ} {alternate : Transition}
      (htransition : active.current.transition? symbol = none)
      (hepsilon : active.current.epsilon = none)
      (halternate : active.current.alternate = some alternate) :
      Take symbol ⟨active, frames, recorder⟩
        ⟨⟨active.automaton, alternate.target⟩, frames,
          record alternate.action active.machine recorder⟩

/-- Any number of moves that take no symbol. -/
def Moves (network : Network) (limits : Limits) (symbol : Option String) :
    Configuration σ → Configuration σ → Prop :=
  Relation.ReflTransGen (Move network limits symbol)

/-- Moves for a symbol, with one among them that takes it if it is consumed. -/
def Attempt (network : Network) (limits : Limits) (symbol : String) :
    Bool → Configuration σ → Configuration σ → Prop
  | false, before, after => Moves network limits (some symbol) before after
  | true, before, after => ∃ ready taken, Moves network limits (some symbol) before ready ∧
      Take symbol ready taken ∧ Moves network limits (some symbol) taken after

variable {network : Network} {limits : Limits}

theorem Attempt.of_moves {symbol : String} {consumed : Bool} {first second third : Configuration σ}
    (h : Moves network limits (some symbol) first second)
    (h' : Attempt network limits symbol consumed second third) :
    Attempt network limits symbol consumed first third := by
  cases consumed with
  | false => exact h.trans h'
  | true =>
      obtain ⟨ready, taken, hready, htake, hafter⟩ := h'
      exact ⟨ready, taken, h.trans hready, htake, hafter⟩

theorem Attempt.trans_moves {symbol : String} {consumed : Bool}
    {first second third : Configuration σ}
    (h : Attempt network limits symbol consumed first second)
    (h' : Moves network limits (some symbol) second third) :
    Attempt network limits symbol consumed first third := by
  cases consumed with
  | false => exact h.trans h'
  | true =>
      obtain ⟨ready, taken, hready, htake, hafter⟩ := h
      exact ⟨ready, taken, hready, htake, hafter.trans h'⟩

/-! ### Actions of the moves -/

theorem Move.performs {symbol : Option String} {before after : Configuration σ}
    (h : Move network limits symbol before after) :
    Recorder.Performs before.recorder after.recorder := by
  cases h with
  | enter => exact Recorder.performs_record _ _ _
  | leave => exact Recorder.performs_record _ _ _
  | dismiss => exact .refl
  | epsilon => exact Recorder.performs_record _ _ _

theorem Moves.performs {symbol : Option String} {before after : Configuration σ}
    (h : Moves network limits symbol before after) :
    Recorder.Performs before.recorder after.recorder := by
  induction h with
  | refl => exact .refl
  | tail _ hmove ih => exact ih.trans hmove.performs

theorem Take.performs {symbol : String} {before after : Configuration σ}
    (h : Take symbol before after) : Recorder.Performs before.recorder after.recorder := by
  cases h with
  | transition => exact Recorder.performs_record _ _ _
  | alternate => exact Recorder.performs_record _ _ _

theorem Attempt.performs {symbol : String} {consumed : Bool} {before after : Configuration σ}
    (h : Attempt network limits symbol consumed before after) :
    Recorder.Performs before.recorder after.recorder := by
  cases consumed with
  | false => exact Moves.performs h
  | true =>
      obtain ⟨ready, taken, hready, htake, hafter⟩ := h
      exact (hready.performs.trans htake.performs).trans hafter.performs

end Configuration

namespace Session

open TransitionNetwork.Configuration

variable {σ : Type} [Recorder σ] {network : Network} {limits : Limits}

/-! ### Operations as moves -/

theorem move_of_enterCall? {symbol : Option String} {session after : Session}
    {recorder recorded : σ}
    (h : session.enterCall? network limits symbol recorder = some (after, recorded)) :
    Move network limits symbol (session.configuration recorder) (after.configuration recorded) := by
  obtain ⟨call, callee, heligible, hdepth, hcallee, rfl, rfl⟩ := enterCall?_eq_some h
  rw [configuration, configuration, active_control, frames_control]
  exact .enter heligible hdepth hcallee

theorem moves_leaveCall (symbol : Option String) {session after : Session} {recorder recorded : σ}
    (h : session.leaveCall recorder = (after, recorded)) :
    Moves network limits symbol (session.configuration recorder) (after.configuration recorded) := by
  cases hframes : session.frames with
  | nil =>
      cases (leaveCall_of_nil hframes recorder).symm.trans h
      exact .refl
  | cons frame frames =>
      cases haccept : session.active.atAccept with
      | false =>
          cases (leaveCall_of_not_atAccept haccept recorder).symm.trans h
          exact .refl
      | true =>
          apply Relation.ReflTransGen.single
          cases hcall : frame.current.call? session.active.machine with
          | none =>
              cases (leaveCall_of_call?_eq_none hframes haccept hcall recorder).symm.trans h
              rw [configuration, configuration, active_control, frames_control, hframes]
              exact .dismiss haccept hcall
          | some call =>
              cases (leaveCall_of_call? hframes haccept hcall recorder).symm.trans h
              rw [configuration, configuration, active_control, frames_control, hframes]
              exact .leave haccept hcall

theorem attempt_applyWithin (symbol : String) (moves : Nat) (active : Cursor)
    (frames : List Cursor) (recorder : σ) :
    let result := active.applyWithin symbol moves recorder
    Attempt network limits symbol result.1 ⟨active, frames, recorder⟩
      ⟨result.2.1, frames, result.2.2⟩ := by
  fun_induction Cursor.applyWithin symbol moves active recorder with
  | case1 moves active recorder transition htransition =>
      exact ⟨_, _, .refl, .transition htransition, .refl⟩
  | case2 active recorder htransition epsilon hepsilon => exact .refl
  | case3 active recorder htransition epsilon hepsilon moves _ _ hmoved ih =>
      cases hmoved
      exact Attempt.of_moves (.single (.epsilon hepsilon)) ih
  | case4 moves active recorder htransition hepsilon alternate halternate =>
      exact ⟨_, _, .refl, .alternate htransition hepsilon halternate, .refl⟩
  | case5 moves active recorder htransition hepsilon halternate => exact .refl

theorem attempt_apply {symbol : String} {session : Session} {recorder recorded : σ}
    {consumed : Bool} {active : Cursor}
    (h : session.active.apply symbol recorder = (consumed, active, recorded)) :
    Attempt network limits symbol consumed (session.configuration recorder)
      ((session.control active).configuration recorded) := by
  rw [configuration, configuration, active_control, frames_control]
  have hmoves : Attempt network limits symbol _ ⟨session.active, session.frames, recorder⟩ _ :=
    attempt_applyWithin symbol session.active.automaton.size session.active session.frames recorder
  rw [Cursor.apply] at h
  rw [h] at hmoves
  exact hmoves

variable (network limits) in
/-- An attempt to consume a symbol is a series of moves, and one of them takes the symbol exactly if it
is consumed. -/
theorem attempt_consume (symbol : String) (attempts calls : Nat) (session : Session)
    (recorder : σ) :
    let result := session.consume network limits symbol attempts calls recorder
    Attempt network limits symbol result.1 (session.configuration recorder)
      (result.2.1.configuration result.2.2) := by
  fun_induction session.consume network limits symbol attempts calls recorder with
  | case1 attempts calls session recorder _ _ _ henter _ _ hleave ih =>
      have hentered := Relation.ReflTransGen.single (move_of_enterCall? henter)
      exact Attempt.of_moves (hentered.trans (moves_leaveCall _ hleave)) ih
  | case2 attempts calls session recorder _ _ _ _ _ _ hleave happly =>
      exact (attempt_apply happly).trans_moves (moves_leaveCall _ hleave)
  | case3 attempts calls session recorder _ _ consumed _ _ happly _ _ hleave hrejected ih =>
      rw [Bool.not_eq_true] at hrejected
      subst hrejected
      have happlied : Moves network limits (some symbol) _ _ := attempt_apply happly
      exact Attempt.of_moves (happlied.trans (moves_leaveCall _ hleave)) ih
  | case4 attempts calls session recorder _ => exact .refl

theorem moves_stepEpsilon (symbol : Option String) {session : Session} {recorder recorded : σ}
    {active : Cursor} (h : session.active.stepEpsilon recorder = (active, recorded)) :
    Moves network limits symbol (session.configuration recorder)
      ((session.control active).configuration recorded) := by
  rw [configuration, configuration, active_control, frames_control]
  rw [Cursor.stepEpsilon] at h
  split at h
  · next epsilon hepsilon =>
    cases h
    exact .single (.epsilon hepsilon)
  · cases h
    exact .refl

variable (network limits) in
theorem moves_settleStep (session : Session) (recorder : σ) :
    let result := session.settleStep network limits recorder
    Moves network limits none (session.configuration recorder)
      (result.1.configuration result.2) := by
  rw [settleStep]
  cases hepsilon : session.active.stepEpsilon recorder with
  | mk active recorded =>
      cases hleave : (session.control active).leaveCall recorded with
      | mk after recorded' =>
          have hmoves : Moves network limits none _ _ :=
            (moves_stepEpsilon none hepsilon).trans (moves_leaveCall none hleave)
          dsimp only
          rw [hleave]
          dsimp only
          cases henter : after.enterCall? network limits none recorded' with
          | none => exact hmoves
          | some entered => exact hmoves.tail (move_of_enterCall? henter)

variable (network limits) in
theorem moves_settle (steps : Nat) (session : Session) (recorder : σ) :
    let result := session.settle network limits steps recorder
    Moves network limits none (session.configuration recorder)
      (result.1.configuration result.2) := by
  induction steps generalizing session recorder with
  | zero => exact .refl
  | succ steps ih =>
      rw [settle]
      split
      · exact (moves_settleStep network limits session recorder).trans (ih _ _)
      · exact .refl

end Session

end TransitionNetwork
