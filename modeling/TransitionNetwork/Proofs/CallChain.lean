import TransitionNetwork.Proofs.CallEligibility
import TransitionNetwork.Proofs.SessionRollback
import Mathlib.Data.List.Chain
import Mathlib.Data.List.Nodup

/-! Frames are a chain of calls. The outermost machine at work is the start machine, and every machine
that waits does so at a state that calls the next machine in. A frame keeps only the state it waits at; the
call is looked up again by the name of the machine that returns. Since the lookahead takes the first call
of a machine or none, the call that is found is the one that was entered, and no return comes to nothing. -/

namespace TransitionNetwork

namespace Network

variable {network : Network} {symbol : Option String}

/-- The call that is found is the first of its machine: where an earlier one was tried in vain, the
machine cannot start. -/
theorem Vain.find?_of_eligibleCall? {seen : List Place} (h : network.Vain symbol seen)
    {calls : List Call} (hcalls : ∀ call ∈ calls, call.callee ∈ network.machines.map (·.name))
    {call : Call} (hfound : network.eligibleCall? symbol calls seen = some call) :
    calls.find? (·.callee = call.callee) = some call := by
  induction calls generalizing seen with
  | nil => cases hfound
  | cons other calls ih =>
      rw [eligibleCall?] at hfound
      rcases hstart : network.canStart symbol other.callee seen with ⟨found, visited⟩
      rw [hstart] at hfound
      cases found with
      | true =>
          cases hfound
          exact List.find?_cons_of_pos (decide_eq_true rfl)
      | false =>
          obtain ⟨hvain, hvisited⟩ := h.canStart (hcalls other List.mem_cons_self)
            (congrArg Prod.fst hstart)
          rw [hstart] at hvain
          have hne : other.callee ≠ call.callee := by
            intro hsame
            rw [hsame] at hvisited
            exact hvisited (startable_of_eligibleCall? hfound).2
          rw [List.find?_cons_of_neg (by simpa using hne)]
          exact ih hvain (fun other hother => hcalls other (List.mem_cons_of_mem _ hother)) hfound

/-- A cursor at a state of a machine of the network. -/
def Holds (network : Network) (cursor : Cursor) : Prop :=
  cursor.automaton ∈ network.machines ∧ cursor.state < cursor.automaton.size

theorem Holds.call? {cursor : Cursor} (h : network.Holds cursor) {call : Call}
    (hfound : network.eligibleCall? symbol cursor.current.calls = some call) :
    cursor.current.call? call.callee = some call := by
  exact (vain_nil network symbol).find?_of_eligibleCall? (fun _ => callee_mem_of_state h.1) hfound

/-- A machine with its callers, the innermost first: a chain of calls that begins at the start machine. -/
structure CallChain (network : Network) (active : Cursor) (frames : List Cursor) : Prop where
  holds : ∀ cursor ∈ active :: frames, network.Holds cursor
  /-- Without a frame this is the machine in control, else the outermost frame. -/
  outermost : ∀ cursor ∈ (active :: frames).getLast?, cursor.automaton = network.start
  /-- Every caller waits at a state with a call of the machine that stands before it. -/
  calls : (active :: frames).IsChain fun callee caller => caller.current.hasCall callee.machine = true

namespace CallChain

variable {active frame : Cursor} {frames : List Cursor}

theorem start (network : Network) : network.CallChain (.start network.start) [] where
  holds := List.forall_mem_singleton.mpr ⟨network.start_mem, network.start.size_pos⟩
  outermost := by
    rintro cursor ⟨⟩
    rfl
  calls := List.isChain_singleton _

/-- The machine in control goes to another of its states. -/
theorem move (h : network.CallChain active frames) {after : Cursor}
    (hautomaton : after.automaton = active.automaton) (hstate : after.state < active.automaton.size) :
    network.CallChain after frames := by
  obtain ⟨hactive, hframes⟩ := List.forall_mem_cons.mp h.holds
  have hholds : network.Holds after := by
    rw [Holds, hautomaton]
    exact ⟨hactive.1, hstate⟩
  have hname : after.machine = active.machine := congrArg Automaton.name hautomaton
  have houtermost := h.outermost
  have hcalls := h.calls
  refine ⟨List.forall_mem_cons.mpr ⟨hholds, hframes⟩, ?_, ?_⟩
  · cases frames with
    | nil =>
        rintro cursor ⟨⟩
        exact hautomaton.trans (houtermost active rfl)
    | cons frame frames =>
        rw [List.getLast?_cons_cons] at houtermost ⊢
        exact houtermost
  · cases frames with
    | nil => exact List.isChain_singleton _
    | cons frame frames =>
        rw [List.isChain_cons_cons] at hcalls ⊢
        rw [hname]
        exact hcalls

theorem enter (h : network.CallChain active frames) {callee : Automaton}
    (hcallee : callee ∈ network.machines) (hcall : active.current.hasCall callee.name = true) :
    network.CallChain (.start callee) (active :: frames) := by
  refine ⟨List.forall_mem_cons.mpr ⟨⟨hcallee, callee.size_pos⟩, h.holds⟩, ?_,
    List.isChain_cons_cons.mpr ⟨hcall, h.calls⟩⟩
  rw [List.getLast?_cons_cons]
  exact h.outermost

/-- Without the machine in control, its caller has the frames behind it as callers. -/
theorem leave (h : network.CallChain active (frame :: frames)) : network.CallChain frame frames := by
  have houtermost := h.outermost
  rw [List.getLast?_cons_cons] at houtermost
  exact ⟨(List.forall_mem_cons.mp h.holds).2, houtermost, (List.isChain_cons_cons.mp h.calls).2⟩

/-- The caller waits at a call of the machine in control. -/
theorem call? (h : network.CallChain active (frame :: frames)) :
    ∃ call, frame.current.call? active.machine = some call :=
  Option.isSome_iff_exists.mp (List.isChain_cons_cons.mp h.calls).1

end CallChain

/-- Machines of a network are told apart by their names. -/
theorem eq_of_name_eq {left right : Automaton} (hleft : left ∈ network.machines)
    (hright : right ∈ network.machines) (hname : left.name = right.name) : left = right :=
  List.inj_on_of_nodup_map network.names_nodup hleft hright hname

end Network

namespace Cursor

variable {σ : Type} [Recorder σ]

/-- An input leaves a cursor at a state of its machine. -/
theorem applyWithin_lt_size (input : String) (moves : Nat) (cursor : Cursor) (recorder : σ)
    (h : cursor.state < cursor.automaton.size) :
    let after := (cursor.applyWithin input moves recorder).2.1
    after.automaton = cursor.automaton ∧ after.state < cursor.automaton.size := by
  fun_induction applyWithin input moves cursor recorder with
  | case1 moves cursor recorder transition htransition =>
      have hmem := State.target_mem_of_transition (List.mem_of_find?_eq_some htransition)
      exact ⟨rfl, cursor.automaton.target_lt_size hmem⟩
  | case2 cursor recorder htransition epsilon hepsilon => exact ⟨rfl, h⟩
  | case3 cursor recorder htransition epsilon hepsilon moves _ _ hmoved ih =>
      cases hmoved
      exact ih (cursor.automaton.target_lt_size (State.target_mem_of_epsilon hepsilon))
  | case4 moves cursor recorder htransition hepsilon alternate halternate =>
      exact ⟨rfl, cursor.automaton.target_lt_size (State.target_mem_of_alternate halternate)⟩
  | case5 moves cursor recorder htransition hepsilon halternate => exact ⟨rfl, h⟩

theorem stepEpsilon_lt_size (cursor : Cursor) (recorder : σ)
    (h : cursor.state < cursor.automaton.size) :
    let after := (cursor.stepEpsilon recorder).1
    after.automaton = cursor.automaton ∧ after.state < cursor.automaton.size := by
  rw [stepEpsilon]
  split
  · next epsilon hepsilon =>
    exact ⟨rfl, cursor.automaton.target_lt_size (State.target_mem_of_epsilon hepsilon)⟩
  · exact ⟨rfl, h⟩

end Cursor

namespace Session

variable {network : Network} {limits : Limits} {session after : Session}

/-- The calls of a session are a chain, no deeper than allowed, and every machine of the network, at work
or not, stands at one of its states. -/
structure Chained (network : Network) (limits : Limits) (session : Session) : Prop where
  chain : network.CallChain session.active session.frames
  depth_le : session.depth ≤ limits.maxCallDepth
  place_lt : ∀ machine ∈ network.machines,
    (session.places.get? machine.name).getD 0 < machine.size

theorem chained_start (network : Network) (limits : Limits) :
    (start network).Chained network limits where
  chain := .start network
  depth_le := Nat.zero_le _
  place_lt := fun machine _ => machine.size_pos

/-! ### What keeps the chain -/

/-- A machine is put in control over some frames. -/
theorem Chained.control (h : session.Chained network limits) {cursor : Cursor}
    {frames : List Cursor} (hchain : network.CallChain cursor frames)
    (hdepth : frames.length ≤ limits.maxCallDepth) :
    ({ session with frames }.control cursor).Chained network limits := by
  refine ⟨?_, hdepth, fun machine hmachine => ?_⟩
  · rw [active_control]
    exact hchain
  · have hcursor := hchain.holds cursor List.mem_cons_self
    rw [Session.control, Dictionary.get?_insert]
    split
    · next hname =>
      rw [Network.eq_of_name_eq hmachine hcursor.1 hname]
      exact hcursor.2
    · exact h.place_lt machine hmachine

variable {σ : Type} [Recorder σ]

theorem Chained.apply (h : session.Chained network limits) (symbol : String) (recorder : σ) :
    (session.control (session.active.apply symbol recorder).2.1).Chained network limits := by
  obtain ⟨hautomaton, hstate⟩ := Cursor.applyWithin_lt_size symbol session.active.automaton.size
    session.active recorder (h.chain.holds _ List.mem_cons_self).2
  exact h.control (h.chain.move hautomaton hstate) h.depth_le

theorem Chained.epsilon (h : session.Chained network limits) (recorder : σ) :
    (session.control (session.active.stepEpsilon recorder).1).Chained network limits := by
  obtain ⟨hautomaton, hstate⟩ := Cursor.stepEpsilon_lt_size session.active recorder
    (h.chain.holds _ List.mem_cons_self).2
  exact h.control (h.chain.move hautomaton hstate) h.depth_le

/-- The first eligible call is entered; it is the one that will be found when its machine returns. -/
theorem Chained.enterCall?_eq_some (h : session.Chained network limits) {symbol : Option String}
    {recorder recorded : σ}
    (henter : session.enterCall? network limits symbol recorder = some (after, recorded)) :
    ∃ call callee, network.eligibleCall? symbol session.active.current.calls = some call ∧
      session.active.current.call? callee.name = some call ∧ callee ∈ network.machines ∧
      session.depth < limits.maxCallDepth ∧
      after = { session with frames := session.active :: session.frames }.control (.start callee) := by
  obtain ⟨call, callee, heligible, hdepth, hcallee, rfl, -⟩ := Session.enterCall?_eq_some henter
  obtain ⟨hmachine, hname⟩ := Network.mem_of_machine? hcallee
  have hcall := (h.chain.holds _ List.mem_cons_self).call? heligible
  rw [← hname] at hcall
  exact ⟨call, callee, heligible, hcall, hmachine, hdepth, rfl⟩

theorem Chained.enter (h : session.Chained network limits) {symbol : Option String}
    {recorder recorded : σ}
    (henter : session.enterCall? network limits symbol recorder = some (after, recorded)) :
    after.Chained network limits := by
  obtain ⟨call, callee, -, hcall, hmachine, hdepth, rfl⟩ := h.enterCall?_eq_some henter
  have hhas : session.active.current.hasCall callee.name = true := by
    rw [State.hasCall, hcall]
    rfl
  exact h.control (h.chain.enter hmachine hhas) hdepth

theorem Chained.call? (h : session.Chained network limits) {frame : Cursor} {frames : List Cursor}
    (hframes : session.frames = frame :: frames) :
    ∃ call, frame.current.call? session.active.machine = some call := by
  have hchain := h.chain
  rw [hframes] at hchain
  exact hchain.call?

theorem Chained.leave (h : session.Chained network limits) (recorder : σ) :
    (session.leaveCall recorder).1.Chained network limits := by
  cases hframes : session.frames with
  | nil =>
      rw [leaveCall_of_nil hframes]
      exact h
  | cons frame frames =>
      cases haccept : session.active.atAccept with
      | false =>
          rw [leaveCall_of_not_atAccept haccept]
          exact h
      | true =>
          obtain ⟨call, hcall⟩ := h.call? hframes
          rw [leaveCall_of_call? hframes haccept hcall]
          have hchain := h.chain
          have hdepth := h.depth_le
          rw [hframes] at hchain
          rw [depth, hframes, List.length_cons] at hdepth
          have hmem := State.target_mem_of_call (List.mem_of_find?_eq_some hcall)
          exact h.control (hchain.leave.move rfl (frame.automaton.target_lt_size hmem))
            (Nat.le_of_succ_le hdepth)

/-! ### What the operations keep -/

theorem Chained.consume (h : session.Chained network limits) (symbol : String)
    (attempts calls : Nat) (recorder : σ) :
    (session.consume network limits symbol attempts calls recorder).2.1.Chained network limits := by
  fun_induction session.consume network limits symbol attempts calls recorder with
  | case1 attempts calls session recorder _ entered recorded henter left _ hleave ih =>
      have hleft := (h.enter henter).leave recorded
      rw [hleave] at hleft
      exact ih hleft
  | case2 attempts calls session recorder _ _ active recorded left _ hleave happly =>
      have happlied := h.apply symbol recorder
      rw [happly] at happlied
      have hleft := happlied.leave recorded
      rw [hleave] at hleft
      exact hleft
  | case3 attempts calls session recorder _ _ consumed active recorded happly left _ hleave _ ih =>
      have happlied := h.apply symbol recorder
      rw [happly] at happlied
      have hleft := happlied.leave recorded
      rw [hleave] at hleft
      exact ih hleft
  | case4 attempts calls session recorder _ => exact h

/-- A symbol that is not consumed brings back the chain from before. -/
theorem Chained.input (h : session.Chained network limits) (symbol : String) (recorder : σ) :
    (session.input network limits symbol recorder).2.1.Chained network limits := by
  have hafter := h.consume symbol 0 0 (Recorder.mark recorder).2
  rcases hconsume : session.consume network limits symbol 0 0 (Recorder.mark recorder).2 with
    ⟨consumed, after, recorded⟩
  rw [hconsume] at hafter
  cases consumed with
  | true =>
      rw [input_of_consumed hconsume]
      exact hafter
  | false =>
      rw [input_of_rejected hconsume]
      exact hafter.control h.chain h.depth_le

theorem Chained.settleStep (h : session.Chained network limits) (recorder : σ) :
    (session.settleStep network limits recorder).1.Chained network limits := by
  rw [Session.settleStep]
  dsimp only
  have hleft := (h.epsilon recorder).leave (session.active.stepEpsilon recorder).2
  rcases hleave : (session.control (session.active.stepEpsilon recorder).1).leaveCall
    (session.active.stepEpsilon recorder).2 with ⟨left, recorded⟩
  rw [hleave] at hleft
  cases henter : left.enterCall? network limits none recorded with
  | none => exact hleft
  | some entered => exact hleft.enter henter

theorem Chained.settle (h : session.Chained network limits) (steps : Nat) (recorder : σ) :
    (session.settle network limits steps recorder).1.Chained network limits := by
  induction steps generalizing session recorder with
  | zero => exact h
  | succ steps ih =>
      rw [Session.settle]
      split
      · exact ih (h.settleStep recorder) _
      · exact h

theorem Chained.execute (h : session.Chained network limits) (symbols : List String)
    (recorder : σ) : (session.execute network limits symbols recorder).1.Chained network limits := by
  rw [Session.execute]
  induction symbols generalizing session recorder with
  | nil => exact h.settle _ _
  | cons symbol symbols ih => exact ih (h.input symbol recorder) _

theorem Chained.obey (h : session.Chained network limits) (recorder : σ) (command : Command) :
    (session.obey network limits recorder command).2.1.Chained network limits := by
  cases command with
  | input symbol => exact h.input symbol recorder
  | finish => exact h.settle _ recorder
  | execute symbols => exact h.execute symbols recorder
  | restart => exact chained_start network limits

/-! ### Sessions that arise -/

/-- The sessions that arise from the start: those that commands lead to, and those that commands come
through while they are carried out. The recorder may be another one each time. -/
inductive Arises (network : Network) (limits : Limits) : Session → Prop
  | start : Arises network limits (start network)
  | obey {session : Session} (h : Arises network limits session) {σ : Type} [Recorder σ]
      (recorder : σ) (command : Command) :
      Arises network limits (session.obey network limits recorder command).2.1
  | enter {session after : Session} (h : Arises network limits session) {σ : Type} [Recorder σ]
      {symbol : Option String} {recorder recorded : σ}
      (henter : session.enterCall? network limits symbol recorder = some (after, recorded)) :
      Arises network limits after
  | leave {session : Session} (h : Arises network limits session) {σ : Type} [Recorder σ]
      (recorder : σ) : Arises network limits (session.leaveCall recorder).1
  | apply {session : Session} (h : Arises network limits session) {σ : Type} [Recorder σ]
      (symbol : String) (recorder : σ) :
      Arises network limits (session.control (session.active.apply symbol recorder).2.1)
  | epsilon {session : Session} (h : Arises network limits session) {σ : Type} [Recorder σ]
      (recorder : σ) :
      Arises network limits (session.control (session.active.stepEpsilon recorder).1)

theorem Arises.chained (h : Arises network limits session) : session.Chained network limits := by
  induction h with
  | start => exact chained_start network limits
  | obey _ recorder command ih => exact ih.obey recorder command
  | enter _ henter ih => exact ih.enter henter
  | leave _ recorder ih => exact ih.leave recorder
  | apply _ symbol recorder ih => exact ih.apply symbol recorder
  | epsilon _ recorder ih => exact ih.epsilon recorder

/-- When a call is entered, the machine in control waits where the name of the callee leads back to that
very call. -/
def KeepsEntered (network : Network) (limits : Limits) (session : Session) : Prop :=
  ∀ {σ : Type} [Recorder σ] (symbol : Option String) (recorder recorded : σ) (after : Session),
    session.enterCall? network limits symbol recorder = some (after, recorded) →
      ∃ call, network.eligibleCall? symbol session.active.current.calls = some call ∧
        after.frames = session.active :: session.frames ∧
        session.active.current.call? after.active.machine = some call

/-- When the machine in control accepts, its caller finds the call it waits at and goes on behind it. -/
def ReturnsAlong (session : Session) : Prop :=
  ∀ frame frames, session.frames = frame :: frames → session.active.atAccept = true →
    ∃ call, frame.current.call? session.active.machine = some call ∧
      ∀ {σ : Type} [Recorder σ] (recorder : σ),
        (session.leaveCall recorder).1.active = ⟨frame.automaton, call.target⟩ ∧
        (session.leaveCall recorder).1.frames = frames ∧
        (session.leaveCall recorder).2 = record call.after frame.machine recorder

/-- Whatever has been asked of a session, and in the middle of it, its frames are a chain of calls; the
call of each frame is the one that was entered, and a return leads the caller along it. -/
theorem Arises.calls_chained (h : Arises network limits session) :
    session.Chained network limits ∧ session.KeepsEntered network limits ∧
      session.ReturnsAlong := by
  have hchained := h.chained
  refine ⟨hchained, ?_, ?_⟩
  · intro σ _ symbol recorder recorded after henter
    obtain ⟨call, callee, heligible, hcall, -, -, rfl⟩ := hchained.enterCall?_eq_some henter
    refine ⟨call, heligible, rfl, ?_⟩
    rw [active_control]
    exact hcall
  · intro frame frames hframes haccept
    obtain ⟨call, hcall⟩ := hchained.call? hframes
    refine ⟨call, hcall, fun recorder => ?_⟩
    rw [leaveCall_of_call? hframes haccept hcall, active_control]
    exact ⟨rfl, rfl, rfl⟩

/-- A machine that calls itself between brackets. The call stands there twice, and the second leads to a
state with no way out. -/
def brackets : Automaton :=
  let automaton := (((Automaton.single "A").addState "open").addState "shut").addState "lost"
  let automaton := automaton.setKind 2 .accept
  let automaton := automaton.addTransition { source := 0, target := 1, conditions := ["("] }
  let automaton := automaton.addTransition { source := 0, target := 2, conditions := ["x"] }
  let automaton := automaton.addCall { source := 1, target := 2, callee := "A" }
  automaton.addCall { source := 1, target := 3, callee := "A" }

def nested : Network where
  machines := [brackets]
  start := brackets
  start_mem := List.mem_cons_self
  names_nodup := by decide
  callee_mem := by decide
  callee_apart := by decide

/-- Behind two brackets and a word the machine has returned once, along the first of the two calls, and is
about to return to its outermost caller. -/
theorem nested_calls_chained :
    ∃ session, Arises nested {} session ∧
      session.callStack = [("A", "open")] ∧ session.active.atAccept = true ∧
      session.Chained nested {} ∧ session.KeepsEntered nested {} ∧ session.ReturnsAlong := by
  have harises : Arises nested {} _ :=
    .obey (.obey (.obey .start () (.input "(")) () (.input "(")) () (.input "x")
  exact ⟨_, harises, by cbv, by cbv, harises.calls_chained⟩

end Session

end TransitionNetwork
