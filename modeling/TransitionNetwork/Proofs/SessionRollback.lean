import TransitionNetwork.Proofs.SessionMoves
import Mathlib.Data.List.Permutation

/-! A rejected symbol leaves no trace. A session that does not consume a symbol sets control, frames and
the place of the machine in control back, but not the places of the machines it has tried. That these
make no difference is a bisimulation: sessions that show the same configuration answer every operation
alike and show the same configuration after it. -/

namespace TransitionNetwork.Session

/-- A session together with its recorder, as far as it shows. -/
def shown {σ : Type} (result : Session × σ) : Configuration σ := result.1.configuration result.2

/-! ### Sessions that show the same -/

theorem configuration_eq_iff {σ : Type} {left right : Session} {recorder recorder' : σ} :
    left.configuration recorder = right.configuration recorder' ↔
      left.active = right.active ∧ left.frames = right.frames ∧ recorder = recorder' := by
  simp only [configuration, Configuration.mk.injEq]

theorem configuration_control {σ : Type} {left right : Session}
    (hframes : left.frames = right.frames) (cursor : Cursor) (recorder : σ) :
    (left.control cursor).configuration recorder =
      (right.control cursor).configuration recorder := by
  rw [configuration_eq_iff, active_control, active_control, frames_control, frames_control]
  exact ⟨rfl, hframes, rfl⟩

theorem atError_congr {σ : Type} {left right : Session} {recorder recorder' : σ}
    (h : left.configuration recorder = right.configuration recorder') :
    left.atError = right.atError := by
  rw [atError, atError, (configuration_eq_iff.mp h).1]

variable {σ : Type} [Recorder σ] (network : Network) (limits : Limits)

theorem enterCall?_congr {left right : Session} {recorder recorder' : σ}
    (h : left.configuration recorder = right.configuration recorder') (symbol : Option String) :
    (left.enterCall? network limits symbol recorder).map shown =
      (right.enterCall? network limits symbol recorder').map shown := by
  obtain ⟨hactive, hframes, rfl⟩ := configuration_eq_iff.mp h
  rw [enterCall?, enterCall?, depth, depth, hactive, hframes]
  cases network.eligibleCall? symbol right.active.current.calls with
  | none => rfl
  | some call =>
      dsimp only
      by_cases hdepth : limits.maxCallDepth ≤ right.frames.length
      · rw [if_pos hdepth, if_pos hdepth]
      · rw [if_neg hdepth, if_neg hdepth]
        cases network.machine? call.callee with
        | none => rfl
        | some callee => exact congrArg some (configuration_control (by rfl) _ _)

theorem leaveCall_congr {left right : Session} {recorder recorder' : σ}
    (h : left.configuration recorder = right.configuration recorder') :
    shown (left.leaveCall recorder) = shown (right.leaveCall recorder') := by
  obtain ⟨hactive, hframes, rfl⟩ := configuration_eq_iff.mp h
  rw [leaveCall, leaveCall, hactive, hframes]
  cases right.frames with
  | nil => exact h
  | cons frame frames =>
      dsimp only
      by_cases haccept : right.active.atAccept = true
      · rw [if_pos haccept, if_pos haccept]
        exact configuration_control (by rfl) _ _
      · rw [if_neg haccept, if_neg haccept]
        exact h

theorem apply_congr {left right : Session} {recorder recorder' : σ}
    (h : left.configuration recorder = right.configuration recorder') (symbol : String) :
    left.active.apply symbol recorder = right.active.apply symbol recorder' := by
  obtain ⟨hactive, -, rfl⟩ := configuration_eq_iff.mp h
  rw [hactive]

theorem consume_congr {left right : Session} {recorder recorder' : σ}
    (h : left.configuration recorder = right.configuration recorder') (symbol : String)
    (attempts calls : Nat) :
    let result := left.consume network limits symbol attempts calls recorder
    let result' := right.consume network limits symbol attempts calls recorder'
    result.1 = result'.1 ∧ shown result.2 = shown result'.2 := by
  fun_induction left.consume network limits symbol attempts calls recorder
      generalizing right recorder' with
  | case1 attempts calls left recorder hbounds entered recorded henter after _ hleave ih =>
      rw [atError_congr h] at hbounds
      have hcongr := enterCall?_congr network limits h (some symbol)
      rw [henter, Option.map_some] at hcongr
      obtain ⟨⟨entered', recorded'⟩, henter', hshown⟩ := Option.map_eq_some_iff.mp hcongr.symm
      have hleft := leaveCall_congr hshown.symm
      rw [hleave] at hleft
      rw [consume_of_enterCall? hbounds henter']
      exact ih hleft
  | case2 attempts calls left recorder hbounds henter active recorded after _ hleave happly =>
      rw [atError_congr h] at hbounds
      have hcongr := enterCall?_congr network limits h (some symbol)
      rw [henter, Option.map_none] at hcongr
      have henter' := Option.map_eq_none_iff.mp hcongr.symm
      have hleft := leaveCall_congr
        (configuration_control (configuration_eq_iff.mp h).2.1 active recorded)
      rw [hleave] at hleft
      rw [apply_congr h] at happly
      rw [consume_of_apply hbounds henter' happly, if_pos rfl]
      exact ⟨rfl, hleft⟩
  | case3 attempts calls left recorder hbounds henter consumed active recorded happly after _ hleave
      hrejected ih =>
      rw [atError_congr h] at hbounds
      have hcongr := enterCall?_congr network limits h (some symbol)
      rw [henter, Option.map_none] at hcongr
      have henter' := Option.map_eq_none_iff.mp hcongr.symm
      have hleft := leaveCall_congr
        (configuration_control (configuration_eq_iff.mp h).2.1 active recorded)
      rw [hleave] at hleft
      rw [apply_congr h] at happly
      rw [consume_of_apply hbounds henter' happly, if_neg hrejected]
      exact ih hleft
  | case4 attempts calls left recorder hbounds =>
      rw [atError_congr h] at hbounds
      rw [consume, if_neg hbounds]
      exact ⟨rfl, h⟩

theorem input_congr {left right : Session} {recorder recorder' : σ}
    (h : left.configuration recorder = right.configuration recorder') (symbol : String) :
    let result := left.input network limits symbol recorder
    let result' := right.input network limits symbol recorder'
    result.1 = result'.1 ∧ shown result.2 = shown result'.2 := by
  obtain ⟨hactive, hframes, rfl⟩ := configuration_eq_iff.mp h
  have hmarked : left.configuration (Recorder.mark recorder).2 =
      right.configuration (Recorder.mark recorder).2 :=
    configuration_eq_iff.mpr ⟨hactive, hframes, rfl⟩
  obtain ⟨hanswer, hshown⟩ := consume_congr network limits hmarked symbol 0 0
  rcases hleft : left.consume network limits symbol 0 0 (Recorder.mark recorder).2 with
    ⟨consumed, after, recorded⟩
  rcases hright : right.consume network limits symbol 0 0 (Recorder.mark recorder).2 with
    ⟨consumed', after', recorded'⟩
  rw [hleft, hright] at hanswer hshown
  change consumed = consumed' at hanswer
  change after.configuration recorded = after'.configuration recorded' at hshown
  subst hanswer
  cases consumed with
  | true =>
      rw [input_of_consumed hleft, input_of_consumed hright]
      exact ⟨rfl, hshown⟩
  | false =>
      obtain ⟨-, -, rfl⟩ := configuration_eq_iff.mp hshown
      rw [input_of_rejected hleft, input_of_rejected hright, hactive]
      exact ⟨rfl, configuration_control (by exact hframes) _ _⟩

theorem settleStep_congr {left right : Session} {recorder recorder' : σ}
    (h : left.configuration recorder = right.configuration recorder') :
    shown (left.settleStep network limits recorder) =
      shown (right.settleStep network limits recorder') := by
  obtain ⟨hactive, hframes, rfl⟩ := configuration_eq_iff.mp h
  rw [settleStep, settleStep, hactive]
  dsimp only
  have hleave := leaveCall_congr (configuration_control hframes
    (right.active.stepEpsilon recorder).1 (right.active.stepEpsilon recorder).2)
  have henter := enterCall?_congr network limits hleave none
  rw [← Option.getD_map shown, ← Option.getD_map shown, henter]
  exact congrArg _ hleave

theorem settle_congr (steps : Nat) {left right : Session} {recorder recorder' : σ}
    (h : left.configuration recorder = right.configuration recorder') :
    shown (left.settle network limits steps recorder) =
      shown (right.settle network limits steps recorder') := by
  induction steps generalizing left right recorder recorder' with
  | zero => exact h
  | succ steps ih =>
      have hunsettled : left.unsettled network = right.unsettled network := by
        obtain ⟨hactive, hframes, -⟩ := configuration_eq_iff.mp h
        rw [unsettled, unsettled, hactive, hframes]
      rw [settle, settle, hunsettled]
      by_cases hgo : right.unsettled network = true
      · rw [if_pos hgo, if_pos hgo]
        exact ih (settleStep_congr network limits h)
      · rw [if_neg hgo, if_neg hgo]
        exact h

theorem execute_congr (symbols : List String) {left right : Session} {recorder recorder' : σ}
    (h : left.configuration recorder = right.configuration recorder') :
    shown (left.execute network limits symbols recorder) =
      shown (right.execute network limits symbols recorder') := by
  rw [execute, execute]
  induction symbols generalizing left right recorder recorder' with
  | nil => exact settle_congr network limits _ h
  | cons symbol symbols ih => exact ih (input_congr network limits h symbol).2

/-! ### Runs of operations -/

/-- What can be asked of a session. -/
inductive Command
  | input (symbol : String)
  | finish
  | execute (symbols : List String)
  | restart

/-- Carries a command out. The answer of an input is whether it was consumed, that of an execution
whether it was accepted. -/
def obey (network : Network) (limits : Limits) (session : Session) (recorder : σ) :
    Command → Option Bool × Session × σ
  | .input symbol =>
    let (consumed, after, recorded) := session.input network limits symbol recorder
    (some consumed, after, recorded)
  | .finish => (none, session.finish network limits recorder)
  | .execute symbols =>
    let (after, recorded) := session.execute network limits symbols recorder
    (some after.isAccepted, after, recorded)
  | .restart => (none, start network, recorder)

/-- The answers to a series of commands, each with what the session shows after it. -/
def responses (network : Network) (limits : Limits) (session : Session) (recorder : σ) :
    List Command → List (Option Bool × Configuration σ)
  | [] => []
  | command :: commands =>
    let (answer, after, recorded) := session.obey network limits recorder command
    (answer, after.configuration recorded) :: after.responses network limits recorded commands

theorem obey_congr (command : Command) {left right : Session} {recorder recorder' : σ}
    (h : left.configuration recorder = right.configuration recorder') :
    let result := left.obey network limits recorder command
    let result' := right.obey network limits recorder' command
    result.1 = result'.1 ∧ shown result.2 = shown result'.2 := by
  cases command with
  | input symbol =>
      obtain ⟨hanswer, hshown⟩ := input_congr network limits h symbol
      exact ⟨congrArg some hanswer, hshown⟩
  | finish => exact ⟨rfl, settle_congr network limits _ h⟩
  | execute symbols =>
      have hshown := execute_congr network limits symbols h
      obtain ⟨hactive, hframes, -⟩ := configuration_eq_iff.mp hshown
      refine ⟨?_, hshown⟩
      rw [obey, obey]
      dsimp only
      rw [isAccepted, isAccepted, hactive, hframes]
  | restart =>
      obtain ⟨-, -, rfl⟩ := configuration_eq_iff.mp h
      exact ⟨rfl, rfl⟩

/-- Sessions that show the same configuration cannot be told apart. -/
theorem responses_congr (commands : List Command) {left right : Session} {recorder recorder' : σ}
    (h : left.configuration recorder = right.configuration recorder') :
    left.responses network limits recorder commands =
      right.responses network limits recorder' commands := by
  induction commands generalizing left right recorder recorder' with
  | nil => rfl
  | cons command commands ih =>
      obtain ⟨hanswer, hshown⟩ := obey_congr network limits command h
      rw [responses, responses]
      exact congrArg₂ List.cons (Prod.ext hanswer hshown) (ih hshown)

/-! ### Rejected symbols -/

/-- If the symbol is rejected, then the session shows what it showed before, the recorder is the same
as before, and no later series of commands can tell that the symbol was tried. -/
def LeavesNoTrace (session : Session) (symbol : String) (recorder : σ) : Prop :=
  ∀ after recorded, session.input network limits symbol recorder = (false, after, recorded) →
    after.active = session.active ∧ after.frames = session.frames ∧ recorded = recorder ∧
      ∀ commands, after.responses network limits recorded commands =
        session.responses network limits recorder commands

theorem leavesNoTrace_of_rewinds (session : Session) (symbol : String) {recorder : σ}
    (hrewinds : Recorder.Rewinds recorder) :
    LeavesNoTrace network limits session symbol recorder := by
  intro after recorded h
  rcases hconsume : session.consume network limits symbol 0 0 (Recorder.mark recorder).2 with
    ⟨consumed, tried, recorded'⟩
  cases consumed with
  | true =>
      rw [input_of_consumed hconsume] at h
      cases h
  | false =>
      have hmoves := attempt_consume network limits symbol 0 0 session (Recorder.mark recorder).2
      rw [hconsume] at hmoves
      have hback : Recorder.rewind (Recorder.mark recorder).1 recorded' = recorder :=
        hrewinds recorded' (Configuration.Moves.performs hmoves)
      rw [input_of_rejected hconsume, hback] at h
      simp only [Prod.mk.injEq, true_and] at h
      obtain ⟨rfl, rfl⟩ := h
      refine ⟨active_control _ _, frames_control _ _, rfl, fun commands => ?_⟩
      apply responses_congr
      rw [configuration_eq_iff]
      exact ⟨active_control _ _, frames_control _ _, rfl⟩

/-- A rejected symbol leaves no trace, whether the actions go to a builder or to a log. -/
theorem rejected_input_leavesNoTrace (session : Session) (symbol : String) :
    (∀ builder : Builder, builder.Reachable →
        LeavesNoTrace network limits session symbol builder) ∧
      ∀ log : Log, LeavesNoTrace network limits session symbol log :=
  ⟨fun _ hreachable => leavesNoTrace_of_rewinds network limits session symbol hreachable.valid.rewinds,
    fun log => leavesNoTrace_of_rewinds network limits session symbol log.rewinds⟩

/-- Machine `A` calls machine `B`, which accepts without a symbol; after that nothing is left to do. -/
def detour : Network where
  machines := [
    ((Automaton.single "A").addState "end").addCall { source := 0, target := 1, callee := "B" },
    (((Automaton.single "B").addState "end").setKind 1 .accept).setEpsilon 0 1]
  start := ((Automaton.single "A").addState "end").addCall { source := 0, target := 1, callee := "B" }
  start_mem := List.mem_cons_self
  names_nodup := by decide
  callee_mem := by decide
  callee_apart := by decide

/-- The symbol is tried in both machines, and the second does not come back to where it stood. -/
theorem detour_leavesNoTrace :
    ∃ after recorded,
      (start detour).input detour {} "x" (Builder.start "A") = (false, after, recorded) ∧
        after.places ≠ (start detour).places ∧
        after.active = (start detour).active ∧ after.frames = [] ∧ recorded = Builder.start "A" ∧
        ∀ commands, after.responses detour {} recorded commands =
          (start detour).responses detour {} (Builder.start "A") commands := by
  have hrejected : ((start detour).input detour {} "x" (Builder.start "A")).1 = false := by cbv
  have hplaces : ((start detour).input detour {} "x" (Builder.start "A")).2.1.places =
      [("A", 0), ("B", 1)] := by cbv
  refine ⟨_, _, Prod.ext hrejected rfl, ?_, ?_⟩
  · rw [hplaces]
    exact List.cons_ne_nil _ _
  · exact (rejected_input_leavesNoTrace detour {} (start detour) "x").1 (Builder.start "A")
      (.start "A") _ _ (Prod.ext hrejected rfl)

end TransitionNetwork.Session
