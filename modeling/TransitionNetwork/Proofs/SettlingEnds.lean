import TransitionNetwork.Proofs.CallChain
import TransitionNetwork.Proofs.TriePaths
import Mathlib.Algebra.GroupWithZero.Nat
import Mathlib.Data.List.MinMax

/-! Settling ends by itself. A step of settling may go forward in the machine in control, come back to a
caller behind the call that it waits at, or open one more call, so neither the open calls nor the states
alone say how much is left to do. Read a session as a number instead, with a digit for each call that may be
open and the outermost machine first: the digit of a machine says how far it is from its end, and where no
machine is at work the digit is larger than all of these. A machine that goes forward lowers its digit, and
only digits behind it are reset; a machine that is entered takes the place of a larger digit. This needs
machines that go forward (`Network.Advances`), and those of a compiled grammar do, since each symbol of a
right-hand side leads to a longer beginning. -/

namespace TransitionNetwork

/-- Every epsilon move and every call leads a machine of the network to a higher rank, and no rank is above
the bound. -/
structure Network.Advances (network : Network) (rank : Cursor → Nat) (bound : Nat) : Prop where
  rank_le : ∀ cursor, network.Holds cursor → rank cursor ≤ bound
  epsilon : ∀ cursor, network.Holds cursor → ∀ epsilon, cursor.current.epsilon = some epsilon →
    rank cursor < rank ⟨cursor.automaton, epsilon.target⟩
  call : ∀ cursor, network.Holds cursor → ∀ call ∈ cursor.current.calls,
    rank cursor < rank ⟨cursor.automaton, call.target⟩

/-! ### The number of a configuration -/

namespace Configuration

/-- The digits of machines, the innermost first; there is room for so many machines inside of it. -/
def owed (rank : Cursor → Nat) (bound : Nat) : Nat → List Cursor → Nat
  | _, [] => 0
  | room, cursor :: cursors =>
    (bound - rank cursor) * (bound + 2) ^ room + owed rank bound (room + 1) cursors

variable {σ : Type}

/-- The digits of the machines at work and, up to one, the largest digits for those inside of them that
may still be entered. -/
def potential (rank : Cursor → Nat) (bound : Nat) (limits : Limits) (configuration : Configuration σ) :
    Nat :=
  let room := limits.maxCallDepth - configuration.frames.length
  owed rank bound room (configuration.active :: configuration.frames) + (bound + 2) ^ room

/-- The calls are a chain, and no more of them are open than may be. -/
def Linked (network : Network) (limits : Limits) (configuration : Configuration σ) : Prop :=
  network.CallChain configuration.active configuration.frames ∧
    configuration.frames.length ≤ limits.maxCallDepth

variable {rank : Cursor → Nat} {bound : Nat} {network : Network} {limits : Limits}
  {symbol : Option String} {before after : Configuration σ}

theorem potential_pos (configuration : Configuration σ) :
    0 < configuration.potential rank bound limits :=
  Nat.add_pos_right _ (Nat.pow_pos (Nat.succ_pos _))

variable (rank bound) in
theorem owed_add_le (room : Nat) (cursors : List Cursor) :
    owed rank bound room cursors + (bound + 2) ^ room ≤ (bound + 2) ^ (room + cursors.length) := by
  induction cursors generalizing room with
  | nil => simp [owed]
  | cons cursor cursors ih =>
      have hdigit : (bound - rank cursor) * (bound + 2) ^ room + (bound + 2) ^ room ≤
          (bound + 2) ^ (room + 1) := by
        rw [← Nat.succ_mul, Nat.pow_succ']
        exact Nat.mul_le_mul_right _ (by omega)
      have hrest := ih (room + 1)
      rw [List.length_cons, owed, show room + (cursors.length + 1) = room + 1 + cursors.length by omega]
      omega

/-- There are no more digits than machines that may be at work. -/
theorem Linked.potential_le (h : before.Linked network limits) :
    before.potential rank bound limits ≤ (bound + 2) ^ (limits.maxCallDepth + 1) := by
  have hbound := owed_add_le rank bound (limits.maxCallDepth - before.frames.length)
    (before.active :: before.frames)
  have hdepth := h.2
  rwa [List.length_cons, show limits.maxCallDepth - before.frames.length + (before.frames.length + 1) =
    limits.maxCallDepth + 1 by omega] at hbound

variable [Recorder σ]

theorem Move.linked (hmove : Move network limits symbol before after)
    (h : before.Linked network limits) : after.Linked network limits := by
  obtain ⟨hchain, hdepth⟩ := h
  cases hmove with
  | @enter active frames recorder call callee heligible hroom hcallee =>
      obtain ⟨hmem, hname⟩ := Network.mem_of_machine? hcallee
      have hcall := (hchain.holds _ List.mem_cons_self).call? heligible
      rw [← hname] at hcall
      exact ⟨hchain.enter hmem (Option.isSome_of_eq_some hcall), hroom⟩
  | @leave active frame frames recorder call haccept hcall =>
      have htarget := State.target_mem_of_call (List.mem_of_find?_eq_some hcall)
      exact ⟨hchain.leave.move rfl (frame.automaton.target_lt_size htarget), Nat.le_of_succ_le hdepth⟩
  | dismiss _ hcall =>
      obtain ⟨call, hfound⟩ := hchain.call?
      rw [hcall] at hfound
      cases hfound
  | @epsilon active frames recorder epsilon hepsilon =>
      have htarget := State.target_mem_of_epsilon hepsilon
      exact ⟨hchain.move rfl (active.automaton.target_lt_size htarget), hdepth⟩

/-- A machine that goes forward lowers its digit by at least one. -/
theorem digit_lt {lower higher : Nat} (hlt : lower < higher) (hle : higher ≤ bound) (room : Nat) :
    (bound - higher) * (bound + 2) ^ room + (bound + 2) ^ room ≤ (bound - lower) * (bound + 2) ^ room := by
  rw [← Nat.succ_mul]
  exact Nat.mul_le_mul_right _ (by omega)

/-- Every move lowers the number. -/
theorem Move.potential_lt (hadvances : network.Advances rank bound)
    (hmove : Move network limits symbol before after) (h : before.Linked network limits) :
    after.potential rank bound limits < before.potential rank bound limits := by
  have hlinked := hmove.linked h
  obtain ⟨hchain, hdepth⟩ := h
  have hpos : ∀ room, 0 < (bound + 2) ^ room := fun room => Nat.pow_pos (Nat.succ_pos _)
  cases hmove with
  | @enter active frames recorder call callee heligible hroom hcallee =>
      obtain ⟨room, hsub⟩ : ∃ room, limits.maxCallDepth - frames.length = room + 1 :=
        ⟨limits.maxCallDepth - frames.length - 1, by omega⟩
      have hdigit : (bound - rank (.start callee)) * (bound + 2) ^ room + (bound + 2) ^ room <
          (bound + 2) ^ (room + 1) := by
        rw [← Nat.succ_mul, Nat.pow_succ']
        exact Nat.mul_lt_mul_of_pos_right (by omega) (hpos room)
      simp only [potential, owed, List.length_cons, Nat.sub_add_eq, hsub, Nat.add_sub_cancel]
      omega
  | @leave active frame frames recorder call haccept hcall =>
      have hframe := hchain.holds frame (by simp)
      have hforward := hadvances.call frame hframe call (List.mem_of_find?_eq_some hcall)
      have hbound := hadvances.rank_le _ (hlinked.1.holds _ List.mem_cons_self)
      obtain ⟨room, hsub⟩ : ∃ room, limits.maxCallDepth - (frames.length + 1) = room := ⟨_, rfl⟩
      have hroom : limits.maxCallDepth - frames.length = room + 1 := by
        rw [List.length_cons] at hdepth
        omega
      have hdigit := digit_lt hforward hbound (room + 1)
      have hunit := hpos room
      simp only [potential, owed, List.length_cons, hsub, hroom]
      omega
  | dismiss _ hcall =>
      obtain ⟨call, hfound⟩ := hchain.call?
      rw [hcall] at hfound
      cases hfound
  | @epsilon active frames recorder epsilon hepsilon =>
      have hforward := hadvances.epsilon active (hchain.holds _ List.mem_cons_self) epsilon hepsilon
      have hbound := hadvances.rank_le _ (hlinked.1.holds _ List.mem_cons_self)
      have hdigit := digit_lt hforward hbound (limits.maxCallDepth - frames.length)
      have hunit := hpos (limits.maxCallDepth - frames.length)
      simp only [potential, owed]
      omega

end Configuration

namespace Session

variable {σ : Type} {rank : Cursor → Nat} {bound : Nat} {network : Network} {limits : Limits}
  {session : Session}

/-! ### What a step of settling does -/

theorem Chained.linked (h : session.Chained network limits) (recorder : σ) :
    (session.configuration recorder).Linked network limits :=
  ⟨h.chain, h.depth_le⟩

theorem control_control (session : Session) (cursor : Cursor) :
    (session.control cursor).control cursor = session.control cursor := by
  simp only [control, Dictionary.insert_insert]

theorem configuration_control_active (session : Session) (recorder : σ) :
    (session.control session.active).configuration recorder = session.configuration recorder := by
  rw [configuration_eq_iff, active_control, frames_control]
  exact ⟨rfl, rfl, rfl⟩

variable [Recorder σ]

theorem stepEpsilon_cases (hadvances : network.Advances rank bound)
    (h : session.Chained network limits) (recorder : σ) :
    let (active, recorded) := session.active.stepEpsilon recorder
    (active, recorded) = (session.active, recorder) ∨
      ((session.control active).configuration recorded).potential rank bound limits <
        (session.configuration recorder).potential rank bound limits := by
  rw [Cursor.stepEpsilon]
  cases hepsilon : session.active.current.epsilon with
  | none => exact .inl rfl
  | some epsilon =>
      have hmove : Configuration.Move network limits none (session.configuration recorder) _ :=
        .epsilon hepsilon
      refine .inr ?_
      rw [configuration, active_control, frames_control]
      exact hmove.potential_lt hadvances (h.linked recorder)

theorem leaveCall_cases (hadvances : network.Advances rank bound)
    (h : session.Chained network limits) (recorder : σ) :
    session.leaveCall recorder = (session, recorder) ∨
      (shown (session.leaveCall recorder)).potential rank bound limits <
        (session.configuration recorder).potential rank bound limits := by
  cases hframes : session.frames with
  | nil => exact .inl (leaveCall_of_nil hframes recorder)
  | cons frame frames =>
      cases haccept : session.active.atAccept with
      | false => exact .inl (leaveCall_of_not_atAccept haccept recorder)
      | true =>
          obtain ⟨call, hcall⟩ := h.call? hframes
          have hmove : Configuration.Move network limits none
              ⟨session.active, frame :: frames, recorder⟩ _ := .leave haccept hcall
          have hlinked := h.linked recorder
          rw [configuration, hframes] at hlinked
          rw [leaveCall_of_call? hframes haccept hcall, shown, configuration, configuration,
            active_control, frames_control, hframes]
          exact .inr (hmove.potential_lt hadvances hlinked)

theorem enterCall?_cases (hadvances : network.Advances rank bound)
    (h : session.Chained network limits) (recorder : σ) :
    let result := (session.enterCall? network limits none recorder).getD (session, recorder)
    result = (session, recorder) ∨ (shown result).potential rank bound limits <
      (session.configuration recorder).potential rank bound limits := by
  cases henter : session.enterCall? network limits none recorder with
  | none => exact .inl rfl
  | some entered => exact .inr ((move_of_enterCall? henter).potential_lt hadvances (h.linked recorder))

/-- A step of settling finds nothing to do, or it lowers the number. -/
theorem settleStep_cases (hadvances : network.Advances rank bound)
    (h : session.Chained network limits) (recorder : σ) :
    session.settleStep network limits recorder = (session.control session.active, recorder) ∨
      (shown (session.settleStep network limits recorder)).potential rank bound limits <
        (session.configuration recorder).potential rank bound limits := by
  have hepsilon := stepEpsilon_cases hadvances h recorder
  have hchained := h.epsilon recorder
  rcases hstep : session.active.stepEpsilon recorder with ⟨active, recorded⟩
  rw [hstep] at hepsilon hchained
  have hleave := leaveCall_cases hadvances hchained recorded
  have hleft := hchained.leave recorded
  rcases hreturn : (session.control active).leaveCall recorded with ⟨left, recorded'⟩
  rw [hreturn] at hleave hleft
  have henter := enterCall?_cases hadvances hleft recorded'
  have hresult : session.settleStep network limits recorder =
      (left.enterCall? network limits none recorded').getD (left, recorded') := by
    rw [settleStep, hstep]
    dsimp only
    rw [hreturn]
  rw [hresult]
  have hepsilon_le : ((session.control active).configuration recorded).potential rank bound limits ≤
      (session.configuration recorder).potential rank bound limits := by
    rcases hepsilon with hstay | hlower
    · cases hstay
      rw [configuration_control_active]
    · exact Nat.le_of_lt hlower
  have hleave_le : (left.configuration recorded').potential rank bound limits ≤
      ((session.control active).configuration recorded).potential rank bound limits := by
    rcases hleave with hstay | hlower
    · cases hstay
      exact Nat.le_refl _
    · exact Nat.le_of_lt hlower
  rcases henter with hstay | hlower
  · rw [hstay]
    rcases hleave with hstay' | hlower
    · cases hstay'
      rcases hepsilon with hstay' | hlower
      · cases hstay'
        exact .inl rfl
      · exact .inr hlower
    · exact .inr (Nat.lt_of_lt_of_le hlower hepsilon_le)
  · exact .inr (Nat.lt_of_lt_of_le hlower (Nat.le_trans hleave_le hepsilon_le))

/-! ### Steps without end -/

/-- One step of settling, for a session with its recorder. -/
def settling (network : Network) (limits : Limits) (result : Session × σ) : Session × σ :=
  result.1.settleStep network limits result.2

/-- Where a step finds nothing to do, no later step finds anything. -/
theorem settling_of_idle (hadvances : network.Advances rank bound)
    (h : session.Chained network limits) {recorder : σ}
    (hidle : session.settleStep network limits recorder =
      (session.control session.active, recorder)) :
    settling network limits (session.control session.active, recorder) =
      (session.control session.active, recorder) := by
  have hchained : (session.control session.active).Chained network limits :=
    h.control h.chain h.depth_le
  rcases settleStep_cases hadvances hchained recorder with hstay | hlower
  · rw [active_control, control_control] at hstay
    exact hstay
  · rw [settleStep_congr network limits (configuration_control_active session recorder), hidle,
      shown] at hlower
    exact absurd hlower (Nat.lt_irrefl _)

/-- The number of a session bounds the steps that it can take. -/
theorem Chained.exists_settled (hadvances : network.Advances rank bound)
    (h : session.Chained network limits) (recorder : σ) :
    ∃ steps ≤ (session.configuration recorder).potential rank bound limits,
      settling network limits ((settling network limits)^[steps] (session, recorder)) =
        (settling network limits)^[steps] (session, recorder) := by
  -- the induction is on the number, which every step lowers until nothing is left to do
  generalize hnumber : (session.configuration recorder).potential rank bound limits = number
  induction number using Nat.strong_induction_on generalizing session recorder with
  | _ number ih =>
      subst hnumber
      rcases settleStep_cases hadvances h recorder with hidle | hlower
      · have hfixed := settling_of_idle hadvances h hidle
        rw [← hidle] at hfixed
        exact ⟨1, Configuration.potential_pos _, hfixed⟩
      · obtain ⟨steps, hsteps, hfixed⟩ := ih _ hlower (h.settleStep recorder) _ rfl
        exact ⟨steps + 1, Nat.lt_of_le_of_lt hsteps hlower, hfixed⟩

/-! ### Steps within a limit -/

/-- At a settled session a step has nothing to do. -/
theorem settleStep_of_settled (h : session.unsettled network = false) (recorder : σ) :
    session.settleStep network limits recorder = (session.control session.active, recorder) := by
  rw [unsettled, Bool.or_eq_false_iff, Bool.or_eq_false_iff, Option.isSome_eq_false_iff,
    Option.isSome_eq_false_iff, Option.isNone_iff_eq_none, Option.isNone_iff_eq_none] at h
  obtain ⟨⟨hepsilon, hcalls⟩, hreturn⟩ := h
  have hleave : (session.control session.active).leaveCall recorder =
      (session.control session.active, recorder) := by
    cases hframes : session.frames with
    | nil => exact leaveCall_of_nil (by rw [frames_control, hframes]) recorder
    | cons frame frames =>
        rw [hframes] at hreturn
        have haccept : session.active.atAccept = false := hreturn
        exact leaveCall_of_not_atAccept (by rw [active_control, haccept]) recorder
  rw [settleStep, Cursor.stepEpsilon, hepsilon]
  dsimp only
  rw [hleave]
  dsimp only
  rw [enterCall?_of_none (by rw [active_control, hcalls])]
  rfl

/-- A settled session stays as it is, as far as it shows. -/
theorem shown_iterate_of_settled (h : session.unsettled network = false) (recorder : σ) (steps : Nat) :
    shown ((settling network limits)^[steps] (session, recorder)) =
      session.configuration recorder := by
  induction steps generalizing session with
  | zero => rfl
  | succ steps ih =>
      have hsettled : (session.control session.active).unsettled network = false := by
        rw [unsettled, active_control, frames_control]
        exact h
      rw [Function.iterate_succ_apply, settling, settleStep_of_settled h, ih hsettled,
        configuration_control_active]

/-- Settling within a limit shows what so many steps show, whether it stops before or not. -/
theorem shown_settle (steps : Nat) (session : Session) (recorder : σ) :
    shown (session.settle network limits steps recorder) =
      shown ((settling network limits)^[steps] (session, recorder)) := by
  induction steps generalizing session recorder with
  | zero => rfl
  | succ steps ih =>
      rw [settle]
      split
      · exact ih _ _
      · next hsettled =>
        rw [Bool.not_eq_true] at hsettled
        exact (shown_iterate_of_settled hsettled recorder _).symm

/-- Settling goes no further where a step changes nothing. -/
theorem settle_of_fixed {recorder : σ}
    (h : settling network limits (session, recorder) = (session, recorder)) (steps : Nat) :
    session.settle network limits steps recorder = (session, recorder) := by
  induction steps with
  | zero => rfl
  | succ steps ih =>
      have hstep : session.settleStep network limits recorder = (session, recorder) := h
      rw [settle, hstep]
      split
      · exact ih
      · rfl

/-- A limit that steps without end would keep to may be any larger. -/
theorem settle_add_of_fixed {steps : Nat} {recorder : σ}
    (h : settling network limits ((settling network limits)^[steps] (session, recorder)) =
      (settling network limits)^[steps] (session, recorder)) (more : Nat) :
    session.settle network limits (steps + more) recorder =
      session.settle network limits steps recorder := by
  induction steps generalizing session recorder with
  | zero =>
      rw [Nat.zero_add]
      exact settle_of_fixed h more
  | succ steps ih =>
      rw [Nat.succ_add, settle, settle]
      split
      · exact ih h
      · rfl

/-- The limit on the steps is not read within a step. -/
theorem finish_eq_settle (network : Network) (limits : Limits) (steps : Nat) (session : Session)
    (recorder : σ) :
    session.finish network { limits with maxSettleSteps := steps } recorder =
      session.settle network limits steps recorder := by
  have hsettle : ∀ (bound count : Nat) (session : Session) (recorder : σ),
      session.settle network { limits with maxSettleSteps := bound } count recorder =
        session.settle network limits count recorder := by
    intro bound count
    induction count with
    | zero => exact fun _ _ => rfl
    | succ count ih =>
        intro session recorder
        rw [settle, settle]
        split
        · exact ih _ _
        · rfl
  exact hsettle steps steps session recorder

end Session

namespace Grammar

variable {grammar : Grammar} {compiled : GrammarNetwork}

/-! ### Machines of a compiled grammar go forward -/

/-- The length of the longest right-hand side. -/
def longest (grammar : Grammar) : Nat :=
  (grammar.rules.map fun rule => rule.body.length).foldr max 0

theorem length_body_le {rule : Rule} (h : rule ∈ grammar.rules) :
    rule.body.length ≤ grammar.longest :=
  List.le_max_of_le' 0 (List.mem_map_of_mem h) (Nat.le_refl _)

/-- How far a machine is: the length of what is read of a right-hand side, and more at the end. -/
noncomputable def progress (grammar : Grammar) (cursor : Cursor) : Nat :=
  if cursor.state = Trie.final ∨ cursor.state = Trie.error then grammar.longest + 1
  else (grammar.word cursor.machine cursor.state).length

theorem length_word_le {name : String} {state : Nat}
    (h : Trie.Inside (grammar.machine name) state) :
    (grammar.word name state).length ≤ grammar.longest := by
  by_cases hnil : grammar.word name state = []
  · rw [hnil]
    exact Nat.zero_le _
  · obtain ⟨rule, hrule, hbegins⟩ := begins_of_locate? hnil (locate?_word h)
    exact Nat.le_trans hbegins.length_le (length_body_le (mem_rulesFor.mp hrule).1)

theorem progress_of_inside {cursor : Cursor}
    (h : Trie.Inside (grammar.machine cursor.machine) cursor.state) :
    grammar.progress cursor = (grammar.word cursor.machine cursor.state).length :=
  if_neg (not_or.mpr h.2)

/-- Each call of a state leads to a word that is longer by the callee, and each epsilon move to the end. -/
theorem Describes.advances {start : String} {network : Network}
    (hnetwork : grammar.Describes start network) :
    network.Advances grammar.progress (grammar.longest + 1) where
  rank_le := by
    intro cursor hholds
    have hmachine := hnetwork.machine_eq _ hholds.1
    rw [progress]
    split
    · exact Nat.le_refl _
    · next hinside =>
      refine Nat.le_succ_of_le (length_word_le ⟨?_, not_or.mp hinside⟩)
      rw [Cursor.machine, ← hmachine]
      exact hholds.2
  epsilon := by
    intro cursor hholds epsilon hepsilon
    have hmachine := hnetwork.machine_eq _ hholds.1
    have hinside := inside_of_move hmachine hholds.2 (.inr (.inr (by simp [hepsilon])))
    have hend : grammar.progress ⟨cursor.automaton, epsilon.target⟩ = grammar.longest + 1 :=
      if_pos (.inl (eq_final_of_epsilon hmachine hepsilon))
    rw [hend, progress_of_inside hinside]
    exact Nat.lt_succ_of_le (length_word_le hinside)
  call := by
    intro cursor hholds call hcall
    have hmachine := hnetwork.machine_eq _ hholds.1
    have hinside := inside_of_move hmachine hholds.2 (.inr (.inl (List.ne_nil_of_mem hcall)))
    have hbehind := error_lt_of_call hmachine hcall
    have htarget : grammar.progress ⟨cursor.automaton, call.target⟩ =
        (grammar.word cursor.machine call.target).length := by
      refine if_neg (not_or.mpr ⟨?_, Nat.ne_of_gt hbehind⟩)
      exact Nat.ne_of_gt (Nat.lt_trans (by decide) hbehind)
    have hreads := (grammar.spells_word cursor.machine).reads cursor.state hinside.2.1 hinside.2.2
    have hcalled : call ∈ ((grammar.machine cursor.machine).state cursor.state).calls := by
      rw [Cursor.machine, ← hmachine]
      exact hcall
    rw [htarget, progress_of_inside hinside, (hreads.call call hcalled).2.2.2, List.length_append]
    exact Nat.lt_succ_self _

end Grammar

namespace Session

variable {σ : Type} [Recorder σ] {grammar : Grammar} {compiled : GrammarNetwork} {limits : Limits}
  {session : Session}

/-- On a compiled grammar steps of settling come to a session that further steps leave as it is, after no
more steps than there are numbers with a digit for each machine that may be at work. From so many steps on,
the limit on settling makes no difference. -/
theorem Arises.settling_ends (hcompile : grammar.compile = .ok compiled)
    (h : Arises compiled.network limits session) (recorder : σ) :
    ∃ steps ≤ (grammar.longest + 3) ^ (limits.maxCallDepth + 1),
      settling compiled.network limits ((settling compiled.network limits)^[steps] (session, recorder)) =
        (settling compiled.network limits)^[steps] (session, recorder) ∧
      ∀ more ≥ steps,
        session.finish compiled.network { limits with maxSettleSteps := more } recorder =
          session.finish compiled.network { limits with maxSettleSteps := steps } recorder ∧
        shown (session.finish compiled.network { limits with maxSettleSteps := more } recorder) =
          shown ((settling compiled.network limits)^[steps] (session, recorder)) := by
  have hadvances := (Grammar.describes_of_compile hcompile).2.advances
  obtain ⟨steps, hsteps, hfixed⟩ := h.chained.exists_settled hadvances recorder
  refine ⟨steps, Nat.le_trans hsteps (h.chained.linked recorder).potential_le, hfixed, ?_⟩
  intro more hmore
  obtain ⟨extra, rfl⟩ := Nat.exists_eq_add_of_le hmore
  rw [finish_eq_settle, finish_eq_settle, settle_add_of_fixed hfixed]
  exact ⟨rfl, shown_settle steps session recorder⟩

/-- Behind a word, a call whose machine goes past two other calls without a symbol. -/
def trailing : Grammar where
  start := some "S"
  nonterminals := ["S", "X", "Y", "Z"]
  terminals := ["a", "y", "z"]
  rules := [⟨"S", [.terminal "a", .nonterminal "X"]⟩, ⟨"X", [.nonterminal "Y", .nonterminal "Z"]⟩,
    ⟨"Y", [.terminal "y"]⟩, ⟨"Y", [.epsilon]⟩, ⟨"Z", [.terminal "z"]⟩, ⟨"Z", [.epsilon]⟩]

/-- Room for the two calls that are open at once. -/
def twoCalls : Limits := { maxCallDepth := 2 }

/-- Behind the word the session is not settled, and no more than `5 ^ 3` steps can be taken. -/
theorem trailing_settling_ends :
    ∃ compiled session, trailing.compile = .ok compiled ∧ Arises compiled.network twoCalls session ∧
      session.unsettled compiled.network = true ∧
      ∃ steps ≤ 125,
        settling compiled.network twoCalls
            ((settling compiled.network twoCalls)^[steps] (session, ())) =
          (settling compiled.network twoCalls)^[steps] (session, ()) ∧
        ∀ more ≥ steps,
          session.finish compiled.network { twoCalls with maxSettleSteps := more } () =
            session.finish compiled.network { twoCalls with maxSettleSteps := steps } () ∧
          shown (session.finish compiled.network { twoCalls with maxSettleSteps := more } ()) =
            shown ((settling compiled.network twoCalls)^[steps] (session, ())) := by
  have hok : (match trailing.compile with
      | .ok compiled =>
        ((start compiled.network).input compiled.network twoCalls "a" ()).2.1.unsettled
          compiled.network
      | .error _ => false) = true := by cbv
  split at hok
  · next compiled hcompile =>
    have harises : Arises compiled.network twoCalls _ := .obey .start () (.input "a")
    exact ⟨compiled, _, hcompile, harises, hok, harises.settling_ends hcompile ()⟩
  · cases hok

end Session

end TransitionNetwork
