import TransitionNetwork.Analyser
import TransitionNetwork.Proofs.SessionRollback

/-! What an analyser does with a token. A token that is consumed makes the session attempt its category
with the token at hand, a token that is not consumed changes nothing but the token that the builder
holds, and settling makes moves without a symbol. Whatever was analysed before, an analyser that is reset
is as good as new; and analysers that show the same treat every token alike. -/

namespace TransitionNetwork

/-! ### Clearing a tree -/

namespace Tree

variable {tree : Tree}

theorem clear_eq_iff (h : 0 < tree.nodes.length) (label : String) :
    tree.clear = single label ↔
      (tree.node root).label = label ∧ (tree.node root).token = none ∧
        (tree.node root).parent = none := by
  obtain ⟨nodes⟩ := tree
  cases nodes with
  | nil => exact absurd h (Nat.lt_irrefl 0)
  | cons node nodes => simp [clear, single, Tree.node, root]

theorem clear_addChild {label : String} (h : tree.clear = single label) {parent : Nat}
    (hparent : parent < tree.nodes.length) (added : String) (token : Option Token) :
    (tree.addChild parent added token).1.clear = single label := by
  have hpos := Nat.zero_lt_of_lt hparent
  rw [clear_eq_iff hpos] at h
  have hpos' : 0 < (tree.addChild parent added token).1.nodes.length := by
    rw [length_addChild]
    exact Nat.succ_pos _
  have hne : root ≠ tree.nodes.length := Nat.ne_of_lt hpos
  rw [clear_eq_iff hpos', node_addChild hparent, if_neg hne]
  split
  · next hroot =>
    rw [← hroot]
    exact h
  · exact h

theorem WellFormed.clear_detach {label : String} (hwf : tree.WellFormed)
    (h : tree.clear = single label) {index parent : Nat}
    (hparent : tree.parent? index = some parent) :
    (tree.detach index).1.clear = single label := by
  have hpos := Nat.zero_lt_of_lt hwf.root_lt
  rw [clear_eq_iff hpos] at h
  have hpos' : 0 < (tree.detach index).1.nodes.length := by
    rw [hwf.length_detach hparent]
    exact hpos
  rw [clear_eq_iff hpos', hwf.node_detach hparent]
  split
  · next hroot =>
    rw [← hroot]
    exact h
  · split
    · next hroot =>
      rw [← hroot]
      exact ⟨h.1, h.2.1, rfl⟩
    · exact h

end Tree

namespace Builder

theorem clear_perform {builder : Builder} (hvalid : builder.Valid) {label : String}
    (h : builder.tree.clear = .single label) (action : Action) (machine : String) :
    (builder.perform action machine).tree.clear = .single label := by
  have hplaced := hvalid.placed
  cases action with
  | leaf =>
      rw [perform, appendLeaf]
      split
      · exact h
      · exact Tree.clear_addChild h hplaced.2 _ _
  | descend => exact Tree.clear_addChild h hplaced.2 _ _
  | ascend =>
      rw [perform]
      rcases ascend_cases hplaced.1 with
        ⟨-, heq⟩ | ⟨parent, hparent, ⟨-, heq⟩ | ⟨place, -, -, heq⟩⟩
      · rw [heq]
        exact h
      · rw [heq]
        exact h
      · rw [heq]
        exact hplaced.1.clear_detach h hparent

theorem clear_performs {before after : Builder} (hvalid : before.Valid) {label : String}
    (hclear : before.tree.clear = .single label) (h : Recorder.Performs before after) :
    after.tree.clear = .single label := by
  induction h with
  | refl => exact hclear
  | tail hsteps hstep ih =>
      obtain ⟨action, machine, rfl⟩ := hstep
      exact clear_perform ((hvalid.of_performs hsteps).valid hvalid) ih action machine

end Builder

namespace Analyser

open Session TransitionNetwork.Configuration

/-- What the session shows, with the builder. -/
def configuration (analyser : Analyser) : Configuration Builder :=
  analyser.session.configuration analyser.builder

/-- The analyser with a token at hand. -/
def holding (analyser : Analyser) (token : Token) : Analyser :=
  { analyser with builder := analyser.builder.setToken token }

/-! ### Analysers in use -/

/-- The analysers that come from a new one by any of their operations. -/
inductive Reachable (network : Network) (limits : AnalyserLimits) : Analyser → Prop
  | start : Reachable network limits (start network limits)
  | reset {analyser : Analyser} (h : Reachable network limits analyser) :
      Reachable network limits analyser.reset
  | feed {analyser : Analyser} (h : Reachable network limits analyser) (token : Token) :
      Reachable network limits (analyser.feed token).2
  | settle {analyser : Analyser} (h : Reachable network limits analyser) :
      Reachable network limits analyser.settle.2

/-- An analyser between two operations: it can undo what the next one does, and a reset takes it back
to the beginning. -/
structure Ready (network : Network) (limits : AnalyserLimits) (analyser : Analyser) : Prop where
  network_eq : analyser.network = network
  limits_eq : analyser.limits = limits
  valid : analyser.builder.Valid
  journal_eq : analyser.builder.journal = []
  clear_eq : analyser.tree.clear = .single network.start.name

variable {network : Network} {limits : AnalyserLimits} {analyser after : Analyser} {token : Token}

theorem ready_start (network : Network) (limits : AnalyserLimits) :
    Ready network limits (start network limits) where
  network_eq := rfl
  limits_eq := rfl
  valid := (Builder.Reachable.start _).valid
  journal_eq := rfl
  clear_eq := rfl

theorem Ready.reset_eq (h : Ready network limits analyser) :
    analyser.reset = start network limits := by
  obtain ⟨rfl, rfl, -, -, hclear⟩ := h
  have hbuilder : analyser.builder.reset = .start analyser.network.start.name := by
    rw [Builder.reset, Builder.start]
    exact congrArg (fun tree => ({ tree } : Builder)) hclear
  rw [reset, hbuilder]
  rfl

/-! ### One token -/

/-- A consumed token: an attempt with the token at hand that takes its category. -/
theorem feed_of_consumed (h : analyser.feed token = (true, after)) :
    ∃ session recorded,
      Attempt analyser.network analyser.limits.session token.category true
        (analyser.holding token).configuration (session.configuration recorded) ∧
      analyser.session.atError = false ∧
      after = { analyser with session, builder := recorded.commit } := by
  rw [feed] at h
  rcases hinput : analyser.session.input analyser.network analyser.limits.session token.category
    (analyser.builder.setToken token) with ⟨consumed, session, recorded⟩
  rw [hinput] at h
  obtain ⟨rfl, rfl⟩ := Prod.mk.inj h
  have hconsume : analyser.session.consume analyser.network analyser.limits.session token.category 0 0
      (analyser.builder.setToken token) = (true, session, recorded) := consume_of_input hinput
  have hattempt := attempt_consume analyser.network analyser.limits.session token.category 0 0
    analyser.session (analyser.builder.setToken token)
  rw [hconsume] at hattempt
  exact ⟨session, recorded, hattempt, atError_of_input hinput, rfl⟩

/-- A rejected token changes nothing but the token at hand. -/
theorem feed_of_rejected (hvalid : analyser.builder.Valid)
    (h : analyser.feed token = (false, after)) :
    ∃ session : Session, session.active = analyser.session.active ∧
      session.frames = analyser.session.frames ∧
      after = { analyser with session, builder := (analyser.builder.setToken token).commit } := by
  have hrewinds : Recorder.Rewinds (analyser.builder.setToken token) := by
    have hvalid' : (analyser.builder.setToken token).Valid := hvalid
    exact hvalid'.rewinds
  have hnoTrace := leavesNoTrace_of_rewinds analyser.network analyser.limits.session
    analyser.session token.category hrewinds
  rw [feed] at h
  rcases hinput : analyser.session.input analyser.network analyser.limits.session token.category
    (analyser.builder.setToken token) with ⟨consumed, session, recorded⟩
  rw [hinput] at h
  obtain ⟨rfl, rfl⟩ := Prod.mk.inj h
  obtain ⟨hactive, hframes, rfl, -⟩ := hnoTrace session recorded hinput
  exact ⟨session, hactive, hframes, rfl⟩

/-- Settling: moves without a symbol. -/
theorem settle_eq (analyser : Analyser) :
    ∃ session recorded,
      Moves analyser.network analyser.limits.session none analyser.configuration
        (session.configuration recorded) ∧
      analyser.settle =
        (session.isAccepted, { analyser with session, builder := recorded.commit }) :=
  ⟨_, _, moves_settle analyser.network analyser.limits.session
    analyser.limits.session.maxSettleSteps analyser.session analyser.builder, rfl⟩

/-! ### Every analyser in use is ready -/

theorem Ready.of_performs (h : Ready network limits analyser) {session : Session}
    {recorded : Builder} (hperforms : Recorder.Performs analyser.builder recorded) :
    Ready network limits { analyser with session, builder := recorded.commit } where
  network_eq := h.network_eq
  limits_eq := h.limits_eq
  valid := ((h.valid.of_performs hperforms).valid h.valid).placed
  journal_eq := rfl
  clear_eq := by
    have hclear := Builder.clear_performs h.valid h.clear_eq hperforms
    exact hclear

theorem Ready.holding (h : Ready network limits analyser) (token : Token) :
    Ready network limits (analyser.holding token) where
  network_eq := h.network_eq
  limits_eq := h.limits_eq
  valid := h.valid
  journal_eq := h.journal_eq
  clear_eq := h.clear_eq

theorem Ready.feed (h : Ready network limits analyser) (token : Token) :
    Ready network limits (analyser.feed token).2 := by
  rcases hfeed : analyser.feed token with ⟨consumed, after⟩
  cases consumed with
  | true =>
      obtain ⟨session, recorded, hattempt, -, rfl⟩ := feed_of_consumed hfeed
      exact (h.holding token).of_performs hattempt.performs
  | false =>
      obtain ⟨session, -, -, rfl⟩ := feed_of_rejected h.valid hfeed
      exact (h.holding token).of_performs .refl

theorem Ready.settle (h : Ready network limits analyser) :
    Ready network limits analyser.settle.2 := by
  obtain ⟨session, recorded, hmoves, heq⟩ := settle_eq analyser
  rw [heq]
  exact h.of_performs hmoves.performs

theorem Reachable.ready (h : Reachable network limits analyser) :
    Ready network limits analyser := by
  induction h with
  | start => exact ready_start network limits
  | reset _ ih =>
      rw [ih.reset_eq]
      exact ready_start network limits
  | feed _ token ih => exact ih.feed token
  | settle _ ih => exact ih.settle

/-- However an analyser was used, a sentence is analysed as by a new one. -/
theorem Reachable.analyseTokens_eq (h : Reachable network limits analyser) (tokens : List Token) :
    analyser.analyseTokens tokens = (Analyser.start network limits).feedAll tokens := by
  rw [analyseTokens, h.ready.reset_eq]

/-! ### Analysers that cannot be told apart -/

/-- Analysers that differ at most in the places of machines that are not in control. -/
def Same (left right : Analyser) : Prop :=
  left.network = right.network ∧ left.limits = right.limits ∧
    left.configuration = right.configuration

/-- Analysers that are the same once they hold the same token. -/
def Alike (left right : Analyser) : Prop :=
  ∀ token, Same (left.holding token) (right.holding token)

variable {left right : Analyser}

theorem Same.refl (analyser : Analyser) : Same analyser analyser := ⟨rfl, rfl, rfl⟩

theorem Same.alike (h : Same left right) : Alike left right := by
  obtain ⟨hnetwork, hlimits, hshown⟩ := h
  obtain ⟨hactive, hframes, hbuilder⟩ := configuration_eq_iff.mp hshown
  refine fun token => ⟨hnetwork, hlimits, configuration_eq_iff.mpr ⟨hactive, hframes, ?_⟩⟩
  exact congrArg (fun builder : Builder => builder.setToken token) hbuilder

theorem Same.shown (h : Same left right) : left.session.active = right.session.active ∧
    left.session.frames = right.session.frames ∧ left.builder = right.builder :=
  configuration_eq_iff.mp h.2.2

theorem Same.atError_eq (h : Same left right) :
    left.session.atError = right.session.atError :=
  atError_congr h.2.2

/-- A rejected token is forgotten as soon as the next one comes. -/
theorem alike_of_rejected (hready : Ready network limits analyser)
    (h : analyser.feed token = (false, after)) : Alike after analyser := by
  obtain ⟨session, hactive, hframes, rfl⟩ := feed_of_rejected hready.valid h
  intro other
  refine ⟨rfl, rfl, configuration_eq_iff.mpr ⟨hactive, hframes, ?_⟩⟩
  change { analyser.builder with token := some other, journal := [] } =
    { analyser.builder with token := some other }
  rw [← hready.journal_eq]

theorem Alike.trans {first second third : Analyser} (h : Alike first second)
    (h' : Alike second third) : Alike first third := fun token =>
  ⟨(h token).1.trans (h' token).1, (h token).2.1.trans (h' token).2.1,
    (h token).2.2.trans (h' token).2.2⟩

/-- Whatever the last token was, the next one is treated alike. -/
theorem Alike.feed (h : Alike left right) (token : Token) :
    (left.feed token).1 = (right.feed token).1 ∧
      Same (left.feed token).2 (right.feed token).2 := by
  obtain ⟨hnetwork, hlimits, hshown⟩ := h token
  change left.network = right.network at hnetwork
  change left.limits = right.limits at hlimits
  have hinput := input_congr left.network left.limits.session hshown token.category
  rw [Analyser.feed, Analyser.feed, ← hnetwork, ← hlimits]
  obtain ⟨hactive, hframes, hbuilder⟩ := configuration_eq_iff.mp hinput.2
  refine ⟨hinput.1, rfl, rfl, configuration_eq_iff.mpr ⟨hactive, hframes, ?_⟩⟩
  exact congrArg Builder.commit hbuilder

theorem Same.settle (h : Same left right) :
    left.settle.1 = right.settle.1 ∧ Same left.settle.2 right.settle.2 := by
  obtain ⟨hnetwork, hlimits, hshown⟩ := h
  have hfinish := settle_congr left.network left.limits.session
    left.limits.session.maxSettleSteps hshown
  rw [Analyser.settle, Analyser.settle, Session.finish, Session.finish, ← hnetwork, ← hlimits]
  obtain ⟨hactive, hframes, hbuilder⟩ := configuration_eq_iff.mp hfinish
  refine ⟨?_, rfl, rfl, configuration_eq_iff.mpr ⟨hactive, hframes, ?_⟩⟩
  · dsimp only
    rw [Session.isAccepted, Session.isAccepted, hactive, hframes]
  · exact congrArg Builder.commit hbuilder

end Analyser

end TransitionNetwork
