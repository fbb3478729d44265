import TransitionNetwork.Proofs.CallMirror
import Mathlib.Data.List.Basic

/-! Tokens at the leaves. Over a compiled grammar a token that is fed ends in one of three ways: it is
rejected and leaves no trace, it leads to an error state without a leaf of its own, or it becomes the last
leaf of the tree. So the leaves are the tokens of the third kind, in the order in which they were fed. -/

namespace TransitionNetwork

namespace Grammar

variable {grammar : Grammar} {start : String} {network : Network} {limits : Limits}
  {symbol : Option String} {tokens : List Token} {before after : Configuration Builder}

/-- No move without a symbol leads to an error state. -/
theorem Describes.atError_of_move (hnetwork : grammar.Describes start network)
    (h : network.Tracks tokens before) (hmove : before.Move network limits symbol after) :
    after.active.atError = false := by
  have hmachine : ∀ cursor ∈ before.active :: before.frames, cursor.automaton =
      grammar.machine cursor.automaton.name := fun cursor hcursor =>
    hnetwork.machine_eq _ (h.machine_mem cursor hcursor)
  cases hmove with
  | enter _ _ hcallee => exact atError_of_ne (hnetwork.callee_eq hcallee) (by decide)
  | @leave _ frame _ _ call _ hcall =>
      have hframe := hmachine frame (by simp)
      have htarget := error_lt_of_call hframe (List.mem_of_find?_eq_some hcall)
      exact atError_of_ne hframe (Nat.ne_of_gt htarget)
  | dismiss _ hcall =>
      obtain ⟨call, hfound, -⟩ := h.leave hnetwork.buildsTrees
      rw [hcall] at hfound
      cases hfound
  | @epsilon active _ _ epsilon hepsilon =>
      have hactive := hmachine active (by simp)
      refine atError_of_ne hactive ?_
      rw [eq_final_of_epsilon hactive hepsilon]
      decide

theorem Describes.atError_of_moves (hnetwork : grammar.Describes start network)
    (h : network.Tracks tokens before) (hready : before.active.atError = false)
    (hmoves : before.Moves network limits symbol after) : after.active.atError = false := by
  induction hmoves with
  | refl => exact hready
  | tail hmoves hmove _ =>
      exact hnetwork.atError_of_move (h.moves hnetwork.buildsTrees hmoves) hmove

/-- A symbol that is taken adds the token at hand, or leads to an error state and adds nothing. -/
theorem Describes.tracks_of_take (hnetwork : grammar.Describes start network)
    {ready taken : Configuration Builder} (h : network.Tracks tokens ready) {token : Token}
    (htoken : ready.recorder.token = some token) (htake : ready.Take token.category taken)
    (hmoves : taken.Moves network limits symbol after) :
    (after.active.atError = false ∧ network.Tracks (tokens ++ [token]) after) ∨
      (after.active.atError = true ∧ network.Tracks tokens after) := by
  have hbuilds := hnetwork.buildsTrees
  have hmachine := hnetwork.machine_eq _ (h.machine_mem _ List.mem_cons_self)
  cases htake with
  | transition htransition =>
      left
      have hmem := List.mem_of_find?_eq_some htransition
      have htracks := h.transition hbuilds htoken hmem
      have hinside := Nat.ne_of_gt (error_lt_of_transition hmachine hmem)
      exact ⟨hnetwork.atError_of_moves htracks (atError_of_ne hmachine hinside) hmoves,
        htracks.moves hbuilds hmoves⟩
  | @alternate active frames builder alternate _ _ halternate =>
      right
      have htracks := h.alternate hbuilds halternate
      have htarget := eq_error_of_alternate hmachine halternate
      have hstuck : grammar.Stuck (⟨⟨active.automaton, alternate.target⟩, frames,
          record alternate.action active.machine builder⟩ : Configuration Builder) := by
        refine ⟨active.automaton.name, ?_⟩
        rw [Grammar.cursor, ← hmachine, htarget]
      rw [hstuck.moves_eq hmoves]
      refine ⟨?_, htracks⟩
      change (⟨active.automaton, alternate.target⟩ : Cursor).atError = true
      rw [htarget, hmachine]
      exact atError_cursor.mpr rfl

end Grammar

namespace Analyser

/-! ### Tokens that are taken -/

/-- Whether a token is consumed and does not lead to an error state. -/
def takes (analyser : Analyser) (token : Token) : Bool :=
  (analyser.feed token).1 && !(analyser.feed token).2.session.atError

/-- Feeds tokens one after the other, consumed or not. -/
def feedEach (analyser : Analyser) (tokens : List Token) : Analyser :=
  tokens.foldl (fun analyser token => (analyser.feed token).2) analyser

/-- Those tokens that are taken when all are fed one after the other. -/
def takenOf (analyser : Analyser) : List Token → List Token
  | [] => []
  | token :: tokens =>
    (if analyser.takes token then [token] else []) ++ (analyser.feed token).2.takenOf tokens

variable {grammar : Grammar} {start : String} {network : Network} {limits : AnalyserLimits}
  {analyser : Analyser} {found : List Token}

/-- A consumed token becomes a leaf, or the session ends at an error state without one. -/
theorem tracks_takes (hnetwork : grammar.Describes start analyser.network)
    (hvalid : analyser.builder.Valid)
    (h : analyser.network.Tracks found analyser.configuration) (token : Token) :
    analyser.network.Tracks (found ++ if analyser.takes token then [token] else [])
      (analyser.feed token).2.configuration := by
  rw [takes]
  rcases hfeed : analyser.feed token with ⟨consumed, after⟩
  cases consumed with
  | false =>
      rw [Bool.false_and, if_neg (by simp), List.append_nil]
      exact tracks_of_rejected hvalid h hfeed
  | true =>
      obtain ⟨ready, taken, recorded, hready, htoken, htake, htaken, heq⟩ :=
        tracks_of_consumed hnetwork.buildsTrees h hfeed
      rw [Bool.true_and]
      rcases hnetwork.tracks_of_take hready htoken htake htaken with
        ⟨hnot, htracks⟩ | ⟨herror, htracks⟩
      · change after.session.atError = false at hnot
        rw [hnot, if_pos (by rfl), heq]
        exact htracks.of_eq rfl rfl
      · change after.session.atError = true at herror
        rw [herror, if_neg (by simp), List.append_nil, heq]
        exact htracks.of_eq rfl rfl

/-- The induction is on the tokens to come; `found` are those taken before. -/
theorem tracks_feedEach (hnetwork : grammar.Describes start network)
    (hready : Ready network limits analyser)
    (h : network.Tracks found analyser.configuration) (tokens : List Token) :
    Ready network limits (analyser.feedEach tokens) ∧
      network.Tracks (found ++ analyser.takenOf tokens)
        (analyser.feedEach tokens).configuration := by
  induction tokens generalizing analyser found with
  | nil =>
      rw [takenOf, List.append_nil]
      exact ⟨hready, h⟩
  | cons token tokens ih =>
      obtain ⟨rfl, -, hvalid, -, -⟩ := id hready
      have htracks := tracks_takes hnetwork hvalid h token
      rw [takenOf, ← List.append_assoc]
      exact ih (hready.feed token) htracks

end Analyser

/-! ### Trees and their tokens -/

/-- The tokens of a tree, from left to right: each has a node without children, labelled with its
category, and no other node in reach of the root has a token. -/
structure Tree.Carries (tree : Tree) (tokens : List Token) : Prop where
  /-- The nodes from the root down are the nodes in reach. -/
  reaches_iff : ∀ index, Reaches tree.children Tree.root index ↔
    index ∈ tree.shape.preorder.map Shape.index
  nodup_index : (tree.shape.preorder.map Shape.index).Nodup
  tokens_eq : tree.shape.preorder.filterMap Shape.token = tokens
  leaf : ∀ node ∈ tree.shape.preorder, ∀ token, node.token = some token →
    node.children = [] ∧ node.label = token.category

theorem Network.Tracks.carries {network : Network} {tokens : List Token}
    {configuration : Configuration Builder} (h : network.Tracks tokens configuration) :
    configuration.recorder.tree.Carries tokens := by
  obtain ⟨inner, path, hgrows, hattends, hawaits, htokens⟩ := h
  have hlexical : ∀ node ∈ inner :: path, ∀ shape ∈ node.closed, shape.Lexical :=
    List.forall_mem_cons.mpr ⟨hattends.lexical, hawaits.lexical⟩
  have hleaf : ∀ node ∈ configuration.recorder.tree.shape.preorder, ∀ token,
      node.token = some token → node.children = [] ∧ node.label = token.category := by
    intro node hnode token htoken
    rw [hgrows.shape_eq] at hnode
    rcases OpenNode.mem_preorder_whole hnode with
      ⟨outer, -, -, hnone⟩ | ⟨outer, houter, shape, hshape, hbelow⟩
    · rw [hnone] at htoken
      cases htoken
    · exact ((hlexical outer houter shape hshape).of_mem node hbelow).leaf_of_token htoken
  refine ⟨hgrows.reaches_root_iff, hgrows.nodup_preorder, ?_, hleaf⟩
  calc
    configuration.recorder.tree.shape.preorder.filterMap Shape.token
      = configuration.recorder.tree.shape.tokens := by
        apply List.filterMap_congr
        intro node hnode
        cases htoken : node.token with
        | none => simp
        | some token => simp [(hleaf node hnode token htoken).1]
    _ = inner.tokens path := by rw [hgrows.shape_eq, OpenNode.tokens_whole]
    _ = tokens := htokens

namespace Analyser

variable {grammar : Grammar} {compiled : GrammarNetwork} {limits : AnalyserLimits}
  {analyser : Analyser}

/-- From the beginning of a sentence on, the tree carries the tokens that were taken, before settling
and after it. -/
theorem feedEach_carries_taken (hcompile : grammar.compile = .ok compiled)
    (hreachable : Reachable compiled.network limits analyser) (tokens : List Token) :
    (analyser.reset.feedEach tokens).tree.Carries (analyser.reset.takenOf tokens) ∧
      (analyser.reset.feedEach tokens).settle.2.tree.Carries (analyser.reset.takenOf tokens) := by
  obtain ⟨-, hnetwork⟩ := Grammar.describes_of_compile hcompile
  rw [hreachable.ready.reset_eq]
  obtain ⟨⟨hsame, -, -, -, -⟩, htracks⟩ := tracks_feedEach hnetwork
    (ready_start compiled.network limits) compiled.network.tracks_start tokens
  rw [List.nil_append] at htracks
  refine ⟨htracks.carries, ?_⟩
  generalize (start compiled.network limits).feedEach tokens = fed at *
  have hbuilds : fed.network.BuildsTrees := hsame ▸ hnetwork.buildsTrees
  exact (tracks_settle hbuilds (hsame ▸ htracks)).carries

/-- An opening bracket and a word that are taken, with a closing bracket between them that is rejected
and an opening one behind them that leads to an error state. -/
def unbalanced : List Token :=
  [⟨"(", "(", []⟩, ⟨")", ")", []⟩, ⟨"x", "word", []⟩, ⟨"(", "(", []⟩]

theorem unbalanced_carries_taken :
    ∃ compiled, bracketed.compile = .ok compiled ∧
      ((Analyser.start compiled.network).reset.feedEach unbalanced).session.atError = true ∧
      ((Analyser.start compiled.network).reset.feedEach unbalanced).tree.Carries
        [⟨"(", "(", []⟩, ⟨"x", "word", []⟩] := by
  have htaken : (match bracketed.compile with
      | .ok compiled => ((Analyser.start compiled.network).reset.takenOf unbalanced,
          ((Analyser.start compiled.network).reset.feedEach unbalanced).session.atError)
      | .error _ => ([], false)) = ([⟨"(", "(", []⟩, ⟨"x", "word", []⟩], true) := by cbv
  split at htaken
  · next compiled hcompile =>
    obtain ⟨htokens, herror⟩ := Prod.mk.inj htaken
    have hreachable : Reachable compiled.network {} _ := .start
    have hcarries := (feedEach_carries_taken hcompile hreachable unbalanced).1
    rw [htokens] at hcarries
    exact ⟨compiled, hcompile, herror, hcarries⟩
  · cases htaken

end Analyser

end TransitionNetwork
