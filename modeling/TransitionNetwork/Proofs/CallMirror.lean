import TransitionNetwork.Proofs.OpenCalls

/-! The tree mirrors the calls. However an analyser over a network that builds trees is used, the nodes
from the root to the cursor of its builder bear the names of the machines that wait, the outermost first,
and of the machine in control. Beside this path there are only tokens and nodes with tokens below them. -/

namespace TransitionNetwork

theorem Shape.mem_preorder_trans {shape node below : Shape} (hnode : node ∈ shape.preorder)
    (hbelow : below ∈ node.preorder) : below ∈ shape.preorder := by
  induction shape using Shape.induction with
  | node index label token children ih =>
      rw [preorder_node] at hnode
      rcases List.mem_cons.mp hnode with rfl | hnode
      · exact hbelow
      · obtain ⟨child, hchild, hnode⟩ := List.mem_flatMap.mp hnode
        exact preorder_subset hchild below (ih child hchild hnode)

theorem Tree.HoldsPath.map_label {tree : Tree} {next : List Nat} {path : List OpenNode}
    (h : tree.HoldsPath next path) :
    path.map (fun node => (tree.node node.index).label) = path.map OpenNode.label := by
  induction path generalizing next with
  | nil => rfl
  | cons node path ih => rw [List.map_cons, List.map_cons, h.1.2.1, ih h.2]

namespace Network

theorem Awaits.map_label {network : Network} {callee : String} {frames : List Cursor}
    {path : List OpenNode} (h : network.Awaits callee frames path) :
    path.map OpenNode.label = frames.map Cursor.machine := by
  induction frames generalizing callee path with
  | nil =>
      cases path with
      | nil => rfl
      | cons => exact absurd h id
  | cons frame frames ih =>
      cases path with
      | nil => exact absurd h id
      | cons node path => rw [List.map_cons, List.map_cons, h.1.label_eq, ih h.2.2]

/-- The networks of analysers: that of a compiled grammar, and one put together by hand that has no
actions of its own but on terminals and calls. -/
inductive ForTrees : Network → Prop
  | compiled {grammar : Grammar} {compiled : GrammarNetwork} (h : grammar.compile = .ok compiled) :
      ForTrees compiled.network
  | installed {network : Network} (h : network.Quiet) : ForTrees network.withTreeActions

theorem ForTrees.buildsTrees {network : Network} (h : network.ForTrees) : network.BuildsTrees := by
  cases h with
  | compiled h => exact (Grammar.describes_of_compile h).2.buildsTrees
  | installed h => exact h.buildsTrees_withTreeActions

end Network

namespace Analyser

/-- The open nodes of the tree are those of the open calls. -/
structure Mirrors (analyser : Analyser) : Prop where
  /-- The path to the cursor begins at the root. -/
  head_path : (analyser.tree.pathTo analyser.builder.cursor).head? = some Tree.root
  labels_path : (analyser.tree.pathTo analyser.builder.cursor).map
      (fun index => (analyser.tree.node index).label) =
    analyser.session.callStack.map Prod.fst ++ [analyser.session.active.machine]
  length_path : (analyser.tree.pathTo analyser.builder.cursor).length = analyser.session.depth + 1
  /-- Beside the path, every node is a token or has one below it. -/
  beside_path : ∀ index, Reaches analyser.tree.children Tree.root index →
    index ∉ analyser.tree.pathTo analyser.builder.cursor →
      ∃ leaf, Reaches analyser.tree.children index leaf ∧
        analyser.tree.children leaf = [] ∧ (analyser.tree.node leaf).token.isSome

variable {network : Network} {limits : AnalyserLimits} {analyser : Analyser} {tokens : List Token}

theorem beside_path_of_grows {inner : OpenNode} {path : List OpenNode}
    (hgrows : analyser.builder.Grows inner path)
    (hlexical : ∀ node ∈ inner :: path, ∀ shape ∈ node.closed, shape.Lexical) {index : Nat}
    (hreaches : Reaches analyser.tree.children Tree.root index)
    (hbeside : index ∉ (inner :: path).reverse.map OpenNode.index) :
    ∃ leaf, Reaches analyser.tree.children index leaf ∧
      analyser.tree.children leaf = [] ∧ (analyser.tree.node leaf).token.isSome := by
  have hholds := hgrows.holds.holds_whole
  rw [← hgrows.root_eq] at hreaches
  obtain ⟨node, hnode, rfl⟩ := Tree.exists_of_reaches hholds hreaches
  rcases OpenNode.mem_preorder_whole hnode with
    ⟨outer, houter, hindex, -⟩ | ⟨outer, houter, shape, hshape, hbelow⟩
  · rw [hindex] at hbeside
    exact absurd (List.mem_map_of_mem (List.mem_reverse.mpr houter)) hbeside
  · have hbelow := (hlexical outer houter shape hshape).of_mem node hbelow
    obtain ⟨leaf, hleaf, hchildren, htoken⟩ := hbelow.exists_leaf
    have hsub : ∀ below ∈ node.preorder, analyser.tree.Holds below := fun below hmem =>
      hholds below (Shape.mem_preorder_trans hnode hmem)
    obtain ⟨-, -, htoken', hchildren'⟩ := hsub leaf hleaf
    refine ⟨leaf.index, Tree.reaches_of_mem hsub leaf hleaf, ?_, ?_⟩
    · rw [hchildren', hchildren, List.map_nil]
    · rw [htoken']
      exact htoken

theorem mirrors_of_tracks (h : network.Tracks tokens analyser.configuration) :
    analyser.Mirrors := by
  obtain ⟨inner, path, hgrows, hattends, hawaits, -⟩ := h
  change analyser.builder.Grows inner path at hgrows
  change network.Attends analyser.session.active inner at hattends
  change network.Awaits analyser.session.active.machine analyser.session.frames path at hawaits
  have hpath : analyser.tree.pathTo analyser.builder.cursor =
      (inner :: path).reverse.map OpenNode.index := hgrows.pathTo_cursor
  have hframes := hawaits.map_label
  have hlabels : (inner :: path).map (fun node => (analyser.tree.node node.index).label) =
      (inner :: path).map OpenNode.label := hgrows.holds.map_label
  constructor
  · rw [hpath, OpenNode.head?_path, hgrows.root_eq]
  · calc
      (analyser.tree.pathTo analyser.builder.cursor).map
            (fun index => (analyser.tree.node index).label)
        = ((inner :: path).map fun node => (analyser.tree.node node.index).label).reverse := by
          rw [hpath, List.map_map, List.map_reverse]
          rfl
      _ = (path.map OpenNode.label).reverse ++ [inner.label] := by
          rw [hlabels, List.map_cons, List.reverse_cons]
      _ = _ := by
          rw [hframes, hattends.label_eq, Session.callStack, List.map_map, List.map_reverse]
          rfl
  · have hlength := congrArg List.length hframes
    rw [List.length_map, List.length_map] at hlength
    rw [hpath, List.length_map, List.length_reverse, List.length_cons, hlength]
    rfl
  · intro index hreaches hbeside
    rw [hpath] at hbeside
    refine beside_path_of_grows hgrows ?_ hreaches hbeside
    exact List.forall_mem_cons.mpr ⟨hattends.lexical, hawaits.lexical⟩

theorem tracks_feed (hbuilds : analyser.network.BuildsTrees) (hvalid : analyser.builder.Valid)
    (h : analyser.network.Tracks tokens analyser.configuration) (token : Token) :
    ∃ tokens', analyser.network.Tracks tokens' (analyser.feed token).2.configuration := by
  rcases hfeed : analyser.feed token with ⟨consumed, after⟩
  cases consumed with
  | true =>
      obtain ⟨ready, taken, recorded, hready, htoken, htake, htaken, heq⟩ :=
        tracks_of_consumed hbuilds h hfeed
      rw [heq]
      rcases hready.take hbuilds htoken htake with hmore | hsame
      · exact ⟨_, (hmore.moves hbuilds htaken).of_eq rfl rfl⟩
      · exact ⟨_, (hsame.moves hbuilds htaken).of_eq rfl rfl⟩
  | false => exact ⟨tokens, tracks_of_rejected hvalid h hfeed⟩

theorem Reachable.tracks (hbuilds : network.BuildsTrees) (h : Reachable network limits analyser) :
    ∃ tokens, network.Tracks tokens analyser.configuration := by
  induction h with
  | start => exact ⟨[], network.tracks_start⟩
  | reset hreachable =>
      rw [hreachable.ready.reset_eq]
      exact ⟨[], network.tracks_start⟩
  | feed hreachable token ih =>
      obtain ⟨tokens, htracks⟩ := ih
      obtain ⟨rfl, -, hvalid, -, -⟩ := hreachable.ready
      exact tracks_feed hbuilds hvalid htracks token
  | settle hreachable ih =>
      obtain ⟨tokens, htracks⟩ := ih
      obtain ⟨rfl, -, -, -, -⟩ := hreachable.ready
      exact ⟨tokens, tracks_settle hbuilds htracks⟩

/-- Whatever tokens an analyser has taken, and however often it has settled or begun again, its tree
mirrors its calls. -/
theorem Reachable.mirrors_calls (hnetwork : network.ForTrees)
    (h : Reachable network limits analyser) : analyser.Mirrors := by
  obtain ⟨tokens, htracks⟩ := h.tracks hnetwork.buildsTrees
  exact mirrors_of_tracks htracks

/-- A word in brackets, as many as one likes. -/
def bracketed : Grammar where
  start := some "S"
  nonterminals := ["S"]
  terminals := ["(", ")", "x"]
  rules := [⟨"S", [.terminal "(", .nonterminal "S", .terminal ")"]⟩, ⟨"S", [.terminal "x"]⟩]

/-- Behind three brackets the machine has called itself twice. A machine that is called and finds
nothing is detached again. -/
theorem bracketed_mirrors_calls :
    (∃ compiled analyser, bracketed.compile = .ok compiled ∧
        Reachable compiled.network {} analyser ∧ analyser.session.depth = 2 ∧ analyser.Mirrors) ∧
      ∃ analyser, Session.detour.Quiet ∧ Reachable Session.detour.withTreeActions {} analyser ∧
        analyser.tree.nodes.length = 2 ∧ analyser.session.depth = 0 ∧ analyser.Mirrors := by
  constructor
  · have hdepth : (match bracketed.compile with
        | .ok compiled => ((((Analyser.start compiled.network).feed ⟨"(", "(", []⟩).2.feed
            ⟨"(", "(", []⟩).2.feed ⟨"(", "(", []⟩).2.session.depth
        | .error _ => 0) = 2 := by cbv
    split at hdepth
    · next compiled hcompile =>
      have hreachable : Reachable compiled.network {} _ :=
        .feed (.feed (.feed .start ⟨"(", "(", []⟩) ⟨"(", "(", []⟩) ⟨"(", "(", []⟩
      exact ⟨compiled, _, hcompile, hreachable, hdepth,
        Reachable.mirrors_calls (.compiled hcompile) hreachable⟩
    · cases hdepth
  · have hquiet : Session.detour.Quiet := by decide
    have hreachable : Reachable Session.detour.withTreeActions {} (ofNetwork Session.detour).settle.2 :=
      .settle .start
    exact ⟨_, hquiet, hreachable, by cbv, by cbv,
      Reachable.mirrors_calls (.installed hquiet) hreachable⟩

end Analyser

end TransitionNetwork
