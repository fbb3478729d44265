import TransitionNetwork.Proofs.RecorderJournal
import TransitionNetwork.Proofs.GrammarDerivation

/-! Trees that grow. While a builder works, the nodes from the root to the cursor are open: each has
finished trees below it and, but for the innermost, one more open node behind these. `Builder.Grows` says
which open nodes the arena of a builder holds. A leaf is added below the innermost, going down opens one
more, and going up finishes the innermost, or forgets it when it has stayed empty. -/

namespace TransitionNetwork

/-- A node that still grows, with the finished trees below it. -/
structure OpenNode where
  index : Nat
  label : String
  closed : List Shape := []

namespace OpenNode

/-- The node with what is below it now. -/
def close (node : OpenNode) : Shape := .node node.index node.label none node.closed

/-- One more finished tree below a node. -/
def add (node : OpenNode) (shape : Shape) : OpenNode :=
  { node with closed := node.closed ++ [shape] }

/-- The whole tree of an innermost open node and the nodes outside of it, the next one first. -/
def whole (inner : OpenNode) : List OpenNode → Shape
  | [] => inner.close
  | outer :: path => (outer.add inner.close).whole path

/-- The tokens at the leaves, from left to right. -/
def tokens (inner : OpenNode) : List OpenNode → List Token
  | [] => inner.closed.flatMap Shape.tokens
  | outer :: path => outer.tokens path ++ inner.closed.flatMap Shape.tokens

/-- The indices of a node and of all below it. -/
def indices (node : OpenNode) : List Nat :=
  node.index :: (node.closed.flatMap Shape.preorder).map Shape.index

theorem tokens_add (inner : OpenNode) (shape : Shape) (path : List OpenNode) :
    (inner.add shape).tokens path = inner.tokens path ++ shape.tokens := by
  cases path <;> simp [tokens, add]

/-- What is below the innermost node does not change the index of the whole tree. -/
theorem index_whole_add (node : OpenNode) (shape : Shape) (path : List OpenNode) :
    ((node.add shape).whole path).index = (node.whole path).index := by
  have hcongr : ∀ (path : List OpenNode) (left right : OpenNode), left.index = right.index →
      (left.whole path).index = (right.whole path).index := by
    intro path
    induction path with
    | nil => exact fun _ _ h => h
    | cons outer path ih => exact fun _ _ _ => ih _ _ rfl
  exact hcongr path _ _ rfl

theorem indices_add (node : OpenNode) (shape : Shape) :
    (node.add shape).indices = node.indices ++ shape.preorder.map Shape.index := by
  simp [indices, add]

theorem indices_close (node : OpenNode) :
    node.close.preorder.map Shape.index = node.indices := by
  rw [close, Shape.preorder_node]
  rfl

/-- Finishing the innermost node keeps the indices. -/
theorem perm_indices_close (inner outer : OpenNode) (path : List OpenNode) :
    ((outer.add inner.close :: path).flatMap indices).Perm
      ((inner :: outer :: path).flatMap indices) := by
  rw [List.flatMap_cons, List.flatMap_cons, List.flatMap_cons, indices_add, indices_close,
    ← List.append_assoc]
  exact List.perm_append_comm.append_right _

end OpenNode

namespace Tree

/-! ### What an arena holds -/

/-- A node of the arena is the top of a tree. -/
def Holds (tree : Tree) (shape : Shape) : Prop :=
  shape.index < tree.nodes.length ∧ (tree.node shape.index).label = shape.label ∧
    (tree.node shape.index).token = shape.token ∧
    tree.children shape.index = shape.children.map Shape.index

/-- A node of the arena is an open node, whose child after the finished ones is given. -/
def HoldsOpen (tree : Tree) (next : List Nat) (node : OpenNode) : Prop :=
  node.index < tree.nodes.length ∧ (tree.node node.index).label = node.label ∧
    (tree.node node.index).token = none ∧
    tree.children node.index = node.closed.map Shape.index ++ next ∧
    ∀ shape ∈ node.closed.flatMap Shape.preorder, tree.Holds shape

/-- The open nodes of a path, the innermost first. -/
def HoldsPath (tree : Tree) : List Nat → List OpenNode → Prop
  | _, [] => True
  | next, node :: path => tree.HoldsOpen next node ∧ tree.HoldsPath [node.index] path

variable {tree after : Tree}

theorem Holds.of_node_eq {shape : Shape} (h : tree.Holds shape)
    (hlength : tree.nodes.length ≤ after.nodes.length)
    (hnode : after.node shape.index = tree.node shape.index) : after.Holds shape := by
  rw [Holds, children, hnode]
  exact ⟨Nat.lt_of_lt_of_le h.1 hlength, h.2⟩

theorem HoldsPath.of_node_eq {next : List Nat} {path : List OpenNode}
    (h : tree.HoldsPath next path) (hlength : tree.nodes.length ≤ after.nodes.length)
    (hnode : ∀ index ∈ path.flatMap OpenNode.indices, after.node index = tree.node index) :
    after.HoldsPath next path := by
  induction path generalizing next with
  | nil => trivial
  | cons node path ih =>
      rw [List.flatMap_cons] at hnode
      have hself := hnode node.index (List.mem_append_left _ List.mem_cons_self)
      refine ⟨⟨Nat.lt_of_lt_of_le h.1.1 hlength, ?_, ?_, ?_, ?_⟩, ?_⟩
      · rw [hself]
        exact h.1.2.1
      · rw [hself]
        exact h.1.2.2.1
      · rw [children, hself]
        exact h.1.2.2.2.1
      · intro shape hshape
        refine (h.1.2.2.2.2 shape hshape).of_node_eq hlength (hnode _ ?_)
        exact List.mem_append_left _ (List.mem_cons_of_mem _ (List.mem_map_of_mem hshape))
      · exact ih h.2 fun index hindex => hnode index (List.mem_append_right _ hindex)

theorem HoldsPath.index_lt {next : List Nat} {path : List OpenNode}
    (h : tree.HoldsPath next path) {index : Nat} (hindex : index ∈ path.flatMap OpenNode.indices) :
    index < tree.nodes.length := by
  induction path generalizing next with
  | nil => exact absurd hindex (by simp)
  | cons node path ih =>
      rw [List.flatMap_cons, OpenNode.indices] at hindex
      rcases List.mem_append.mp hindex with hindex | hindex
      · rcases List.mem_cons.mp hindex with rfl | hindex
        · exact h.1.1
        · obtain ⟨shape, hshape, rfl⟩ := List.mem_map.mp hindex
          exact (h.1.2.2.2.2 shape hshape).1
      · exact ih h.2 hindex

/-- The child behind the finished trees joins them once it holds a tree. -/
theorem HoldsOpen.add {node : OpenNode} {shape : Shape} (h : tree.HoldsOpen [shape.index] node)
    (hshape : ∀ below ∈ shape.preorder, tree.Holds below) : tree.HoldsOpen [] (node.add shape) := by
  obtain ⟨hlt, hlabel, htoken, hchildren, hclosed⟩ := h
  refine ⟨hlt, hlabel, htoken, ?_, ?_⟩
  · rw [List.append_nil, OpenNode.add, List.map_append]
    exact hchildren
  · intro below hbelow
    rw [OpenNode.add, List.flatMap_append, List.flatMap_singleton] at hbelow
    exact (List.mem_append.mp hbelow).elim (hclosed below) (hshape below)

theorem HoldsOpen.holds_close {node : OpenNode} (h : tree.HoldsOpen [] node) :
    ∀ below ∈ node.close.preorder, tree.Holds below := by
  obtain ⟨hlt, hlabel, htoken, hchildren, hclosed⟩ := h
  rw [List.append_nil] at hchildren
  intro below hbelow
  rw [OpenNode.close, Shape.preorder_node] at hbelow
  rcases List.mem_cons.mp hbelow with rfl | hbelow
  · exact ⟨hlt, hlabel, htoken, hchildren⟩
  · exact hclosed below hbelow

/-- The innermost node becomes a finished tree of the next one. -/
theorem HoldsPath.close {inner outer : OpenNode} {path : List OpenNode}
    (h : tree.HoldsPath [] (inner :: outer :: path)) :
    tree.HoldsPath [] (outer.add inner.close :: path) :=
  ⟨HoldsOpen.add h.2.1 h.1.holds_close, h.2.2⟩

/-! ### The tree that hangs from a node -/

/-- Where the arena holds a tree, the tree is what hangs from its top, if the depth suffices. -/
theorem shapeWithin_eq {shape : Shape} (h : ∀ node ∈ shape.preorder, tree.Holds node) {depth : Nat}
    (hdepth : shape.preorder.length ≤ depth + 1) : tree.shapeWithin depth shape.index = shape := by
  induction depth generalizing shape with
  | zero =>
      obtain ⟨index, label, token, children⟩ := shape
      obtain ⟨-, hlabel, htoken, -⟩ := h _ (by rw [Shape.preorder_node]; exact List.mem_cons_self)
      cases children with
      | nil =>
          rw [shapeWithin, hlabel, htoken]
          rfl
      | cons child children =>
          -- a child would be a second node
          obtain ⟨index', label', token', children'⟩ := child
          rw [Shape.preorder_node, List.flatMap_cons, Shape.preorder_node] at hdepth
          simp at hdepth
  | succ depth ih =>
      obtain ⟨index, label, token, children⟩ := shape
      have hself := h _ (by rw [Shape.preorder_node]; exact List.mem_cons_self)
      obtain ⟨-, hlabel, htoken, hchildren⟩ := hself
      rw [Shape.preorder_node, List.length_cons] at hdepth
      have hbelow : ∀ child ∈ children, tree.shapeWithin depth child.index = child := by
        intro child hchild
        refine ih (fun node hnode => h node ?_) ?_
        · rw [Shape.preorder_node]
          exact List.mem_cons_of_mem _ (List.mem_flatMap_of_mem hchild hnode)
        · obtain ⟨left, right, rfl⟩ := List.append_of_mem hchild
          rw [List.flatMap_append, List.flatMap_cons, List.length_append, List.length_append]
            at hdepth
          omega
      rw [shapeWithin, hlabel, htoken, hchildren]
      change Shape.node index label token ((children.map Shape.index).map _) = _
      rw [List.map_map]
      exact congrArg _ ((List.map_congr_left hbelow).trans (List.map_id children))

/-- The open nodes of an arena make up the tree that hangs from the root. -/
theorem shape_eq_whole {inner : OpenNode} {path : List OpenNode}
    (h : tree.HoldsPath [] (inner :: path))
    (hnodup : ((inner :: path).flatMap OpenNode.indices).Nodup)
    (hroot : (inner.whole path).index = root) : tree.shape = inner.whole path := by
  induction path generalizing inner with
  | nil =>
      have hlt : ∀ index ∈ inner.indices, index ∈ List.range tree.nodes.length := by
        intro index hindex
        exact List.mem_range.mpr (h.index_lt (by simpa using hindex))
      rw [List.flatMap_singleton] at hnodup
      have hcount := List.Nodup.length_le_of_subset hnodup hlt
      rw [← OpenNode.indices_close, List.length_map, List.length_range] at hcount
      have hshape := shapeWithin_eq h.1.holds_close (Nat.le_succ_of_le hcount)
      rw [shape, ← hroot]
      exact hshape
  | cons outer path ih =>
      exact ih h.close ((OpenNode.perm_indices_close inner outer path).nodup_iff.mpr hnodup) hroot

end Tree

namespace Builder

/-- The arena of a builder holds open nodes, the innermost of them at the cursor. -/
structure Grows (builder : Builder) (inner : OpenNode) (path : List OpenNode) : Prop where
  wellFormed : builder.tree.WellFormed
  cursor_eq : builder.cursor = inner.index
  holds : builder.tree.HoldsPath [] (inner :: path)
  nodup : ((inner :: path).flatMap OpenNode.indices).Nodup
  root_eq : (inner.whole path).index = Tree.root

theorem grows_start (label : String) : (start label).Grows { index := Tree.root, label } [] where
  wellFormed := Tree.wellFormed_single label
  cursor_eq := rfl
  holds := ⟨⟨by simp [start, Tree.single, Tree.root], rfl, rfl, rfl, by simp⟩, trivial⟩
  nodup := by simp [OpenNode.indices]
  root_eq := rfl

namespace Grows

variable {builder : Builder} {inner : OpenNode} {path : List OpenNode}

theorem cursor_lt (h : builder.Grows inner path) : builder.cursor < builder.tree.nodes.length := by
  rw [h.cursor_eq]
  exact h.holds.1.1

/-- Only the journal and the token of the builder do not matter. -/
theorem of_eq {other : Builder} (h : builder.Grows inner path) (htree : other.tree = builder.tree)
    (hcursor : other.cursor = builder.cursor) : other.Grows inner path where
  wellFormed := by
    rw [htree]
    exact h.wellFormed
  cursor_eq := hcursor.trans h.cursor_eq
  holds := by
    rw [htree]
    exact h.holds
  nodup := h.nodup
  root_eq := h.root_eq

/-- A new child of the innermost node comes behind its finished trees, and no other open node
changes. -/
theorem holds_addChild (h : builder.Grows inner path) (label : String) (token : Option Token) :
    (builder.tree.addChild builder.cursor label token).1.HoldsPath
      [builder.tree.nodes.length] (inner :: path) := by
  have hnodup := h.nodup
  rw [List.flatMap_cons, OpenNode.indices, List.cons_append, List.nodup_cons] at hnodup
  have hlength : builder.tree.nodes.length ≤
      (builder.tree.addChild builder.cursor label token).1.nodes.length := by
    rw [Tree.length_addChild]
    omega
  have hother : ∀ index ∈ (inner.closed.flatMap Shape.preorder).map Shape.index ++
      path.flatMap OpenNode.indices,
      (builder.tree.addChild builder.cursor label token).1.node index = builder.tree.node index := by
    intro index hindex
    have hlt : index < builder.tree.nodes.length := by
      refine h.holds.index_lt ?_
      rw [List.flatMap_cons, OpenNode.indices, List.cons_append]
      exact List.mem_cons_of_mem _ hindex
    have hne : index ≠ inner.index := fun heq => hnodup.1 (heq ▸ hindex)
    rw [Tree.node_addChild h.cursor_lt, if_neg (Nat.ne_of_lt hlt), h.cursor_eq, if_neg hne]
  obtain ⟨⟨hlt, hlabel, htoken, hchildren, hclosed⟩, hpath⟩ := h.holds
  have hself := Tree.node_addChild h.cursor_lt label token inner.index
  rw [if_neg (Nat.ne_of_lt hlt), if_pos h.cursor_eq.symm, h.cursor_eq] at hself
  refine ⟨⟨Nat.lt_of_lt_of_le hlt hlength, ?_, ?_, ?_, ?_⟩, ?_⟩
  · rw [h.cursor_eq, hself]
    exact hlabel
  · rw [h.cursor_eq, hself]
    exact htoken
  · rw [h.cursor_eq, Tree.children, hself]
    dsimp only
    rw [hchildren, List.append_nil]
  · intro shape hshape
    exact (hclosed shape hshape).of_node_eq hlength
      (hother _ (List.mem_append_left _ (List.mem_map_of_mem hshape)))
  · exact hpath.of_node_eq hlength fun index hindex => hother index (List.mem_append_right _ hindex)

theorem fresh_not_mem (h : builder.Grows inner path) :
    builder.tree.nodes.length ∉ (inner :: path).flatMap OpenNode.indices := fun hmem =>
  Nat.lt_irrefl _ (h.holds.index_lt hmem)

theorem appendLeaf (h : builder.Grows inner path) {token : Token} (htoken : builder.token = some token) :
    builder.appendLeaf.Grows
      (inner.add (.node builder.tree.nodes.length token.category (some token) [])) path := by
  have hholds := h.holds_addChild token.category (some token)
  have hnew := Tree.node_addChild h.cursor_lt token.category (some token) builder.tree.nodes.length
  rw [if_pos rfl] at hnew
  rw [Builder.appendLeaf, htoken]
  constructor
  · exact h.wellFormed.addChild h.cursor_lt _ _
  · exact h.cursor_eq
  · refine ⟨Tree.HoldsOpen.add hholds.1 ?_, hholds.2⟩
    intro below hbelow
    rw [Shape.preorder_node, List.flatMap_nil, List.mem_singleton] at hbelow
    subst hbelow
    refine ⟨?_, ?_, ?_, ?_⟩
    · rw [Tree.length_addChild]
      exact Nat.lt_succ_self _
    · exact congrArg Node.label hnew
    · exact congrArg Node.token hnew
    · exact congrArg Node.children hnew
  · have hperm : ((inner.add (.node builder.tree.nodes.length token.category (some token) [])
        :: path).flatMap OpenNode.indices).Perm
        (builder.tree.nodes.length :: (inner :: path).flatMap OpenNode.indices) := by
      rw [List.flatMap_cons, List.flatMap_cons, OpenNode.indices_add]
      simp [Shape.index]
    exact hperm.nodup_iff.mpr (List.nodup_cons.mpr ⟨h.fresh_not_mem, h.nodup⟩)
  · rw [OpenNode.index_whole_add]
    exact h.root_eq

theorem descend (h : builder.Grows inner path) (label : String) :
    (builder.descend label).Grows { index := builder.tree.nodes.length, label } (inner :: path) := by
  have hnew := Tree.node_addChild h.cursor_lt label none builder.tree.nodes.length
  rw [if_pos rfl] at hnew
  constructor
  · exact h.wellFormed.addChild h.cursor_lt _ _
  · rfl
  · refine ⟨⟨?_, ?_, ?_, ?_, ?_⟩, h.holds_addChild label none⟩
    · change _ < (builder.tree.addChild builder.cursor label none).1.nodes.length
      rw [Tree.length_addChild]
      exact Nat.lt_succ_self _
    · exact congrArg Node.label hnew
    · exact congrArg Node.token hnew
    · exact congrArg Node.children hnew
    · intro shape hshape
      exact absurd hshape (by simp)
  · exact List.nodup_cons.mpr ⟨h.fresh_not_mem, h.nodup⟩
  · rw [OpenNode.whole, OpenNode.index_whole_add]
    exact h.root_eq

/-- The open node behind the finished trees of another is a child of it. -/
theorem parent?_inner {outer : OpenNode} (h : builder.Grows inner (outer :: path)) :
    builder.tree.parent? inner.index = some outer.index := by
  apply (h.wellFormed.mem_children _ _).mp
  rw [h.holds.2.1.2.2.2.1]
  exact List.mem_append_right _ (List.mem_singleton.mpr rfl)

/-- Detaching an innermost node that is empty leaves the next one without it. -/
theorem holds_detach {outer : OpenNode} (h : builder.Grows inner (outer :: path)) :
    (builder.tree.detach inner.index).1.HoldsPath [] (outer :: path) := by
  have hparent := h.parent?_inner
  have hlength := Nat.le_of_eq (h.wellFormed.length_detach hparent).symm
  have hnode := h.wellFormed.node_detach hparent
  have hnodup := h.nodup
  rw [List.flatMap_cons, OpenNode.indices, List.cons_append, List.nodup_cons] at hnodup
  have houter := (List.nodup_append.mp hnodup.2).2.1
  rw [List.flatMap_cons, OpenNode.indices, List.cons_append, List.nodup_cons] at houter
  have hne : ∀ index ∈ (outer :: path).flatMap OpenNode.indices, index ≠ inner.index :=
    fun index hindex heq => hnodup.1 (heq ▸ List.mem_append_right _ hindex)
  have hother : ∀ index ∈ (outer.closed.flatMap Shape.preorder).map Shape.index ++
      path.flatMap OpenNode.indices,
      (builder.tree.detach inner.index).1.node index = builder.tree.node index := by
    intro index hindex
    have hbeside : index ≠ inner.index := by
      apply hne
      rw [List.flatMap_cons, OpenNode.indices, List.cons_append]
      exact List.mem_cons_of_mem _ hindex
    have hbelow : index ≠ outer.index := fun heq => houter.1 (heq ▸ hindex)
    rw [hnode, if_neg hbelow, if_neg hbeside]
  obtain ⟨-, ⟨hlt, hlabel, htoken, hchildren, hclosed⟩, hpath⟩ := h.holds
  have hself := hnode outer.index
  rw [if_pos rfl] at hself
  have hgone : (builder.tree.children outer.index).erase inner.index =
      outer.closed.map Shape.index := by
    have hnot : inner.index ∉ outer.closed.map Shape.index := by
      intro hmem
      obtain ⟨shape, hshape, heq⟩ := List.mem_map.mp hmem
      refine hne inner.index ?_ rfl
      rw [List.flatMap_cons, OpenNode.indices, List.cons_append]
      refine List.mem_cons_of_mem _ (List.mem_append_left _ (List.mem_map.mpr ⟨shape, ?_, heq⟩))
      exact List.mem_flatMap_of_mem hshape shape.mem_preorder_self
    rw [hchildren, List.erase_append_right _ hnot, List.erase_cons_head, List.append_nil]
  refine ⟨⟨Nat.lt_of_lt_of_le hlt hlength, ?_, ?_, ?_, ?_⟩, ?_⟩
  · rw [hself]
    exact hlabel
  · rw [hself]
    exact htoken
  · rw [Tree.children, hself, List.append_nil]
    exact hgone
  · intro shape hshape
    exact (hclosed shape hshape).of_node_eq hlength
      (hother _ (List.mem_append_left _ (List.mem_map_of_mem hshape)))
  · exact hpath.of_node_eq hlength fun index hindex => hother index (List.mem_append_right _ hindex)

/-- The path after going up: the innermost node joins the finished trees of the next one if it has
children, and is gone otherwise. -/
theorem ascend {outer : OpenNode} (h : builder.Grows inner (outer :: path)) :
    builder.ascend.Grows (if inner.closed = [] then outer else outer.add inner.close) path := by
  have hparent := h.parent?_inner
  rw [← h.cursor_eq] at hparent
  have hchildren : builder.tree.children builder.cursor = inner.closed.map Shape.index := by
    rw [h.cursor_eq, h.holds.1.2.2.2.1, List.append_nil]
  have hroot := h.root_eq
  rw [OpenNode.whole] at hroot
  rcases Builder.ascend_cases h.wellFormed with
    ⟨hnone, -⟩ | ⟨parent, hsome, ⟨hfull, heq⟩ | ⟨place, hempty, -, heq⟩⟩
  · rw [hparent] at hnone
    cases hnone
  · have hclosed : inner.closed ≠ [] := by
      rintro hnil
      rw [hchildren, hnil] at hfull
      exact hfull rfl
    rw [hparent] at hsome
    cases hsome
    rw [if_neg hclosed, heq]
    constructor
    · exact h.wellFormed
    · rfl
    · exact h.holds.close
    · exact (OpenNode.perm_indices_close inner outer path).nodup_iff.mpr h.nodup
    · exact hroot
  · have hclosed : inner.closed = [] := by
      rw [hchildren] at hempty
      exact List.map_eq_nil_iff.mp hempty
    rw [hparent] at hsome
    cases hsome
    have hdetached := h.holds_detach
    rw [if_pos hclosed, heq]
    constructor
    · exact h.wellFormed.detach hparent
    · rfl
    · rw [h.cursor_eq]
      exact hdetached
    · have hnodup := h.nodup
      rw [List.flatMap_cons] at hnodup
      exact (List.nodup_append.mp hnodup).2.1
    · rw [OpenNode.index_whole_add] at hroot
      exact hroot

/-- The tree of a builder is the whole of its open nodes. -/
theorem shape_eq (h : builder.Grows inner path) : builder.tree.shape = inner.whole path :=
  Tree.shape_eq_whole h.holds h.nodup h.root_eq

end Grows

end Builder

end TransitionNetwork
