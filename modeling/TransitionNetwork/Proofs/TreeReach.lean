import TransitionNetwork.Proofs.OpenTree
import TransitionNetwork.Proofs.GraphSearch

/-! The nodes in reach of the root. Where an arena holds a tree, the nodes that can be reached from the
top of the tree along children are the nodes of the tree. In the tree of a builder these are the open
nodes, which are the path from the root to the cursor, and the nodes of the finished trees. A finished
tree stands for tokens (`Shape.Lexical`): it has a token at each leaf and nowhere else. -/

namespace TransitionNetwork

namespace Shape

theorem preorder_subset {shape child : Shape} (h : child ∈ shape.children) :
    ∀ node ∈ child.preorder, node ∈ shape.preorder := by
  obtain ⟨index, label, token, children⟩ := shape
  intro node hnode
  rw [preorder_node]
  exact List.mem_cons_of_mem _ (List.mem_flatMap_of_mem h hnode)

/-- Induction over a tree from its leaves up. -/
@[elab_as_elim]
theorem induction {motive : Shape → Prop}
    (node : ∀ index label token children, (∀ child ∈ children, motive child) →
      motive (.node index label token children)) : ∀ shape, motive shape
  | .node index label token children =>
    node index label token children fun child _ => induction node child

/-! ### Trees that stand for tokens -/

/-- A token, or a node without a token over at least one such tree. -/
inductive Lexical : Shape → Prop
  | leaf (index : Nat) (token : Token) : Lexical (.node index token.category (some token) [])
  | node (index : Nat) (label : String) {children : List Shape} (hchildren : children ≠ [])
      (h : ∀ child ∈ children, Lexical child) : Lexical (.node index label none children)

namespace Lexical

variable {shape : Shape}

theorem of_mem (h : shape.Lexical) : ∀ node ∈ shape.preorder, node.Lexical := by
  induction h with
  | leaf index token =>
      intro node hnode
      rw [preorder_node, List.flatMap_nil, List.mem_singleton] at hnode
      subst hnode
      exact .leaf index token
  | node index label hchildren hlexical ih =>
      intro node hnode
      rw [preorder_node] at hnode
      rcases List.mem_cons.mp hnode with rfl | hbelow
      · exact .node index label hchildren hlexical
      · obtain ⟨child, hchild, hnode⟩ := List.mem_flatMap.mp hbelow
        exact ih child hchild node hnode

theorem exists_leaf (h : shape.Lexical) :
    ∃ leaf ∈ shape.preorder, leaf.children = [] ∧ leaf.token.isSome := by
  induction h with
  | leaf index token => exact ⟨_, mem_preorder_self _, rfl, rfl⟩
  | node index label hchildren _ ih =>
      obtain ⟨child, hchild⟩ := List.exists_mem_of_ne_nil _ hchildren
      obtain ⟨leaf, hleaf, htoken⟩ := ih child hchild
      refine ⟨leaf, ?_, htoken⟩
      apply preorder_subset _ leaf hleaf
      exact hchild

theorem leaf_of_token (h : shape.Lexical) {token : Token} (htoken : shape.token = some token) :
    shape.children = [] ∧ shape.label = token.category := by
  cases h with
  | leaf =>
      cases htoken
      exact ⟨rfl, rfl⟩
  | node => cases htoken

end Lexical

end Shape

namespace Tree

variable {tree : Tree} {shape : Shape}

/-! ### Reaching the nodes of a tree -/

theorem exists_of_reaches (h : ∀ node ∈ shape.preorder, tree.Holds node) {index : Nat}
    (hreaches : Reaches tree.children shape.index index) :
    ∃ node ∈ shape.preorder, node.index = index := by
  generalize htop : shape.index = top at hreaches
  induction hreaches using Relation.ReflTransGen.head_induction_on generalizing shape with
  | refl => exact ⟨shape, shape.mem_preorder_self, htop⟩
  | head hedge _ ih =>
      obtain ⟨-, -, -, hchildren⟩ := h shape shape.mem_preorder_self
      rw [← htop, hchildren] at hedge
      obtain ⟨child, hchild, hindex⟩ := List.mem_map.mp hedge
      have hbelow := Shape.preorder_subset hchild
      obtain ⟨node, hnode, heq⟩ := ih (fun node hnode => h node (hbelow node hnode)) hindex
      exact ⟨node, hbelow node hnode, heq⟩

theorem reaches_of_mem (h : ∀ node ∈ shape.preorder, tree.Holds node) :
    ∀ node ∈ shape.preorder, Reaches tree.children shape.index node.index := by
  induction shape using Shape.induction with
  | node index label token children ih =>
      have hchildren := (h _ (Shape.mem_preorder_self _)).2.2.2
      intro node hnode
      rw [Shape.preorder_node] at hnode
      rcases List.mem_cons.mp hnode with rfl | hbelow
      · exact .refl
      · obtain ⟨child, hchild, hnode⟩ := List.mem_flatMap.mp hbelow
        refine .head ?_ (ih child hchild (fun other hother => h other ?_) node hnode)
        · rw [hchildren]
          exact List.mem_map_of_mem hchild
        · exact Shape.preorder_subset hchild other hother

/-- The nodes in reach of the top of a tree are the nodes of the tree. -/
theorem reaches_iff (h : ∀ node ∈ shape.preorder, tree.Holds node) (index : Nat) :
    Reaches tree.children shape.index index ↔ index ∈ shape.preorder.map Shape.index := by
  rw [List.mem_map]
  constructor
  · exact exists_of_reaches h
  · rintro ⟨node, hnode, rfl⟩
    exact reaches_of_mem h node hnode

/-! ### The way up from a node -/

/-- The nodes from the top down to a node, so many steps up at most. -/
def pathWithin (tree : Tree) : (bound : Nat) → (index : Nat) → List Nat
  | 0, index => [index]
  | bound + 1, index =>
    match tree.parent? index with
    | none => [index]
    | some parent => tree.pathWithin bound parent ++ [index]

/-- The nodes from the top down to a node. No path is longer than there are nodes. -/
def pathTo (tree : Tree) (index : Nat) : List Nat :=
  tree.pathWithin tree.nodes.length index

theorem HoldsPath.holds_whole {inner : OpenNode} {path : List OpenNode}
    (h : tree.HoldsPath [] (inner :: path)) :
    ∀ node ∈ (inner.whole path).preorder, tree.Holds node := by
  induction path generalizing inner with
  | nil => exact h.1.holds_close
  | cons outer path ih => exact ih h.close

/-- The way up from the innermost open node passes the others. A parent stands before its children, so
the index bounds the number of steps. -/
theorem HoldsPath.pathWithin_eq (hwf : tree.WellFormed) {next : List Nat} {inner : OpenNode}
    {path : List OpenNode} (h : tree.HoldsPath next (inner :: path))
    (hroot : (inner.whole path).index = root) {bound : Nat} (hbound : inner.index ≤ bound) :
    tree.pathWithin bound inner.index = (inner :: path).reverse.map OpenNode.index := by
  induction path generalizing inner next bound with
  | nil =>
      have hnone : tree.parent? inner.index = none := by
        rw [show inner.index = root from hroot]
        exact hwf.root_parent
      cases bound with
      | zero => rfl
      | succ bound =>
          rw [pathWithin, hnone]
          rfl
  | cons outer path ih =>
      have hparent : tree.parent? inner.index = some outer.index := by
        rw [← hwf.mem_children, h.2.1.2.2.2.1]
        simp
      have hless := hwf.parent_lt _ _ hparent
      rw [OpenNode.whole, OpenNode.index_whole_add] at hroot
      obtain ⟨bound, rfl⟩ := Nat.exists_eq_add_one_of_ne_zero (n := bound) (by omega)
      rw [pathWithin, hparent]
      dsimp only
      rw [ih h.2 hroot (by omega)]
      simp

end Tree

/-! ### The whole of the open nodes -/

namespace OpenNode

theorem head?_path (inner : OpenNode) (path : List OpenNode) :
    ((inner :: path).reverse.map OpenNode.index).head? = some (inner.whole path).index := by
  induction path generalizing inner with
  | nil => rfl
  | cons outer path ih =>
      have hlast := ih outer
      rw [whole, index_whole_add, ← hlast]
      simp [List.head?_append]

/-- A node of the whole tree is an open node or belongs to a finished tree. -/
theorem mem_preorder_whole {inner : OpenNode} {path : List OpenNode} {node : Shape}
    (h : node ∈ (inner.whole path).preorder) :
    (∃ outer ∈ inner :: path, node.index = outer.index ∧ node.token = none) ∨
      ∃ outer ∈ inner :: path, ∃ shape ∈ outer.closed, node ∈ shape.preorder := by
  have hclose : ∀ outer : OpenNode, node ∈ outer.close.preorder →
      node.index = outer.index ∧ node.token = none ∨
        ∃ shape ∈ outer.closed, node ∈ shape.preorder := by
    intro outer hnode
    rw [close, Shape.preorder_node] at hnode
    rcases List.mem_cons.mp hnode with rfl | hbelow
    · exact .inl ⟨rfl, rfl⟩
    · exact .inr (List.mem_flatMap.mp hbelow)
  induction path generalizing inner with
  | nil =>
      rcases hclose inner h with hself | hbelow
      · exact .inl ⟨inner, List.mem_cons_self, hself⟩
      · exact .inr ⟨inner, List.mem_cons_self, hbelow⟩
  | cons outer path ih =>
      have hlift : ∀ other ∈ path, other ∈ inner :: outer :: path := fun other hother =>
        List.mem_cons_of_mem _ (List.mem_cons_of_mem _ hother)
      have houter : outer ∈ inner :: outer :: path := List.mem_cons_of_mem _ List.mem_cons_self
      rcases ih h with ⟨other, hother, hself⟩ | ⟨other, hother, shape, hshape, hbelow⟩
      · rcases List.mem_cons.mp hother with rfl | hother
        · exact .inl ⟨outer, houter, hself⟩
        · exact .inl ⟨other, hlift other hother, hself⟩
      · rcases List.mem_cons.mp hother with rfl | hother
        · rcases List.mem_append.mp hshape with hold | hnew
          · exact .inr ⟨outer, houter, shape, hold, hbelow⟩
          · rw [List.mem_singleton.mp hnew] at hbelow
            rcases hclose inner hbelow with hself | hbelow
            · exact .inl ⟨inner, List.mem_cons_self, hself⟩
            · exact .inr ⟨inner, List.mem_cons_self, hbelow⟩
        · exact .inr ⟨other, hlift other hother, shape, hshape, hbelow⟩

theorem tokens_whole (inner : OpenNode) (path : List OpenNode) :
    (inner.whole path).tokens = inner.tokens path := by
  induction path generalizing inner with
  | nil => exact Shape.tokens_node _ _ _
  | cons outer path ih =>
      rw [whole, ih, tokens_add, tokens, close, Shape.tokens_node]

end OpenNode

namespace Builder.Grows

variable {builder : Builder} {inner : OpenNode} {path : List OpenNode}

theorem pathTo_cursor (h : builder.Grows inner path) :
    builder.tree.pathTo builder.cursor = (inner :: path).reverse.map OpenNode.index := by
  rw [Tree.pathTo, h.cursor_eq]
  exact h.holds.pathWithin_eq h.wellFormed h.root_eq (Nat.le_of_lt h.holds.1.1)

/-- The nodes in reach of the root are those of the tree, each once. -/
theorem reaches_root_iff (h : builder.Grows inner path) (index : Nat) :
    Reaches builder.tree.children Tree.root index ↔
      index ∈ builder.tree.shape.preorder.map Shape.index := by
  rw [h.shape_eq, ← h.root_eq]
  exact Tree.reaches_iff h.holds.holds_whole index

theorem nodup_preorder (h : builder.Grows inner path) :
    (builder.tree.shape.preorder.map Shape.index).Nodup := by
  have hnodup := h.nodup
  rw [h.shape_eq]
  clear h
  induction path generalizing inner with
  | nil =>
      rw [List.flatMap_singleton] at hnodup
      rw [OpenNode.whole, OpenNode.indices_close]
      exact hnodup
  | cons outer path ih => exact ih ((OpenNode.perm_indices_close inner outer path).nodup_iff.mpr hnodup)

end Builder.Grows

end TransitionNetwork
