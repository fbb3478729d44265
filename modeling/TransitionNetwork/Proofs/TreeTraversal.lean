import TransitionNetwork.Proofs.TreeArena
import TransitionNetwork.Proofs.GrammarDerivation
import Mathlib.Algebra.GroupWithZero.Nat
import Mathlib.Data.List.Nodup
import Mathlib.Data.Nat.Init

/-! Traversals of syntax trees. A tree that was edited in any order, detached nodes included, stays
well-formed: its nodes hang together as a forest in which a child stands behind its parent. Going down from
a node therefore comes to an end before the bound of the traversals is reached, and every traversal sees the
nodes that the depth-first order lists. That no node is listed twice makes the number of nodes a bound for
counting them with a stack, in whatever order the stack takes them. -/

namespace TransitionNetwork

namespace Tree

variable {tree : Tree} {index : Nat}

/-! ### Detaching all children -/

/-- Detaching the nodes of a list takes away their parents and nothing else. -/
theorem node_orphan {children : List Nat} (h : ∀ child ∈ children, child < tree.nodes.length)
    (other : Nat) :
    (children.foldl (fun tree child => tree.update child fun node => { node with parent := none })
        tree).node other =
      if other ∈ children then { tree.node other with parent := none } else tree.node other := by
  induction children generalizing tree with
  | nil => simp
  | cons child children ih =>
      obtain ⟨hchild, hrest⟩ := List.forall_mem_cons.mp h
      rw [List.foldl_cons, ih (by simpa using hrest), node_update hchild]
      by_cases hother : other = child
      · subst hother
        simp
      · simp [hother]

theorem length_orphan (children : List Nat) (tree : Tree) :
    (children.foldl (fun tree child => tree.update child fun node => { node with parent := none })
      tree).nodes.length = tree.nodes.length := by
  induction children generalizing tree with
  | nil => rfl
  | cons child children ih => rw [List.foldl_cons, ih, length_update]

namespace WellFormed

theorem lt_of_mem_children (hwf : tree.WellFormed) {child : Nat} (h : child ∈ tree.children index) :
    index < child :=
  hwf.parent_lt child index ((hwf.mem_children child index).mp h)

/-- Detaching the children of a node changes it and them and nothing else. -/
theorem node_detachChildren (hwf : tree.WellFormed) (hindex : index < tree.nodes.length)
    (other : Nat) :
    (tree.detachChildren index).node other =
      if other = index then { tree.node index with children := [] }
      else if other ∈ tree.children index then { tree.node other with parent := none }
      else tree.node other := by
  have hself : index ∉ tree.children index := fun h => Nat.lt_irrefl _ (hwf.lt_of_mem_children h)
  have hinside : ∀ child ∈ tree.children index,
      child < (tree.update index fun node => { node with children := [] }).nodes.length := by
    intro child hchild
    rw [length_update]
    exact hwf.lt_length_of_mem hchild
  rw [detachChildren]
  dsimp only
  rw [node_orphan hinside, node_update hindex]
  by_cases hother : other = index
  · subst hother
    rw [if_neg hself, if_pos rfl, if_pos rfl]
  · rw [if_neg hother, if_neg hother]

theorem detachChildren (hwf : tree.WellFormed) (hindex : index < tree.nodes.length) :
    (tree.detachChildren index).WellFormed := by
  have hparent? : ∀ other, (tree.detachChildren index).parent? other =
      if tree.parent? other = some index then none else tree.parent? other := by
    intro other
    rw [parent?, hwf.node_detachChildren hindex]
    by_cases hother : other = index
    · subst hother
      have hself : tree.parent? other ≠ some other := fun h =>
        Nat.lt_irrefl _ (hwf.parent_lt other other h)
      rw [if_pos rfl, if_neg hself, parent?]
    · rw [if_neg hother]
      simp only [← hwf.mem_children]
      split <;> rfl
  have hchildren : ∀ other, (tree.detachChildren index).children other =
      if other = index then [] else tree.children other := by
    intro other
    rw [children, hwf.node_detachChildren hindex]
    split
    · rfl
    · split <;> rfl
  constructor
  · rw [Tree.detachChildren, length_orphan, length_update]
    exact hwf.root_lt
  · rw [hparent?, hwf.root_parent, if_neg (by simp)]
  · intro other parent h
    rw [hparent?] at h
    split at h
    · cases h
    · exact hwf.parent_lt other parent h
  · intro other parent
    rw [hparent?, hchildren]
    have hold := hwf.mem_children other parent
    by_cases hsame : parent = index
    · subst hsame
      rw [if_pos rfl]
      split <;> simp [*]
    · rw [if_neg hsame, hold]
      split
      · next hbelow => simp [hbelow, Ne.symm hsame]
      · rfl
  · intro other
    rw [hchildren]
    split
    · exact List.nodup_nil
    · exact hwf.nodup_children other

end WellFormed

/-! ### Edited trees -/

/-- The trees that come of editing a root, each edit at a node of the arena. -/
inductive Edited : Tree → Prop
  | single (label : String) : Edited (single label)
  | addChild {tree : Tree} (h : Edited tree) {parent : Nat} (hparent : parent < tree.nodes.length)
      (label : String) (token : Option Token) : Edited (tree.addChild parent label token).1
  | detach {tree : Tree} (h : Edited tree) {index : Nat} (hindex : index < tree.nodes.length) :
      Edited (tree.detach index).1
  | detachChildren {tree : Tree} (h : Edited tree) {index : Nat}
      (hindex : index < tree.nodes.length) : Edited (tree.detachChildren index)
  | clear {tree : Tree} (h : Edited tree) : Edited tree.clear

theorem Edited.wellFormed (h : tree.Edited) : tree.WellFormed := by
  induction h with
  | single label => exact wellFormed_single label
  | addChild _ hparent label token ih => exact ih.addChild hparent label token
  | @detach tree _ index _ ih =>
      cases hparent : tree.parent? index with
      | none =>
          rw [Tree.detach, hparent]
          exact ih
      | some parent => exact ih.detach hparent
  | detachChildren _ hindex ih => exact ih.detachChildren hindex
  | clear _ ih => exact ih.clear

/-! ### The depth-first order -/

/-- The nodes in reach of a node, each before its children and the children in order. -/
def preorder (tree : Tree) (index : Nat := root) : List Nat :=
  (tree.shape index).preorder.map Shape.index

namespace WellFormed

/-- There is no way down without an end. -/
theorem wellFounded_children (hwf : tree.WellFormed) :
    WellFounded fun child index => child ∈ tree.children index := by
  refine Subrelation.wf ?_ (measure fun index => tree.nodes.length - index).wf
  intro child index h
  have hbefore := hwf.lt_of_mem_children h
  have hinside := hwf.lt_length_of_mem h
  show tree.nodes.length - child < tree.nodes.length - index
  omega

/-- Once the way down reaches the end of the arena, one step more changes nothing. -/
theorem shapeWithin_succ (hwf : tree.WellFormed) {depth : Nat}
    (h : tree.nodes.length ≤ index + depth) :
    tree.shapeWithin (depth + 1) index = tree.shapeWithin depth index := by
  induction depth generalizing index with
  | zero =>
      have hnone : tree.children index = [] := by
        rw [children, node_of_length_le (show tree.nodes.length ≤ index from h)]
      rw [shapeWithin, shapeWithin, hnone, List.map_nil]
  | succ depth ih =>
      rw [shapeWithin, shapeWithin]
      refine congrArg _ (List.map_congr_left fun child hchild => ih ?_)
      have := hwf.lt_of_mem_children hchild
      omega

/-- The bound on the depth is never reached. -/
theorem shapeWithin_eq_shape (hwf : tree.WellFormed) (index : Nat) {depth : Nat}
    (h : tree.nodes.length ≤ depth) : tree.shapeWithin depth index = tree.shape index := by
  induction depth, h using Nat.le_induction with
  | base => rfl
  | succ depth hle ih =>
      rw [← ih]
      exact hwf.shapeWithin_succ (Nat.le_add_left_of_le hle)

theorem shape_eq (hwf : tree.WellFormed) (index : Nat) :
    tree.shape index = .node index (tree.node index).label (tree.node index).token
      ((tree.children index).map fun child => tree.shape child) := by
  rw [← hwf.shapeWithin_eq_shape index (Nat.le_succ tree.nodes.length)]
  rfl

theorem preorder_eq (hwf : tree.WellFormed) (index : Nat) :
    tree.preorder index =
      index :: (tree.children index).flatMap fun child => tree.preorder child := by
  rw [preorder, hwf.shape_eq, Shape.preorder_node, List.map_cons, List.flatMap_map, List.map_flatMap]
  rfl

theorem le_of_mem_preorder (hwf : tree.WellFormed) {other : Nat} (h : other ∈ tree.preorder index) :
    index ≤ other := by
  induction index using hwf.wellFounded_children.induction with
  | _ index ih =>
      rw [hwf.preorder_eq, List.mem_cons, List.mem_flatMap] at h
      rcases h with rfl | ⟨child, hchild, hother⟩
      · exact Nat.le_refl _
      · exact Nat.le_trans (Nat.le_of_lt (hwf.lt_of_mem_children hchild)) (ih child hchild hother)

/-- The nodes in reach of a node other than itself have their parents in reach. -/
theorem parent_mem_preorder (hwf : tree.WellFormed) {other : Nat}
    (h : other ∈ tree.preorder index) (hne : other ≠ index) :
    ∃ parent, tree.parent? other = some parent ∧ parent ∈ tree.preorder index := by
  induction index using hwf.wellFounded_children.induction with
  | _ index ih =>
      rw [hwf.preorder_eq, List.mem_cons, List.mem_flatMap] at h
      obtain ⟨child, hchild, hother⟩ := h.resolve_left hne
      rw [hwf.preorder_eq index]
      by_cases hself : other = child
      · subst hself
        exact ⟨index, (hwf.mem_children other index).mp hchild, List.mem_cons_self⟩
      · obtain ⟨parent, hparent, hmem⟩ := ih child hchild hother hself
        exact ⟨parent, hparent, List.mem_cons_of_mem _ (List.mem_flatMap_of_mem hchild hmem)⟩

/-- Nothing is in reach of two children of one node. The way up from such a node would pass one child
below the other, whose parent does not stand there. -/
theorem disjoint_preorder (hwf : tree.WellFormed) {left right : Nat}
    (hleft : left ∈ tree.children index) (hright : right ∈ tree.children index)
    (hne : left ≠ right) : (tree.preorder left).Disjoint (tree.preorder right) := by
  -- a child of the node is not in reach of another one
  have hapart : ∀ {child other : Nat}, child ∈ tree.children index → other ∈ tree.children index →
      child ≠ other → child ∉ tree.preorder other := by
    intro child other hchild hother hne hmem
    obtain ⟨parent, hparent, hbelow⟩ := hwf.parent_mem_preorder hmem hne
    rw [(hwf.mem_children child index).mp hchild] at hparent
    cases hparent
    have := hwf.le_of_mem_preorder hbelow
    have := hwf.lt_of_mem_children hother
    omega
  intro other
  induction other using Nat.strongRecOn with
  | _ other ih =>
      intro hmem hmem'
      by_cases hself : other = left
      · exact hapart hleft hright hne (hself ▸ hmem')
      · by_cases hself' : other = right
        · exact hapart hright hleft (Ne.symm hne) (hself' ▸ hmem)
        · obtain ⟨parent, hparent, hbelow⟩ := hwf.parent_mem_preorder hmem hself
          obtain ⟨parent', hparent', hbelow'⟩ := hwf.parent_mem_preorder hmem' hself'
          rw [hparent] at hparent'
          cases hparent'
          exact ih parent (hwf.parent_lt other parent hparent) hbelow hbelow'

theorem nodup_preorder (hwf : tree.WellFormed) (index : Nat) : (tree.preorder index).Nodup := by
  induction index using hwf.wellFounded_children.induction with
  | _ index ih =>
      rw [hwf.preorder_eq, List.nodup_cons, List.nodup_flatMap]
      refine ⟨?_, ih, ?_⟩
      · intro hmem
        obtain ⟨child, hchild, hbelow⟩ := List.mem_flatMap.mp hmem
        exact Nat.not_le_of_lt (hwf.lt_of_mem_children hchild) (hwf.le_of_mem_preorder hbelow)
      · refine (hwf.nodup_children index).imp_of_mem ?_
        intro left right hleft hright hne
        exact hwf.disjoint_preorder hleft hright hne

/-- No more nodes are in reach of the root than there are in the arena. -/
theorem length_preorder_le (hwf : tree.WellFormed) :
    tree.preorder.length ≤ tree.nodes.length := by
  have hinside : tree.preorder ⊆ List.range tree.nodes.length := by
    intro other hmem
    rw [List.mem_range]
    by_cases hself : other = root
    · rw [hself]
      exact hwf.root_lt
    · obtain ⟨parent, hparent, -⟩ := hwf.parent_mem_preorder hmem hself
      exact lt_length_of_parent? hparent
  have hcount := (hwf.nodup_preorder root).length_le_of_subset hinside
  rwa [List.length_range] at hcount

/-! ### What the traversals see -/

/-- Counting comes to all nodes in reach of the pending ones, in whatever order they lie on the stack. -/
theorem countFrom_eq (hwf : tree.WellFormed) {bound : Nat} {pending : List Nat}
    (h : (pending.map fun index => (tree.preorder index).length).sum ≤ bound) :
    tree.countFrom bound pending =
      (pending.map fun index => (tree.preorder index).length).sum := by
  induction bound generalizing pending with
  | zero => rw [countFrom, Nat.le_zero.mp h]
  | succ bound ih =>
      cases pending with
      | nil => rfl
      | cons index pending =>
          have hcount : (tree.preorder index).length =
              ((tree.children index).map fun child => (tree.preorder child).length).sum + 1 := by
            rw [hwf.preorder_eq, List.length_cons, List.length_flatMap]
          have hstack : ((((tree.children index).reverse ++ pending).map
              fun index => (tree.preorder index).length).sum) + 1 =
              ((index :: pending).map fun index => (tree.preorder index).length).sum := by
            rw [List.map_append, List.sum_append, List.map_reverse, List.sum_reverse, List.map_cons,
              List.sum_cons, hcount]
            omega
          rw [countFrom, ih (by omega), hstack]

theorem countFrom_root (hwf : tree.WellFormed) {bound : Nat} (h : tree.nodes.length ≤ bound) :
    tree.countFrom bound [root] = tree.preorder.length := by
  have hcount := hwf.length_preorder_le
  rw [hwf.countFrom_eq] <;> simp only [List.map_singleton, List.sum_singleton]
  omega

end WellFormed

end Tree

namespace Shape

theorem leavesAll_eq_flatMap (shapes : List Shape) : leavesAll shapes = shapes.flatMap leaves := by
  induction shapes with
  | nil => rfl
  | cons shape shapes ih => rw [leavesAll, ih, List.flatMap_cons]

theorem searchAll?_eq_findSome? (wanted : String) (shapes : List Shape) :
    searchAll? wanted shapes = shapes.findSome? (search? wanted) := by
  induction shapes with
  | nil => rfl
  | cons shape shapes ih =>
      rw [searchAll?, ih, List.findSome?_cons]
      cases search? wanted shape <;> rfl

end Shape

namespace Tree

variable {tree : Tree}

namespace WellFormed

theorem leaves_shape (hwf : tree.WellFormed) (index : Nat) :
    (tree.shape index).leaves =
      (tree.preorder index).filter fun other => (tree.node other).isLeaf := by
  induction index using hwf.wellFounded_children.induction with
  | _ index ih =>
      have hself : (tree.node index).isLeaf = (tree.children index).isEmpty := rfl
      rw [hwf.shape_eq, hwf.preorder_eq, Shape.leaves, Shape.leavesAll_eq_flatMap, List.filter_cons,
        List.filter_flatMap, List.flatMap_map, List.isEmpty_map, ← List.flatMap_congr ih, hself]
      by_cases hleaf : tree.children index = []
      · simp [hleaf]
      · simp [hleaf]

theorem search?_eq_find? (hwf : tree.WellFormed) (label : String) (index : Nat) :
    tree.search? label index =
      (tree.preorder index).find? fun other => (tree.node other).label = label := by
  induction index using hwf.wellFounded_children.induction with
  | _ index ih =>
      have hbelow : (tree.children index).findSome? (fun child => tree.search? label child) =
          (tree.children index).findSome? fun child =>
            (tree.preorder child).find? fun other => (tree.node other).label = label := by
        rw [← Function.id_comp fun child => tree.search? label child, ← List.findSome?_map,
          List.map_congr_left ih, List.findSome?_map, Function.id_comp]
      rw [search?, hwf.shape_eq, hwf.preorder_eq, Shape.search?, Shape.searchAll?_eq_findSome?,
        List.find?_cons, List.find?_flatMap, List.findSome?_map, ← hbelow]
      by_cases hlabel : (tree.node index).label = label
      · rw [if_pos hlabel, decide_eq_true hlabel]
      · rw [if_neg hlabel, decide_eq_false hlabel]
        rfl

theorem siblings_eq_erase (hwf : tree.WellFormed) {index parent : Nat}
    (h : tree.parent? index = some parent) :
    tree.siblings index = (tree.children parent).erase index := by
  rw [siblings, h, (hwf.nodup_children parent).erase_eq_filter]
  refine List.filter_congr fun other _ => ?_
  rw [bne, decide_not]
  rfl

theorem count_children (hwf : tree.WellFormed) (index parent : Nat) :
    (tree.children parent).count index =
      if tree.parent? index = some parent then 1 else 0 := by
  rw [(hwf.nodup_children parent).count]
  simp only [hwf.mem_children]

end WellFormed

/-- However a tree was edited, its nodes make up one tree and some detached ones, and its traversals agree.
The root has no parent, a parent stands before its children, and a node is a child exactly once of its
parent and of no other. So no way down is without an end, the bounds of the traversals are never reached,
and what is in reach of a node are the node and then what is in reach of each child in turn. Of this list
the size of the tree is the length, its leaves are those without children, a search finds the first with
the label, and the siblings of a node are the children of its parent without it. -/
theorem Edited.traversals_agree (h : tree.Edited) :
    tree.parent? root = none ∧
    (∀ index parent, tree.parent? index = some parent → parent < index) ∧
    (∀ index parent, (tree.children parent).count index =
      if tree.parent? index = some parent then 1 else 0) ∧
    (WellFounded fun child index => child ∈ tree.children index) ∧
    (∀ index depth, tree.nodes.length ≤ depth →
      tree.shapeWithin depth index = tree.shape index) ∧
    (∀ bound, tree.nodes.length ≤ bound → tree.countFrom bound [root] = tree.size) ∧
    (∀ index, tree.preorder index =
      index :: (tree.children index).flatMap fun child => tree.preorder child) ∧
    tree.size = tree.preorder.length ∧
    tree.leaves = tree.preorder.filter (fun index => (tree.node index).isLeaf) ∧
    (∀ label index, tree.search? label index =
      (tree.preorder index).find? fun other => (tree.node other).label = label) ∧
    ∀ index, tree.siblings index =
      match tree.parent? index with
      | some parent => (tree.children parent).erase index
      | none => [] := by
  have hwf := h.wellFormed
  have hsize : tree.size = tree.preorder.length := hwf.countFrom_root (Nat.le_refl _)
  refine ⟨hwf.root_parent, hwf.parent_lt, hwf.count_children, hwf.wellFounded_children,
    fun index _ => hwf.shapeWithin_eq_shape index, ?_, hwf.preorder_eq, hsize, hwf.leaves_shape root,
    hwf.search?_eq_find?, ?_⟩
  · intro bound hbound
    rw [hsize]
    exact hwf.countFrom_root hbound
  · intro index
    cases hparent : tree.parent? index with
    | none => rw [siblings, hparent]
    | some parent => exact hwf.siblings_eq_erase hparent

/-- A root with two leaves, and a branch that was detached and has grown on since. -/
def pruned : Tree :=
  let branch := (((single "A").addChild 0 "B" none).1.addChild 1 "C" none).1
  let detached := (((branch.addChild 0 "D" none).1.detach 1).1.addChild 2 "E" none).1
  (detached.addChild 0 "D" none).1

theorem pruned_traversals_agree :
    pruned.Edited ∧ pruned.nodes.length = 6 ∧ pruned.parent? 1 = none ∧ pruned.children 1 = [2] ∧
      pruned.size = [0, 3, 5].length ∧ pruned.leaves = [3, 5] ∧ pruned.search? "D" = some 3 ∧
      pruned.search? "E" = none ∧ pruned.search? "E" 1 = some 4 ∧ pruned.siblings 5 = [3] := by
  have hedited : pruned.Edited :=
    .addChild (.addChild (.detach (.addChild (.addChild (.addChild (.single "A") (by decide) "B" none)
      (by decide) "C" none) (by decide) "D" none) (by decide)) (by decide) "E" none) (by decide) "D"
      none
  obtain ⟨-, -, -, -, -, -, -, hsize, hleaves, hsearch, hsiblings⟩ := hedited.traversals_agree
  have hroot : pruned.preorder = [0, 3, 5] := by decide
  have hbranch : pruned.preorder 1 = [1, 2, 4] := by decide
  rw [hsize, hleaves, hsearch, hsearch, hsearch, hsiblings, hroot, hbranch]
  exact ⟨hedited, by decide⟩

end Tree

end TransitionNetwork
