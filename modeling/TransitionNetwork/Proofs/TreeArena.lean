import TransitionNetwork.Tree.Basic
import Mathlib.Data.List.InsertIdx

/-! Arenas of syntax trees. `WellFormed` says that the parents and the children recorded in an arena
describe one forest: the root has no parent, a parent stands before its children, and a node is a
child exactly where its parent says so. Growing and pruning keep an arena well-formed, and each of the
two is undone exactly by its counterpart in the journal of a builder. -/

namespace TransitionNetwork.Tree

/-! ### Nodes after an edit -/

theorem ext_node {left right : Tree} (hlength : left.nodes.length = right.nodes.length)
    (hnode : ∀ index, left.node index = right.node index) : left = right := by
  have hnodes : left.nodes = right.nodes := by
    apply List.ext_getElem hlength
    intro index hleft hright
    have h := hnode index
    rw [node, node, List.getElem?_eq_getElem hleft, List.getElem?_eq_getElem hright] at h
    exact h
  cases left
  cases right
  exact congrArg Tree.mk hnodes

theorem node_of_length_le {tree : Tree} {index : Nat} (h : tree.nodes.length ≤ index) :
    tree.node index = { label := "" } := by
  rw [node, List.getElem?_eq_none h, Option.getD_none]

theorem lt_length_of_parent? {tree : Tree} {index parent : Nat}
    (h : tree.parent? index = some parent) : index < tree.nodes.length := by
  by_contra hbeyond
  rw [parent?, node_of_length_le (Nat.le_of_not_lt hbeyond)] at h
  exact absurd h (by simp)

@[simp] theorem length_update (tree : Tree) (index : Nat) (change : Node → Node) :
    (tree.update index change).nodes.length = tree.nodes.length := by
  rw [update, List.length_modify]

theorem node_update {tree : Tree} {index : Nat} (hindex : index < tree.nodes.length)
    (change : Node → Node) (other : Nat) :
    (tree.update index change).node other =
      if other = index then change (tree.node index) else tree.node other := by
  rw [node, update, List.getElem?_modify]
  by_cases h : other = index
  · subst h
    simp [node, List.getElem?_eq_getElem hindex]
  · simp [h, Ne.symm h, node]

@[simp] theorem length_addChild (tree : Tree) (parent : Nat) (label : String)
    (token : Option Token) :
    (tree.addChild parent label token).1.nodes.length = tree.nodes.length + 1 := by
  simp [addChild]

theorem node_append (nodes : List Node) (added : Node) (index : Nat) :
    (⟨nodes ++ [added]⟩ : Tree).node index =
      if index = nodes.length then added else (⟨nodes⟩ : Tree).node index := by
  rw [node, node]
  rcases Nat.lt_trichotomy index nodes.length with h | h | h
  · rw [List.getElem?_append_left h, if_neg (Nat.ne_of_lt h)]
  · subst h
    simp
  · have hbeyond : (nodes ++ [added]).length ≤ index := by
      rw [List.length_append, List.length_singleton]
      omega
    rw [List.getElem?_eq_none hbeyond, List.getElem?_eq_none (Nat.le_of_lt h),
      if_neg (Nat.ne_of_gt h)]

/-- A new child changes its parent and nothing else. -/
theorem node_addChild {tree : Tree} {parent : Nat} (hparent : parent < tree.nodes.length)
    (label : String) (token : Option Token) (index : Nat) :
    (tree.addChild parent label token).1.node index =
      if index = tree.nodes.length then { label, token, parent := some parent }
      else if index = parent then
        { tree.node parent with children := tree.children parent ++ [tree.nodes.length] }
      else tree.node index := by
  rw [addChild]
  dsimp only
  rw [node_append, length_update]
  congr 1
  exact node_update hparent _ index

/-! ### Well-formed arenas -/

/-- The parents and children of an arena agree. Nodes that were detached are part of the arena too:
they have no parent, like the root. -/
structure WellFormed (tree : Tree) : Prop where
  root_lt : root < tree.nodes.length
  root_parent : tree.parent? root = none
  parent_lt : ∀ index parent, tree.parent? index = some parent → parent < index
  mem_children : ∀ index parent, index ∈ tree.children parent ↔ tree.parent? index = some parent
  nodup_children : ∀ index, (tree.children index).Nodup

theorem wellFormed_of_node {node : Node} (hparent : node.parent = none)
    (hchildren : node.children = []) : (⟨[node]⟩ : Tree).WellFormed := by
  have hnode : ∀ index, (⟨[node]⟩ : Tree).children index = [] ∧
      (⟨[node]⟩ : Tree).parent? index = none := by
    intro index
    cases index <;> simp [children, parent?, Tree.node, hparent, hchildren]
  constructor
  · simp [root]
  · exact (hnode root).2
  · intro index parent h
    exact absurd h (by simp [(hnode index).2])
  · intro index parent
    simp [(hnode index).2, (hnode parent).1]
  · intro index
    simp [(hnode index).1]

theorem wellFormed_single (label : String) : (single label).WellFormed :=
  wellFormed_of_node rfl rfl

namespace WellFormed

variable {tree : Tree}

/-- The nodes of a child list are nodes of the arena. -/
theorem lt_length_of_mem (hwf : tree.WellFormed) {index parent : Nat}
    (hmem : index ∈ tree.children parent) : index < tree.nodes.length :=
  lt_length_of_parent? ((hwf.mem_children index parent).mp hmem)

theorem addChild (hwf : tree.WellFormed) {parent : Nat} (hparent : parent < tree.nodes.length)
    (label : String) (token : Option Token) :
    (tree.addChild parent label token).1.WellFormed := by
  have hparent? : ∀ index, (tree.addChild parent label token).1.parent? index =
      if index = tree.nodes.length then some parent else tree.parent? index := by
    intro index
    rw [parent?, node_addChild hparent]
    by_cases hnew : index = tree.nodes.length
    · rw [if_pos hnew, if_pos hnew]
    · rw [if_neg hnew, if_neg hnew]
      by_cases hsame : index = parent
      · rw [if_pos hsame, hsame, parent?]
      · rw [if_neg hsame, parent?]
  have hchildren : ∀ index, (tree.addChild parent label token).1.children index =
      if index = parent then tree.children parent ++ [tree.nodes.length]
      else if index = tree.nodes.length then [] else tree.children index := by
    intro index
    rw [children, node_addChild hparent]
    by_cases hsame : index = parent
    · rw [if_neg (by omega), if_pos hsame, if_pos hsame]
    · rw [if_neg hsame, if_neg hsame]
      by_cases hnew : index = tree.nodes.length
      · rw [if_pos hnew, if_pos hnew]
      · rw [if_neg hnew, if_neg hnew, children]
  have hfresh : ∀ index, tree.nodes.length ∉ tree.children index := fun index hmem =>
    Nat.lt_irrefl _ (hwf.lt_length_of_mem hmem)
  have hunborn : tree.children tree.nodes.length = [] := by
    rw [children, node_of_length_le (Nat.le_refl _)]
  have hroot : root ≠ tree.nodes.length := Nat.ne_of_lt hwf.root_lt
  constructor
  · rw [length_addChild]
    exact Nat.lt_succ_of_lt hwf.root_lt
  · rw [hparent?, if_neg hroot]
    exact hwf.root_parent
  · intro index other h
    rw [hparent?] at h
    split at h
    · next hnew =>
      cases h
      omega
    · exact hwf.parent_lt index other h
  · intro index other
    rw [hparent?, hchildren]
    have hold := hwf.mem_children index other
    by_cases hnew : index = tree.nodes.length
    · subst hnew
      rw [if_pos rfl]
      split
      · next hsame => simp [hsame]
      · next hother =>
        have hnone : tree.nodes.length ∉ (if other = tree.nodes.length then []
            else tree.children other) := by
          split
          · exact List.not_mem_nil
          · exact hfresh other
        simp [hnone, Ne.symm hother]
    · rw [if_neg hnew]
      split
      · next hsame =>
        subst hsame
        rw [List.mem_append, List.mem_singleton, hold]
        simp [hnew]
      · split
        · next hother =>
          rw [← hold, hother, hunborn]
        · exact hold
  · intro index
    rw [hchildren]
    split
    · refine List.nodup_append.mpr ⟨hwf.nodup_children parent, by simp, ?_⟩
      intro a hold b hadded heq
      rw [List.mem_singleton] at hadded
      subst heq hadded
      exact hfresh parent hold
    · split
      · exact List.nodup_nil
      · exact hwf.nodup_children index

theorem clear (hwf : tree.WellFormed) : tree.clear.WellFormed := by
  obtain ⟨nodes⟩ := tree
  cases nodes with
  | nil => exact absurd hwf.root_lt (by simp)
  | cons first rest => exact wellFormed_of_node hwf.root_parent rfl

end WellFormed

/-! ### Detaching -/

/-- A node that has a parent is found among its children and leaves them. -/
theorem WellFormed.detach_eq {tree : Tree} (hwf : tree.WellFormed) {index parent : Nat}
    (hparent : tree.parent? index = some parent) :
    ∃ place, (tree.children parent).idxOf? index = some place ∧
      tree.detach index =
        ((tree.update index fun node => { node with parent := none }).update parent
          fun node => { node with children := node.children.eraseIdx place },
          some (parent, place)) := by
  have hlt := lt_length_of_parent? hparent
  have hne : parent ≠ index := Nat.ne_of_lt (hwf.parent_lt index parent hparent)
  have hmem : index ∈ tree.children parent := (hwf.mem_children index parent).mpr hparent
  obtain ⟨place, hplace⟩ := Option.isSome_iff_exists.mp (List.isSome_idxOf?.mpr hmem)
  have hchildren : (tree.update index fun node => { node with parent := none }).children parent =
      tree.children parent := by
    rw [children, node_update hlt, if_neg hne, children]
  refine ⟨place, hplace, ?_⟩
  rw [detach, hparent]
  dsimp only
  rw [hchildren, hplace]

/-- Detaching changes the node and its parent and nothing else. -/
theorem WellFormed.node_detach {tree : Tree} (hwf : tree.WellFormed) {index parent : Nat}
    (hparent : tree.parent? index = some parent) (other : Nat) :
    (tree.detach index).1.node other =
      if other = parent then
        { tree.node parent with children := (tree.children parent).erase index }
      else if other = index then { tree.node index with parent := none }
      else tree.node other := by
  have hlt := lt_length_of_parent? hparent
  have hless := hwf.parent_lt index parent hparent
  obtain ⟨place, hplace, heq⟩ := hwf.detach_eq hparent
  have hbound : parent < (tree.update index fun node =>
      { node with parent := none }).nodes.length := by
    rw [length_update]
    omega
  rw [heq, node_update hbound, node_update hlt, node_update hlt,
    if_neg (Nat.ne_of_lt hless), List.erase_eq_eraseIdx, hplace]
  rfl

theorem WellFormed.length_detach {tree : Tree} (hwf : tree.WellFormed) {index parent : Nat}
    (hparent : tree.parent? index = some parent) :
    (tree.detach index).1.nodes.length = tree.nodes.length := by
  obtain ⟨place, -, heq⟩ := hwf.detach_eq hparent
  rw [heq, length_update, length_update]

theorem WellFormed.detach {tree : Tree} (hwf : tree.WellFormed) {index parent : Nat}
    (hparent : tree.parent? index = some parent) : (tree.detach index).1.WellFormed := by
  have hless := hwf.parent_lt index parent hparent
  have hparent? : ∀ other, (tree.detach index).1.parent? other =
      if other = index then none else tree.parent? other := by
    intro other
    rw [parent?, hwf.node_detach hparent]
    by_cases hother : other = parent
    · subst hother
      rw [if_pos rfl, if_neg (Nat.ne_of_lt hless), parent?]
    · rw [if_neg hother]
      split <;> rfl
  have hchildren : ∀ other, (tree.detach index).1.children other =
      if other = parent then (tree.children parent).erase index else tree.children other := by
    intro other
    rw [children, hwf.node_detach hparent]
    split
    · rfl
    · split
      · next hsame => rw [children, hsame]
      · rfl
  constructor
  · rw [hwf.length_detach hparent]
    exact hwf.root_lt
  · rw [hparent?]
    split
    · rfl
    · exact hwf.root_parent
  · intro other above h
    rw [hparent?] at h
    split at h
    · cases h
    · exact hwf.parent_lt other above h
  · intro other above
    rw [hparent?, hchildren]
    have hold := hwf.mem_children other above
    by_cases hother : other = index
    · subst hother
      rw [if_pos rfl]
      split
      · simp [(hwf.nodup_children parent).mem_erase_iff]
      · next habove =>
        rw [hold, hparent]
        simp [Ne.symm habove]
    · rw [if_neg hother]
      split
      · next habove =>
        subst habove
        rw [List.mem_erase_of_ne hother, hold]
      · exact hold
  · intro other
    rw [hchildren]
    split
    · exact (hwf.nodup_children parent).erase index
    · exact hwf.nodup_children other

/-! ### Undoing -/

/-- Dropping the last node takes a new child back. -/
theorem dropLast_addChild {tree : Tree} {parent : Nat} (hparent : parent < tree.nodes.length)
    (label : String) (token : Option Token) :
    (tree.addChild parent label token).1.dropLast = tree := by
  have hlast : (tree.addChild parent label token).1.parent? tree.nodes.length = some parent := by
    rw [parent?, node_addChild hparent, if_pos rfl]
  have hlong : ¬ (tree.addChild parent label token).1.nodes.length ≤ 1 := by
    rw [length_addChild]
    omega
  have hkept : (tree.addChild parent label token).1.nodes.dropLast =
      (tree.update parent fun node =>
        { node with children := node.children ++ [tree.nodes.length] }).nodes := by
    rw [addChild]
    dsimp only
    rw [List.dropLast_concat]
  rw [dropLast, if_neg hlong, length_addChild, Nat.add_sub_cancel]
  dsimp only
  rw [hlast, hkept]
  apply ext_node
  · rw [length_update, length_update]
  · intro index
    rw [node_update (by rwa [length_update]), node_update hparent, node_update hparent, if_pos rfl]
    dsimp only
    rw [List.getLast?_concat, if_pos rfl, List.dropLast_concat]
    by_cases h : index = parent
    · rw [if_pos h, h]
    · rw [if_neg h, if_neg h]

/-- A detached node that is attached again where it was leaves no trace. -/
theorem WellFormed.reattach_detach {tree : Tree} (hwf : tree.WellFormed) {index parent place : Nat}
    (hparent : tree.parent? index = some parent)
    (hplace : (tree.detach index).2 = some (parent, place)) :
    (tree.detach index).1.reattach parent index place = tree := by
  have hlt := lt_length_of_parent? hparent
  have hless := hwf.parent_lt index parent hparent
  obtain ⟨place', hindex, heq⟩ := hwf.detach_eq hparent
  have hsame : place' = place := by
    rw [heq] at hplace
    simpa using hplace
  subst hsame
  obtain ⟨hbound, hget, -⟩ := List.idxOf?_eq_some_iff.mp hindex
  have hmin : min place' ((tree.children parent).erase index).length = place' := by
    rw [List.length_erase_of_mem ((hwf.mem_children index parent).mpr hparent)]
    omega
  have hback : ((tree.children parent).erase index).insertIdx place' index =
      tree.children parent := by
    rw [List.erase_eq_eraseIdx, hindex]
    have h := List.insertIdx_eraseIdx_getElem hbound
    rwa [hget] at h
  have hlength := hwf.length_detach hparent
  apply ext_node
  · rw [reattach, length_update, length_update, hlength]
  · intro other
    rw [reattach, node_update (by rw [length_update]; omega), node_update (by omega),
      node_update (by omega), if_neg (Nat.ne_of_gt hless), hwf.node_detach hparent,
      hwf.node_detach hparent, hwf.node_detach hparent, if_neg (Nat.ne_of_gt hless), if_pos rfl,
      if_pos rfl]
    dsimp only
    rw [hmin, hback]
    by_cases hother : other = index
    · rw [if_pos hother, hother, ← hparent]
      rfl
    · rw [if_neg hother, if_neg hother]
      by_cases habove : other = parent
      · rw [if_pos habove, habove]
        rfl
      · rw [if_neg habove, if_neg habove]

end TransitionNetwork.Tree
