import TransitionNetwork.Proofs.OpenTree

/-! Trees that are known before they are built. While a tree is being built, every open node has finished
trees below it and, behind these, trees that are still to come. `OpenNode.complete` puts them together.
A new node has another index than the one it stands for, so what building keeps is the completed tree
without its indices. -/

namespace TransitionNetwork

namespace Shape

/-! ### Trees without indices -/

mutual

/-- The tree with its indices forgotten. -/
def bare : Shape → Shape
  | .node _ label token children => .node 0 label token (bareAll children)

def bareAll : List Shape → List Shape
  | [] => []
  | shape :: shapes => shape.bare :: bareAll shapes

end

theorem bareAll_eq_map (shapes : List Shape) : bareAll shapes = shapes.map bare := by
  induction shapes with
  | nil => rw [bareAll, List.map_nil]
  | cons shape shapes ih => rw [bareAll, List.map_cons, ih]

@[simp] theorem bare_node (index : Nat) (label : String) (token : Option Token)
    (children : List Shape) :
    bare (.node index label token children) = .node 0 label token (children.map bare) := by
  rw [bare, bareAll_eq_map]

/-! ### Nonterminals inside nonterminals -/

mutual

/-- How deep nonterminals are nested below the top of a tree. -/
def nesting : Shape → Nat
  | .node _ _ _ children => nestingAll children

def nestingAll : List Shape → Nat
  | [] => 0
  | shape :: shapes =>
    max (if shape.token.isSome then 0 else shape.nesting + 1) (nestingAll shapes)

end

theorem nesting_lt_of_mem {index : Nat} {label : String} {token : Option Token}
    {children : List Shape} {child : Shape} (hchild : child ∈ children)
    (htoken : child.token = none) :
    child.nesting < nesting (.node index label token children) := by
  rw [nesting]
  induction children with
  | nil => cases hchild
  | cons other children ih =>
      rw [nestingAll]
      rcases List.mem_cons.mp hchild with rfl | hchild
      · rw [htoken, Option.isSome_none, if_neg (by decide)]
        omega
      · have := ih hchild
        omega

end Shape

/-! ### Trees to come -/

/-- An open node with the trees to come behind its finished ones. -/
abbrev PendingNode := OpenNode × List Shape

namespace OpenNode

/-- A node with its finished trees and those to come. -/
def closeWith (node : OpenNode) (rest : List Shape) : Shape :=
  .node node.index node.label none (node.closed ++ rest)

/-- The whole tree once all trees to come are there. -/
def complete (inner : OpenNode) (rest : List Shape) : List PendingNode → Shape
  | [] => inner.closeWith rest
  | (outer, others) :: path => (outer.add (inner.closeWith rest)).complete others path

/-- The completed tree without indices depends on the innermost node without indices only. -/
theorem bare_complete_congr {left right : OpenNode} {rest rest' : List Shape}
    (h : (left.closeWith rest).bare = (right.closeWith rest').bare) (path : List PendingNode) :
    (left.complete rest path).bare = (right.complete rest' path).bare := by
  induction path generalizing left right rest rest' with
  | nil => exact h
  | cons outer path ih =>
      apply ih
      simpa [closeWith, add] using h

/-- A tree to come that is built joins the finished ones. -/
theorem bare_complete_add {inner : OpenNode} {built shape : Shape} (h : built.bare = shape.bare)
    (rest : List Shape) (path : List PendingNode) :
    ((inner.add built).complete rest path).bare = (inner.complete (shape :: rest) path).bare := by
  apply bare_complete_congr
  simp [closeWith, add, h]

/-- A tree to come that is opened has its children to come. -/
theorem bare_complete_open (inner : OpenNode) (index index' : Nat) (label : String)
    (children rest : List Shape) (path : List PendingNode) :
    (complete { index := index', label := label } children ((inner, rest) :: path)).bare =
      (inner.complete (.node index label none children :: rest) path).bare := by
  apply bare_complete_add
  simp [closeWith]

theorem complete_nil (inner outer : OpenNode) (others : List Shape) (path : List PendingNode) :
    inner.complete [] ((outer, others) :: path) = (outer.add inner.close).complete others path := by
  rw [complete, closeWith, List.append_nil]
  rfl

end OpenNode

end TransitionNetwork
