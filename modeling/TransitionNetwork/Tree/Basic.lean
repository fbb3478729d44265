import TransitionNetwork.Token

/-!
Syntax trees.

The nodes of a tree stand in one list and refer to each other by their index; the root is the first.
A node that is detached stays in the list, out of reach from the root, and can still be edited.
`Tree.shape` is the tree that hangs from a node, without indices to follow.
-/

namespace TransitionNetwork

structure Node where
  label : String
  token : Option Token := none
  parent : Option Nat := none
  children : List Nat := []
  deriving DecidableEq, Repr, Inhabited

def Node.isLeaf (node : Node) : Bool := node.children.isEmpty

structure Tree where
  nodes : List Node
  deriving DecidableEq, Repr, Inhabited

namespace Tree

/-- A root and nothing else. -/
def single (label : String) : Tree := ⟨[{ label }]⟩

def root : Nat := 0

def contains (tree : Tree) (index : Nat) : Bool := index < tree.nodes.length

/-- The node with an index. An index beyond the last node stands for a node without anything. -/
def node (tree : Tree) (index : Nat) : Node :=
  tree.nodes[index]?.getD { label := "" }

def children (tree : Tree) (index : Nat) : List Nat := (tree.node index).children

def parent? (tree : Tree) (index : Nat) : Option Nat := (tree.node index).parent

/-- The other children of the parent, in order. -/
def siblings (tree : Tree) (index : Nat) : List Nat :=
  match tree.parent? index with
  | some parent => (tree.children parent).filter (· ≠ index)
  | none => []

/-! ### Editing -/

/-- Changes one node. -/
def update (tree : Tree) (index : Nat) (change : Node → Node) : Tree :=
  ⟨tree.nodes.modify index change⟩

/-- Adds a last child to a node. The child's index comes with the tree. -/
def addChild (tree : Tree) (parent : Nat) (label : String) (token : Option Token) : Tree × Nat :=
  let child := tree.nodes.length
  let tree := tree.update parent fun node => { node with children := node.children ++ [child] }
  (⟨tree.nodes ++ [{ label, token, parent := some parent }]⟩, child)

/-- Detaches a node from its parent. The parent and the place among its children come with the tree,
unless the node had no parent. -/
def detach (tree : Tree) (index : Nat) : Tree × Option (Nat × Nat) :=
  match tree.parent? index with
  | none => (tree, none)
  | some parent =>
    let tree := tree.update index fun node => { node with parent := none }
    match (tree.children parent).idxOf? index with
    | none => (tree, none)
    | some place =>
      (tree.update parent fun node => { node with children := node.children.eraseIdx place },
        some (parent, place))

/-- Detaches every child of a node. -/
def detachChildren (tree : Tree) (index : Nat) : Tree :=
  let children := tree.children index
  let tree := tree.update index fun node => { node with children := [] }
  children.foldl (fun tree child => tree.update child fun node => { node with parent := none }) tree

/-- Drops every node but the root. -/
def clear (tree : Tree) : Tree :=
  ⟨(tree.nodes.take 1).map fun node => { node with children := [] }⟩

/-- Attaches a node again where it was. -/
def reattach (tree : Tree) (parent child place : Nat) : Tree :=
  let tree := tree.update parent fun node =>
    { node with children := node.children.insertIdx (min place node.children.length) child }
  tree.update child fun node => { node with parent := some parent }

/-- Drops the node that was added last, unless it is the root. -/
def dropLast (tree : Tree) : Tree :=
  if tree.nodes.length ≤ 1 then tree
  else
    let last := tree.nodes.length - 1
    let kept : Tree := ⟨tree.nodes.dropLast⟩
    match tree.parent? last with
    | none => kept
    | some parent =>
      kept.update parent fun node =>
        if node.children.getLast? = some last then
          { node with children := node.children.dropLast }
        else node

/-! ### The nodes in reach -/

/-- Counts the nodes in reach of the pending ones, at most as many as the bound. The pending nodes are a
stack, on which the last child of a node comes to lie on top. -/
def countFrom (tree : Tree) : (bound : Nat) → (pending : List Nat) → Nat
  | 0, _ => 0
  | _, [] => 0
  | bound + 1, index :: pending =>
    countFrom tree bound ((tree.children index).reverse ++ pending) + 1

/-- The number of nodes in reach of the root. -/
def size (tree : Tree) : Nat := tree.countFrom tree.nodes.length [root]

end Tree

/-- A tree by itself: each node with the index it comes from. -/
inductive Shape
  | node (index : Nat) (label : String) (token : Option Token) (children : List Shape)
  deriving Inhabited

namespace Tree

/-- The tree below a node, down to a depth. -/
def shapeWithin (tree : Tree) : (depth : Nat) → (index : Nat) → Shape
  | 0, index => .node index (tree.node index).label (tree.node index).token []
  | depth + 1, index =>
    .node index (tree.node index).label (tree.node index).token
      ((tree.children index).map fun child => shapeWithin tree depth child)

/-- The tree below a node. No path is longer than there are nodes. -/
def shape (tree : Tree) (index : Nat := root) : Shape :=
  tree.shapeWithin tree.nodes.length index

end Tree

namespace Shape

def index : Shape → Nat
  | .node index _ _ _ => index

def label : Shape → String
  | .node _ label _ _ => label

def children : Shape → List Shape
  | .node _ _ _ children => children

mutual

/-- Every node before its children, the children in order. -/
def preorder : Shape → List Shape
  | .node index label token children => .node index label token children :: preorderAll children

def preorderAll : List Shape → List Shape
  | [] => []
  | shape :: shapes => preorder shape ++ preorderAll shapes

end

mutual

/-- The nodes without children, from left to right. -/
def leaves : Shape → List Nat
  | .node index _ _ children => if children.isEmpty then [index] else leavesAll children

def leavesAll : List Shape → List Nat
  | [] => []
  | shape :: shapes => leaves shape ++ leavesAll shapes

end

mutual

/-- The first node with a label, a node before its children. -/
def search? (wanted : String) : Shape → Option Nat
  | .node index label _ children => if label = wanted then some index else searchAll? wanted children

def searchAll? (wanted : String) : List Shape → Option Nat
  | [] => none
  | shape :: shapes =>
    match search? wanted shape with
    | some index => some index
    | none => searchAll? wanted shapes

end

mutual

/-- Bracketed notation: `[label lexeme]` for a leaf with a token, else `[label ` with the children
behind it. -/
def polish : Shape → String
  | .node _ label token children =>
    let body := match token, children with
      | some token, [] => token.lexeme
      | _, children => polishAll children
    "[" ++ label ++ " " ++ body ++ "]"

def polishAll : List Shape → String
  | [] => ""
  | shape :: shapes => polish shape ++ polishAll shapes

end

mutual

def toJson : Shape → Json
  | .node _ label token children =>
    .object ([("label", .string label)] ++ (token.toList.map fun token => ("token", token.toJson)) ++
      [("children", .array (toJsonAll children))])

def toJsonAll : List Shape → List Json
  | [] => []
  | shape :: shapes => toJson shape :: toJsonAll shapes

end

end Shape

namespace Tree

def leaves (tree : Tree) : List Nat := tree.shape.leaves

def search? (tree : Tree) (label : String) (index : Nat := root) : Option Nat :=
  (tree.shape index).search? label

def polish (tree : Tree) (index : Nat := root) : String := (tree.shape index).polish

def toJson (tree : Tree) : Json := tree.shape.toJson

end Tree

end TransitionNetwork
