import TransitionNetwork.Tree.Basic
import TransitionNetwork.Automaton.Action

/-!
Building a tree from the actions of a run.

The builder adds nodes below a cursor. It keeps a journal of its edits, newest first, so that a run
can take back what it did for a symbol that is not consumed after all.
-/

namespace TransitionNetwork

/-- An edit, with what is needed to undo it. -/
inductive Edit
  /-- A node was added. -/
  | attach
  /-- A node without children was detached from its place below its parent. -/
  | detach (parent child place : Nat)
  /-- The cursor moved away from a node. -/
  | cursor (previous : Nat)
  deriving DecidableEq, Repr, Inhabited

structure Builder where
  tree : Tree
  cursor : Nat := Tree.root
  token : Option Token := none
  journal : List Edit := []
  deriving DecidableEq, Repr, Inhabited

namespace Builder

/-- A builder at the root of a tree without other nodes. -/
def start (label : String) : Builder := { tree := .single label }

/-- Sets the token for the leaves to come. -/
def setToken (builder : Builder) (token : Token) : Builder :=
  { builder with token := some token }

/-- Forgets how to undo what was done. -/
def commit (builder : Builder) : Builder := { builder with journal := [] }

/-- Goes back to the root and drops the rest. -/
def reset (builder : Builder) : Builder := { tree := builder.tree.clear }

/-- Adds a leaf for the current token; without one nothing happens. -/
def appendLeaf (builder : Builder) : Builder :=
  match builder.token with
  | none => builder
  | some token =>
    { builder with
      tree := (builder.tree.addChild builder.cursor token.category (some token)).1
      journal := .attach :: builder.journal }

/-- Adds a node and moves the cursor there. -/
def descend (builder : Builder) (label : String) : Builder :=
  let (tree, child) := builder.tree.addChild builder.cursor label none
  { builder with
    tree
    cursor := child
    journal := .cursor builder.cursor :: .attach :: builder.journal }

/-- Moves the cursor to the parent and detaches a node that has stayed empty. Above the root nothing
happens. -/
def ascend (builder : Builder) : Builder :=
  let child := builder.cursor
  match builder.tree.parent? child with
  | none => builder
  | some parent =>
    let (tree, detached) :=
      if (builder.tree.node child).isLeaf then builder.tree.detach child else (builder.tree, none)
    let journal := match detached with
      | some (parent, place) => .detach parent child place :: builder.journal
      | none => builder.journal
    { builder with tree, cursor := parent, journal := .cursor child :: journal }

def perform (action : Action) (machine : String) (builder : Builder) : Builder :=
  match action with
  | .leaf => builder.appendLeaf
  | .descend => builder.descend machine
  | .ascend => builder.ascend

/-- Takes one edit back. -/
def undo : Tree × Nat → Edit → Tree × Nat
  | (tree, cursor), .attach => (tree.dropLast, cursor)
  | (tree, cursor), .detach parent child place => (tree.reattach parent child place, cursor)
  | (tree, _), .cursor previous => (tree, previous)

/-- The number of edits in the journal. -/
def mark (builder : Builder) : Nat := builder.journal.length

/-- Takes back the edits since a mark, the newest first. -/
def rewind (mark : Nat) (builder : Builder) : Builder :=
  let newer := builder.journal.length - mark
  let (tree, cursor) := (builder.journal.take newer).foldl undo (builder.tree, builder.cursor)
  { builder with tree, cursor, journal := builder.journal.drop newer }

instance : Recorder Builder where
  perform := perform
  mark builder := (builder.mark, builder)
  rewind := rewind

end Builder

end TransitionNetwork
