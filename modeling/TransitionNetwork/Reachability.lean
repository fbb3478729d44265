/-!
Depth-first search in a finite graph that is given by its successor function.

`explore` answers whether a node with a wanted property can be reached and which nodes it has
visited. The visited nodes may be handed to a later search, which then leaves them alone.
-/

namespace TransitionNetwork

variable {α : Type} [DecidableEq α]

/-- The nodes that a search has not visited yet. -/
def unvisited (nodes seen : List α) : List α :=
  nodes.filter fun node => !seen.contains node

/-- A visit to a new node leaves fewer nodes to visit. -/
theorem length_unvisited_cons_lt {nodes seen : List α} {node : α} (hnode : node ∈ nodes)
    (hnew : node ∉ seen) :
    (unvisited nodes (node :: seen)).length < (unvisited nodes seen).length := by
  have hrest : unvisited nodes (node :: seen) = (unvisited nodes seen).filter (· ≠ node) := by
    simp only [unvisited, List.filter_filter]
    congr 1
    funext other
    by_cases h : other = node <;> simp [h]
  have hne : ((unvisited nodes seen).filter (· ≠ node)).length ≠ (unvisited nodes seen).length := by
    intro hsame
    have hall := List.length_filter_eq_length_iff.mp hsame
    have hmem : node ∈ unvisited nodes seen := by simp [unvisited, hnode, hnew]
    simpa using hall node hmem
  rw [hrest]
  exact Nat.lt_of_le_of_ne (List.length_filter_le _ _) hne

/-- Searches from the pending nodes, the first of them first, for a node with the property `goal`.
The search stays inside `nodes` and enters no node of `seen`. -/
def explore (next : α → List α) (goal : α → Bool) (nodes : List α) :
    (pending seen : List α) → Bool × List α
  | [], seen => (false, seen)
  | node :: pending, seen =>
    if _hskip : node ∈ seen ∨ node ∉ nodes then explore next goal nodes pending seen
    else if goal node then (true, node :: seen)
    else explore next goal nodes (next node ++ pending) (node :: seen)
termination_by pending seen => ((unvisited nodes seen).length, pending.length)
decreasing_by
  · exact Prod.Lex.right _ (by simp)
  · obtain ⟨hnew, hnode⟩ := not_or.mp _hskip
    exact Prod.Lex.left _ _ (length_unvisited_cons_lt (Decidable.not_not.mp hnode) hnew)

end TransitionNetwork
