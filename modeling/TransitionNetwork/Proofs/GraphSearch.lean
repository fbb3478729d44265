import TransitionNetwork.Reachability
import Mathlib.Logic.Relation

/-! Reaching nodes of a graph, and the search for one. A search that succeeds has reached a node with the
wanted property. One that fails has explored the nodes it was to start from: what it has visited leads to
nothing else inside the graph and has nothing with the property. -/

namespace TransitionNetwork

variable {α : Type} {next : α → List α} {goal : α → Bool} {nodes : List α}

/-- The second node can be reached from the first along edges of `next`. -/
def Reaches (next : α → List α) : α → α → Prop :=
  Relation.ReflTransGen fun node successor => successor ∈ next node

/-- Nodes without the property that lead to each other, to pending nodes or outside. -/
def Explored (next : α → List α) (goal : α → Bool) (nodes pending seen : List α) : Prop :=
  ∀ node ∈ seen, goal node = false ∧
    ∀ successor ∈ next node, successor ∈ seen ∨ successor ∈ pending ∨ successor ∉ nodes

/-- Pending nodes may be replaced by others, up to those that were seen or lie outside. -/
theorem Explored.replace {pending others seen : List α} (h : Explored next goal nodes pending seen)
    (hpending : ∀ node ∈ pending, node ∈ seen ∨ node ∈ others ∨ node ∉ nodes) :
    Explored next goal nodes others seen := by
  intro node hnode
  refine ⟨(h node hnode).1, fun successor hsuccessor => ?_⟩
  rcases (h node hnode).2 successor hsuccessor with hseen | hmem | houtside
  · exact .inl hseen
  · exact hpending successor hmem
  · exact .inr (.inr houtside)

/-- A node that is left out because it was seen or lies outside was not needed. -/
theorem Explored.skip {node : α} {pending seen : List α}
    (h : Explored next goal nodes (node :: pending) seen) (hskip : node ∈ seen ∨ node ∉ nodes) :
    Explored next goal nodes pending seen := by
  apply h.replace
  intro other hother
  rcases List.mem_cons.mp hother with rfl | hpending
  · exact hskip.elim .inl fun houtside => .inr (.inr houtside)
  · exact .inr (.inl hpending)

theorem Explored.visit {node : α} {pending seen : List α}
    (h : Explored next goal nodes (node :: pending) seen) (hgoal : goal node = false) :
    Explored next goal nodes (next node ++ pending) (node :: seen) := by
  intro other hother
  rcases List.mem_cons.mp hother with rfl | hother
  · exact ⟨hgoal, fun successor hsuccessor => .inr (.inl (List.mem_append_left _ hsuccessor))⟩
  · refine ⟨(h other hother).1, fun successor hsuccessor => ?_⟩
    rcases (h other hother).2 successor hsuccessor with hseen | hpending | houtside
    · exact .inl (List.mem_cons_of_mem _ hseen)
    · rcases List.mem_cons.mp hpending with rfl | hpending
      · exact .inl List.mem_cons_self
      · exact .inr (.inl (List.mem_append_right _ hpending))
    · exact .inr (.inr houtside)

/-- What is reached from explored nodes has been explored, if no edge leads outside. -/
theorem Explored.goal_of_reaches {seen : List α} (h : Explored next goal nodes [] seen)
    (hclosed : ∀ node ∈ seen, ∀ successor ∈ next node, successor ∈ nodes) {node reached : α}
    (hnode : node ∈ seen) (hreaches : Reaches next node reached) : goal reached = false := by
  induction hreaches using Relation.ReflTransGen.head_induction_on with
  | refl => exact (h reached hnode).1
  | @head node successor hedge _ ih =>
      apply ih
      rcases (h node hnode).2 successor hedge with hseen | hpending | houtside
      · exact hseen
      · cases hpending
      · exact absurd (hclosed node hnode successor hedge) houtside

variable [DecidableEq α]

/-- A successful search has reached a node with the property. -/
theorem reaches_of_explore (pending seen : List α) :
    (explore next goal nodes pending seen).1 = true →
      ∃ node ∈ pending, ∃ reached, Reaches next node reached ∧ goal reached = true := by
  fun_induction explore next goal nodes pending seen with
  | case1 seen => exact nofun
  | case2 node pending seen hskip ih =>
      intro hfound
      obtain ⟨other, hother, hreached⟩ := ih hfound
      exact ⟨other, List.mem_cons_of_mem _ hother, hreached⟩
  | case3 node pending seen hvisit hgoal =>
      exact fun _ => ⟨node, List.mem_cons_self, node, .refl, hgoal⟩
  | case4 node pending seen hvisit hgoal ih =>
      intro hfound
      obtain ⟨other, hother, reached, hreaches, hreached⟩ := ih hfound
      rcases List.mem_append.mp hother with hedge | hpending
      · exact ⟨node, List.mem_cons_self, reached, .head hedge hreaches, hreached⟩
      · exact ⟨other, List.mem_cons_of_mem _ hpending, reached, hreaches, hreached⟩

/-- A search that fails has explored all pending nodes. -/
theorem explored_of_explore (pending seen : List α)
    (h : Explored next goal nodes pending seen) (hinside : ∀ node ∈ seen, node ∈ nodes) :
    (explore next goal nodes pending seen).1 = false →
      Explored next goal nodes [] (explore next goal nodes pending seen).2 ∧
        (∀ node ∈ (explore next goal nodes pending seen).2, node ∈ nodes) ∧
        (∀ node ∈ seen, node ∈ (explore next goal nodes pending seen).2) ∧
        ∀ node ∈ pending, node ∈ nodes → node ∈ (explore next goal nodes pending seen).2 := by
  fun_induction explore next goal nodes pending seen with
  | case1 seen => exact fun _ => ⟨h, hinside, fun _ hseen => hseen, nofun⟩
  | case2 node pending seen hskip ih =>
      intro hfailed
      obtain ⟨hexplored, hnodes, hseen, hpending⟩ := ih (h.skip hskip) hinside hfailed
      refine ⟨hexplored, hnodes, hseen, fun other hother hmem => ?_⟩
      rcases List.mem_cons.mp hother with rfl | hother
      · exact hseen _ (hskip.resolve_right (not_not_intro hmem))
      · exact hpending other hother hmem
  | case3 node pending seen hvisit hgoal => exact nofun
  | case4 node pending seen hvisit hgoal ih =>
      intro hfailed
      have hnode : node ∈ nodes := Decidable.not_not.mp fun houtside => hvisit (.inr houtside)
      have hinside' : ∀ other ∈ node :: seen, other ∈ nodes := by
        intro other hother
        rcases List.mem_cons.mp hother with rfl | hother
        · exact hnode
        · exact hinside other hother
      obtain ⟨hexplored, hnodes, hseen, hpending⟩ :=
        ih (h.visit (Bool.eq_false_iff.mpr hgoal)) hinside' hfailed
      refine ⟨hexplored, hnodes, fun other hother => hseen other (List.mem_cons_of_mem _ hother),
        fun other hother hmem => ?_⟩
      rcases List.mem_cons.mp hother with rfl | hother
      · exact hseen _ List.mem_cons_self
      · exact hpending other (List.mem_append_right _ hother) hmem

end TransitionNetwork
