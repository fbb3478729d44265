import TransitionNetwork.Proofs.TriePaths
import Mathlib.Data.Finset.Card
import Mathlib.Data.List.Infix
import Mathlib.Data.Set.Function

/-! The machine of a nonterminal is the trie of its right-hand sides. Its states but the final and the
error state are the beginnings of right-hand sides, one state for each. The state of a beginning has a
move for every symbol that follows it in some right-hand side, in the order in which the rules bring these
symbols up, and it leads to the state of the longer beginning; there are no other moves but those to the
final and to the error state. `Represents` says this of any right-hand sides, the last of which may be
known only in part, so that it can be kept step by step while a rule is added. -/

namespace TransitionNetwork

namespace Automaton

/-! ### One state after an edit -/

variable (automaton : Automaton) {source target : Nat}

theorem state_addTransition {transition : Transition} (hsource : transition.source < automaton.size)
    (htarget : transition.target < automaton.size) (index : Nat) :
    (automaton.addTransition transition).state index =
      if index = transition.source then
        { automaton.state transition.source with
          transitions := (automaton.state transition.source).transitions ++ [transition] }
      else automaton.state index := by
  rw [addTransition, dif_pos htarget, automaton.state_update hsource]

theorem state_addCall {call : Call} (hsource : call.source < automaton.size)
    (htarget : call.target < automaton.size) (index : Nat) :
    (automaton.addCall call).state index =
      if index = call.source then
        { automaton.state call.source with calls := (automaton.state call.source).calls ++ [call] }
      else automaton.state index := by
  rw [addCall, dif_pos htarget, automaton.state_update hsource]

theorem state_setEpsilon (hsource : source < automaton.size) (htarget : target < automaton.size)
    (index : Nat) :
    (automaton.setEpsilon source target).state index =
      if index = source then
        { automaton.state source with epsilon := some (.epsilon source target) }
      else automaton.state index := by
  rw [setEpsilon, dif_pos htarget, automaton.state_update hsource]

theorem state_setAlternate (hsource : source < automaton.size) (htarget : target < automaton.size)
    (index : Nat) :
    (automaton.setAlternate source target).state index =
      if index = source then
        { automaton.state source with alternate := some (.alternate source target) }
      else automaton.state index := by
  rw [setAlternate, dif_pos htarget, automaton.state_update hsource]

end Automaton

namespace Trie

/-! ### Beginnings and what follows them -/

/-- Symbols that one of the right-hand sides begins with; none at all always count. -/
def Begins (bodies : List (List Symbol)) (begun : List Symbol) : Prop :=
  begun = [] ∨ ∃ body ∈ bodies, begun <+: body

/-- The symbol of a right-hand side behind a beginning of it. -/
def follower? (begun body : List Symbol) : Option Symbol :=
  if begun <+: body then body[begun.length]? else none

/-- The symbols that follow a beginning, each once, in the order of the first right-hand sides that have
them there. -/
def followers (bodies : List (List Symbol)) (begun : List Symbol) : List Symbol :=
  (bodies.filterMap (follower? begun)).eraseDups

variable {bodies done : List (List Symbol)} {begun current : List Symbol} {symbol : Symbol}

theorem follower?_eq_some_iff {body : List Symbol} :
    follower? begun body = some symbol ↔ begun ++ [symbol] <+: body := by
  rw [follower?]
  constructor
  · intro h
    split at h
    · next hbegins =>
      obtain ⟨rest, rfl⟩ := hbegins
      rw [List.getElem?_append_right (Nat.le_refl _), Nat.sub_self] at h
      cases rest with
      | nil => cases h
      | cons other rest =>
          cases h
          exact ⟨rest, by simp⟩
    · cases h
  · rintro ⟨rest, rfl⟩
    rw [if_pos (by simp), List.append_assoc, List.getElem?_append_right (Nat.le_refl _), Nat.sub_self]
    rfl

theorem mem_followers_iff :
    symbol ∈ followers bodies begun ↔ ∃ body ∈ bodies, begun ++ [symbol] <+: body := by
  rw [followers, List.mem_eraseDups, List.mem_filterMap]
  simp only [follower?_eq_some_iff]

/-- A symbol follows a beginning if the two make a longer beginning. -/
theorem mem_followers_iff_begins :
    symbol ∈ followers bodies begun ↔ Begins bodies (begun ++ [symbol]) := by
  rw [mem_followers_iff, Begins]
  simp

theorem Begins.of_append {rest : List Symbol} (h : Begins bodies (begun ++ rest)) :
    Begins bodies begun := by
  rcases h with hnil | ⟨body, hbody, hbegins⟩
  · exact .inl (List.append_eq_nil_iff.mp hnil).1
  · exact .inr ⟨body, hbody, (List.prefix_append _ _).trans hbegins⟩

theorem begins_self (done : List (List Symbol)) (current : List Symbol) :
    Begins (done ++ [current]) current :=
  .inr ⟨current, by simp, List.prefix_refl _⟩

theorem nodup_eraseDups (symbols : List Symbol) : symbols.eraseDups.Nodup := by
  induction hlength : symbols.length using Nat.strong_induction_on generalizing symbols with
  | _ length ih =>
      cases symbols with
      | nil => simp
      | cons symbol symbols =>
          rw [List.eraseDups_cons, List.nodup_cons, List.mem_eraseDups]
          refine ⟨by simp, ih _ ?_ _ rfl⟩
          rw [← hlength, List.length_cons]
          exact Nat.lt_succ_of_le (List.length_filter_le _ _)

theorem eraseDups_concat (symbols : List Symbol) (symbol : Symbol) :
    (symbols ++ [symbol]).eraseDups =
      if symbol ∈ symbols then symbols.eraseDups else symbols.eraseDups ++ [symbol] := by
  rw [List.eraseDups_append]
  split
  · next hmem => simp [List.removeAll, hmem]
  · next hnew => simp [List.removeAll, hnew, List.eraseDups_cons]

theorem nodup_followers (bodies : List (List Symbol)) (begun : List Symbol) :
    (followers bodies begun).Nodup :=
  nodup_eraseDups _

/-! ### One more symbol of the last right-hand side -/

theorem begins_concat :
    Begins (done ++ [current ++ [symbol]]) begun ↔
      Begins (done ++ [current]) begun ∨ begun = current ++ [symbol] := by
  simp only [Begins, List.mem_append, List.mem_singleton, or_and_right, exists_or, exists_eq_left,
    List.prefix_concat_iff]
  rw [or_comm (a := begun = current ++ [symbol]), ← or_assoc, ← or_assoc, ← or_assoc]

/-- The symbol follows what stood before it; behind other beginnings nothing changes. -/
theorem follower?_concat (begun current : List Symbol) (symbol : Symbol) :
    follower? begun (current ++ [symbol]) =
      if begun = current then some symbol else follower? begun current := by
  split
  · next hsame =>
    rw [hsame, follower?_eq_some_iff]
  · next hother =>
    ext other
    rw [follower?_eq_some_iff, follower?_eq_some_iff, List.prefix_concat_iff]
    constructor
    · rintro (hsame | hbegins)
      · exact absurd (List.append_inj_left' hsame rfl) hother
      · exact hbegins
    · exact .inr

theorem follower?_self (current : List Symbol) : follower? current current = none := by
  simp [follower?]

theorem followers_concat (done : List (List Symbol)) (current : List Symbol) (symbol : Symbol)
    (begun : List Symbol) :
    followers (done ++ [current ++ [symbol]]) begun =
      if begun = current ∧ symbol ∉ followers (done ++ [current]) current then
        followers (done ++ [current]) begun ++ [symbol]
      else followers (done ++ [current]) begun := by
  by_cases hsame : begun = current
  · subst hsame
    have hbefore : followers (done ++ [begun]) begun =
        (done.filterMap (follower? begun)).eraseDups := by
      rw [followers, List.filterMap_append]
      simp [follower?_self]
    have hafter : followers (done ++ [begun ++ [symbol]]) begun =
        (done.filterMap (follower? begun) ++ [symbol]).eraseDups := by
      rw [followers, List.filterMap_append]
      simp [follower?_concat]
    rw [hbefore, hafter, eraseDups_concat]
    split
    · next hmem => rw [if_neg fun hnew => hnew.2 (List.mem_eraseDups.mpr hmem)]
    · next hnew => rw [if_pos ⟨rfl, fun hmem => hnew (List.mem_eraseDups.mp hmem)⟩]
  · rw [if_neg (fun hnew => hsame hnew.1), followers, followers, List.filterMap_append,
      List.filterMap_append, List.filterMap_cons, List.filterMap_cons, follower?_concat, if_neg hsame]

/-! ### States after a move to a new state -/

namespace Spells

variable {automaton : Automaton} {rules : List Rule} {word : Nat → List Symbol} {source : Nat}

theorem state_addLeaf (h : Spells automaton rules word) (hsource : source < automaton.size)
    (name : String) (index : Nat) :
    (((Trie.addFresh automaton name).1.addTransition
        ⟨source, automaton.size, [name], some .leaf⟩).setAlternate source error).state index =
      if index = source then
        { automaton.state source with
          transitions := (automaton.state source).transitions ++
            [⟨source, automaton.size, [name], some .leaf⟩]
          alternate := some (.alternate source error) }
      else if index = automaton.size then { name := freshName automaton name }
      else automaton.state index := by
  have hsize := h.size_addFresh name
  have hgrown : source < (Trie.addFresh automaton name).1.size := by omega
  have htarget : automaton.size < (Trie.addFresh automaton name).1.size := by omega
  have herror : error < (Trie.addFresh automaton name).1.size := Nat.lt_trans h.error_lt htarget
  rw [Automaton.state_setAlternate _ (by rwa [Automaton.size_addTransition])
    (by rwa [Automaton.size_addTransition]), Automaton.state_addTransition _ hgrown htarget,
    Automaton.state_addTransition _ hgrown htarget, h.state_addFresh name hsource]
  dsimp only
  rw [if_pos rfl]
  split
  · rfl
  · rw [Trie.addFresh, Automaton.state_addState (h.name_ne_freshName name)]

theorem state_addCall (h : Spells automaton rules word) (hsource : source < automaton.size)
    (name : String) (index : Nat) :
    ((Trie.addFresh automaton name).1.addCall
        ⟨source, automaton.size, name, some .descend, some .ascend⟩).state index =
      if index = source then
        { automaton.state source with
          calls := (automaton.state source).calls ++
            [⟨source, automaton.size, name, some .descend, some .ascend⟩] }
      else if index = automaton.size then { name := freshName automaton name }
      else automaton.state index := by
  have hsize := h.size_addFresh name
  have hgrown : source < (Trie.addFresh automaton name).1.size := by omega
  have htarget : automaton.size < (Trie.addFresh automaton name).1.size := by omega
  rw [Automaton.state_addCall _ hgrown htarget, h.state_addFresh name hsource]
  split
  · rfl
  · rw [Trie.addFresh, Automaton.state_addState (h.name_ne_freshName name)]

end Spells

/-! ### The moves of a state -/

/-- The transition on a terminal, to the state of the longer beginning. -/
def leaf? (place : List Symbol → Nat) (begun : List Symbol) : Symbol → Option Transition
  | .terminal name =>
    some
      { source := place begun, target := place (begun ++ [.terminal name]), conditions := [name],
        action := some .leaf }
  | _ => none

/-- The call of a nonterminal, to the state of the longer beginning. -/
def call? (place : List Symbol → Nat) (begun : List Symbol) : Symbol → Option Call
  | .nonterminal name =>
    some
      { source := place begun, target := place (begun ++ [.nonterminal name]), callee := name,
        before := some .descend, after := some .ascend }
  | _ => none

/-- The state of a beginning. `place` gives the state of each beginning, and `stops` those beginnings that
have an epsilon move. -/
structure Branches (bodies : List (List Symbol)) (stops : List Symbol → Prop)
    (place : List Symbol → Nat) (begun : List Symbol) (state : State) : Prop where
  kind_eq : state.kind = .normal
  transitions_eq : state.transitions = (followers bodies begun).filterMap (leaf? place begun)
  calls_eq : state.calls = (followers bodies begun).filterMap (call? place begun)
  epsilon_iff : ∀ epsilon, state.epsilon = some epsilon ↔
    stops begun ∧ epsilon = .epsilon (place begun) final
  alternate_iff : ∀ alternate, state.alternate = some alternate ↔
    state.transitions ≠ [] ∧ alternate = .alternate (place begun) error

/-- The automaton is the trie of the right-hand sides. -/
structure Represents (automaton : Automaton) (bodies : List (List Symbol))
    (stops : List Symbol → Prop) (place : List Symbol → Nat) : Prop where
  place_nil : place [] = root
  /-- One state for each beginning, and no state for anything else. -/
  bijOn : Set.BijOn place {begun | Begins bodies begun} {index | Inside automaton index}
  begins_of_stops : ∀ begun, stops begun → Begins bodies begun
  branches : ∀ begun, Begins bodies begun →
    Branches bodies stops place begun (automaton.state (place begun))

/-- The beginnings with an epsilon move: the ends of right-hand sides but for the root, which has one if
there is an epsilon element anywhere. -/
def Stops (rules : List Rule) (begun : List Symbol) : Prop :=
  begun ≠ [] ∧ begun ∈ rules.map Rule.body ∨ begun = [] ∧ ∃ rule ∈ rules, .epsilon ∈ rule.elements

theorem stops_concat {rules : List Rule} {rule : Rule} :
    Stops (rules ++ [rule]) begun ↔
      (Stops rules begun ∨ begun = [] ∧ .epsilon ∈ rule.elements) ∨
        begun ≠ [] ∧ begun = rule.body := by
  rw [Stops, Stops]
  by_cases hnil : begun = []
  · simp [hnil, or_and_right, exists_or]
  · simp [hnil]

variable {stops : List Symbol → Prop} {place : List Symbol → Nat} {automaton : Automaton}

/-- Of the moves of different symbols, those that pass a test for one symbol are the move of it. -/
theorem filter_filterMap {α : Type} {move? : Symbol → Option α} {test : α → Bool} {wanted : Symbol}
    (htest : ∀ symbol move, move? symbol = some move → (test move = true ↔ symbol = wanted))
    {symbols : List Symbol} (hnodup : symbols.Nodup) :
    (symbols.filterMap move?).filter test =
      if wanted ∈ symbols then (move? wanted).toList else [] := by
  induction symbols with
  | nil => rfl
  | cons symbol symbols ih =>
      obtain ⟨hfirst, hrest⟩ := List.nodup_cons.mp hnodup
      have ih := ih hrest
      by_cases hsame : symbol = wanted
      · subst hsame
        rw [if_neg hfirst] at ih
        rw [if_pos List.mem_cons_self]
        cases hmove : move? symbol with
        | none => rw [List.filterMap_cons_none hmove, ih, Option.toList_none]
        | some move =>
            rw [List.filterMap_cons_some hmove, List.filter_cons_of_pos ((htest _ _ hmove).mpr rfl), ih,
              Option.toList_some]
      · simp only [List.mem_cons, Ne.symm hsame, false_or]
        cases hmove : move? symbol with
        | none => rw [List.filterMap_cons_none hmove, ih]
        | some move =>
            rw [List.filterMap_cons_some hmove,
              List.filter_cons_of_neg fun htrue => hsame ((htest _ _ hmove).mp htrue), ih]

theorem accepts_leaf?_iff (name : String) (symbol : Symbol) (transition : Transition)
    (h : leaf? place begun symbol = some transition) :
    transition.accepts name = true ↔ symbol = .terminal name := by
  cases symbol with
  | terminal other =>
      cases h
      simp [Transition.accepts, eq_comm]
  | nonterminal other => cases h
  | epsilon => cases h

theorem callee_call?_iff (name : String) (symbol : Symbol) (call : Call)
    (h : call? place begun symbol = some call) :
    decide (call.callee = name) = true ↔ symbol = .nonterminal name := by
  cases symbol with
  | nonterminal other =>
      cases h
      simp
  | terminal other => cases h
  | epsilon => cases h

namespace Branches

variable {state : State} (h : Branches bodies stops place begun state) (name : String)
include h

/-- One transition on a terminal that follows, and none on any other. -/
theorem filter_transitions :
    state.transitions.filter (·.accepts name) =
      if .terminal name ∈ followers bodies begun then (leaf? place begun (.terminal name)).toList
      else [] := by
  rw [h.transitions_eq, filter_filterMap (accepts_leaf?_iff name) (nodup_followers ..)]

/-- One call of a nonterminal that follows, and none of any other. -/
theorem filter_calls :
    state.calls.filter (·.callee = name) =
      if .nonterminal name ∈ followers bodies begun then
        (call? place begun (.nonterminal name)).toList
      else [] := by
  rw [h.calls_eq, filter_filterMap (callee_call?_iff name) (nodup_followers ..)]

theorem transition?_eq :
    state.transition? name =
      if .terminal name ∈ followers bodies begun then leaf? place begun (.terminal name) else none := by
  rw [State.transition?, ← List.head?_filter, h.filter_transitions]
  split <;> rfl

theorem call?_eq :
    state.call? name =
      if .nonterminal name ∈ followers bodies begun then call? place begun (.nonterminal name)
      else none := by
  rw [State.call?, ← List.head?_filter, h.filter_calls]
  split <;> rfl

end Branches

/-- Right-hand sides matter only by what follows the beginning, and places only at the beginning and one
symbol behind it. -/
theorem Branches.congr {bodies' : List (List Symbol)} {stops' : List Symbol → Prop}
    {place' : List Symbol → Nat} {state : State} (h : Branches bodies stops place begun state)
    (hfollowers : followers bodies' begun = followers bodies begun)
    (hstops : stops' begun ↔ stops begun) (hself : place' begun = place begun)
    (hnext : ∀ symbol ∈ followers bodies begun,
      place' (begun ++ [symbol]) = place (begun ++ [symbol])) :
    Branches bodies' stops' place' begun state := by
  refine ⟨h.kind_eq, ?_, ?_, ?_, ?_⟩
  · rw [h.transitions_eq, hfollowers]
    refine List.filterMap_congr fun symbol hsymbol => ?_
    cases symbol <;> simp [leaf?, hself, hnext _ hsymbol]
  · rw [h.calls_eq, hfollowers]
    refine List.filterMap_congr fun symbol hsymbol => ?_
    cases symbol <;> simp [call?, hself, hnext _ hsymbol]
  · rw [hself, hstops]
    exact h.epsilon_iff
  · rw [hself]
    exact h.alternate_iff

/-- A blank state is that of a beginning that nothing follows. -/
theorem branches_blank (hfollowers : followers bodies begun = []) (hstops : ¬ stops begun)
    (place : List Symbol → Nat) (name : String) :
    Branches bodies stops place begun { name := name } := by
  constructor <;> simp [hfollowers, hstops]

/-- When a new beginning gets its place, the others keep theirs. -/
theorem update_of_begins {index : Nat} (hnew : ¬ Begins bodies current) (hbegun : Begins bodies begun) :
    Function.update place current index begun = place begun := by
  apply Function.update_of_ne
  rintro rfl
  exact hnew hbegun

namespace Represents

/-- Right-hand sides matter only by what follows their beginnings. -/
theorem congr {bodies' : List (List Symbol)} {stops' : List Symbol → Prop}
    (h : Represents automaton bodies stops place)
    (hfollowers : ∀ begun, followers bodies' begun = followers bodies begun)
    (hstops : ∀ begun, stops' begun ↔ stops begun) : Represents automaton bodies' stops' place := by
  have hbegins : ∀ begun, Begins bodies' begun ↔ Begins bodies begun := by
    intro begun
    rcases List.eq_nil_or_concat begun with rfl | ⟨begun, symbol, rfl⟩
    · simp [Begins]
    · rw [List.concat_eq_append, ← mem_followers_iff_begins, ← mem_followers_iff_begins, hfollowers]
  refine ⟨h.place_nil, ?_, ?_, ?_⟩
  · simpa only [hbegins] using h.bijOn
  · intro begun hstop
    exact (hbegins begun).mpr (h.begins_of_stops begun ((hstops begun).mp hstop))
  · intro begun hbegun
    exact (h.branches begun ((hbegins begun).mp hbegun)).congr (hfollowers begun) (hstops begun) rfl
      fun _ _ => rfl

theorem inside (h : Represents automaton bodies stops place) (hbegun : Begins bodies begun) :
    Inside automaton (place begun) :=
  h.bijOn.mapsTo hbegun

/-- An epsilon move is set. -/
theorem setEpsilon (h : Represents automaton bodies stops place) (hfinal : final < automaton.size)
    (hcurrent : Begins bodies current) :
    Represents (automaton.setEpsilon (place current) final) bodies
      (fun begun => stops begun ∨ begun = current) place := by
  have hstate := automaton.state_setEpsilon (h.inside hcurrent).1 hfinal
  refine ⟨h.place_nil, ?_, ?_, ?_⟩
  · simpa only [Inside, Automaton.size_setEpsilon] using h.bijOn
  · rintro begun (hstop | rfl)
    · exact h.begins_of_stops begun hstop
    · exact hcurrent
  · intro begun hbegun
    have hold := h.branches begun hbegun
    rw [hstate]
    by_cases hsame : begun = current
    · subst hsame
      rw [if_pos rfl]
      refine ⟨hold.kind_eq, hold.transitions_eq, hold.calls_eq, fun epsilon => ?_, hold.alternate_iff⟩
      simp [eq_comm]
    · have hplace : place begun ≠ place current := fun heq =>
        hsame (h.bijOn.injOn hbegun hcurrent heq)
      rw [if_neg hplace]
      refine ⟨hold.kind_eq, hold.transitions_eq, hold.calls_eq, fun epsilon => ?_, hold.alternate_iff⟩
      simpa [hsame] using hold.epsilon_iff epsilon

/-- A blank state is added, and the state where the symbol was missing gets the move to it. -/
theorem grow {after : Automaton} {changed : State} {name : String}
    (h : Represents automaton (done ++ [current]) stops place)
    (hnew : ¬ Begins (done ++ [current]) (current ++ [symbol]))
    (herror : error < automaton.size) (hsize : after.size = automaton.size + 1)
    (hstate : ∀ index, after.state index =
      if index = place current then changed
      else if index = automaton.size then { name := name }
      else automaton.state index)
    (hchanged : Branches (done ++ [current ++ [symbol]]) stops
      (Function.update place (current ++ [symbol]) automaton.size) current changed) :
    Represents after (done ++ [current ++ [symbol]]) stops
      (Function.update place (current ++ [symbol]) automaton.size) := by
  have hplace : ∀ begun, Begins (done ++ [current]) begun →
      Function.update place (current ++ [symbol]) automaton.size begun = place begun :=
    fun begun hbegun => update_of_begins hnew hbegun
  have hinside : ∀ index, Inside after index ↔ Inside automaton index ∨ index = automaton.size := by
    intro index
    simp only [Inside, hsize, final, error] at herror ⊢
    omega
  refine ⟨?_, ?_, ?_, ?_⟩
  · rw [hplace [] (.inl rfl), h.place_nil]
  · have hold : Set.BijOn (Function.update place (current ++ [symbol]) automaton.size)
        {begun | Begins (done ++ [current]) begun} {index | Inside automaton index} :=
      h.bijOn.congr fun begun hbegun => (hplace begun hbegun).symm
    -- one more beginning and one more state, neither of which was there
    have hinsert := hold.insert (a := current ++ [symbol]) (by simp [Inside])
    convert hinsert using 1
    · ext begun
      exact begins_concat.trans or_comm
    · ext index
      rw [Function.update_self]
      exact (hinside index).trans or_comm
  · intro begun hstop
    exact begins_concat.mpr (.inl (h.begins_of_stops begun hstop))
  · intro begun hbegun
    rcases begins_concat.mp hbegun with hold | rfl
    · by_cases hsame : begun = current
      · rw [hsame, hplace current (begins_self ..), hstate, if_pos rfl]
        exact hchanged
      · have hne : place begun ≠ place current := fun heq =>
          hsame (h.bijOn.injOn hold (begins_self ..) heq)
        rw [hplace begun hold, hstate, if_neg hne, if_neg (Nat.ne_of_lt (h.inside hold).1)]
        refine (h.branches begun hold).congr ?_ .rfl (hplace begun hold) fun other hother =>
          hplace _ (mem_followers_iff_begins.mp hother)
        rw [followers_concat, if_neg fun hboth => hsame hboth.1]
    · have hsource := (h.inside (begins_self done current)).1
      rw [Function.update_self, hstate, if_neg (Nat.ne_of_gt hsource), if_pos rfl]
      apply branches_blank
      · apply List.eq_nil_iff_forall_not_mem.mpr
        intro other hother
        rcases begins_concat.mp (mem_followers_iff_begins.mp hother) with hlonger | heq
        · exact hnew hlonger.of_append
        · simp at heq
      · exact fun hstop => hnew (h.begins_of_stops _ hstop)

/-- Going on along a move that is there changes nothing. -/
theorem retrace (h : Represents automaton (done ++ [current]) stops place)
    (hmem : symbol ∈ followers (done ++ [current]) current) :
    Represents automaton (done ++ [current ++ [symbol]]) stops place := by
  refine h.congr (fun begun => ?_) fun _ => .rfl
  rw [followers_concat, if_neg fun hboth => hboth.2 hmem]

/-- The state of the beginning that a move is to be added to. -/
theorem branches_update (h : Represents automaton (done ++ [current]) stops place)
    (hnew : ¬ Begins (done ++ [current]) (current ++ [symbol])) (index : Nat) :
    Branches (done ++ [current]) stops (Function.update place (current ++ [symbol]) index) current
      (automaton.state (place current)) :=
  (h.branches current (begins_self ..)).congr rfl .rfl (update_of_begins hnew (begins_self ..))
    fun _ hsymbol => update_of_begins hnew (mem_followers_iff_begins.mp hsymbol)

variable {rules : List Rule} {word : Nat → List Symbol}

theorem extend_terminal (h : Represents automaton (done ++ [current]) stops place)
    (hspells : Spells automaton rules word) (name : String) :
    ∃ place', Represents (Trie.extend automaton (place current) (.terminal name)).1
        (done ++ [current ++ [.terminal name]]) stops place' ∧
      (Trie.extend automaton (place current) (.terminal name)).2 =
        place' (current ++ [.terminal name]) := by
  rw [Trie.extend, (h.branches current (begins_self ..)).transition?_eq]
  by_cases hmem : .terminal name ∈ followers (done ++ [current]) current
  · rw [if_pos hmem]
    exact ⟨place, h.retrace hmem, rfl⟩
  · rw [if_neg hmem]
    dsimp only
    rw [hspells.addFresh_target]
    have hnew := fun hbegins => hmem (mem_followers_iff_begins.mpr hbegins)
    have hstate := hspells.state_addLeaf (h.inside (begins_self done current)).1 name
    have hfollowers : followers (done ++ [current ++ [.terminal name]]) current =
        followers (done ++ [current]) current ++ [.terminal name] := by
      rw [followers_concat, if_pos ⟨rfl, hmem⟩]
    refine ⟨_, h.grow hnew hspells.error_lt ?_ hstate ?_, by rw [Function.update_self]⟩
    · rw [Automaton.size_setAlternate, Automaton.size_addTransition, hspells.size_addFresh]
    · have hold := h.branches_update hnew automaton.size
      have hself : Function.update place (current ++ [.terminal name]) automaton.size current =
        place current := update_of_begins hnew (begins_self ..)
      refine ⟨hold.kind_eq, ?_, ?_, hold.epsilon_iff, fun alternate => ?_⟩
      · rw [hfollowers, List.filterMap_append, ← hold.transitions_eq]
        simp [leaf?]
      · rw [hfollowers, List.filterMap_append, ← hold.calls_eq]
        simp [call?]
      · rw [hself]
        constructor
        · rintro ⟨⟩
          exact ⟨by simp, rfl⟩
        · rintro ⟨-, rfl⟩
          rfl

theorem extend_nonterminal (h : Represents automaton (done ++ [current]) stops place)
    (hspells : Spells automaton rules word) (name : String) :
    ∃ place', Represents (Trie.extend automaton (place current) (.nonterminal name)).1
        (done ++ [current ++ [.nonterminal name]]) stops place' ∧
      (Trie.extend automaton (place current) (.nonterminal name)).2 =
        place' (current ++ [.nonterminal name]) := by
  rw [Trie.extend, (h.branches current (begins_self ..)).call?_eq]
  by_cases hmem : .nonterminal name ∈ followers (done ++ [current]) current
  · rw [if_pos hmem]
    exact ⟨place, h.retrace hmem, rfl⟩
  · rw [if_neg hmem]
    dsimp only
    rw [hspells.addFresh_target]
    have hnew := fun hbegins => hmem (mem_followers_iff_begins.mpr hbegins)
    have hstate := hspells.state_addCall (h.inside (begins_self done current)).1 name
    have hfollowers : followers (done ++ [current ++ [.nonterminal name]]) current =
        followers (done ++ [current]) current ++ [.nonterminal name] := by
      rw [followers_concat, if_pos ⟨rfl, hmem⟩]
    refine ⟨_, h.grow hnew hspells.error_lt ?_ hstate ?_, by rw [Function.update_self]⟩
    · rw [Automaton.size_addCall, hspells.size_addFresh]
    · have hold := h.branches_update hnew automaton.size
      refine ⟨hold.kind_eq, ?_, ?_, hold.epsilon_iff, hold.alternate_iff⟩
      · rw [hfollowers, List.filterMap_append, ← hold.transitions_eq]
        simp [leaf?]
      · rw [hfollowers, List.filterMap_append, ← hold.calls_eq]
        simp [call?]

/-- An epsilon element adds an epsilon move to the root and leads nowhere. -/
theorem extend (h : Represents automaton (done ++ [current]) stops place)
    (hspells : Spells automaton rules word) (symbol : Symbol) :
    ∃ place', Represents (Trie.extend automaton (place current) symbol).1
        (done ++ [current ++ [symbol].filter (· ≠ .epsilon)])
        (fun begun => stops begun ∨ begun = [] ∧ .epsilon = symbol) place' ∧
      (Trie.extend automaton (place current) symbol).2 =
        place' (current ++ [symbol].filter (· ≠ .epsilon)) := by
  cases symbol with
  | terminal name =>
      obtain ⟨place', hextended, htarget⟩ := h.extend_terminal hspells name
      exact ⟨place', hextended.congr (fun _ => rfl) (by simp), htarget⟩
  | nonterminal name =>
      obtain ⟨place', hextended, htarget⟩ := h.extend_nonterminal hspells name
      exact ⟨place', hextended.congr (fun _ => rfl) (by simp), htarget⟩
  | epsilon =>
      -- the move is set at the root, wherever the rule stands by now
      have hset := h.setEpsilon (Nat.lt_trans (by decide) hspells.error_lt) (.inl rfl)
      rw [h.place_nil] at hset
      refine ⟨place, hset.congr (fun _ => ?_) (by simp), ?_⟩
      · simp
      · simp [Trie.extend]

/-- The induction is on the symbols to come; `current` are those before them. -/
theorem foldl_extend (symbols : List Symbol)
    (h : Represents automaton (done ++ [current]) stops place)
    (hspells : Spells automaton rules word)
    (hepsilon : .epsilon ∈ symbols → ∃ rule ∈ rules, .epsilon ∈ rule.elements) :
    let result := symbols.foldl (fun state symbol => Trie.extend state.1 state.2 symbol)
      (automaton, place current)
    ∃ place', Represents result.1 (done ++ [current ++ symbols.filter (· ≠ .epsilon)])
        (fun begun => stops begun ∨ begun = [] ∧ .epsilon ∈ symbols) place' ∧
      result.2 = place' (current ++ symbols.filter (· ≠ .epsilon)) := by
  induction symbols generalizing automaton current stops place word with
  | nil =>
      refine ⟨place, h.congr (fun _ => ?_) (by simp), ?_⟩
      · simp
      · simp
  | cons symbol symbols ih =>
      obtain ⟨place', hextended, htarget⟩ := h.extend hspells symbol
      obtain ⟨word', hspells', -, -⟩ := hspells.extend (h.inside (begins_self ..))
        fun heq => hepsilon (heq ▸ List.mem_cons_self)
      obtain ⟨place'', hrest, hlast⟩ := ih hextended hspells'
        fun hmem => hepsilon (List.mem_cons_of_mem _ hmem)
      have hsplit : (symbol :: symbols).filter (· ≠ .epsilon) =
          [symbol].filter (· ≠ .epsilon) ++ symbols.filter (· ≠ .epsilon) := by
        rw [← List.filter_append, List.singleton_append]
      rw [← htarget, List.append_assoc, ← hsplit] at hrest hlast
      refine ⟨place'', hrest.congr (fun _ => rfl) fun begun => ?_, hlast⟩
      rw [List.mem_cons, or_assoc, and_or_left]

variable {added : List Rule} {rule : Rule}

/-- The end of a right-hand side gets an epsilon move unless it is the root. -/
theorem addRule (h : Represents automaton (added.map Rule.body) (Stops added) place)
    (hspells : Spells automaton rules word) (hrule : rule ∈ rules) :
    ∃ place', Represents (Trie.addRule automaton rule) ((added ++ [rule]).map Rule.body)
      (Stops (added ++ [rule])) place' := by
  have hstart : Represents automaton (added.map Rule.body ++ [[]]) (Stops added) place := by
    refine h.congr (fun begun => ?_) fun _ => .rfl
    rw [followers, followers, List.filterMap_append]
    simp [follower?]
  obtain ⟨place', hall, hlast⟩ :=
    hstart.foldl_extend rule.elements hspells fun hmem => ⟨rule, hrule, hmem⟩
  obtain ⟨word', hspells', -, -⟩ :=
    hspells.foldl_extend rule.elements hspells.inside_root fun hmem => ⟨rule, hrule, hmem⟩
  have hbodies : (added ++ [rule]).map Rule.body = added.map Rule.body ++ [rule.body] :=
    List.map_append
  -- the root is the place of no other beginning than the empty one
  have hinj : place' rule.body = root ↔ rule.body = [] := by
    rw [← hall.place_nil]
    exact hall.bijOn.injOn.eq_iff (begins_self ..) (.inl rfl)
  rw [h.place_nil, List.nil_append, ← Rule.body] at hall hlast
  rw [Trie.addRule, hbodies]
  dsimp only [extendAll]
  rw [hlast]
  split
  · next hroot =>
    refine ⟨place', hall.congr (fun _ => rfl) fun begun => ?_⟩
    rw [stops_concat, hinj.mp hroot]
    tauto
  · next hroot =>
    have hset := hall.setEpsilon (Nat.lt_trans (by decide) hspells'.error_lt) (begins_self ..)
    refine ⟨place', hset.congr (fun _ => rfl) fun begun => ?_⟩
    have hend : begun ≠ [] ∧ begun = rule.body ↔ begun = rule.body :=
      and_iff_right_of_imp fun heq hnil => hroot (hinj.mpr (heq ▸ hnil))
    rw [stops_concat, hend]

end Represents

theorem represents_empty (nonterminal : String) :
    Represents (empty nonterminal) [] (Stops []) fun _ => root := by
  have hstates : (empty nonterminal).states = [{ name := Automaton.initialName },
      { name := finalName, kind := .accept },
      { name := errorName, kind := .error, alternate := some (.alternate error error) }] := rfl
  have hbegins : ∀ begun, Begins [] begun ↔ begun = [] := by simp [Begins]
  have hinside : ∀ index, Inside (empty nonterminal) index ↔ index = root := by
    intro index
    simp only [Inside, Automaton.size, hstates, List.length_cons, List.length_nil, root, final, error]
    omega
  refine ⟨rfl, ?_, ?_, ?_⟩
  · simp [hbegins, hinside]
  · simp [Stops]
  · intro begun hbegun
    rw [Automaton.state, hstates]
    exact branches_blank rfl (by simp [Stops]) _ _

/-! ### How many states there are -/

/-- The beginnings of the right-hand sides. -/
def beginnings (bodies : List (List Symbol)) : Finset (List Symbol) :=
  (bodies.flatMap List.inits).toFinset

theorem mem_beginnings : begun ∈ beginnings bodies ↔ ∃ body ∈ bodies, begun <+: body := by
  simp [beginnings]

theorem mem_beginnings_iff_begins (hbodies : bodies ≠ []) :
    begun ∈ beginnings bodies ↔ Begins bodies begun := by
  rw [mem_beginnings, Begins]
  refine ⟨.inr, ?_⟩
  rintro (rfl | h)
  · obtain ⟨body, hbody⟩ := List.exists_mem_of_ne_nil bodies hbodies
    exact ⟨body, hbody, List.nil_prefix⟩
  · exact h

/-- One state for each beginning, the root for the empty one, and the final and the error state. -/
theorem Represents.size_eq (h : Represents automaton bodies stops place)
    (herror : error < automaton.size) (hbodies : bodies ≠ []) :
    automaton.size = 3 + ((beginnings bodies).erase []).card := by
  let inside := ((Finset.range automaton.size).erase final).erase error
  have hbijOn : Set.BijOn place (beginnings bodies) inside := by
    convert h.bijOn using 1
    · ext begun
      exact mem_beginnings_iff_begins hbodies
    · ext index
      simp only [inside, Inside, Finset.coe_erase, Finset.coe_range, Set.mem_sdiff, Set.mem_Iio,
        Set.mem_singleton_iff, Set.mem_ofPred_eq, and_assoc]
  have hcard := hbijOn.finsetCard_eq
  have hfinal : final < automaton.size := Nat.lt_trans (by decide) herror
  rw [Finset.card_erase_of_mem (Finset.mem_erase.mpr ⟨by decide, Finset.mem_range.mpr herror⟩),
    Finset.card_erase_of_mem (Finset.mem_range.mpr hfinal), Finset.card_range] at hcard
  rw [Finset.card_erase_of_mem ((mem_beginnings_iff_begins hbodies).mpr (.inl rfl)), hcard]
  rw [error] at herror
  omega

/-- The machine of some rules is the trie of their right-hand sides, epsilon elements left out. -/
structure IsTrie (rules : List Rule) (place : List Symbol → Nat) (machine : Automaton) : Prop where
  place_nil : place [] = root
  /-- The states but the final and the error state are the beginnings of right-hand sides. -/
  bijOn : Set.BijOn place (beginnings (rules.map Rule.body)) {index | Inside machine index}
  size_eq : machine.size = 3 + ((beginnings (rules.map Rule.body)).erase []).card
  branches : ∀ begun ∈ beginnings (rules.map Rule.body),
    Branches (rules.map Rule.body) (Stops rules) place begun (machine.state (place begun))
  /-- One transition on a terminal that makes a longer beginning, and no other. -/
  leaf_unique : ∀ begun ∈ beginnings (rules.map Rule.body), ∀ name,
    (machine.state (place begun)).transitions.filter (·.accepts name) =
      if begun ++ [.terminal name] ∈ beginnings (rules.map Rule.body) then
        [{ source := place begun, target := place (begun ++ [.terminal name]), conditions := [name],
           action := some .leaf }]
      else []
  /-- One call of a nonterminal that makes a longer beginning, and no other. -/
  call_unique : ∀ begun ∈ beginnings (rules.map Rule.body), ∀ name,
    (machine.state (place begun)).calls.filter (·.callee = name) =
      if begun ++ [.nonterminal name] ∈ beginnings (rules.map Rule.body) then
        [{ source := place begun, target := place (begun ++ [.nonterminal name]), callee := name,
           before := some .descend, after := some .ascend }]
      else []
  root_name : (machine.state root).name = Automaton.initialName
  accept_iff : ∀ index, (machine.state index).kind = .accept ↔ index = final
  final_eq : machine.state final = { name := finalName, kind := .accept }
  error_eq : machine.state error =
    { name := errorName, kind := .error, alternate := some (.alternate error error) }

end Trie

namespace Grammar

variable {grammar : Grammar} {nonterminal : String}

/-- The machine of a nonterminal is the trie of its right-hand sides. The induction is on the rules that
have been added. -/
theorem represents_machine (grammar : Grammar) (nonterminal : String) :
    ∃ place, Trie.Represents (grammar.machine nonterminal)
      ((grammar.rulesFor nonterminal).map Rule.body) (Trie.Stops (grammar.rulesFor nonterminal))
      place := by
  have hfold : ∀ added : List Rule, (∀ rule ∈ added, rule ∈ grammar.rulesFor nonterminal) →
      (∃ word, Trie.Spells (added.foldl Trie.addRule (Trie.empty nonterminal))
        (grammar.rulesFor nonterminal) word) ∧
      ∃ place, Trie.Represents (added.foldl Trie.addRule (Trie.empty nonterminal))
        (added.map Rule.body) (Trie.Stops added) place := by
    intro added
    induction added using List.reverseRecOn with
    | nil => exact fun _ => ⟨⟨_, Trie.spells_empty nonterminal _⟩, _, Trie.represents_empty nonterminal⟩
    | append_singleton added rule ih =>
        intro hadded
        obtain ⟨⟨word, hspells⟩, place, h⟩ := ih fun other hother =>
          hadded other (List.mem_append_left _ hother)
        have hrule := hadded rule (List.mem_append_right _ List.mem_cons_self)
        rw [List.foldl_append]
        exact ⟨hspells.addRule hrule, h.addRule hspells hrule⟩
  exact (hfold _ fun _ hrule => hrule).2

/-- Every nonterminal of a grammar that compiles has its machine in the network. -/
theorem machine?_of_compile {compiled : GrammarNetwork} (h : grammar.compile = .ok compiled)
    (hmem : nonterminal ∈ grammar.nonterminals) :
    compiled.network.machine? nonterminal = some (grammar.machine nonterminal) := by
  have hdescribes := (describes_of_compile h).2
  have hsome : (compiled.network.machine? nonterminal).isSome := by
    rw [Network.machine?, List.find?_isSome]
    refine ⟨grammar.machine nonterminal, ?_, by simp⟩
    rw [compile] at h
    split at h
    · cases h
    · next start hcheck =>
      split at h
      · cases h
      · next network hnetwork =>
        cases h
        rw [(Network.ofMachines_eq_ok hnetwork).1, machines]
        apply List.mem_map_of_mem
        by_cases hstart : nonterminal = start
        · exact hstart ▸ List.mem_cons_self
        · exact List.mem_cons_of_mem _ (List.mem_filter.mpr ⟨hmem, decide_eq_true hstart⟩)
  obtain ⟨machine, hfound⟩ := Option.isSome_iff_exists.mp hsome
  rw [hfound, hdescribes.callee_eq hfound]

/-- Every nonterminal of a grammar that compiles has a machine, and it is the trie of its right-hand
sides. -/
theorem compile_isTrie {compiled : GrammarNetwork} (h : grammar.compile = .ok compiled)
    (hmem : nonterminal ∈ grammar.nonterminals) :
    ∃ machine place, compiled.network.machine? nonterminal = some machine ∧
      Trie.IsTrie (grammar.rulesFor nonterminal) place machine := by
  obtain ⟨place, hrepresents⟩ := grammar.represents_machine nonterminal
  have hspells := grammar.spells_word nonterminal
  obtain ⟨-, -, hwell⟩ := check_eq_ok (describes_of_compile h).1
  obtain ⟨rule, hrule⟩ := hwell.exists_rule hmem
  have hbodies : (grammar.rulesFor nonterminal).map Rule.body ≠ [] :=
    List.ne_nil_of_mem (List.mem_map_of_mem hrule)
  have hbegins : ∀ begun, begun ∈ Trie.beginnings ((grammar.rulesFor nonterminal).map Rule.body) ↔ _ :=
    fun begun => Trie.mem_beginnings_iff_begins hbodies
  refine ⟨_, place, machine?_of_compile h hmem, hrepresents.place_nil, ?_,
    hrepresents.size_eq hspells.error_lt hbodies, fun begun hbegun => ?_, fun begun hbegun name => ?_,
    fun begun hbegun name => ?_, hspells.root_name, fun index => ?_, hspells.final_eq,
    hspells.error_eq⟩
  · convert hrepresents.bijOn using 1
    ext begun
    exact hbegins begun
  · exact hrepresents.branches begun ((hbegins begun).mp hbegun)
  · rw [(hrepresents.branches begun ((hbegins begun).mp hbegun)).filter_transitions]
    simp only [Trie.mem_followers_iff, Trie.mem_beginnings]
    rfl
  · rw [(hrepresents.branches begun ((hbegins begun).mp hbegun)).filter_calls]
    simp only [Trie.mem_followers_iff, Trie.mem_beginnings]
    rfl
  · exact (decide_eq_true_iff).symm.trans atAccept_cursor

/-- Right-hand sides that share their first symbols, an empty one and one that begins with a call. -/
def branching : Grammar where
  start := some "S"
  nonterminals := ["S", "N"]
  terminals := ["the", "old", "man"]
  rules := [⟨"S", [.terminal "the", .nonterminal "N"]⟩, ⟨"S", [.terminal "the", .terminal "old"]⟩,
    ⟨"S", [.epsilon]⟩, ⟨"S", [.nonterminal "N", .terminal "the"]⟩, ⟨"N", [.terminal "man"]⟩]

theorem branching_isTrie :
    ∃ compiled machine place, branching.compile = .ok compiled ∧
      compiled.network.machine? "S" = some machine ∧
      Trie.IsTrie (branching.rulesFor "S") place machine ∧ machine.size = 8 := by
  have hok : (match branching.compile with | .ok _ => true | .error _ => false) = true := by cbv
  split at hok
  · next compiled hcompile =>
    have hmem : "S" ∈ branching.nonterminals := List.mem_cons_self
    obtain ⟨machine, place, hmachine, htrie⟩ := compile_isTrie hcompile hmem
    have hcard : ((Trie.beginnings ((branching.rulesFor "S").map Rule.body)).erase []).card = 5 := by
      decide
    exact ⟨compiled, machine, place, hcompile, hmachine, htrie, by rw [htrie.size_eq, hcard]⟩
  · cases hok

end Grammar

end TransitionNetwork
