import TransitionNetwork.Proofs.EmptyDerivations
import TransitionNetwork.Proofs.PrefixTrie

/-! Ways through a machine that take no symbol. Such a way goes along epsilon moves and past calls of
machines that have such a way themselves. The check for left recursion takes a nonterminal to be skipped
if it derives the empty string. The machines do not quite agree: an epsilon element joins the root of its
machine to the final state whatever else the rule has, and a rule without elements adds nothing to its
machine. `Grammar.wired` is the grammar that the machines follow in this, and the two notions agree where
the difference does not show. -/

namespace TransitionNetwork

/-- The states that a machine can come to without a symbol. -/
inductive Network.Idles (network : Network) : Automaton → Nat → Prop
  | start (machine : Automaton) : Idles network machine Trie.root
  | epsilon {machine : Automaton} {state : Nat} {epsilon : Transition} (h : Idles network machine state)
      (hepsilon : (machine.state state).epsilon = some epsilon) : Idles network machine epsilon.target
  | call {machine callee : Automaton} {state : Nat} {call : Call} (h : Idles network machine state)
      (hcall : call ∈ (machine.state state).calls)
      (hcallee : network.machine? call.callee = some callee)
      (hfinal : Idles network callee Trie.final) : Idles network machine call.target

/-- The machine with a name has a way from the root to the final state without a symbol. -/
def Network.Skips (network : Network) (name : String) : Prop :=
  ∃ machine, network.machine? name = some machine ∧ network.Idles machine Trie.final

/-- The rules that a machine has for a rule: an empty one for an epsilon element anywhere, and one for the
other elements unless there are none. -/
def Rule.wired (rule : Rule) : List Rule :=
  (if .epsilon ∈ rule.elements then [{ rule with elements := [.epsilon] }] else []) ++
    if rule.body = [] then [] else [{ rule with elements := rule.body }]

theorem Rule.mem_wired {rule other : Rule} :
    other ∈ rule.wired ↔
      .epsilon ∈ rule.elements ∧ other = { rule with elements := [.epsilon] } ∨
        rule.body ≠ [] ∧ other = { rule with elements := rule.body } := by
  rw [wired, List.mem_append]
  by_cases hepsilon : .epsilon ∈ rule.elements <;> by_cases hbody : rule.body = [] <;>
    simp [hepsilon, hbody]

namespace Grammar

/-- The grammar that the machines follow where no symbol is taken. -/
def wired (grammar : Grammar) : Grammar :=
  { grammar with rules := grammar.rules.flatMap Rule.wired }

variable {grammar : Grammar} {network : Network} {start name : String} {holds : String → Prop}

/-- What a property needs to be closed under the rules of the machines. -/
theorem closedUnder_wired_iff :
    grammar.wired.ClosedUnder holds ↔ ∀ rule ∈ grammar.rules,
      (.epsilon ∈ rule.elements → holds rule.generator) ∧
      (rule.body ≠ [] → (∀ symbol ∈ rule.body, symbol.Vanishes holds) → holds rule.generator) := by
  constructor
  · intro h rule hrule
    have hwired : ∀ other ∈ rule.wired, (∀ symbol ∈ other.body, symbol.Vanishes holds) →
        holds other.generator := fun other hother => h other (List.mem_flatMap.mpr ⟨rule, hrule, hother⟩)
    refine ⟨fun hepsilon => ?_, fun hbody hvanishes => ?_⟩
    · exact hwired { rule with elements := [.epsilon] } (Rule.mem_wired.mpr (.inl ⟨hepsilon, rfl⟩))
        (by simp [Rule.body])
    · exact hwired { rule with elements := rule.body } (Rule.mem_wired.mpr (.inr ⟨hbody, rfl⟩))
        fun symbol hsymbol => hvanishes symbol (List.mem_filter.mp hsymbol).1
  · intro h other hother hvanishes
    obtain ⟨rule, hrule, hwired⟩ := List.mem_flatMap.mp hother
    rcases Rule.mem_wired.mp hwired with ⟨hepsilon, rfl⟩ | ⟨hbody, rfl⟩
    · exact (h rule hrule).1 hepsilon
    · exact (h rule hrule).2 hbody (Rule.forall_mem_body_vanishes.mp hvanishes)

/-- The state of each beginning in the machine of a nonterminal. -/
noncomputable def place (grammar : Grammar) (name : String) : List Symbol → Nat :=
  Classical.choose (grammar.represents_machine name)

theorem represents_place (grammar : Grammar) (name : String) :
    Trie.Represents (grammar.machine name) ((grammar.rulesFor name).map Rule.body)
      (Trie.Stops (grammar.rulesFor name)) (grammar.place name) :=
  Classical.choose_spec (grammar.represents_machine name)

theorem branches_place {begun : List Symbol}
    (hbegun : Trie.Begins ((grammar.rulesFor name).map Rule.body) begun) :
    Trie.Branches ((grammar.rulesFor name).map Rule.body) (Trie.Stops (grammar.rulesFor name))
      (grammar.place name) begun ((grammar.machine name).state (grammar.place name begun)) :=
  (grammar.represents_place name).branches begun hbegun

/-! ### Ways through a machine are empty derivations -/

/-- Where a property allows a machine to stand before any symbol: at the end if it has the property
itself, and behind symbols that vanish by it. -/
def Rests (grammar : Grammar) (holds : String → Prop) (name : String) (state : Nat) : Prop :=
  state = Trie.final ∧ holds name ∨
    ∃ begun, Trie.Begins ((grammar.rulesFor name).map Rule.body) begun ∧
      state = grammar.place name begun ∧ ∀ symbol ∈ begun, symbol.Vanishes holds

theorem Rests.of_final (h : grammar.Rests holds name Trie.final) : holds name := by
  rcases h with ⟨-, hholds⟩ | ⟨begun, hbegun, hstate, -⟩
  · exact hholds
  · exact absurd hstate.symm ((grammar.represents_place name).inside hbegun).2.1

theorem Rests.epsilon (hclosed : grammar.wired.ClosedUnder holds) {state : Nat}
    (h : grammar.Rests holds name state) {epsilon : Transition}
    (hepsilon : ((grammar.machine name).state state).epsilon = some epsilon) :
    grammar.Rests holds name epsilon.target := by
  rcases h with ⟨rfl, -⟩ | ⟨begun, hbegun, rfl, hvanishes⟩
  · rw [(grammar.spells_word name).final_eq] at hepsilon
    cases hepsilon
  · obtain ⟨hstops, rfl⟩ := ((branches_place hbegun).epsilon_iff epsilon).mp hepsilon
    refine .inl ⟨rfl, ?_⟩
    rcases hstops with ⟨hne, hend⟩ | ⟨-, rule, hrule, helement⟩
    · obtain ⟨rule, hrule, rfl⟩ := List.mem_map.mp hend
      obtain ⟨hmem, rfl⟩ := mem_rulesFor.mp hrule
      exact (closedUnder_wired_iff.mp hclosed rule hmem).2 hne hvanishes
    · obtain ⟨hmem, rfl⟩ := mem_rulesFor.mp hrule
      exact (closedUnder_wired_iff.mp hclosed rule hmem).1 helement

theorem Rests.call {state : Nat} (h : grammar.Rests holds name state) {call : Call}
    (hcall : call ∈ ((grammar.machine name).state state).calls) (hholds : holds call.callee) :
    grammar.Rests holds name call.target := by
  rcases h with ⟨rfl, -⟩ | ⟨begun, hbegun, rfl, hvanishes⟩
  · rw [(grammar.spells_word name).final_eq] at hcall
    cases hcall
  · rw [(branches_place hbegun).calls_eq] at hcall
    obtain ⟨symbol, hsymbol, hmove⟩ := List.mem_filterMap.mp hcall
    cases symbol with
    | nonterminal callee =>
        cases hmove
        refine .inr ⟨begun ++ [.nonterminal callee], Trie.mem_followers_iff_begins.mp hsymbol, rfl, ?_⟩
        exact List.forall_mem_append.mpr ⟨hvanishes, List.forall_mem_singleton.mpr hholds⟩
    | terminal other => cases hmove
    | epsilon => cases hmove

/-- The induction is on the way through the machine, with the ways through the machines it calls. -/
theorem ClosedUnder.rests (hclosed : grammar.wired.ClosedUnder holds)
    (hnetwork : grammar.Describes start network) {machine : Automaton} {state : Nat}
    (h : network.Idles machine state) (hmachine : machine = grammar.machine name) :
    grammar.Rests holds name state := by
  induction h generalizing name with
  | start machine =>
      exact .inr ⟨[], .inl rfl, (grammar.represents_place name).place_nil.symm, nofun⟩
  | epsilon _ hepsilon ih =>
      subst hmachine
      exact (ih rfl).epsilon hclosed hepsilon
  | call _ hcall hcallee _ ih ihcallee =>
      subst hmachine
      exact (ih rfl).call hcall (ihcallee (hnetwork.callee_eq hcallee)).of_final

/-! ### Empty derivations are ways through a machine -/

theorem idles_place {begun : List Symbol} {rule : Rule} (hrule : rule ∈ grammar.rulesFor name)
    (hbegun : begun <+: rule.body) (hvanishes : ∀ symbol ∈ begun, symbol.Vanishes network.Skips) :
    network.Idles (grammar.machine name) (grammar.place name begun) := by
  induction begun using List.reverseRecOn with
  | nil =>
      rw [(grammar.represents_place name).place_nil]
      exact .start _
  | append_singleton begun symbol ih =>
      obtain ⟨hbefore, hsymbol⟩ := List.forall_mem_append.mp hvanishes
      have hskips := List.forall_mem_singleton.mp hsymbol
      have hbody := List.mem_map_of_mem (f := Rule.body) hrule
      have hshorter := (List.prefix_append ..).trans hbegun
      cases symbol with
      | nonterminal callee =>
          obtain ⟨machine, hcallee, hfinal⟩ := hskips
          have hcall : ⟨grammar.place name begun, grammar.place name (begun ++ [.nonterminal callee]),
              callee, some .descend, some .ascend⟩ ∈
                ((grammar.machine name).state (grammar.place name begun)).calls := by
            rw [(branches_place (.inr ⟨_, hbody, hshorter⟩)).calls_eq]
            exact List.mem_filterMap.mpr ⟨_, Trie.mem_followers_iff.mpr ⟨_, hbody, hbegun⟩, rfl⟩
          exact (ih hshorter hbefore).call hcall hcallee hfinal
      | terminal other => exact absurd hskips id
      | epsilon => exact absurd (hbegun.subset (by simp)) rule.epsilon_not_mem_body

theorem idles_final {begun : List Symbol} (hstops : Trie.Stops (grammar.rulesFor name) begun)
    (h : network.Idles (grammar.machine name) (grammar.place name begun)) :
    network.Idles (grammar.machine name) Trie.final := by
  have hbegun := (grammar.represents_place name).begins_of_stops begun hstops
  exact h.epsilon (((branches_place hbegun).epsilon_iff _).mpr ⟨hstops, rfl⟩)

variable {compiled : GrammarNetwork}

theorem closedUnder_skips (h : grammar.compile = .ok compiled) :
    grammar.wired.ClosedUnder compiled.network.Skips := by
  refine closedUnder_wired_iff.mpr fun rule hrule => ?_
  have hmachine := machine?_of_compile h (generator_mem_of_check (describes_of_compile h).1 hrule)
  have hown : rule ∈ grammar.rulesFor rule.generator := mem_rulesFor.mpr ⟨hrule, rfl⟩
  refine ⟨fun hepsilon => ⟨_, hmachine, ?_⟩, fun hne hvanishes => ⟨_, hmachine, ?_⟩⟩
  · exact idles_final (.inr ⟨rfl, rule, hown, hepsilon⟩) (idles_place hown List.nil_prefix nofun)
  · exact idles_final (.inl ⟨hne, List.mem_map_of_mem hown⟩)
      (idles_place hown (List.prefix_refl _) hvanishes)

/-- The machines that can be passed without a symbol are those of the nonterminals that derive the empty
string in the grammar that the machines follow. -/
theorem skips_iff_mem_nullable (h : grammar.compile = .ok compiled) :
    compiled.network.Skips name ↔ name ∈ grammar.wired.nullable := by
  have hnetwork := (describes_of_compile h).2
  constructor
  · rintro ⟨machine, hmachine, hidles⟩
    exact (grammar.wired.closedUnder_nullable.rests hnetwork hidles
      (hnetwork.callee_eq hmachine)).of_final
  · exact (closedUnder_skips h).of_mem_nullable

/-! ### Where the two notions agree -/

theorem epsilon_mem_elements {rule : Rule} (hbody : rule.body = []) (hne : rule.elements ≠ []) :
    .epsilon ∈ rule.elements := by
  obtain ⟨symbol, hsymbol⟩ := List.exists_mem_of_ne_nil _ hne
  by_cases hepsilon : symbol = .epsilon
  · exact hepsilon ▸ hsymbol
  · have hmem : symbol ∈ rule.body := List.mem_filter.mpr ⟨hsymbol, decide_eq_true hepsilon⟩
    rw [hbody] at hmem
    cases hmem

/-- Only a rule without elements is not handed on by the machines. -/
theorem closedUnder_of_wired
    (hempty : ∀ rule ∈ grammar.rules, rule.elements = [] → rule.generator ∈ grammar.wired.nullable) :
    grammar.ClosedUnder (· ∈ grammar.wired.nullable) := by
  intro rule hrule hvanishes
  have hwired := closedUnder_wired_iff.mp grammar.wired.closedUnder_nullable rule hrule
  by_cases hbody : rule.body = []
  · by_cases helements : rule.elements = []
    · exact hempty rule hrule helements
    · exact hwired.1 (epsilon_mem_elements hbody helements)
  · exact hwired.2 hbody hvanishes

/-- The two notions agree on a grammar if and only if every nonterminal with an epsilon element in one of
its rules derives the empty string, and the machine of every nonterminal with a rule that has no elements
can be passed by its other rules. -/
theorem nullable_agrees_iff (h : grammar.compile = .ok compiled) :
    (∀ name, compiled.network.Skips name ↔ name ∈ grammar.wired.nullable) ∧
    ((∀ name ∈ grammar.nonterminals, name ∈ grammar.nullable ↔ compiled.network.Skips name) ↔
      ∀ rule ∈ grammar.rules,
        (.epsilon ∈ rule.elements → rule.generator ∈ grammar.nullable) ∧
        (rule.elements = [] → rule.generator ∈ grammar.wired.nullable)) := by
  have hskips : ∀ name, compiled.network.Skips name ↔ name ∈ grammar.wired.nullable :=
    fun name => skips_iff_mem_nullable h
  refine ⟨hskips, ?_⟩
  simp only [hskips]
  constructor
  · intro hagree rule hrule
    have hname := hagree _ (generator_mem_of_check (describes_of_compile h).1 hrule)
    refine ⟨fun hepsilon => hname.mpr ?_, fun hempty => hname.mp ?_⟩
    · exact (closedUnder_wired_iff.mp grammar.wired.closedUnder_nullable rule hrule).1 hepsilon
    · apply grammar.closedUnder_nullable rule hrule
      simp [Rule.body, hempty]
  · intro hrules name _
    constructor
    · exact (closedUnder_of_wired fun rule hrule => (hrules rule hrule).2).of_mem_nullable
    · apply ClosedUnder.of_mem_nullable
      refine closedUnder_wired_iff.mpr fun rule hrule => ⟨(hrules rule hrule).1, fun _ => ?_⟩
      exact grammar.closedUnder_nullable rule hrule

/-- An epsilon element on its own, and one beside a nonterminal that derives the empty string. -/
def optional : Grammar where
  start := some "S"
  nonterminals := ["S", "A", "E"]
  terminals := ["s", "e"]
  rules := [⟨"S", [.nonterminal "A", .terminal "s"]⟩, ⟨"A", [.nonterminal "E", .epsilon]⟩,
    ⟨"E", [.epsilon]⟩, ⟨"E", [.terminal "e"]⟩]

theorem optional_agrees :
    ∃ compiled, optional.compile = .ok compiled ∧
      ∀ name ∈ optional.nonterminals, name ∈ optional.nullable ↔ compiled.network.Skips name := by
  have hok : (match optional.compile with | .ok _ => true | .error _ => false) = true := by cbv
  split at hok
  · next compiled hcompile =>
    refine ⟨compiled, hcompile, (nullable_agrees_iff hcompile).2.mpr ?_⟩
    have hnullable : optional.nullable = ["A", "E"] := by cbv
    rw [hnullable]
    decide
  · cases hok

/-- A terminal with an epsilon element behind it. -/
def padded : Grammar where
  start := some "A"
  nonterminals := ["A"]
  terminals := ["x"]
  rules := [⟨"A", [.terminal "x", .epsilon]⟩]

/-- It is not so that a machine can be passed without a symbol just where its nonterminal derives the
empty string. -/
theorem not_nullable_agrees :
    ¬ ∀ (grammar : Grammar) (compiled : GrammarNetwork), grammar.compile = .ok compiled →
      ∀ name ∈ grammar.nonterminals, name ∈ grammar.nullable ↔ compiled.network.Skips name := by
  intro hagree
  have hok : (match padded.compile with | .ok _ => true | .error _ => false) = true := by cbv
  split at hok
  · next compiled hcompile =>
    have hwired : padded.wired.nullable = ["A"] := by cbv
    have hnullable : padded.nullable = [] := by cbv
    have hskips : compiled.network.Skips "A" := by
      rw [skips_iff_mem_nullable hcompile, hwired]
      exact List.mem_cons_self
    have hmem := (hagree padded compiled hcompile "A" List.mem_cons_self).mpr hskips
    rw [hnullable] at hmem
    cases hmem
  · cases hok

-- the other way round, a rule without elements counts for the grammar and not for its machine
example : { padded with rules := [⟨"A", []⟩] }.nullable = ["A"] ∧
    { padded with rules := [⟨"A", []⟩] }.wired.nullable = [] := by
  constructor <;> cbv

end Grammar

end TransitionNetwork
