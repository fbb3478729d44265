import TransitionNetwork.Proofs.ParseSoundness
import TransitionNetwork.Proofs.PredictiveGrammar
import TransitionNetwork.Proofs.SilentPaths

/-! What the lookahead of a call sees. The search behind a call goes into the machines that may be called
first and along epsilon moves, and it never comes back out of a call. Where a machine that is entered on
the way can be passed without a symbol, the search ends with success at its final state, although more may
have to come behind the call. So a machine appears to start not only if its nonterminal derives a form that
begins with the symbol, or nothing at all, but also if it derives a form that begins with a nonterminal
which derives nothing. -/

namespace TransitionNetwork

/-- A form that begins with the symbol or with a nonterminal that has a property, or that has no symbols. -/
def Symbol.Opens (starts : String → Prop) (symbol : Option String) : List Symbol → Prop
  | [] => True
  | .terminal name :: _ => name ∈ symbol
  | .nonterminal name :: _ => starts name
  | .epsilon :: _ => False

/-- A right-hand side without its epsilon elements has none left to drop. -/
theorem Rule.body_body (rule : Rule) : ({ rule with elements := rule.body } : Rule).body = rule.body := by
  simp [Rule.body]

namespace Grammar

variable {grammar : Grammar} {network : Network} {start name : String} {symbol : Option String}

/-- The nonterminal derives a form that begins with the symbol, or it derives the empty string. -/
def MayStart (grammar : Grammar) (symbol : Option String) (name : String) : Prop :=
  (∃ terminal ∈ symbol, grammar.First (.nonterminal name) terminal) ∨ grammar.DerivesEmpty name

/-- The nonterminal derives a form that begins with a nonterminal which derives the empty string. -/
def OpensEmpty (grammar : Grammar) (name : String) : Prop :=
  ∃ inner rest, grammar.Derives [.nonterminal name] (.nonterminal inner :: rest) ∧
    grammar.DerivesEmpty inner

/-- The nonterminal derives a form that begins with the symbol, or with a nonterminal which derives the
empty string. -/
def AppearsToStart (grammar : Grammar) (symbol : Option String) (name : String) : Prop :=
  (∃ terminal ∈ symbol, grammar.First (.nonterminal name) terminal) ∨ grammar.OpensEmpty name

/-! ### Forms that open -/

/-- If every rule hands the property on from the beginning of its body to its generator, a form opens
whenever a form that is derived from it does. -/
theorem Derives.opens {starts : String → Prop}
    (hrules : ∀ rule ∈ grammar.rules, Symbol.Opens starts symbol rule.body → starts rule.generator)
    {before after : List Symbol} (h : grammar.Derives before after)
    (hopens : Symbol.Opens starts symbol after) : Symbol.Opens starts symbol before := by
  induction h using Relation.ReflTransGen.head_induction_on with
  | refl => exact hopens
  | head hstep _ ih =>
      obtain ⟨rule, hrule, left, right, rfl, rfl⟩ := hstep
      cases left with
      | cons head left => cases head <;> exact ih
      | nil =>
          apply hrules rule hrule
          cases hbody : rule.body with
          | nil => trivial
          | cons head rest =>
              rw [hbody] at ih
              cases head <;> exact ih

/-- A nonterminal from which a form that opens is derived has the property. -/
theorem Derives.starts {starts : String → Prop}
    (hrules : ∀ rule ∈ grammar.rules, Symbol.Opens starts symbol rule.body → starts rule.generator)
    {form : List Symbol} (h : grammar.Derives [.nonterminal name] form)
    (hopens : Symbol.Opens starts symbol form) : starts name :=
  h.opens hrules hopens

/-! ### From the search to derivations -/

theorem derives_wired_body {rule : Rule} (hrule : rule ∈ grammar.rules) (hbody : rule.body ≠ []) :
    grammar.wired.Derives [.nonterminal rule.generator] rule.body := by
  have hmem : { rule with elements := rule.body } ∈ grammar.wired.rules :=
    List.mem_flatMap.mpr ⟨rule, hrule, Rule.mem_wired.mpr (.inr ⟨hbody, rfl⟩)⟩
  have hderives := derives_body hmem
  rw [rule.body_body] at hderives
  exact hderives

theorem derivesEmpty_wired {rule : Rule} (hrule : rule ∈ grammar.rules)
    (hepsilon : .epsilon ∈ rule.elements) : grammar.wired.DerivesEmpty rule.generator := by
  have hmem : { rule with elements := [.epsilon] } ∈ grammar.wired.rules :=
    List.mem_flatMap.mpr ⟨rule, hrule, Rule.mem_wired.mpr (.inl ⟨hepsilon, rfl⟩)⟩
  exact derives_body hmem

theorem Continues.derives_wired {head : Symbol} (h : grammar.Continues name [] head) :
    ∃ rest, grammar.wired.Derives [.nonterminal name] (head :: rest) := by
  obtain ⟨rule, hrule, rest, hbody⟩ := h
  obtain ⟨hmem, rfl⟩ := mem_rulesFor.mp hrule
  refine ⟨rest, ?_⟩
  have hderives := derives_wired_body hmem (by simp [← hbody])
  rw [← hbody] at hderives
  exact hderives

/-- The root has an epsilon move just where some rule has an epsilon element, and it leads to the end. -/
theorem epsilon_root_iff {epsilon : Transition} :
    ((grammar.machine name).state Trie.root).epsilon = some epsilon ↔
      (∃ rule ∈ grammar.rulesFor name, .epsilon ∈ rule.elements) ∧
        epsilon = .epsilon Trie.root Trie.final := by
  have hbranches := (grammar.represents_place name).branches [] (.inl rfl)
  rw [(grammar.represents_place name).place_nil] at hbranches
  rw [hbranches.epsilon_iff, Trie.Stops, (grammar.represents_place name).place_nil]
  simp

/-- Where the search can come to: the roots of the machines that may be called first, and the ends of those
that can be passed at once. -/
def Entered (grammar : Grammar) (name : String) (place : Network.Place) : Prop :=
  ∃ inner rest, grammar.wired.Derives [.nonterminal name] (.nonterminal inner :: rest) ∧
    (place = (inner, Trie.root) ∨ place = (inner, Trie.final) ∧ grammar.wired.DerivesEmpty inner)

theorem Describes.stateAt_final (hnetwork : grammar.Describes start network) (name : String) :
    (network.stateAt (name, Trie.final)).calls = [] ∧
      (network.stateAt (name, Trie.final)).epsilon = none := by
  rw [Network.stateAt]
  cases hmachine : network.machine? name with
  | none => exact ⟨rfl, rfl⟩
  | some machine =>
      rw [hnetwork.callee_eq hmachine]
      dsimp only [Option.map_some, Option.getD_some]
      rw [(grammar.spells_word name).final_eq]
      exact ⟨rfl, rfl⟩

theorem Entered.successor (hnetwork : grammar.Describes start network) {place next : Network.Place}
    (h : grammar.Entered name place) (hnext : next ∈ network.successors place) :
    grammar.Entered name next := by
  obtain ⟨inner, rest, hderives, rfl | ⟨rfl, hempty⟩⟩ := h
  · rcases hnetwork.stateAt_root inner with hblank | hroot
    · rw [Network.successors, Trie.root, hblank] at hnext
      cases hnext
    · rw [Network.successors, Trie.root, hroot] at hnext
      rcases List.mem_append.mp hnext with hcalls | hmoves
      · obtain ⟨call, hcall, rfl⟩ := List.mem_map.mp hcalls
        obtain ⟨rest', hcalled⟩ := (continues_of_call (Trie.locate?_nil _) hcall).derives_wired
        exact ⟨call.callee, rest' ++ rest, hderives.trans (hcalled.append_right rest), .inl rfl⟩
      · obtain ⟨epsilon, hepsilon, rfl⟩ := List.mem_map.mp hmoves
        obtain ⟨⟨rule, hrule, helement⟩, rfl⟩ := epsilon_root_iff.mp (Option.mem_toList.mp hepsilon)
        obtain ⟨hmem, rfl⟩ := mem_rulesFor.mp hrule
        exact ⟨_, rest, hderives, .inr ⟨rfl, derivesEmpty_wired hmem helement⟩⟩
  · obtain ⟨hcalls, hepsilon⟩ := hnetwork.stateAt_final inner
    rw [Network.successors, hcalls, hepsilon] at hnext
    cases hnext

theorem Describes.entered_of_reaches (hnetwork : grammar.Describes start network)
    {place : Network.Place} (h : Reaches network.successors (name, 0) place) :
    grammar.Entered name place := by
  induction h with
  | refl => exact ⟨name, [], .refl, .inl rfl⟩
  | tail _ hedge ih => exact ih.successor hnetwork hedge

theorem Describes.appearsToStart (hnetwork : grammar.Describes start network)
    (h : network.Startable symbol name) : grammar.wired.AppearsToStart symbol name := by
  obtain ⟨place, hreaches, hwelcome⟩ := h
  obtain ⟨inner, rest, hderives, rfl | ⟨rfl, hempty⟩⟩ := hnetwork.entered_of_reaches hreaches
  · obtain ⟨terminal, hterminal, hcontinues⟩ := hnetwork.transition_of_welcomes hwelcome
    obtain ⟨rest', hfirst⟩ := hcontinues.derives_wired
    exact .inl ⟨terminal, hterminal, rest' ++ rest, hderives.trans (hfirst.append_right rest)⟩
  · exact .inr ⟨inner, rest, hderives, hempty⟩

/-! ### From derivations to the search -/

theorem stateAt_of_machine? (hmachine : network.machine? name = some (grammar.machine name))
    (index : Nat) : network.stateAt (name, index) = (grammar.machine name).state index := by
  rw [Network.stateAt, hmachine]
  rfl

theorem startable_of_epsilon (hmachine : network.machine? name = some (grammar.machine name))
    {rule : Rule} (hrule : rule ∈ grammar.rulesFor name) (hepsilon : .epsilon ∈ rule.elements) :
    network.Startable symbol name := by
  have hmove : ((grammar.machine name).state Trie.root).epsilon = _ :=
    epsilon_root_iff.mpr ⟨⟨rule, hrule, hepsilon⟩, rfl⟩
  refine ⟨(name, Trie.final), .single ?_, ?_⟩
  · rw [Network.successors, stateAt_of_machine? hmachine]
    exact List.mem_append_right _ (List.mem_map_of_mem (Option.mem_toList.mpr hmove))
  · rw [Network.welcomes, stateAt_of_machine? hmachine, (grammar.spells_word name).final_eq]
    rfl

theorem startable_of_body (hmachine : network.machine? name = some (grammar.machine name))
    {rule : Rule} (hrule : rule ∈ grammar.rulesFor name) (hbody : rule.body ≠ [])
    (hopens : Symbol.Opens (network.Startable symbol) symbol rule.body) :
    network.Startable symbol name := by
  obtain ⟨head, rest, hcons⟩ := List.exists_cons_of_ne_nil hbody
  have hcontinues : grammar.Continues name [] head := ⟨rule, hrule, rest, hcons.symm⟩
  obtain ⟨target, hstep, -⟩ := hcontinues.step? (Trie.locate?_nil _)
  rw [hcons] at hopens
  cases head with
  | epsilon => exact absurd hopens id
  | terminal terminal =>
      obtain ⟨transition, htransition, -⟩ := Option.map_eq_some_iff.mp hstep
      have hsymbol : symbol = some terminal := hopens
      refine ⟨(name, Trie.root), .refl, ?_⟩
      simp [Network.welcomes, stateAt_of_machine? hmachine, hsymbol, State.hasTransition, htransition]
  | nonterminal callee =>
      obtain ⟨call, hcall, -⟩ := Option.map_eq_some_iff.mp hstep
      have hname : call.callee = callee := by simpa using List.find?_some hcall
      obtain ⟨place, hreaches, hwelcome⟩ : network.Startable symbol callee := hopens
      refine ⟨place, .head ?_ hreaches, hwelcome⟩
      change _ ∈ network.successors (name, Trie.root)
      rw [Network.successors, stateAt_of_machine? hmachine, ← hname]
      exact List.mem_append_left _ (List.mem_map_of_mem (List.mem_of_find?_eq_some hcall))

variable {compiled : GrammarNetwork}

/-- A rule hands on that machines can start, unless it has no elements. -/
theorem startable_of_rule (h : grammar.compile = .ok compiled) {rule : Rule}
    (hrule : rule ∈ grammar.rules) (hne : rule.elements ≠ [])
    (hopens : Symbol.Opens (compiled.network.Startable symbol) symbol rule.body) :
    compiled.network.Startable symbol rule.generator := by
  have hmachine := machine?_of_compile h (generator_mem_of_check (describes_of_compile h).1 hrule)
  have hown : rule ∈ grammar.rulesFor rule.generator := mem_rulesFor.mpr ⟨hrule, rfl⟩
  by_cases hbody : rule.body = []
  · exact startable_of_epsilon hmachine hown (epsilon_mem_elements hbody hne)
  · exact startable_of_body hmachine hown hbody hopens

theorem startable_of_wired (h : grammar.compile = .ok compiled) {rule : Rule}
    (hrule : rule ∈ grammar.wired.rules)
    (hopens : Symbol.Opens (compiled.network.Startable symbol) symbol rule.body) :
    compiled.network.Startable symbol rule.generator := by
  obtain ⟨origin, horigin, hwired⟩ := List.mem_flatMap.mp hrule
  rcases Rule.mem_wired.mp hwired with ⟨hepsilon, rfl⟩ | ⟨hbody, rfl⟩
  · have hmachine := machine?_of_compile h
      (generator_mem_of_check (describes_of_compile h).1 horigin)
    exact startable_of_epsilon hmachine (mem_rulesFor.mpr ⟨horigin, rfl⟩) hepsilon
  · have hne : origin.elements ≠ [] := by
      intro hnil
      exact hbody (by rw [Rule.body, hnil, List.filter_nil])
    rw [origin.body_body] at hopens
    change compiled.network.Startable symbol origin.generator
    exact startable_of_rule h horigin hne hopens

/-- A machine can start just if its nonterminal appears to, in the grammar that the machines follow. -/
theorem startable_iff_appearsToStart (h : grammar.compile = .ok compiled) :
    compiled.network.Startable symbol name ↔ grammar.wired.AppearsToStart symbol name := by
  have hrules : ∀ rule ∈ grammar.wired.rules,
      Symbol.Opens (compiled.network.Startable symbol) symbol rule.body →
        compiled.network.Startable symbol rule.generator := fun rule => startable_of_wired h
  constructor
  · exact (describes_of_compile h).2.appearsToStart
  · rintro (⟨terminal, hterminal, rest, hfirst⟩ | ⟨inner, rest, hderives, hempty⟩)
    · exact hfirst.starts hrules hterminal
    · have hinner : compiled.network.Startable symbol inner := Derives.starts hrules hempty trivial
      exact hderives.starts hrules hinner

/-- With nothing visited before, the search succeeds just if the machine can start. -/
theorem canStart_iff_appearsToStart (h : grammar.compile = .ok compiled)
    (hname : name ∈ grammar.nonterminals) (symbol : Option String) :
    (compiled.network.canStart symbol name []).1 = true ↔
      grammar.wired.AppearsToStart symbol name := by
  rw [← startable_iff_appearsToStart h]
  obtain ⟨hmachine, hnamed⟩ := Network.mem_of_machine? (machine?_of_compile h hname)
  exact (Network.vain_nil _ symbol).canStart_iff (List.mem_map.mpr ⟨_, hmachine, hnamed⟩)

/-! ### Where the lookahead is exact -/

/-- With epsilon elements only on their own, the machines follow rules of the grammar. -/
theorem EpsilonAlone.derives_of_wired (halone : grammar.EpsilonAlone) {before after : List Symbol}
    (h : grammar.wired.Derives before after) : grammar.Derives before after := by
  induction h with
  | refl => exact .refl
  | tail _ hstep ih =>
      obtain ⟨rule, hrule, left, right, rfl, rfl⟩ := hstep
      obtain ⟨origin, horigin, hwired⟩ := List.mem_flatMap.mp hrule
      refine ih.tail ⟨origin, horigin, left, right, ?_⟩
      rcases Rule.mem_wired.mp hwired with ⟨hepsilon, rfl⟩ | ⟨-, rfl⟩
      · rw [Rule.body, Rule.body, halone origin horigin hepsilon]
        exact ⟨rfl, rfl⟩
      · rw [origin.body_body]
        exact ⟨rfl, rfl⟩

theorem mem_nonterminals_of_nullable (h : grammar.check = .ok start)
    (hname : name ∈ grammar.nullable) : name ∈ grammar.nonterminals := by
  have hclosed : grammar.ClosedUnder (· ∈ grammar.nonterminals) :=
    fun rule hrule _ => generator_mem_of_check h hrule
  exact hclosed.of_mem_nullable hname

/-- If the lookahead is exact, a rule that begins with a nullable nonterminal has a nullable generator. -/
theorem nullable_of_exact (h : grammar.compile = .ok compiled)
    (hexact : ∀ name ∈ grammar.nonterminals, ∀ symbol,
      (compiled.network.canStart symbol name []).1 = true ↔ grammar.MayStart symbol name)
    {rule : Rule} (hrule : rule ∈ grammar.rules) {head : Symbol} (hhead : head ∈ rule.body.head?)
    (hvanishes : head.vanishes grammar.nullable = true) : rule.generator ∈ grammar.nullable := by
  have hcheck := (describes_of_compile h).1
  have hgenerator := generator_mem_of_check hcheck hrule
  have hcons := List.eq_cons_of_mem_head? hhead
  have hopens : Symbol.Opens (compiled.network.Startable none) none rule.body := by
    rw [hcons]
    cases head with
    | epsilon => exact absurd (List.mem_of_mem_head? hhead) rule.epsilon_not_mem_body
    | terminal terminal => cases hvanishes
    | nonterminal inner =>
        have hinner : inner ∈ grammar.nullable := Symbol.vanishes_iff.mp hvanishes
        apply Network.startable_of_canStart
        exact (hexact inner (mem_nonterminals_of_nullable hcheck hinner) none).mpr
          (.inr (mem_nullable_iff.mp hinner))
  have hstartable := startable_of_body (machine?_of_compile h hgenerator)
    (mem_rulesFor.mpr ⟨hrule, rfl⟩) (List.ne_nil_of_mem (List.mem_of_mem_head? hhead)) hopens
  have hstart := (canStart_iff_appearsToStart h hgenerator none).mpr
    ((startable_iff_appearsToStart h).mp hstartable)
  rcases (hexact _ hgenerator none).mp hstart with ⟨_, ⟨⟩, -⟩ | hempty
  exact mem_nullable_iff.mpr hempty

/-- If rules that begin with a nullable nonterminal have nullable generators, nothing that begins with one
is derived from others. -/
theorem OpensEmpty.derivesEmpty
    (hrules : ∀ rule ∈ grammar.rules, ∀ head ∈ rule.body.head?,
      head.vanishes grammar.nullable = true → rule.generator ∈ grammar.nullable)
    (h : grammar.OpensEmpty name) : grammar.DerivesEmpty name := by
  have hhandon : ∀ rule ∈ grammar.rules, Symbol.Opens grammar.DerivesEmpty none rule.body →
      grammar.DerivesEmpty rule.generator := by
    intro rule hrule hopens
    cases hbody : rule.body with
    | nil =>
        have hderives := derives_body hrule
        rw [hbody] at hderives
        exact hderives
    | cons head rest =>
        rw [hbody] at hopens
        cases head with
        | epsilon => exact absurd hopens id
        | terminal terminal => cases hopens
        | nonterminal inner =>
            have hinner := mem_nullable_iff.mpr hopens
            exact mem_nullable_iff.mp (hrules rule hrule (.nonterminal inner) (by rw [hbody]; rfl)
              (Symbol.vanishes_iff.mpr hinner))
  obtain ⟨inner, rest, hderives, hempty⟩ := h
  exact hderives.starts hhandon hempty

theorem EpsilonAlone.opensEmpty_of_wired (halone : grammar.EpsilonAlone)
    (h : grammar.wired.OpensEmpty name) : grammar.OpensEmpty name := by
  obtain ⟨inner, rest, hderives, hempty⟩ := h
  exact ⟨inner, rest, halone.derives_of_wired hderives, halone.derives_of_wired hempty⟩

/-- Where rules without elements are made up for, machines can start whenever they may. -/
theorem MayStart.startable (h : grammar.compile = .ok compiled)
    (hrules : ∀ rule ∈ grammar.rules, rule.elements = [] → grammar.wired.OpensEmpty rule.generator)
    (hmay : grammar.MayStart symbol name) : compiled.network.Startable symbol name := by
  have hhandon : ∀ rule ∈ grammar.rules,
      Symbol.Opens (compiled.network.Startable symbol) symbol rule.body →
        compiled.network.Startable symbol rule.generator := by
    intro rule hrule hopens
    by_cases hnil : rule.elements = []
    · exact (startable_iff_appearsToStart h).mpr (.inr (hrules rule hrule hnil))
    · exact startable_of_rule h hrule hnil hopens
  rcases hmay with ⟨terminal, hterminal, rest, hfirst⟩ | hempty
  · exact hfirst.starts hhandon hterminal
  · exact Derives.starts hhandon hempty trivial

/-- The lookahead is exact on a grammar if and only if every nonterminal with a rule that begins with a
nonterminal which derives the empty string derives it as well, and the machine of every nonterminal with a
rule that has no elements can start by its other rules. -/
theorem canStart_exact_iff (h : grammar.compile = .ok compiled) (halone : grammar.EpsilonAlone) :
    (∀ name ∈ grammar.nonterminals, ∀ symbol,
      (compiled.network.canStart symbol name []).1 = true ↔
        grammar.wired.AppearsToStart symbol name) ∧
    ((∀ name ∈ grammar.nonterminals, ∀ symbol,
      (compiled.network.canStart symbol name []).1 = true ↔ grammar.MayStart symbol name) ↔
      ∀ rule ∈ grammar.rules,
        (∀ head ∈ rule.body.head?, head.vanishes grammar.nullable = true →
          rule.generator ∈ grammar.nullable) ∧
        (rule.elements = [] → grammar.wired.OpensEmpty rule.generator)) := by
  have happears : ∀ name ∈ grammar.nonterminals, ∀ symbol,
      (compiled.network.canStart symbol name []).1 = true ↔
        grammar.wired.AppearsToStart symbol name := fun name => canStart_iff_appearsToStart h
  refine ⟨happears, ?_⟩
  constructor
  · intro hexact rule hrule
    refine ⟨fun head => nullable_of_exact h hexact hrule, fun hnil => ?_⟩
    have hgenerator := generator_mem_of_check (describes_of_compile h).1 hrule
    have hempty : grammar.DerivesEmpty rule.generator := by
      have hderives := derives_body hrule
      rw [Rule.body, hnil, List.filter_nil] at hderives
      exact hderives
    rcases (happears _ hgenerator none).mp ((hexact _ hgenerator none).mpr (.inr hempty)) with
      ⟨_, ⟨⟩, -⟩ | hopens
    exact hopens
  · intro hrules name hname symbol
    rw [happears name hname symbol]
    constructor
    · rintro (⟨terminal, hterminal, rest, hfirst⟩ | hopens)
      · exact .inl ⟨terminal, hterminal, rest, halone.derives_of_wired hfirst⟩
      · exact .inr ((halone.opensEmpty_of_wired hopens).derivesEmpty fun rule hrule =>
          (hrules rule hrule).1)
    · intro hmay
      exact (startable_iff_appearsToStart h).mp
        (hmay.startable h fun rule hrule => (hrules rule hrule).2)

/-- A nonterminal that begins with another one, where both derive the empty string. -/
def optionals : Grammar where
  start := some "S"
  nonterminals := ["S", "A", "E", "F"]
  terminals := ["s", "e", "f"]
  rules := [⟨"S", [.terminal "s", .nonterminal "A"]⟩, ⟨"A", [.nonterminal "E", .nonterminal "F"]⟩,
    ⟨"E", [.terminal "e"]⟩, ⟨"E", [.epsilon]⟩, ⟨"F", [.terminal "f"]⟩, ⟨"F", [.epsilon]⟩]

theorem optionals_canStart_exact :
    ∃ compiled, optionals.compile = .ok compiled ∧ ∀ name ∈ optionals.nonterminals, ∀ symbol,
      (compiled.network.canStart symbol name []).1 = true ↔ optionals.MayStart symbol name := by
  have hok : (match optionals.compile with | .ok _ => true | .error _ => false) = true := by cbv
  split at hok
  · next compiled hcompile =>
    have hnullable : optionals.nullable = ["A", "F", "E"] := by cbv
    have hleads : ∀ rule ∈ optionals.rules, ∀ head ∈ rule.body.head?,
        head.vanishes optionals.nullable = true → rule.generator ∈ optionals.nullable := by
      rw [hnullable]
      decide
    have helements : ∀ rule ∈ optionals.rules, rule.elements ≠ [] := by decide
    exact ⟨compiled, hcompile, (canStart_exact_iff hcompile (by decide)).2.mpr fun rule hrule =>
      ⟨hleads rule hrule, fun hnil => absurd hnil (helements rule hrule)⟩⟩
  · cases hok

/-- The nonterminal `N` begins with `E`, which derives the empty string, but has a terminal behind it. -/
def preceded : Grammar where
  start := some "S"
  nonterminals := ["S", "N", "E"]
  terminals := ["x"]
  rules := [⟨"S", [.nonterminal "N"]⟩, ⟨"N", [.nonterminal "E", .terminal "x"]⟩, ⟨"E", [.epsilon]⟩]

/-- It is not so that the lookahead is exact: without a symbol the machine of `N` appears to start. -/
theorem not_canStart_exact :
    ¬ ∀ (grammar : Grammar) (compiled : GrammarNetwork), grammar.compile = .ok compiled →
      grammar.EpsilonAlone → ∀ name ∈ grammar.nonterminals, ∀ symbol,
        (compiled.network.canStart symbol name []).1 = true ↔ grammar.MayStart symbol name := by
  intro hexact
  have hok : (match preceded.compile with
      | .ok compiled => (compiled.network.canStart none "N" []).1
      | .error _ => false) = true := by cbv
  split at hok
  · next compiled hcompile =>
    rcases (hexact preceded compiled hcompile (by decide) "N" (by decide) none).mp hok with
      ⟨_, ⟨⟩, -⟩ | hempty
    have hnullable : preceded.nullable = ["E"] := by cbv
    have hmem := mem_nullable_iff.mpr hempty
    rw [hnullable] at hmem
    exact absurd hmem (by decide)
  · cases hok

end Grammar

end TransitionNetwork
