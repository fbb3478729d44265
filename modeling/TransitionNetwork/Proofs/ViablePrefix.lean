import TransitionNetwork.Proofs.ParseSoundness
import TransitionNetwork.Proofs.TriePaths

/-! Consumed symbols begin a sentence. While every symbol is consumed and no error state is reached, the
state of each machine that is in control or waits stands for the beginning of one of its rules. What
remains of these rules, that of the machine in control first and then those of the frames from the
innermost out, follows the consumed symbols in a sentential form. The moves that are made do not depend on
the recorder, so the account of open nodes that a builder gives serves for every recorder. -/

namespace TransitionNetwork

/-! ### The moves do not depend on the recorder -/

namespace Configuration

variable {σ τ : Type} [Recorder σ] [Recorder τ] {network : Network} {limits : Limits}

/-- The same machines with another recorder. -/
def withRecorder (configuration : Configuration σ) (recorder : τ) : Configuration τ :=
  ⟨configuration.active, configuration.frames, recorder⟩

theorem Move.withRecorder {symbol : Option String} {before after : Configuration σ}
    (h : Move network limits symbol before after) (recorder : τ) :
    ∃ recorded : τ, Move network limits symbol (before.withRecorder recorder)
      (after.withRecorder recorded) := by
  cases h with
  | enter heligible hdepth hcallee => exact ⟨_, .enter heligible hdepth hcallee⟩
  | leave haccept hcall => exact ⟨_, .leave haccept hcall⟩
  | dismiss haccept hcall => exact ⟨_, .dismiss haccept hcall⟩
  | epsilon hepsilon => exact ⟨_, .epsilon hepsilon⟩

theorem Moves.withRecorder {symbol : Option String} {before after : Configuration σ}
    (h : Moves network limits symbol before after) (recorder : τ) :
    ∃ recorded : τ, Moves network limits symbol (before.withRecorder recorder)
      (after.withRecorder recorded) := by
  induction h with
  | refl => exact ⟨recorder, .refl⟩
  | tail _ hmove ih =>
      obtain ⟨between, hbetween⟩ := ih
      obtain ⟨recorded, hlast⟩ := hmove.withRecorder between
      exact ⟨recorded, hbetween.tail hlast⟩

theorem Take.withRecorder {symbol : String} {before after : Configuration σ}
    (h : Take symbol before after) (recorder : τ) :
    ∃ recorded : τ, Take symbol (before.withRecorder recorder) (after.withRecorder recorded) := by
  cases h with
  | transition htransition => exact ⟨_, .transition htransition⟩
  | alternate htransition hepsilon halternate =>
      exact ⟨_, .alternate htransition hepsilon halternate⟩

end Configuration

/-! ### The move that takes a symbol -/

namespace Session

open TransitionNetwork.Configuration

variable {σ : Type} [Recorder σ] {network : Network} {limits : Limits}

variable (network limits) in
theorem take_of_applyWithin (symbol : String) (moves : Nat) (active : Cursor)
    (frames : List Cursor) (recorder : σ) :
    let result := active.applyWithin symbol moves recorder
    result.1 = true → ∃ ready, Moves network limits (some symbol) ⟨active, frames, recorder⟩ ready ∧
      Take symbol ready ⟨result.2.1, frames, result.2.2⟩ := by
  fun_induction Cursor.applyWithin symbol moves active recorder with
  | case1 moves active recorder transition htransition =>
      exact fun _ => ⟨_, .refl, .transition htransition⟩
  | case2 active recorder htransition epsilon hepsilon =>
      intro _ hconsumed
      cases hconsumed
  | case3 active recorder htransition epsilon hepsilon moves _ _ hmoved ih =>
      intro _ hconsumed
      obtain ⟨ready, hready, htake⟩ := ih hconsumed
      cases hmoved
      exact ⟨ready, .head (.epsilon hepsilon) hready, htake⟩
  | case4 moves active recorder htransition hepsilon alternate halternate =>
      exact fun _ => ⟨_, .refl, .alternate htransition hepsilon halternate⟩
  | case5 moves active recorder htransition hepsilon halternate =>
      intro _ hconsumed
      cases hconsumed

variable (network limits) in
/-- A symbol that is consumed is taken by the last move, but for a return behind it. -/
theorem take_of_consume (symbol : String) (attempts calls : Nat) (session : Session)
    (recorder : σ) :
    let result := session.consume network limits symbol attempts calls recorder
    result.1 = true → ∃ ready taken recorded,
      Moves network limits (some symbol) (session.configuration recorder) ready ∧
      Take symbol ready (Session.configuration taken recorded) ∧
      taken.leaveCall recorded = result.2 := by
  fun_induction session.consume network limits symbol attempts calls recorder with
  | case1 attempts calls session recorder _ _ _ henter _ _ hleave ih =>
      intro _ hconsumed
      obtain ⟨ready, taken, recorded, hready, htake⟩ := ih hconsumed
      have hentered := Relation.ReflTransGen.single (move_of_enterCall? henter)
      exact ⟨ready, taken, recorded, (hentered.trans (moves_leaveCall _ hleave)).trans hready, htake⟩
  | case2 attempts calls session recorder _ _ active applied after recorded hleave happly =>
      intro _ _
      have htake := take_of_applyWithin network limits symbol session.active.automaton.size
        session.active session.frames recorder
      rw [Cursor.apply] at happly
      rw [happly] at htake
      obtain ⟨ready, hready, htake⟩ := htake rfl
      refine ⟨ready, session.control active, applied, hready, ?_, hleave⟩
      rw [configuration, active_control, frames_control]
      exact htake
  | case3 attempts calls session recorder _ _ consumed _ _ happly _ _ hleave hrejected ih =>
      intro _ hconsumed
      obtain ⟨ready, taken, recorded, hready, htake⟩ := ih hconsumed
      rw [Bool.not_eq_true] at hrejected
      subst hrejected
      have happlied : Moves network limits (some symbol) _ _ := attempt_apply happly
      exact ⟨ready, taken, recorded, (happlied.trans (moves_leaveCall _ hleave)).trans hready, htake⟩
  | case4 attempts calls session recorder _ =>
      intro _ hconsumed
      cases hconsumed

/-- Inputs symbols one after the other; the answer is whether all of them were consumed. -/
def inputAll (network : Network) (limits : Limits) :
    List String → Session → σ → Bool × Session × σ
  | [], session, recorder => (true, session, recorder)
  | symbol :: symbols, session, recorder =>
    let (consumed, session, recorder) := session.input network limits symbol recorder
    let (all, session, recorder) := inputAll network limits symbols session recorder
    (consumed && all, session, recorder)

theorem inputAll_cons {symbol : String} {symbols : List String} {session after : Session}
    {recorder recorded : σ}
    (h : session.inputAll network limits (symbol :: symbols) recorder = (true, after, recorded)) :
    ∃ next between, session.input network limits symbol recorder = (true, next, between) ∧
      next.inputAll network limits symbols between = (true, after, recorded) := by
  rcases hfirst : session.input network limits symbol recorder with ⟨consumed, next, between⟩
  rcases hrest : next.inputAll network limits symbols between with ⟨all, last, recorded'⟩
  rw [inputAll, hfirst] at h
  dsimp only at h
  rw [hrest] at h
  simp only [Prod.mk.injEq, Bool.and_eq_true] at h
  obtain ⟨⟨rfl, rfl⟩, rfl, rfl⟩ := h
  exact ⟨next, between, rfl, hrest⟩

/-- An error state on the way would have rejected the next symbol. -/
theorem atError_of_inputAll {symbols : List String} {session after : Session}
    {recorder recorded : σ}
    (h : session.inputAll network limits symbols recorder = (true, after, recorded))
    (hready : after.atError = false) : session.atError = false := by
  cases symbols with
  | nil =>
      cases h
      exact hready
  | cons symbol symbols =>
      obtain ⟨next, between, hfirst, -⟩ := inputAll_cons h
      exact atError_of_input hfirst

end Session

namespace Grammar

variable {grammar : Grammar} {start : String} {network : Network} {limits : Limits}

/-! ### What remains of rules that have been begun -/

/-- What remains of a rule of the machine of a cursor, behind the symbols that lead to the state of the
cursor and some more. -/
def Remains (grammar : Grammar) (cursor : Cursor) (more rest : List Symbol) : Prop :=
  ∃ rule ∈ grammar.rulesFor cursor.machine, ∃ begun,
    Trie.locate? cursor.automaton begun = some cursor.state ∧ rule.body = begun ++ more ++ rest

/-- What remains, from the innermost frame out, of a rule of each frame behind the call that it waits
for. -/
def RemainsOutside (grammar : Grammar) : String → List Cursor → List Symbol → Prop
  | _, [], rest => rest = []
  | callee, frame :: frames, rest => ∃ own outside,
      grammar.Remains frame [.nonterminal callee] own ∧
      RemainsOutside grammar frame.machine frames outside ∧ rest = own ++ outside

variable {cursor : Cursor} {node : OpenNode}

theorem WorksOn.machine_eq (h : grammar.WorksOn cursor node) : cursor.machine = node.label := by
  rw [Cursor.machine, h.automaton_eq, name_machine]

/-- A machine that has begun a rule derives what it has found, followed by the rest of the rule. -/
theorem WorksOn.derives (h : grammar.WorksOn cursor node) {more rest : List Symbol}
    (hremains : grammar.Remains cursor more rest) :
    grammar.Derives [.nonterminal node.label]
      (categories (node.closed.flatMap Shape.tokens) ++ (more ++ rest)) := by
  obtain ⟨rule, hrule, begun, hlocate, hbody⟩ := hremains
  rw [h.machine_eq] at hrule
  rw [h.automaton_eq] at hlocate
  obtain ⟨hinside, hword⟩ := word_of_locate? hlocate
  have hfound := (h.reads hinside.2.1).2
  rw [hword] at hfound
  obtain ⟨hmem, hgenerator⟩ := mem_rulesFor.mp hrule
  have hrest : grammar.Derives [.nonterminal node.label] (begun ++ (more ++ rest)) := by
    rw [← hgenerator, ← List.append_assoc, ← hbody]
    exact derives_body hmem
  have htokens : grammar.Derives begun (categories (node.closed.flatMap Shape.tokens)) :=
    hfound.derives.trans (derives_flatMap fun shape hshape => (h.derived shape hshape).derives)
  exact hrest.trans (htokens.append_right _)

/-- A machine that has a move left stands inside its trie. -/
theorem WorksOn.inside (h : grammar.WorksOn cursor node) {target : Nat}
    (htarget : target ∈ cursor.current.targets) :
    Trie.Inside (grammar.machine node.label) cursor.state := by
  have hlt := Automaton.lt_size_of_target htarget
  have hfinal := h.ne_final htarget
  obtain ⟨symbols, hleads, -⟩ := h.found
  rw [h.automaton_eq] at hlt
  generalize cursor.state = state at *
  cases hleads with
  | inside _ herror => exact ⟨hlt, hfinal, herror⟩
  | final => exact absurd rfl hfinal

/-- A symbol by which a machine can go on has a rule that goes on behind it. -/
theorem WorksOn.remains_of_step? (h : grammar.WorksOn cursor node) {target next : Nat}
    (htarget : target ∈ cursor.current.targets) {symbol : Symbol}
    (hstep : Trie.step? cursor.automaton cursor.state symbol = some next) :
    ∃ rest, grammar.Remains cursor [symbol] rest := by
  have hlocate := locate?_word (h.inside htarget)
  have hnext : Trie.locate? (grammar.machine node.label)
      (grammar.word node.label cursor.state ++ [symbol]) = some next := by
    rw [Trie.locate?_concat, hlocate, ← h.automaton_eq]
    exact hstep
  obtain ⟨rule, hrule, rest, hbody⟩ := begins_of_locate? (by simp) hnext
  rw [← h.machine_eq] at hrule
  rw [← h.automaton_eq] at hlocate
  exact ⟨rest, rule, hrule, _, hlocate, hbody.symm⟩

theorem Remains.advance {symbol : Symbol} {rest : List Symbol}
    (h : grammar.Remains cursor [symbol] rest) {next : Nat}
    (hstep : Trie.step? cursor.automaton cursor.state symbol = some next) :
    grammar.Remains ⟨cursor.automaton, next⟩ [] rest := by
  obtain ⟨rule, hrule, begun, hlocate, hbody⟩ := h
  refine ⟨rule, hrule, begun ++ [symbol], ?_, by rw [List.append_nil, hbody]⟩
  rw [Trie.locate?_concat, hlocate]
  exact hstep

/-- A frame that waits for a call has a rule that goes on behind the call. -/
theorem WorksOn.remains_of_hasCall (h : grammar.WorksOn cursor node) {callee : String}
    (hcall : cursor.current.hasCall callee = true) :
    ∃ rest, grammar.Remains cursor [.nonterminal callee] rest := by
  obtain ⟨call, hfound⟩ := Option.isSome_iff_exists.mp hcall
  have hmem := State.target_mem_of_call (List.mem_of_find?_eq_some hfound)
  have hstep : Trie.step? cursor.automaton cursor.state (.nonterminal callee) = some call.target := by
    have hcurrent : (cursor.automaton.state cursor.state).call? callee = some call := hfound
    rw [Trie.step?, hcurrent]
    rfl
  exact h.remains_of_step? hmem hstep

/-- The tokens at the leaves of the nodes outside of the innermost one. -/
def tokensOutside : List OpenNode → List Token
  | [] => []
  | node :: path => node.tokens path

theorem categories_append (left right : List Token) :
    categories (left ++ right) = categories left ++ categories right :=
  List.map_append

theorem tokens_eq (inner : OpenNode) (path : List OpenNode) :
    inner.tokens path = tokensOutside path ++ inner.closed.flatMap Shape.tokens := by
  cases path <;> rfl

/-- The frames derive what they have found, followed by the call that is open and what remains of their
rules. -/
theorem Waits.derives {callee : String} {frames : List Cursor} {path : List OpenNode}
    (h : grammar.Waits start callee frames path) :
    ∃ outside, grammar.RemainsOutside callee frames outside ∧
      grammar.Derives [.nonterminal start]
        (categories (tokensOutside path) ++ .nonterminal callee :: outside) := by
  induction frames generalizing callee path with
  | nil =>
      cases path with
      | nil =>
          have hcallee : callee = start := h
          rw [hcallee]
          exact ⟨[], rfl, .refl⟩
      | cons node path => exact absurd h id
  | cons frame frames ih =>
      cases path with
      | nil => exact absurd h id
      | cons node path =>
          obtain ⟨hworks, hcall, hwaits⟩ := h
          obtain ⟨own, hown⟩ := hworks.remains_of_hasCall hcall
          obtain ⟨outside, houtside, hderives⟩ := ih hwaits
          rw [← hworks.machine_eq] at houtside
          refine ⟨own ++ outside, ⟨own, outside, hown, houtside, rfl⟩, ?_⟩
          rw [tokensOutside, tokens_eq, categories_append]
          simpa using hderives.replace (hworks.derives hown)

theorem Parsing.derives {tokens : List Token} {configuration : Configuration Builder}
    (h : grammar.Parsing start tokens configuration) {own : List Symbol}
    (hown : grammar.Remains configuration.active [] own) :
    ∃ outside, grammar.RemainsOutside configuration.active.machine configuration.frames outside ∧
      grammar.Derives [.nonterminal start] (categories tokens ++ (own ++ outside)) := by
  obtain ⟨inner, path, -, hworks, hwaits, rfl⟩ := h
  obtain ⟨outside, houtside, hderives⟩ := hwaits.derives
  rw [hworks.machine_eq]
  refine ⟨outside, houtside, ?_⟩
  rw [tokens_eq, categories_append]
  simpa using hderives.replace (hworks.derives hown)

/-! ### Symbols that are consumed -/

theorem remains_start {rule : Rule} (hrule : rule ∈ grammar.rulesFor start) :
    grammar.Remains (.start (grammar.machine start)) [] rule.body := by
  refine ⟨rule, ?_, [], rfl, rfl⟩
  rw [Cursor.machine, Cursor.start, name_machine]
  exact hrule

/-- A machine with a rule to go on does not accept. -/
theorem Remains.atAccept {nonterminal : String}
    (hmachine : cursor.automaton = grammar.machine nonterminal) {more rest : List Symbol}
    (h : grammar.Remains cursor more rest) : cursor.atAccept = false := by
  obtain ⟨rule, -, begun, hlocate, -⟩ := h
  rw [hmachine] at hlocate
  have hfinal := (word_of_locate? hlocate).1.2.1
  have hcursor : cursor = grammar.cursor nonterminal cursor.state := by
    rw [Grammar.cursor, ← hmachine]
  rw [Bool.eq_false_iff, hcursor]
  exact fun haccept => hfinal (atAccept_cursor.mp haccept)

/-- A token is taken along a rule that goes on, or leads to the error state; the machine does not accept
then. -/
theorem Parsing.remains_of_take {tokens : List Token} {before after : Configuration Builder}
    (h : grammar.Parsing start tokens before) {token : Token}
    (htoken : before.recorder.token = some token) (htake : before.Take token.category after) :
    after.active.atAccept = false ∧ (grammar.Stuck after ∨
      grammar.Parsing start (tokens ++ [token]) after ∧ ∃ own, grammar.Remains after.active [] own) := by
  have htaken := h.take htoken htake
  obtain ⟨inner, path, -, hworks, -, -⟩ := h
  cases htake with
  | @transition active _ _ transition htransition =>
      have hmem := State.target_mem_of_transition (List.mem_of_find?_eq_some htransition)
      have hstep : Trie.step? active.automaton active.state (.terminal token.category) =
          some transition.target := by
        have hcurrent : (active.automaton.state active.state).transition? token.category =
          some transition := htransition
        rw [Trie.step?, hcurrent]
        rfl
      obtain ⟨own, hown⟩ := hworks.remains_of_step? hmem hstep
      have hnext := hown.advance hstep
      refine ⟨hnext.atAccept hworks.automaton_eq, ?_⟩
      rcases htaken with hparsing | hstuck
      · exact .inr ⟨hparsing, own, hnext⟩
      · exact .inl hstuck
  | alternate _ _ halternate =>
      have htarget := eq_error_of_alternate hworks.automaton_eq halternate
      have hactive : (⟨_, _⟩ : Cursor) = grammar.cursor inner.label Trie.error :=
        congrArg₂ Cursor.mk hworks.automaton_eq htarget
      refine ⟨?_, .inl ⟨inner.label, hactive⟩⟩
      rw [hactive, Cursor.atAccept, current_error]
      rfl

variable {σ : Type} [Recorder σ]

/-- A symbol as a token, of which the category alone counts. -/
def asToken (symbol : String) : Token := { category := symbol, lexeme := "" }

theorem Parsing.input (hnetwork : grammar.Describes start network) (hepsilon : grammar.EpsilonAlone)
    {tokens : List Token} {session after : Session} {builder : Builder}
    (h : grammar.Parsing start tokens (session.configuration builder)) {symbol : String}
    {recorder recorded : σ}
    (hinput : session.input network limits symbol recorder = (true, after, recorded))
    (hready : after.atError = false) :
    ∃ builder, grammar.Parsing start (tokens ++ [asToken symbol]) (after.configuration builder) ∧
      ∃ own, grammar.Remains after.active [] own := by
  have htakes := Session.take_of_consume network limits symbol 0 0 session (Recorder.mark recorder).2
  rw [Session.consume_of_input hinput] at htakes
  obtain ⟨ready, taken, recorded', hmoves, htake, hleave⟩ := htakes rfl
  -- the same moves, reported to a builder that holds the symbol as a token
  obtain ⟨moved, hmoves⟩ := hmoves.withRecorder (builder.setToken (asToken symbol))
  obtain ⟨built, htake⟩ := htake.withRecorder moved
  obtain ⟨inner, path, hgrows, hrest⟩ := h
  have hholding : grammar.Parsing start tokens
      (session.configuration (builder.setToken (asToken symbol))) :=
    ⟨inner, path, hgrows.of_eq rfl rfl, hrest⟩
  have htoken : moved.token = some (asToken symbol) := Builder.token_performs hmoves.performs
  obtain ⟨haccept, houtcome⟩ :=
    (hholding.moves hnetwork hepsilon hmoves).remains_of_take htoken htake
  have hsame : taken = after := by
    rw [Session.leaveCall_of_not_atAccept haccept] at hleave
    exact congrArg Prod.fst hleave
  subst hsame
  rcases houtcome with hstuck | hfound
  · rw [hstuck.atError] at hready
    cases hready
  · exact ⟨built, hfound⟩

end Grammar

namespace Session

variable {grammar : Grammar} {σ : Type} [Recorder σ] {limits : Limits}

/-- The induction is on the symbols to come; `tokens` stand for those consumed before. -/
theorem parsing_of_inputAll {start : String} {network : Network}
    (hnetwork : grammar.Describes start network) (hepsilon : grammar.EpsilonAlone)
    {symbols : List String} {session after : Session} {recorder recorded : σ}
    (hinput : session.inputAll network limits symbols recorder = (true, after, recorded))
    (hready : after.atError = false) {tokens : List Token} {builder : Builder} {own : List Symbol}
    (h : grammar.Parsing start tokens (session.configuration builder))
    (hown : grammar.Remains session.active [] own) :
    ∃ builder own, grammar.Parsing start (tokens ++ symbols.map Grammar.asToken)
      (after.configuration builder) ∧ grammar.Remains after.active [] own := by
  induction symbols generalizing session recorder tokens builder own with
  | nil =>
      cases hinput
      rw [List.map_nil, List.append_nil]
      exact ⟨builder, own, h, hown⟩
  | cons symbol symbols ih =>
      obtain ⟨next, between, hfirst, hrest⟩ := inputAll_cons hinput
      obtain ⟨builder', hparsing, own', hown'⟩ :=
        h.input hnetwork hepsilon hfirst (atError_of_inputAll hrest hready)
      rw [List.map_cons, List.append_cons]
      exact ih hrest hparsing hown'

/-- Symbols that are all consumed and lead to no error state begin a sentential form of the start
symbol. The rest of the form is what remains of one rule of the machine in control, followed by what
remains of one rule of each frame, from the innermost out. -/
theorem inputAll_viable {compiled : GrammarNetwork} (hcompile : grammar.compile = .ok compiled)
    (hepsilon : grammar.EpsilonAlone) {symbols : List String} {after : Session}
    {recorder recorded : σ}
    (hinput : (Session.start compiled.network).inputAll compiled.network limits symbols recorder =
      (true, after, recorded))
    (hready : after.atError = false) :
    ∃ own outside, grammar.Remains after.active [] own ∧
      grammar.RemainsOutside after.active.machine after.frames outside ∧
      grammar.Derives [.nonterminal compiled.start]
        (symbols.map .terminal ++ (own ++ outside)) := by
  obtain ⟨hcheck, hnetwork⟩ := Grammar.describes_of_compile hcompile
  obtain ⟨-, hstart, hwell⟩ := Grammar.check_eq_ok hcheck
  obtain ⟨rule, hrule⟩ := hwell.exists_rule hstart
  have hown : grammar.Remains (Session.start compiled.network).active [] rule.body := by
    rw [active_start, hnetwork.start_eq]
    exact Grammar.remains_start hrule
  obtain ⟨builder, own, hparsing, hown⟩ := parsing_of_inputAll hnetwork hepsilon hinput hready
    (Grammar.parsing_start hnetwork) hown
  obtain ⟨outside, houtside, hderives⟩ := hparsing.derives hown
  refine ⟨own, outside, hown, houtside, ?_⟩
  simpa [Grammar.categories, Function.comp_def, Grammar.asToken] using hderives

/-- Brackets around brackets or around a word, with a mark behind. -/
def enclosed : Grammar where
  start := some "S"
  nonterminals := ["S", "B"]
  terminals := ["(", ")", "w", "!"]
  rules := [⟨"S", [.nonterminal "B", .terminal "!"]⟩,
    ⟨"B", [.terminal "(", .nonterminal "B", .terminal ")"]⟩,
    ⟨"B", [.terminal "(", .terminal ")"]⟩, ⟨"B", [.terminal "w"]⟩]

/-- Two brackets are open: the inner one is before a bracket inside of it or before its end, and the
outer one and the mark remain. -/
theorem enclosed_viable :
    ∃ compiled after, enclosed.compile = .ok compiled ∧ enclosed.EpsilonAlone ∧
      (Session.start compiled.network).inputAll compiled.network {} ["(", "("] () =
        (true, after, ()) ∧ after.atError = false ∧ after.frames.length = 2 ∧
      ∃ own outside, enclosed.Remains after.active [] own ∧
        enclosed.RemainsOutside after.active.machine after.frames outside ∧
        enclosed.Derives [.nonterminal compiled.start]
          ([.terminal "(", .terminal "("] ++ (own ++ outside)) := by
  have hepsilon : enclosed.EpsilonAlone := by decide
  have hinput : (match enclosed.compile with
      | .ok compiled =>
        let result := (Session.start compiled.network).inputAll compiled.network {} ["(", "("] ()
        result.1 && !result.2.1.atError && result.2.1.frames.length == 2
      | .error _ => false) = true := by cbv
  split at hinput
  · next compiled hcompile =>
    simp only [Bool.and_eq_true, Bool.not_eq_true', beq_iff_eq] at hinput
    obtain ⟨⟨hconsumed, hready⟩, hdepth⟩ := hinput
    exact ⟨compiled, _, hcompile, hepsilon, Prod.ext hconsumed rfl, hready, hdepth,
      inputAll_viable hcompile hepsilon (Prod.ext hconsumed rfl) hready⟩
  · cases hinput

end Session

end TransitionNetwork
