import TransitionNetwork.Grammar.Compile
import TransitionNetwork.Session
import TransitionNetwork.Token.Tokenizer
import TransitionNetwork.Tree.Builder

/-!
Analysers: a session that builds a syntax tree while it consumes tokens.

In single mode every word is taken in its preferred reading, and the first word that is not consumed
rejects the sentence. In backtracking mode all readings are searched: where a choice of readings comes
to a dead end, the choice before it is moved to its next reading and the sentence is begun again.
-/

namespace TransitionNetwork

/-- How an analyser treats words with more than one reading. -/
inductive Mode
  | single
  | backtracking
  deriving DecidableEq, Repr, Inhabited

namespace Mode

def render : Mode → String
  | single => "single"
  | backtracking => "backtracking"

/-- The mode with exactly this name. -/
def ofName? (name : String) : Option Mode :=
  if name = "single" then some .single
  else if name = "backtracking" then some .backtracking
  else none

/-- A name in lowercase that no mode has. -/
structure Unknown where
  name : String
  deriving DecidableEq, Repr

def Unknown.message (error : Unknown) : String := "unknown analysis mode: " ++ error.name

/-- The mode with this name in any case of its letters. -/
def parse (text : String) : Except Unknown Mode :=
  let name := Text.asciiLower text
  match ofName? name with
  | some mode => .ok mode
  | none => .error ⟨name⟩

end Mode

structure AnalyserLimits where
  /-- How often one search may begin the sentence again. -/
  maxRestarts : Nat := 10000
  session : Limits := {}
  deriving DecidableEq, Repr, Inhabited

/-- Why an analysis has no verdict. -/
inductive AnalysisError
  | tokenizer (error : TokenError)
  | budgetExhausted (restarts : Nat)
  deriving DecidableEq, Repr

namespace AnalysisError

def code : AnalysisError → String
  | tokenizer _ => "TOKENIZER_ERROR"
  | budgetExhausted _ => "BUDGET_EXHAUSTED"

def message : AnalysisError → String
  | tokenizer error => "tokenizer error: " ++ error.message
  | budgetExhausted restarts => s!"backtracking budget exhausted after {restarts} restarts"

end AnalysisError

structure Analyser where
  network : Network
  limits : AnalyserLimits
  session : Session
  builder : Builder

namespace Analyser

def start (network : Network) (limits : AnalyserLimits := {}) : Analyser where
  network := network
  limits := limits
  session := .start network
  builder := .start network.start.name

/-- An analyser for a network whose machines need not build trees by themselves. -/
def ofNetwork (network : Network) : Analyser := start network.withTreeActions

def tree (analyser : Analyser) : Tree := analyser.builder.tree

/-- Goes back to the beginning of a sentence. -/
def reset (analyser : Analyser) : Analyser :=
  { analyser with session := .start analyser.network, builder := analyser.builder.reset }

/-- Takes one token. The answer is whether it was consumed. -/
def feed (analyser : Analyser) (token : Token) : Bool × Analyser :=
  let (consumed, session, builder) := analyser.session.input analyser.network
    analyser.limits.session token.category (analyser.builder.setToken token)
  (consumed, { analyser with session, builder := builder.commit })

/-- Makes the moves behind the last token. The answer is whether the sentence is accepted. -/
def settle (analyser : Analyser) : Bool × Analyser :=
  let (session, builder) :=
    analyser.session.finish analyser.network analyser.limits.session analyser.builder
  (session.isAccepted, { analyser with session, builder := builder.commit })

/-! ### One reading for each word -/

/-- Takes tokens up to the first that is not consumed, and settles when all are. -/
def feedAll (analyser : Analyser) : List Token → Bool × Analyser
  | [] => analyser.settle
  | token :: tokens =>
    match analyser.feed token with
    | (true, analyser) => analyser.feedAll tokens
    | (false, analyser) => (false, analyser)

def analyseTokens (analyser : Analyser) (tokens : List Token) : Bool × Analyser :=
  analyser.reset.feedAll tokens

/-- Takes words in their preferred reading, up to the first that has none or is not consumed. -/
def feedWords (analyser : Analyser) : List Readings → Except AnalysisError Bool × Analyser
  | [] =>
    let (accepted, analyser) := analyser.settle
    (.ok accepted, analyser)
  | readings :: words =>
    match Tokenizer.preferred readings with
    | .error error => (.error (.tokenizer error), analyser)
    | .ok token =>
      match analyser.feed token with
      | (true, analyser) => analyser.feedWords words
      | (false, analyser) => (.ok false, analyser)

def analyseSingle (analyser : Analyser) (words : List Readings) :
    Except AnalysisError Bool × Analyser :=
  analyser.reset.feedWords words

/-! ### All readings of each word -/

/-- Feeds the candidates in order until one is consumed, and answers its number; the first of them has
the number `number`. -/
def feedFirst (analyser : Analyser) (number : Nat) : List Token → Option Nat × Analyser
  | [] => (none, analyser)
  | token :: tokens =>
    match analyser.feed token with
    | (true, analyser) => (some number, analyser)
    | (false, analyser) => analyser.feedFirst (number + 1) tokens

/-- The first candidate to feed at a position: the recorded choice before the point to revise, the one
after it at the point, and the first candidate behind it. -/
def firstCandidate (revise : Option Nat) (position choice : Nat) : Nat :=
  match revise with
  | none => 0
  | some point =>
    if position = point then choice + 1
    else if position < point then choice
    else 0

/-- How a search goes on from a position. -/
inductive Progress
  /-- A candidate was consumed. -/
  | advance (choice : Nat)
  /-- No candidate is left. -/
  | retreat
  /-- A candidate was consumed and led to an error state. -/
  | reconsider (choice : Nat)

/-- Tries the candidates of a position from a number on. -/
def tryPosition (analyser : Analyser) (candidates : List Token) (first : Nat) :
    Progress × Analyser :=
  match analyser.feedFirst first (candidates.drop first) with
  | (none, analyser) => (.retreat, analyser)
  | (some choice, analyser) =>
    if analyser.session.atError then (.reconsider choice, analyser) else (.advance choice, analyser)

/-- Searches from a position on. The choices made before are kept in a list, of which one point is
revised at a time. A search that would have to begin the sentence again more often than `restarts`
times ends without a verdict. -/
def search (positions : List (List Token)) (analyser : Analyser) (choices : List Nat)
    (revise : Option Nat) (restarts position : Nat) : Option Bool × Analyser :=
  if inside : position < positions.length then
    let first := firstCandidate revise position (choices[position]?.getD 0)
    match analyser.tryPosition positions[position] first with
    | (.advance choice, analyser) =>
      search positions analyser (choices.set position choice) revise restarts (position + 1)
    | (.retreat, analyser) =>
      match position, restarts with
      | 0, _ => (some false, analyser)
      | _ + 1, 0 => (none, analyser)
      | previous + 1, restarts + 1 =>
        search positions analyser.reset choices (some previous) restarts 0
    | (.reconsider choice, analyser) =>
      match restarts with
      | 0 => (none, analyser)
      | restarts + 1 =>
        search positions analyser.reset (choices.set position choice) (some position) restarts 0
  else
    let (accepted, analyser) := analyser.settle
    (some accepted, analyser)
termination_by (restarts, positions.length - position)

/-- Searches the readings of prepared words. -/
def analyseCandidates (analyser : Analyser) (positions : List (List Token)) :
    Except AnalysisError Bool × Analyser :=
  let budget := analyser.limits.maxRestarts
  let choices := List.replicate positions.length 0
  match search positions analyser.reset choices none budget 0 with
  | (some accepted, analyser) => (.ok accepted, analyser)
  | (none, analyser) => (.error (.budgetExhausted budget), analyser)

/-- The readings of all words, or the first error among them. -/
def allReadings (words : List Readings) : Except TokenError (List (List Token)) :=
  words.mapM id

/-- Searches the readings of words. A word without readings leaves the analyser as it was. -/
def analyseBacktracking (analyser : Analyser) (words : List Readings) :
    Except AnalysisError Bool × Analyser :=
  match allReadings words with
  | .error error => (.error (.tokenizer error), analyser)
  | .ok positions => analyser.analyseCandidates positions

/-- Analyses a sentence word by word in the given mode. -/
def analyse (analyser : Analyser) (mode : Mode) (words : List Readings) :
    Except AnalysisError Bool × Analyser :=
  match mode with
  | .single => analyser.analyseSingle words
  | .backtracking => analyser.analyseBacktracking words

/-- Analyses a text whose words come from a source. A text that cannot be read leaves the analyser as
it was. -/
def analyseText (analyser : Analyser) (mode : Mode) (source : WordSource) (text : String) :
    Except AnalysisError Bool × Analyser :=
  match source.read text with
  | .error error => (.error (.tokenizer error), analyser)
  | .ok words => analyser.analyse mode words

end Analyser

end TransitionNetwork
