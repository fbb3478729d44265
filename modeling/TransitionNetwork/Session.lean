import TransitionNetwork.Automaton.Cursor
import TransitionNetwork.Dictionary
import TransitionNetwork.Network.Lookahead

/-!
Sessions: a network at work on a sequence of symbols.

Each machine of the network has one place where it stands, however often it is called. One machine is
in control; the machines that have called and not been returned to wait in frames, the innermost
first, and a frame keeps the state to return to. A machine that accepts returns to its caller. For a
symbol that is not consumed, control, frames and the place of the machine in control are set back, and
the recorder is rewound to the mark that was set before the symbol. Places of other machines are not
set back.
-/

namespace TransitionNetwork

/-- Bounds that end every operation of a session. -/
structure Limits where
  /-- How often one symbol may fail before it is rejected. -/
  maxLocalAttempts : Nat := 10
  /-- How many calls may be open at once. -/
  maxCallDepth : Nat := 256
  /-- How many steps settling may take. -/
  maxSettleSteps : Nat := 1024
  deriving DecidableEq, Repr, Inhabited

structure Session where
  /-- The state of each machine that has moved. -/
  places : Dictionary Nat := []
  /-- The machine in control. -/
  machine : Automaton
  /-- The machines that wait, each with the state it waits at. -/
  frames : List Cursor := []

namespace Session

variable {σ : Type} [Recorder σ]

/-- Every machine at its initial state, the start machine in control and no call open. -/
def start (network : Network) : Session := { machine := network.start }

/-- The machine in control where it stands. -/
def active (session : Session) : Cursor :=
  ⟨session.machine, (session.places.get? session.machine.name).getD 0⟩

/-- Puts a machine in control, at a state. -/
def control (session : Session) (cursor : Cursor) : Session :=
  { session with
    places := session.places.insert cursor.machine cursor.state
    machine := cursor.automaton }

@[simp] theorem active_control (session : Session) (cursor : Cursor) :
    (session.control cursor).active = cursor := by
  simp [active, control, Cursor.machine, Dictionary.get?_insert]

@[simp] theorem frames_control (session : Session) (cursor : Cursor) :
    (session.control cursor).frames = session.frames := rfl

@[simp] theorem active_start (network : Network) :
    (start network).active = .start network.start := rfl

@[simp] theorem frames_start (network : Network) : (start network).frames = [] := rfl

def depth (session : Session) : Nat := session.frames.length

/-- The machines that wait and the states they wait at, outermost first. -/
def callStack (session : Session) : List (String × String) :=
  session.frames.reverse.map fun frame => (frame.machine, frame.current.name)

def atError (session : Session) : Bool := session.active.atError

/-- No call is open and the start machine is at an accept state. -/
def isAccepted (session : Session) : Bool :=
  session.frames.isEmpty && session.active.atAccept

/-- Enters the machine of the first eligible call, unless too many calls are open. -/
def enterCall? (network : Network) (limits : Limits) (symbol : Option String) (session : Session)
    (recorder : σ) : Option (Session × σ) :=
  match network.eligibleCall? symbol session.active.current.calls with
  | none => none
  | some call =>
    if limits.maxCallDepth ≤ session.depth then none
    else
      match network.machine? call.callee with
      | none => none
      | some callee =>
        let waiting := { session with frames := session.active :: session.frames }
        some (waiting.control (.start callee), record call.before callee.name recorder)

/-- Goes back to the caller if the machine in control accepts. -/
def leaveCall (session : Session) (recorder : σ) : Session × σ :=
  match session.frames with
  | [] => (session, recorder)
  | frame :: frames =>
    if session.active.atAccept then
      let (caller, recorder) := frame.returnFrom session.active.machine recorder
      ({ session with frames }.control caller, recorder)
    else (session, recorder)

/-- Tries to consume a symbol after so many failed attempts and entered calls. Calls come before
moves of the machine in control, and after each of both the machine in control may return. -/
def consume (network : Network) (limits : Limits) (symbol : String) (attempts calls : Nat)
    (session : Session) (recorder : σ) : Bool × Session × σ :=
  if attempts ≤ limits.maxLocalAttempts ∧ calls ≤ limits.maxCallDepth ∧ session.atError = false then
    match session.enterCall? network limits (some symbol) recorder with
    | some (session, recorder) =>
      let (session, recorder) := session.leaveCall recorder
      consume network limits symbol attempts (calls + 1) session recorder
    | none =>
      let (consumed, active, recorder) := session.active.apply symbol recorder
      let (session, recorder) := (session.control active).leaveCall recorder
      if consumed then (true, session, recorder)
      else consume network limits symbol (attempts + 1) calls session recorder
  else (false, session, recorder)
termination_by (limits.maxLocalAttempts + 1 - attempts) + (limits.maxCallDepth + 1 - calls)

/-- Consumes a symbol, or goes back to where the machine in control stood. -/
def input (network : Network) (limits : Limits) (symbol : String) (session : Session)
    (recorder : σ) : Bool × Session × σ :=
  let (mark, marked) := Recorder.mark recorder
  match session.consume network limits symbol 0 0 marked with
  | (true, after, recorded) => (true, after, recorded)
  | (false, after, recorded) =>
    (false, { after with frames := session.frames }.control session.active,
      Recorder.rewind mark recorded)

/-- Whether a session can go on without a symbol. -/
def unsettled (network : Network) (session : Session) : Bool :=
  session.active.current.epsilon.isSome ||
    (network.eligibleCall? none session.active.current.calls).isSome ||
    (!session.frames.isEmpty && session.active.atAccept)

/-- One step of settling: an epsilon move, a return and a call, each if there is one. -/
def settleStep (network : Network) (limits : Limits) (session : Session) (recorder : σ) :
    Session × σ :=
  let (active, recorder) := session.active.stepEpsilon recorder
  let (session, recorder) := (session.control active).leaveCall recorder
  (session.enterCall? network limits none recorder).getD (session, recorder)

/-- Settles with at most the given number of steps. -/
def settle (network : Network) (limits : Limits) : Nat → Session → σ → Session × σ
  | 0, session, recorder => (session, recorder)
  | steps + 1, session, recorder =>
    if session.unsettled network then
      let (session, recorder) := session.settleStep network limits recorder
      settle network limits steps session recorder
    else (session, recorder)

/-- Makes the moves that are left after the last symbol. -/
def finish (network : Network) (limits : Limits) (session : Session) (recorder : σ) : Session × σ :=
  settle network limits limits.maxSettleSteps session recorder

/-- Feeds every symbol, consumed or not, and finishes. -/
def execute (network : Network) (limits : Limits) (symbols : List String) (session : Session)
    (recorder : σ) : Session × σ :=
  let (session, recorder) := symbols.foldl
    (fun (session, recorder) symbol => (session.input network limits symbol recorder).2)
    (session, recorder)
  session.finish network limits recorder

end Session

end TransitionNetwork
