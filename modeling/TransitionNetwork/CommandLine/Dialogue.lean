import TransitionNetwork.Workbench

/-!
Dialogues: lines that are answered one by one. A line that begins with a colon is a command, any other
line is a sentence.
-/

namespace TransitionNetwork

structure Dialogue where
  workbench : Workbench
  /-- Whether verdicts are shown as JSON. -/
  json : Bool := false

/-- What a dialogue answers to a line. -/
inductive Reply
  | print (text : String)
  | quit
  deriving DecidableEq, Repr

namespace Dialogue

def helpText : String := "
Type a sentence to parse it. Without a lexicon, write each word as
lexeme/category or lexeme/category|category.

Commands:
  :help                       Show this help
  :mode [single|backtracking] Show or set the analysis mode
  :json                       Toggle JSON tree output
  :grammar                    Summarize the loaded grammar
  :dump [machine]             Print compiled automata
  :quit, :exit                Exit the REPL
"

/-- What is shown before the first line. -/
def greeting (dialogue : Dialogue) : String :=
  "polisin REPL\nGrammar " ++ dialogue.workbench.grammar.describe ++
    "\nType ':help' for available commands.\n\n"

/-- What is shown when the lines end before the dialogue is quit. -/
def farewell : String := "^D\n"

/-- Shows the mode, after setting it if one is given. -/
def answerMode (dialogue : Dialogue) (name : Option String) :
    Except CommandError Reply × Dialogue :=
  match name with
  | none => (.ok (.print ("mode: " ++ dialogue.workbench.mode.render)), dialogue)
  | some name =>
    match Mode.parse name with
    | .error error => (.error (.mode error), dialogue)
    | .ok mode =>
      (.ok (.print ("mode: " ++ mode.render)),
        { dialogue with workbench := { dialogue.workbench with mode } })

/-- Turns JSON on or off. -/
def toggleJson (dialogue : Dialogue) : Except CommandError Reply × Dialogue :=
  let json := !dialogue.json
  (.ok (.print (if json then "JSON output on" else "JSON output off")), { dialogue with json })

/-- Answers a command. Its name is read in any case of its letters. -/
def answerCommand (dialogue : Dialogue) (name : String) (arguments : List String) :
    Except CommandError Reply × Dialogue :=
  match Text.lowercase name with
  | "help" | "?" => (.ok (.print helpText), dialogue)
  | "quit" | "exit" | "q" => (.ok .quit, dialogue)
  | "mode" => dialogue.answerMode arguments.head?
  | "json" => dialogue.toggleJson
  | "grammar" => (.ok (.print dialogue.workbench.grammar.describe), dialogue)
  | "dump" => ((dialogue.workbench.grammar.dump arguments.head?).map .print, dialogue)
  | other =>
    (.ok (.print ("Unknown command: " ++ other ++ ". Type ':help' for available commands.")),
      dialogue)

/-- Answers a line without blanks around it. A colon by itself asks for help. -/
def answer (dialogue : Dialogue) (line : String) : Except CommandError Reply × Dialogue :=
  match line.toList with
  | ':' :: command =>
    match Text.words (String.ofList command) with
    | [] => (.ok (.print helpText), dialogue)
    | name :: arguments => dialogue.answerCommand name arguments
  | _ =>
    ((dialogue.workbench.parse line).map fun verdict => .print (verdict.render dialogue.json),
      dialogue)

/-- What is shown for a line, and the dialogue after it unless it was quit. A blank line is passed
over. -/
def take (dialogue : Dialogue) (line : String) : String × Option Dialogue :=
  let line := Text.trim line
  if line = "" then ("", some dialogue)
  else
    match dialogue.answer line with
    | (.ok (.print text), dialogue) => (text ++ "\n\n", some dialogue)
    | (.ok .quit, _) => ("", none)
    | (.error error, dialogue) => ("Error: " ++ error.message ++ "\n\n", some dialogue)

/-- Everything that is shown for some lines. -/
def takeAll (dialogue : Dialogue) : List String → String
  | [] => farewell
  | line :: lines =>
    match dialogue.take line with
    | (shown, some dialogue) => shown ++ dialogue.takeAll lines
    | (shown, none) => shown

/-- A whole dialogue over the lines of a text. -/
def transcript (dialogue : Dialogue) (text : String) : String :=
  dialogue.greeting ++ dialogue.takeAll (Text.lines text)

end Dialogue

end TransitionNetwork
