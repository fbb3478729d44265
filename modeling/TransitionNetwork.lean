import TransitionNetwork.Analyser
import TransitionNetwork.Automaton.Action
import TransitionNetwork.Automaton.Basic
import TransitionNetwork.Automaton.Cursor
import TransitionNetwork.Automaton.Render
import TransitionNetwork.Automaton.Transition
import TransitionNetwork.Checksum
import TransitionNetwork.CommandLine.Arguments
import TransitionNetwork.CommandLine.Command
import TransitionNetwork.CommandLine.Dialogue
import TransitionNetwork.CommandLine.Run
import TransitionNetwork.Dictionary
import TransitionNetwork.Document.Basic
import TransitionNetwork.Document.Format
import TransitionNetwork.Document.Plain
import TransitionNetwork.Files
import TransitionNetwork.Grammar.Basic
import TransitionNetwork.Grammar.Check
import TransitionNetwork.Grammar.Compile
import TransitionNetwork.Grammar.Definition
import TransitionNetwork.Grammar.File
import TransitionNetwork.Grammar.Json
import TransitionNetwork.Grammar.Model
import TransitionNetwork.Grammar.Nullable
import TransitionNetwork.Grammar.Text
import TransitionNetwork.Json.Basic
import TransitionNetwork.Json.Reader
import TransitionNetwork.Json.Writer
import TransitionNetwork.Main
import TransitionNetwork.Network.Basic
import TransitionNetwork.Network.Lookahead
import TransitionNetwork.Reachability
import TransitionNetwork.Session
import TransitionNetwork.Settings
import TransitionNetwork.Text.Blank
import TransitionNetwork.Text.CaseData
import TransitionNetwork.Text.Digits
import TransitionNetwork.Text.Lowercase
import TransitionNetwork.Token
import TransitionNetwork.Token.Error
import TransitionNetwork.Token.Lexicon
import TransitionNetwork.Token.LexiconFile
import TransitionNetwork.Token.Script
import TransitionNetwork.Token.Tokenizer
import TransitionNetwork.Tree.Basic
import TransitionNetwork.Tree.Builder
import TransitionNetwork.Workbench
import TransitionNetwork.Yaml.Layout
import TransitionNetwork.Yaml.Lexeme
import TransitionNetwork.Yaml.Reader
import TransitionNetwork.Yaml.Scalar
import TransitionNetwork.Proofs.ActionErasure
import TransitionNetwork.Proofs.AnalyserRuns
import TransitionNetwork.Proofs.AnalysisHistory
import TransitionNetwork.Proofs.BracketNotation
import TransitionNetwork.Proofs.CallChain
import TransitionNetwork.Proofs.CallEligibility
import TransitionNetwork.Proofs.CallMirror
import TransitionNetwork.Proofs.CallPreference
import TransitionNetwork.Proofs.CandidateSearch
import TransitionNetwork.Proofs.ChoiceVectors
import TransitionNetwork.Proofs.CompiledNetwork
import TransitionNetwork.Proofs.CutText
import TransitionNetwork.Proofs.EligibilitySearch
import TransitionNetwork.Proofs.EmptyDerivations
import TransitionNetwork.Proofs.EpsilonChains
import TransitionNetwork.Proofs.GrammarCheck
import TransitionNetwork.Proofs.GrammarDerivation
import TransitionNetwork.Proofs.GrammarIdentity
import TransitionNetwork.Proofs.GraphSearch
import TransitionNetwork.Proofs.JournalUndo
import TransitionNetwork.Proofs.JsonReading
import TransitionNetwork.Proofs.KeptTokens
import TransitionNetwork.Proofs.LeftRecursion
import TransitionNetwork.Proofs.LineNotation
import TransitionNetwork.Proofs.LoadedGrammars
import TransitionNetwork.Proofs.LookaheadReach
import TransitionNetwork.Proofs.LookaheadTables
import TransitionNetwork.Proofs.NetworkAssembly
import TransitionNetwork.Proofs.NotationAgreement
import TransitionNetwork.Proofs.OpenCalls
import TransitionNetwork.Proofs.OpenTree
import TransitionNetwork.Proofs.OverlookedReadings
import TransitionNetwork.Proofs.ParseSoundness
import TransitionNetwork.Proofs.PendingTrees
import TransitionNetwork.Proofs.PredictiveGrammar
import TransitionNetwork.Proofs.PredictiveParse
import TransitionNetwork.Proofs.PrefixTrie
import TransitionNetwork.Proofs.RecorderJournal
import TransitionNetwork.Proofs.RestartBound
import TransitionNetwork.Proofs.ReturnBound
import TransitionNetwork.Proofs.ScriptNotation
import TransitionNetwork.Proofs.SelectionSets
import TransitionNetwork.Proofs.SessionEquations
import TransitionNetwork.Proofs.SessionMoves
import TransitionNetwork.Proofs.SessionRollback
import TransitionNetwork.Proofs.SettlingEnds
import TransitionNetwork.Proofs.SilentPaths
import TransitionNetwork.Proofs.SkippedSymbols
import TransitionNetwork.Proofs.TreeActions
import TransitionNetwork.Proofs.TreeArena
import TransitionNetwork.Proofs.TreeGuidance
import TransitionNetwork.Proofs.TreeReach
import TransitionNetwork.Proofs.TreeTraversal
import TransitionNetwork.Proofs.TriePaths
import TransitionNetwork.Proofs.TrieStates
import TransitionNetwork.Proofs.ViablePrefix
