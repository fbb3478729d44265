import TransitionNetwork.Proofs.CutText
import TransitionNetwork.Token.Tokenizer
import Mathlib.Data.List.Forall2

/-! Reading scripts back. A word of a script falls into a lexeme and a list of categories at its first slash,
and a word without a slash is both. Written again, every word has a slash, so a bare word comes back in the
other form; what it is read as stays the same, since the slash that was added is the first one and the list
behind it is the old one. A script fails as a whole at its first word with an empty category. -/

namespace TransitionNetwork.Script

variable {word lexeme list : String} {tokens : List Token}
variable {words : List String} {positions : List (List Token)}

/-! ### The parts of a word -/

/-- The lexeme of a word and its list of categories. -/
inductive Parts (word lexeme list : String) : Prop
  /-- What stands before and behind the first slash. -/
  | slashed (hlexeme : '/' ∉ lexeme.toList) (hword : word = lexeme ++ "/" ++ list)
  /-- A word without a slash is its own lexeme and lists its categories itself. -/
  | bare (hword : '/' ∉ word.toList) (hlexeme : lexeme = word) (hlist : list = word)

theorem exists_parts (word : String) : ∃ lexeme list, Parts word lexeme list := by
  by_cases h : '/' ∈ word.toList
  · obtain ⟨before, behind, hword, hbefore⟩ := List.eq_append_cons_of_mem h
    refine ⟨String.ofList before, String.ofList behind, .slashed (by simpa using hbefore) ?_⟩
    rw [← String.toList_inj, hword]
    simp
  · exact ⟨word, word, .bare h rfl rfl⟩

namespace Parts

theorem splitWord_eq (h : Parts word lexeme list) :
    splitWord word.toList = (lexeme.toList, list.toList) := by
  cases h with
  | slashed hlexeme hword =>
      have hchars : word.toList = lexeme.toList ++ '/' :: list.toList := by simp [hword]
      obtain ⟨hbefore, hbehind⟩ := Text.cut_at_mark hlexeme list.toList
      rw [splitWord, hchars, if_pos (by simp), hbefore, hbehind, List.drop_succ_cons, List.drop_zero]
  | bare hword hlexeme hlist => rw [splitWord, if_neg hword, hlexeme, hlist]

theorem unique (h : Parts word lexeme list) {lexeme' list' : String} (h' : Parts word lexeme' list') :
    lexeme = lexeme' ∧ list = list' := by
  have hsplit := h.splitWord_eq.symm.trans h'.splitWord_eq
  rw [Prod.mk.injEq, String.toList_inj, String.toList_inj] at hsplit
  exact hsplit

theorem not_mem_lexeme (h : Parts word lexeme list) : '/' ∉ lexeme.toList := by
  cases h with
  | slashed hlexeme _ => exact hlexeme
  | bare hword hlexeme _ => rwa [hlexeme]

/-- The parts have no characters of their own. -/
theorem mem_word (h : Parts word lexeme list) {c : Char} (hc : c ∈ lexeme.toList ∨ c ∈ list.toList) :
    c ∈ word.toList := by
  cases h with
  | slashed _ hword =>
      rw [hword]
      simp only [String.toList_append, List.mem_append]
      tauto
  | bare _ hlexeme hlist =>
      rw [hlexeme, hlist] at hc
      exact hc.elim id id

end Parts

/-! ### Reading a word -/

/-- A word with an empty category in its list. -/
def Defective (word : String) : Prop :=
  ∃ lexeme list, Parts word lexeme list ∧ "" ∈ Text.pieces '|' list

/-- The readings of a word: its lexeme in each category of its list, none of which is empty. -/
def ReadAs (word : String) (tokens : List Token) : Prop :=
  ∃ lexeme list, Parts word lexeme list ∧ "" ∉ Text.pieces '|' list ∧
    tokens = (Text.pieces '|' list).map fun category => { category, lexeme }

theorem mem_piecesOf_iff : [] ∈ Text.piecesOf '|' list.toList ↔ "" ∈ Text.pieces '|' list := by
  simp [Text.pieces]

theorem Parts.parseWord_eq (h : Parts word lexeme list) :
    parseWord word =
      if "" ∈ Text.pieces '|' list then .error (.emptyCategory word)
      else .ok ((Text.pieces '|' list).map fun category => { category, lexeme }) := by
  rw [parseWord, h.splitWord_eq]
  simp only [mem_piecesOf_iff, String.ofList_toList]
  rw [Text.pieces, List.map_map]
  rfl

theorem Parts.defective_iff (h : Parts word lexeme list) :
    Defective word ↔ "" ∈ Text.pieces '|' list := by
  constructor
  · rintro ⟨lexeme', list', h', hempty⟩
    rwa [(h.unique h').2]
  · exact fun hempty => ⟨lexeme, list, h, hempty⟩

instance (word : String) : Decidable (Defective word) :=
  decidable_of_iff ((Text.piecesOf '|' (splitWord word.toList).2).any List.isEmpty = true) <| by
    obtain ⟨lexeme, list, h⟩ := exists_parts word
    rw [h.splitWord_eq, h.defective_iff, ← mem_piecesOf_iff]
    simp

theorem parseWord_of_defective (h : Defective word) : parseWord word = .error (.emptyCategory word) := by
  obtain ⟨lexeme, list, hparts, hempty⟩ := h
  rw [hparts.parseWord_eq, if_pos hempty]

theorem ReadAs.parseWord_eq (h : ReadAs word tokens) : parseWord word = .ok tokens := by
  obtain ⟨lexeme, list, hparts, hfull, rfl⟩ := h
  rw [hparts.parseWord_eq, if_neg hfull]

theorem exists_readAs (h : ¬ Defective word) : ∃ tokens, ReadAs word tokens := by
  obtain ⟨lexeme, list, hparts⟩ := exists_parts word
  exact ⟨_, lexeme, list, hparts, fun hempty => h (hparts.defective_iff.mpr hempty), rfl⟩

theorem ReadAs.shared (h : ReadAs word tokens) :
    tokens ≠ [] ∧ ∃ lexeme, ∀ token ∈ tokens, token.lexeme = lexeme := by
  obtain ⟨lexeme, list, -, -, rfl⟩ := h
  constructor
  · simpa using Text.pieces_ne_nil '|' list
  · refine ⟨lexeme, fun token htoken => ?_⟩
    obtain ⟨category, -, rfl⟩ := List.mem_map.mp htoken
    rfl

/-! ### Writing a word -/

theorem renderWord_eq (lexeme list : String) :
    renderWord ((Text.pieces '|' list).map fun category => { category, lexeme }) =
      lexeme ++ "/" ++ list := by
  obtain ⟨first, rest, hpieces⟩ := List.exists_cons_of_ne_nil (Text.pieces_ne_nil '|' list)
  have hcategories : ((Text.pieces '|' list).map fun category => ({ category, lexeme } : Token)).map
      (·.category) = Text.pieces '|' list := by simp [Function.comp_def]
  rw [renderWord, hcategories, Text.intercalate_pieces rfl, hpieces]
  rfl

/-- A word is written as another word that is read in the same way. -/
theorem ReadAs.renderWord (h : ReadAs word tokens) (hword : Text.IsWord Text.isBlank word) :
    Text.IsWord Text.isBlank (renderWord tokens) ∧ ReadAs (renderWord tokens) tokens := by
  obtain ⟨lexeme, list, hparts, hfull, rfl⟩ := h
  -- whatever form the word had, it now has the form with a slash, and the same parts
  rw [renderWord_eq]
  refine ⟨⟨by simp, fun c hc => ?_⟩, lexeme, list, .slashed hparts.not_mem_lexeme rfl, hfull, rfl⟩
  have hcases : c = '/' ∨ c ∈ lexeme.toList ∨ c ∈ list.toList := by
    simp at hc
    tauto
  rcases hcases with rfl | hc
  · decide
  · exact hword.2 c (hparts.mem_word hc)

/-! ### Whole scripts -/

theorem mapM_parseWord_of_readAs (h : List.Forall₂ ReadAs words positions) :
    words.mapM parseWord = .ok positions := by
  induction h with
  | nil => rfl
  | cons htokens _ ih =>
      rw [List.mapM_cons, htokens.parseWord_eq, ih]
      rfl

theorem exists_readings (h : ∀ word ∈ words, ¬ Defective word) :
    ∃ positions, List.Forall₂ ReadAs words positions := by
  induction words with
  | nil => exact ⟨[], .nil⟩
  | cons word words ih =>
      obtain ⟨hword, hwords⟩ := List.forall_mem_cons.mp h
      obtain ⟨tokens, htokens⟩ := exists_readAs hword
      obtain ⟨positions, hpositions⟩ := ih hwords
      exact ⟨tokens :: positions, .cons htokens hpositions⟩

/-- The first word that cannot be read ends the script. -/
theorem mapM_parseWord_of_find? (h : words.find? (Defective ·) = some word) :
    words.mapM parseWord = .error (.emptyCategory word) := by
  induction words with
  | nil => cases h
  | cons first words ih =>
      rw [List.mapM_cons]
      by_cases hfirst : Defective first
      · rw [List.find?_cons_of_pos (by simpa using hfirst)] at h
        cases h
        rw [parseWord_of_defective hfirst]
        rfl
      · rw [List.find?_cons_of_neg (by simpa using hfirst)] at h
        obtain ⟨tokens, htokens⟩ := exists_readAs hfirst
        rw [htokens.parseWord_eq, ih h]
        rfl

theorem shared_of_readings (h : List.Forall₂ ReadAs words positions) :
    ∀ tokens ∈ positions, tokens ≠ [] ∧ ∃ lexeme, ∀ token ∈ tokens, token.lexeme = lexeme := by
  induction h with
  | nil => simp
  | cons htokens _ ih => exact List.forall_mem_cons.mpr ⟨htokens.shared, ih⟩

theorem readings_renderWord (hwords : ∀ word ∈ words, Text.IsWord Text.isBlank word)
    (h : List.Forall₂ ReadAs words positions) :
    (∀ word ∈ positions.map renderWord, Text.IsWord Text.isBlank word) ∧
      List.Forall₂ ReadAs (positions.map renderWord) positions := by
  induction h with
  | nil => exact ⟨by simp, .nil⟩
  | cons htokens _ ih =>
      obtain ⟨hword, hwords⟩ := List.forall_mem_cons.mp hwords
      obtain ⟨hfirst, hread⟩ := htokens.renderWord hword
      obtain ⟨hrest, hpositions⟩ := ih hwords
      exact ⟨List.forall_mem_cons.mpr ⟨hfirst, hrest⟩, .cons hread hpositions⟩

theorem parse_render (hwords : ∀ word ∈ words, Text.IsWord Text.isBlank word)
    (h : List.Forall₂ ReadAs words positions) :
    parse (render positions) = .ok positions := by
  obtain ⟨hwritten, hread⟩ := readings_renderWord hwords h
  rw [parse, render, Text.words, Text.wordsBy_intercalate (by simp) (by simp [Text.isBlank]) hwritten]
  exact mapM_parseWord_of_readAs hread

/-- A script has a first defective word, which is reported, or all of its words are read. -/
theorem parse_cases (text : String) :
    (∃ word, (Text.words text).find? (Defective ·) = some word ∧
      parse text = .error (.emptyCategory word)) ∨
    ((∀ word ∈ Text.words text, ¬ Defective word) ∧
      ∃ positions, List.Forall₂ ReadAs (Text.words text) positions ∧ parse text = .ok positions) := by
  cases hfind : (Text.words text).find? (Defective ·) with
  | some word => exact .inl ⟨word, rfl, mapM_parseWord_of_find? hfind⟩
  | none =>
      have hsound : ∀ word ∈ Text.words text, ¬ Defective word := by simpa using hfind
      obtain ⟨positions, hpositions⟩ := exists_readings hsound
      exact .inr ⟨hsound, positions, hpositions, mapM_parseWord_of_readAs hpositions⟩

theorem setInput_script {tokenizer : Tokenizer} (h : tokenizer.source = .script) (text : String) :
    tokenizer.setInput text =
      match parse text with
      | .ok positions => (.ok (), { tokenizer with words := positions.map .ok, cursor := 0 })
      | .error error => (.error error, tokenizer) := by
  rw [Tokenizer.setInput, h, WordSource.read]
  cases parse text <;> rfl

/-- Scripts are read exactly and can be written back. A script fails if and only if one of its words has an
empty category, and then with the first such word. Otherwise its positions are the readings of its words,
each a nonempty list of tokens that share a lexeme, and written as words with a blank between them they are
read as they were. A tokenizer that is set to a script takes over its positions, or stays as it was when the
script fails. -/
theorem parse_exact (text : String) :
    ((∃ error, parse text = .error error) ↔ ∃ word ∈ Text.words text, Defective word) ∧
    (∀ error, parse text = .error error →
      (∃ word, (Text.words text).find? (Defective ·) = some word ∧ error = .emptyCategory word) ∧
      ∀ tokenizer : Tokenizer, tokenizer.source = .script →
        tokenizer.setInput text = (.error error, tokenizer)) ∧
    ∀ positions, parse text = .ok positions →
      List.Forall₂ ReadAs (Text.words text) positions ∧
      (∀ tokens ∈ positions, tokens ≠ [] ∧ ∃ lexeme, ∀ token ∈ tokens, token.lexeme = lexeme) ∧
      parse (render positions) = .ok positions ∧
      ∀ tokenizer : Tokenizer, tokenizer.source = .script →
        tokenizer.setInput text =
          (.ok (), { tokenizer with words := positions.map .ok, cursor := 0 }) := by
  rcases parse_cases text with ⟨word, hfind, hparse⟩ | ⟨hsound, positions, hread, hparse⟩
  · have hdefective : Defective word := by simpa using List.find?_some hfind
    refine ⟨⟨fun _ => ⟨word, List.mem_of_find?_eq_some hfind, hdefective⟩, fun _ => ⟨_, hparse⟩⟩, ?_, ?_⟩
    · intro error herror
      cases hparse.symm.trans herror
      refine ⟨⟨word, hfind, rfl⟩, fun tokenizer hsource => ?_⟩
      rw [setInput_script hsource, hparse]
    · intro positions hok
      cases hparse.symm.trans hok
  · refine ⟨⟨?_, ?_⟩, ?_, ?_⟩
    · rintro ⟨error, herror⟩
      cases hparse.symm.trans herror
    · rintro ⟨word, hword, hdefective⟩
      exact absurd hdefective (hsound word hword)
    · intro error herror
      cases hparse.symm.trans herror
    · intro other hok
      cases hparse.symm.trans hok
      have hwords : ∀ word ∈ Text.words text, Text.IsWord Text.isBlank word := fun _ =>
        Text.isWord_of_mem_wordsBy
      refine ⟨hread, shared_of_readings hread, parse_render hwords hread, fun tokenizer hsource => ?_⟩
      rw [setInput_script hsource, hparse]

/-- Words with several slashes, with bars and no slash, and without a lexeme, between blanks of all sorts. -/
def crowded : String := "the/det\n\tsaw|see  /a|b x/y/z|w\u3000"

/-- Two words that cannot be read behind one that can. -/
def flawed : String := "the/det saw/noun||verb /"

theorem crowded_parse_exact :
    let positions : List (List Token) :=
      [[⟨"det", "the", []⟩], [⟨"saw", "saw|see", []⟩, ⟨"see", "saw|see", []⟩], [⟨"a", "", []⟩, ⟨"b", "", []⟩],
        [⟨"y/z", "x", []⟩, ⟨"w", "x", []⟩]]
    let tokenizer : Tokenizer := { words := positions.map .ok, cursor := 2 }
    parse crowded = .ok positions ∧ render positions = "the/det saw|see/saw|see /a|b x/y/z|w" ∧
      parse "the/det saw|see/saw|see /a|b x/y/z|w" = .ok positions ∧
      tokenizer.setInput crowded = (.ok (), { tokenizer with cursor := 0 }) ∧
      parse flawed = .error (.emptyCategory "saw/noun||verb") ∧
      tokenizer.setInput flawed = (.error (.emptyCategory "saw/noun||verb"), tokenizer) := by
  intro positions tokenizer
  have hcrowded : parse crowded = .ok positions := by rfl
  have hflawed : parse flawed = .error (.emptyCategory "saw/noun||verb") := by rfl
  have hrender : render positions = "the/det saw|see/saw|see /a|b x/y/z|w" := by decide +kernel
  obtain ⟨-, -, hback, hset⟩ := (parse_exact crowded).2.2 positions hcrowded
  obtain ⟨-, hkeep⟩ := (parse_exact flawed).2.1 _ hflawed
  rw [hrender] at hback
  exact ⟨hcrowded, hrender, hback, hset tokenizer rfl, hflawed, hkeep tokenizer rfl⟩

end TransitionNetwork.Script
