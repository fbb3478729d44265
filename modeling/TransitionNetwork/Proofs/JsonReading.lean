import TransitionNetwork.Json.Reader
import TransitionNetwork.Json.Writer
import Mathlib.Algebra.GroupWithZero.Nat
import Mathlib.Tactic.FinCases

/-! Reading back the JSON that was written without blanks. Escaping is undone character by character, and a
string ends at the first quote that is not escaped. With the strings, the whole text falls into the lexemes of
the value (`lexemes`); only a number has to be parted from what follows, and a comma or a closing bracket does
that. The lexemes are read as the value in any open container, so what was written is read back, item by item
and entry by entry. -/

namespace TransitionNetwork

namespace Text

/-! ### Hexadecimal digits -/

theorem digitValue?_hexDigit : ∀ n < 16, digitValue? (hexDigit n) = some n := by decide

theorem readDigitsFrom_concat (base value : Nat) (digits : List Char) (c : Char) :
    readDigitsFrom base value (digits ++ [c]) =
      (readDigitsFrom base value digits).bind fun before => readDigitsFrom base before [c] := by
  induction digits generalizing value with
  | nil => rfl
  | cons d digits ih =>
      rw [List.cons_append, readDigitsFrom, readDigitsFrom]
      split
      · split
        · exact ih _
        · rfl
      · rfl

theorem readDigitsFrom_hexDigits (width n : Nat) :
    readDigitsFrom 16 0 (hexDigits width n) = some (n % 16 ^ width) := by
  induction width generalizing n with
  | zero => simp [hexDigits, readDigitsFrom, Nat.mod_one]
  | succ width ih =>
      have hdigit : n % 16 < 16 := Nat.mod_lt n (by decide)
      have hvalue : n / 16 % 16 ^ width * 16 + n % 16 = n % 16 ^ (width + 1) := by
        rw [Nat.pow_succ, Nat.mul_comm (16 ^ width), Nat.mod_mul]
        omega
      rw [hexDigits, readDigitsFrom_concat, ih, Option.bind_some, readDigitsFrom,
        digitValue?_hexDigit _ hdigit]
      simp only [hdigit, if_true, readDigitsFrom, hvalue]

end Text

namespace Json

/-! ### Strings -/

/-- One more character in front of what was read. -/
def withChar (c : Char) : List Char × List Char → List Char × List Char
  | (text, rest) => (c :: text, rest)

theorem readString_quote (rest : List Char) : readString ('"' :: rest) = some ([], rest) := by
  rw [readString.eq_def]
  rfl

theorem readString_plain {c : Char} (hquote : c ≠ '"') (hslash : c ≠ '\\') (hprintable : 0x20 ≤ c.toNat)
    (rest : List Char) : readString (c :: rest) = (readString rest).map (withChar c) := by
  rw [readString.eq_def]
  simp only [hquote, hslash, Nat.not_lt.mpr hprintable, if_false]
  rfl

theorem readString_escaped {c letter : Char} (hu : letter ≠ 'u') (h : unescape? letter = some c)
    (rest : List Char) :
    readString ('\\' :: letter :: rest) = (readString rest).map (withChar c) := by
  rw [readString.eq_def]
  simp only [hu, h, if_false, if_true]
  rfl

theorem readString_code {h₁ h₂ h₃ h₄ : Char} {code : Nat}
    (h : Text.readDigits? 16 [h₁, h₂, h₃, h₄] = some code) (hlow : code < 0xD800) (rest : List Char) :
    readString ('\\' :: 'u' :: h₁ :: h₂ :: h₃ :: h₄ :: rest) =
      (readString rest).map (withChar (Char.ofNat code)) := by
  have hhigh : isHighSurrogate code = false := by simp [isHighSurrogate]; omega
  have hlow : isLowSurrogate code = false := by simp [isLowSurrogate]; omega
  rw [readString.eq_def]
  simp only [h, hhigh, hlow]
  rfl

theorem unescape?_of_shortEscape? {c letter : Char} (h : shortEscape? c = some letter) :
    letter ≠ 'u' ∧ unescape? letter = some c := by
  have hchar : ∀ {n}, c.toNat = n → c = Char.ofNat n := by
    intro n hn
    rw [← hn, Char.ofNat_toNat]
  unfold shortEscape? at h
  split at h
  case h_6 => cases h
  all_goals
    next hcode =>
      cases h
      rw [hchar hcode]
      decide

/-- What a character is written as is read as the character. -/
theorem readString_escapeChar (c : Char) (rest : List Char) :
    readString (escapeChar c ++ rest) = (readString rest).map (withChar c) := by
  unfold escapeChar
  split
  · next hself =>
    rcases hself with rfl | rfl
    · exact readString_escaped (by decide) rfl rest
    · exact readString_escaped (by decide) rfl rest
  · next hself =>
    rw [not_or] at hself
    split
    · next letter hletter =>
      obtain ⟨hu, hletter⟩ := unescape?_of_shortEscape? hletter
      exact readString_escaped hu hletter rest
    · split
      · next hcontrol =>
        -- four digits are more than the code needs, and a code as low as this is no half of a pair
        have hcode : Text.readDigits? 16 (Text.hexDigits 4 c.toNat) = some c.toNat := by
          have hread := Text.readDigitsFrom_hexDigits 4 c.toNat
          rwa [Nat.mod_eq_of_lt (by omega)] at hread
        have hread := readString_code hcode (by omega) rest
        rwa [Char.ofNat_toNat] at hread
      · next hprintable =>
        exact readString_plain hself.1 hself.2 (Nat.le_of_not_lt hprintable) rest

theorem readString_escape (text rest : List Char) :
    readString (escape text ++ '"' :: rest) = some (text, rest) := by
  induction text with
  | nil => exact readString_quote rest
  | cons c text ih =>
      rw [escape, List.append_assoc, readString_escapeChar, ih]
      rfl

/-! ### Lexemes -/

theorem lex_cons {c : Char} {rest behind : List Char} {lexeme : Lexeme} (hspace : isSpace c = false)
    (h : readLexeme c rest = some (lexeme, behind)) (hlength : behind.length ≤ rest.length) :
    lex (c :: rest) = (lex behind).map (lexeme :: ·) := by
  rw [lex, if_neg (by simp [hspace]), h]
  exact if_pos hlength

/-- The character of a lexeme that is a single one. -/
def Lexeme.mark? : Lexeme → Option Char
  | .openBracket => some '['
  | .closeBracket => some ']'
  | .openBrace => some '\x7b'
  | .closeBrace => some '\x7d'
  | .comma => some ','
  | .colon => some ':'
  | .scalar _ => none

theorem lex_mark (lexeme : Lexeme) {c : Char} (h : lexeme.mark? = some c) (rest : List Char) :
    lex (c :: rest) = (lex rest).map (lexeme :: ·) := by
  cases lexeme <;> cases h <;> exact lex_cons rfl rfl (Nat.le_refl _)

theorem lex_quote (text : String) (rest : List Char) :
    lex (quote text ++ rest) = (lex rest).map (.scalar (.string text) :: ·) := by
  have hread : readLexeme '"' (escape text.toList ++ '"' :: rest) =
      some (.scalar (.string text), rest) := by
    simp [readLexeme, readString_escape]
  rw [quote, List.cons_append, List.append_assoc, List.singleton_append]
  exact lex_cons rfl hread (by simp; omega)

/-! ### Numbers -/

theorem isNumberChar_of_isDigit {c : Char} (h : c.isDigit = true) : isNumberChar c = true := by
  simp [isNumberChar, h]

theorem isNumberChar_of_isDigits {digits : List Char} (h : isDigits digits = true) :
    ∀ c ∈ digits, isNumberChar c = true := by
  intro c hc
  rw [isDigits, Bool.and_eq_true, List.all_eq_true] at h
  exact isNumberChar_of_isDigit (h.2 c hc)

theorem isNumberChar_of_dropWhile {chars : List Char}
    (h : ∀ c ∈ chars.dropWhile Char.isDigit, isNumberChar c = true) :
    ∀ c ∈ chars, isNumberChar c = true := by
  intro c hc
  rw [← List.takeWhile_append_dropWhile (p := Char.isDigit) (l := chars), List.mem_append] at hc
  rcases hc with hdigit | hrest
  · exact isNumberChar_of_isDigit (List.all_eq_true.mp List.all_takeWhile c hdigit)
  · exact h c hrest

theorem isNumberChar_of_isExponentPart {chars : List Char} (h : isExponentPart chars = true) :
    ∀ c ∈ chars, isNumberChar c = true := by
  unfold isExponentPart at h
  split at h
  · simp
  · rw [Bool.and_eq_true, Bool.or_eq_true, decide_eq_true_eq, decide_eq_true_eq] at h
    obtain ⟨hletter, hrest⟩ := h
    refine List.forall_mem_cons.mpr ⟨?_, ?_⟩
    · rcases hletter with rfl | rfl <;> rfl
    · split at hrest
      · exact List.forall_mem_cons.mpr ⟨rfl, isNumberChar_of_isDigits hrest⟩
      · exact List.forall_mem_cons.mpr ⟨rfl, isNumberChar_of_isDigits hrest⟩
      · exact isNumberChar_of_isDigits hrest

theorem isNumberChar_of_isFractionPart {chars : List Char} (h : isFractionPart chars = true) :
    ∀ c ∈ chars, isNumberChar c = true := by
  unfold isFractionPart at h
  split at h
  · rw [Bool.and_eq_true] at h
    refine List.forall_mem_cons.mpr ⟨rfl, ?_⟩
    exact isNumberChar_of_dropWhile (isNumberChar_of_isExponentPart h.2)
  · exact isNumberChar_of_isExponentPart h

/-- A number begins with a sign or a digit and goes on with characters of numbers. -/
theorem exists_of_isNumber {literal : List Char} (h : isNumber literal = true) :
    ∃ first rest, literal = first :: rest ∧ (first = '-' ∨ first.isDigit = true) ∧
      ∀ c ∈ rest, isNumberChar c = true := by
  simp only [isNumber] at h
  split at h
  · next rest =>
    rw [Bool.and_eq_true] at h
    exact ⟨'-', rest, rfl, .inl rfl, isNumberChar_of_dropWhile (isNumberChar_of_isFractionPart h.2)⟩
  · rw [Bool.and_eq_true, Bool.and_eq_true] at h
    obtain ⟨⟨hwhole, -⟩, hfraction⟩ := h
    have hchars := isNumberChar_of_dropWhile (isNumberChar_of_isFractionPart hfraction)
    cases literal with
    | nil => cases hwhole
    | cons first rest =>
        cases hdigit : first.isDigit with
        | true => exact ⟨first, rest, rfl, .inr hdigit, (List.forall_mem_cons.mp hchars).2⟩
        | false => simp [hdigit] at hwhole

/-- No blank and no other lexeme begins like a number. -/
theorem ne_of_begins_number {c : Char} (h : c = '-' ∨ c.isDigit = true) :
    ∀ d ∈ [' ', '\t', '\n', '\r', '[', ']', '\x7b', '\x7d', ',', ':', '"', 't', 'f', 'n'], c ≠ d := by
  rintro d hd rfl
  fin_cases hd <;> exact absurd h (by decide)

theorem readLexeme_number {c : Char} (h : c = '-' ∨ c.isDigit = true) (rest : List Char) :
    isSpace c = false ∧ readLexeme c rest =
      if isNumber (c :: rest.takeWhile isNumberChar) then
        some (.scalar (.number (String.ofList (c :: rest.takeWhile isNumberChar))),
          rest.dropWhile isNumberChar)
      else none := by
  have hother := ne_of_begins_number h
  have hfirst : (c = '-' || c.isDigit) = true := by simpa using h
  simp only [List.forall_mem_cons] at hother
  simp [isSpace, readLexeme, hother, hfirst]

/-- A number is not continued by what follows it. -/
def Parted (rest : List Char) : Prop := ∀ c ∈ rest.head?, isNumberChar c = false

theorem lex_number {literal : String} (h : isNumber literal.toList = true) {rest : List Char}
    (hrest : Parted rest) :
    lex (literal.toList ++ rest) = (lex rest).map (.scalar (.number literal) :: ·) := by
  obtain ⟨first, digits, hliteral, hfirst, hdigits⟩ := exists_of_isNumber h
  have hnone : rest.takeWhile isNumberChar = [] ∧ rest.dropWhile isNumberChar = rest := by
    cases rest with
    | nil => exact ⟨rfl, rfl⟩
    | cons c rest =>
        have hc : ¬ isNumberChar c = true := by simp [hrest c rfl]
        rw [List.takeWhile_cons_of_neg hc, List.dropWhile_cons_of_neg hc]
        exact ⟨rfl, rfl⟩
  obtain ⟨hspace, hread⟩ := readLexeme_number hfirst (digits ++ rest)
  rw [List.takeWhile_append_of_pos hdigits, List.dropWhile_append_of_pos hdigits, hnone.1, hnone.2,
    List.append_nil, ← hliteral, if_pos h, String.ofList_toList] at hread
  rw [hliteral, List.cons_append]
  exact lex_cons hspace hread (by simp)

/-! ### Values -/

/-- A value whose numbers are number literals. -/
inductive Valid : Json → Prop
  | null : Valid .null
  | bool (value : Bool) : Valid (.bool value)
  | number {literal : String} (h : isNumber literal.toList = true) : Valid (.number literal)
  | string (text : String) : Valid (.string text)
  | array {items : List Json} (h : ∀ item ∈ items, Valid item) : Valid (.array items)
  | object {entries : List (String × Json)} (h : ∀ entry ∈ entries, Valid entry.2) :
      Valid (.object entries)

mutual

/-- The lexemes of a value. -/
def lexemes : Json → List Lexeme
  | .array [] => [.openBracket, .closeBracket]
  | .array (item :: items) => .openBracket :: (lexemes item ++ itemLexemes items)
  | .object [] => [.openBrace, .closeBrace]
  | .object ((key, value) :: entries) =>
    .openBrace :: .scalar (.string key) :: .colon :: (lexemes value ++ entryLexemes entries)
  | value => [.scalar value]

/-- The lexemes of the items after the first, with the closing bracket. -/
def itemLexemes : List Json → List Lexeme
  | [] => [.closeBracket]
  | item :: items => .comma :: (lexemes item ++ itemLexemes items)

/-- The lexemes of the entries after the first, with the closing brace. -/
def entryLexemes : List (String × Json) → List Lexeme
  | [] => [.closeBrace]
  | (key, value) :: entries =>
    .comma :: .scalar (.string key) :: .colon :: (lexemes value ++ entryLexemes entries)

end

/-- The text of a value is cut into the lexemes of the value, whatever follows. -/
def Lexed (value : Json) : Prop :=
  ∀ rest, Parted rest → lex (value.compactChars ++ rest) = (lex rest).map (value.lexemes ++ ·)

theorem parted_compactItems (items : List Json) (rest : List Char) :
    Parted (compactItems items ++ rest) := by
  cases items <;> (rintro c ⟨⟩; rfl)

theorem parted_compactEntries (entries : List (String × Json)) (rest : List Char) :
    Parted (compactEntries entries ++ rest) := by
  cases entries <;> (rintro c ⟨⟩; rfl)

theorem lex_compactItems {items : List Json} (h : ∀ item ∈ items, item.Lexed) (rest : List Char) :
    lex (compactItems items ++ rest) = (lex rest).map (itemLexemes items ++ ·) := by
  induction items with
  | nil => exact lex_mark .closeBracket rfl rest
  | cons item items ih =>
      obtain ⟨hitem, hitems⟩ := List.forall_mem_cons.mp h
      rw [compactItems, List.cons_append, List.append_assoc, lex_mark .comma rfl,
        hitem _ (parted_compactItems items rest), ih hitems, itemLexemes, Option.map_map, Option.map_map]
      simp [Function.comp_def]

theorem lex_entry (key : String) {value : Json} (h : value.Lexed) {rest : List Char} (hrest : Parted rest) :
    lex (quote key ++ ':' :: (value.compactChars ++ rest)) =
      (lex rest).map fun more => .scalar (.string key) :: .colon :: (value.lexemes ++ more) := by
  rw [lex_quote, lex_mark .colon rfl, h rest hrest, Option.map_map, Option.map_map]
  rfl

theorem lex_compactEntries {entries : List (String × Json)} (h : ∀ entry ∈ entries, entry.2.Lexed)
    (rest : List Char) :
    lex (compactEntries entries ++ rest) = (lex rest).map (entryLexemes entries ++ ·) := by
  induction entries with
  | nil => exact lex_mark .closeBrace rfl rest
  | cons entry entries ih =>
      obtain ⟨key, value⟩ := entry
      obtain ⟨hvalue, hentries⟩ := List.forall_mem_cons.mp h
      rw [compactEntries, List.cons_append, List.append_assoc, List.cons_append, List.append_assoc,
        lex_mark .comma rfl, lex_entry key hvalue (parted_compactEntries entries rest), ih hentries,
        entryLexemes, Option.map_map, Option.map_map]
      simp [Function.comp_def]

theorem Valid.lexed {value : Json} (h : value.Valid) : value.Lexed := by
  induction h with
  | null =>
      intro rest _
      exact lex_cons rfl rfl (by simp; omega)
  | bool value =>
      intro rest _
      cases value <;> exact lex_cons rfl rfl (by simp; omega)
  | number hliteral =>
      intro rest hrest
      exact lex_number hliteral hrest
  | string text =>
      intro rest _
      exact lex_quote text rest
  | @array items _ ih =>
      intro rest _
      cases items with
      | nil =>
          rw [compactChars, List.cons_append, lex_mark .openBracket rfl, List.singleton_append,
            lex_mark .closeBracket rfl, Option.map_map]
          rfl
      | cons item items =>
          obtain ⟨hitem, hitems⟩ := List.forall_mem_cons.mp ih
          rw [compactChars, List.cons_append, List.append_assoc, lex_mark .openBracket rfl,
            hitem _ (parted_compactItems items rest), lex_compactItems hitems, lexemes, Option.map_map,
            Option.map_map]
          simp [Function.comp_def]
  | @object entries _ ih =>
      intro rest _
      cases entries with
      | nil =>
          rw [compactChars, List.cons_append, lex_mark .openBrace rfl, List.singleton_append,
            lex_mark .closeBrace rfl, Option.map_map]
          rfl
      | cons entry entries =>
          obtain ⟨key, value⟩ := entry
          obtain ⟨hvalue, hentries⟩ := List.forall_mem_cons.mp ih
          rw [compactChars, List.cons_append, List.append_assoc, List.cons_append, List.append_assoc,
            lex_mark .openBrace rfl, lex_entry key hvalue (parted_compactEntries entries rest),
            lex_compactEntries hentries, lexemes, Option.map_map, Option.map_map]
          simp [Function.comp_def]

/-! ### Reading the lexemes -/

/-- Behind an opening bracket, a value is read as the first item. -/
theorem foldlM_expectItem (value : Json) (frames : List Frame) (more : List Lexeme) :
    (value.lexemes ++ more).foldlM Reading.step (.expectItem frames) =
      (value.lexemes ++ more).foldlM Reading.step (.expectValue (.array [] :: frames)) := by
  have hfirst : ∃ first rest, value.lexemes = first :: rest ∧ first ≠ .closeBracket := by
    unfold lexemes
    split <;> exact ⟨_, _, rfl, by simp⟩
  obtain ⟨first, rest, hlexemes, hopens⟩ := hfirst
  have hstep : Reading.step (.expectItem frames) first =
      Reading.step (.expectValue (.array [] :: frames)) first := by
    cases first <;> first | rfl | exact absurd rfl hopens
  rw [hlexemes, List.cons_append, List.foldlM_cons, List.foldlM_cons, hstep]

mutual

/-- Where a value has to follow, the lexemes of a value are read as the value. -/
theorem foldlM_lexemes (frames : List Frame) (more : List Lexeme) : (value : Json) →
    (value.lexemes ++ more).foldlM Reading.step (.expectValue frames) =
      more.foldlM Reading.step (.complete value frames)
  | .null => rfl
  | .bool _ => rfl
  | .number _ => rfl
  | .string _ => rfl
  | .array [] => rfl
  | .array (item :: items) => by
      -- the first item is complete when the bracket or a comma comes, and it is added to the list only then
      rw [lexemes, List.cons_append, List.append_assoc, List.foldlM_cons]
      exact (foldlM_expectItem item frames _).trans
        ((foldlM_lexemes _ _ item).trans (foldlM_itemLexemes [] item frames more items))
  | .object [] => rfl
  | .object ((key, value) :: entries) => by
      rw [lexemes, List.cons_append, List.cons_append, List.cons_append, List.append_assoc]
      exact (foldlM_lexemes (.object [] key :: frames) _ value).trans
        (foldlM_entryLexemes [] key value frames more entries)

theorem foldlM_itemLexemes (read : List Json) (last : Json) (frames : List Frame) (more : List Lexeme) :
    (items : List Json) →
    (itemLexemes items ++ more).foldlM Reading.step (.complete last (.array read :: frames)) =
      more.foldlM Reading.step (.complete (.array (read ++ last :: items)) frames)
  | [] => rfl
  | item :: items => by
      have hrest := foldlM_itemLexemes (read ++ [last]) item frames more items
      rw [List.append_assoc, List.singleton_append] at hrest
      rw [itemLexemes, List.cons_append, List.append_assoc, ← hrest]
      exact foldlM_lexemes (.array (read ++ [last]) :: frames) _ item

theorem foldlM_entryLexemes (read : List (String × Json)) (key : String) (last : Json)
    (frames : List Frame) (more : List Lexeme) : (entries : List (String × Json)) →
    (entryLexemes entries ++ more).foldlM Reading.step (.complete last (.object read key :: frames)) =
      more.foldlM Reading.step (.complete (.object (read ++ (key, last) :: entries)) frames)
  | [] => rfl
  | (next, value) :: entries => by
      have hrest := foldlM_entryLexemes (read ++ [(key, last)]) next value frames more entries
      rw [List.append_assoc, List.singleton_append] at hrest
      rw [entryLexemes, List.cons_append, List.cons_append, List.cons_append, List.append_assoc, ← hrest]
      exact foldlM_lexemes (.object (read ++ [(key, last)]) next :: frames) _ value

end

/-- A value that was written without blanks is read back. -/
theorem read?_compact {value : Json} (h : value.Valid) : read? value.compact = some value := by
  have hlex := h.lexed [] (by rintro c ⟨⟩)
  have hread := foldlM_lexemes [] [] value
  rw [List.append_nil, lex, Option.map_some, List.append_nil] at hlex
  rw [List.append_nil] at hread
  rw [read?, compact, String.toList_ofList, hlex, Option.bind_eq_bind, Option.bind_some, hread]
  rfl

end Json

end TransitionNetwork
