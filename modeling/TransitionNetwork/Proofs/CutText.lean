import TransitionNetwork.Text.Blank

/-! Cutting a text that was put together. The words of any text are nonempty and hold no separator; in turn,
words with separators between them are found again, whatever the separators are. Pieces are found again
when they were joined by a mark that is in none of them, and the pieces of any text make up the text. -/

namespace TransitionNetwork.Text

variable {separates : Char → Bool}

/-! ### Words -/

/-- A text that is not cut: nonempty and without separators. -/
def IsWord (separates : Char → Bool) (word : String) : Prop :=
  word.toList ≠ [] ∧ ∀ c ∈ word.toList, separates c = false

-- Goes through the characters of the word; there are also the instances that go through all characters.
instance (separates : Char → Bool) (word : String) : Decidable (IsWord separates word) :=
  @instDecidableAnd _ _ inferInstance (List.decidableBAll _ _)

/-- A run is what it was so far and what follows without a separator. -/
theorem unseparated_of_mem_runsFrom {current chars run : List Char}
    (hcurrent : ∀ c ∈ current, separates c = false)
    (h : run ∈ runsFrom separates current chars) : run ≠ [] ∧ ∀ c ∈ run, separates c = false := by
  fun_induction runsFrom separates current chars with
  | case1 => cases h
  | case2 current hsome =>
      rw [List.mem_singleton.mp h]
      exact ⟨hsome, hcurrent⟩
  | case3 c rest _ ih => exact ih (by simp) h
  | case4 current c rest _ hsome ih =>
      rcases List.mem_cons.mp h with rfl | hlater
      · exact ⟨hsome, hcurrent⟩
      · exact ih (by simp) hlater
  | case5 current c rest hc ih =>
      refine ih (fun other hother => ?_) h
      rcases List.mem_append.mp hother with hold | hnew
      · exact hcurrent other hold
      · rw [List.mem_singleton.mp hnew]
        exact Bool.eq_false_iff.mpr hc

theorem isWord_of_mem_wordsBy {word text : String} (h : word ∈ wordsBy separates text) :
    IsWord separates word := by
  obtain ⟨run, hrun, rfl⟩ := List.mem_map.mp h
  rw [IsWord, String.toList_ofList]
  exact unseparated_of_mem_runsFrom (by simp) hrun

theorem runsFrom_gap {gap : List Char} (hgap : ∀ c ∈ gap, separates c = true) (rest : List Char) :
    runsFrom separates [] (gap ++ rest) = runsFrom separates [] rest := by
  induction gap with
  | nil => rfl
  | cons c gap ih =>
      obtain ⟨hc, hgap⟩ := List.forall_mem_cons.mp hgap
      rw [List.cons_append, runsFrom, if_pos hc, if_pos rfl, ih hgap]

/-- A word comes first when separators follow it. -/
theorem runsFrom_word_gap {word gap : List Char} (hsome : word ≠ [])
    (hword : ∀ c ∈ word, separates c = false) (hne : gap ≠ [])
    (hgap : ∀ c ∈ gap, separates c = true) (rest : List Char) :
    runsFrom separates [] (word ++ (gap ++ rest)) = word :: runsFrom separates [] rest := by
  cases gap with
  | nil => exact absurd rfl hne
  | cons c gap =>
      obtain ⟨hc, hgap⟩ := List.forall_mem_cons.mp hgap
      rw [runsFrom_append hword, List.nil_append, List.cons_append, runsFrom_separator hc hsome,
        runsFrom_gap hgap]

theorem mem_of_mem_intercalate {gap : List Char} {words : List (List Char)} {c : Char}
    (h : c ∈ gap.intercalate words) : c ∈ gap ∨ ∃ word ∈ words, c ∈ word := by
  induction words with
  | nil => cases h
  | cons word words ih =>
      cases words with
      | nil =>
          rw [List.intercalate_singleton] at h
          exact .inr ⟨word, List.mem_cons_self, h⟩
      | cons next words =>
          rw [List.intercalate_cons_cons, List.mem_append, List.mem_append] at h
          rcases h with (hword | hgap) | hrest
          · exact .inr ⟨word, List.mem_cons_self, hword⟩
          · exact .inl hgap
          · rcases ih hrest with hgap | ⟨other, hother, hc⟩
            · exact .inl hgap
            · exact .inr ⟨other, List.mem_cons_of_mem _ hother, hc⟩

/-- Words that were joined by separators are found again. -/
theorem runsFrom_intercalate {gap : List Char} (hne : gap ≠ [])
    (hgap : ∀ c ∈ gap, separates c = true) {words : List (List Char)}
    (hwords : ∀ word ∈ words, word ≠ [] ∧ ∀ c ∈ word, separates c = false) :
    runsFrom separates [] (gap.intercalate words) = words := by
  induction words with
  | nil => rfl
  | cons word words ih =>
      obtain ⟨⟨hsome, hword⟩, hwords⟩ := List.forall_mem_cons.mp hwords
      cases words with
      | nil =>
          have hlast := runsFrom_append hword [] []
          rw [List.append_nil, List.nil_append, runsFrom, if_neg hsome] at hlast
          rw [List.intercalate_singleton, hlast]
      | cons next words =>
          rw [List.intercalate_cons_cons, List.append_assoc, runsFrom_word_gap hsome hword hne hgap,
            ih hwords]

theorem wordsBy_intercalate {joint : String} (hne : joint.toList ≠ [])
    (hjoint : ∀ c ∈ joint.toList, separates c = true) {words : List String}
    (hwords : ∀ word ∈ words, IsWord separates word) :
    wordsBy separates (joint.intercalate words) = words := by
  have hchars : ∀ word ∈ words.map String.toList, word ≠ [] ∧ ∀ c ∈ word, separates c = false :=
    List.forall_mem_map.mpr hwords
  rw [wordsBy, String.toList_intercalate, runsFrom_intercalate hne hjoint hchars, List.map_map]
  simp [Function.comp_def]

theorem trim_of_isWord {word : String} (h : IsWord isBlank word) : trim word = word := by
  have hkept : ∀ chars : List Char, (∀ c ∈ chars, isBlank c = false) →
      chars.dropWhile isBlank = chars := by
    intro chars hchars
    cases chars with
    | nil => rfl
    | cons c rest => rw [List.dropWhile_cons_of_neg (by simp [hchars c])]
  have hreverse : ∀ c ∈ word.toList.reverse, isBlank c = false := by simpa using h.2
  rw [trim, trimStart, hkept _ h.2, String.ofList_toList, trimEnd, hkept _ hreverse,
    List.reverse_reverse, String.ofList_toList]

/-! ### Pieces -/

/-- The first mark parts a text into what stands before it and what begins with it. -/
theorem cut_at_mark {mark : Char} {piece : List Char} (h : mark ∉ piece) (rest : List Char) :
    (piece ++ mark :: rest).takeWhile (· ≠ mark) = piece ∧
      (piece ++ mark :: rest).dropWhile (· ≠ mark) = mark :: rest := by
  have hpiece : ∀ c ∈ piece, decide (c ≠ mark) = true := by
    intro c hc
    exact decide_eq_true (ne_of_mem_of_not_mem hc h)
  constructor
  · rw [List.takeWhile_append_of_pos hpiece, List.takeWhile_cons_of_neg (by simp), List.append_nil]
  · rw [List.dropWhile_append_of_pos hpiece, List.dropWhile_cons_of_neg (by simp)]

theorem piecesOf_of_not_mem {mark : Char} {piece : List Char} (h : mark ∉ piece) :
    piecesOf mark piece = [piece] := by
  induction piece with
  | nil => rfl
  | cons c piece ih =>
      rw [List.mem_cons, not_or] at h
      rw [piecesOf, if_neg (Ne.symm h.1), ih h.2]

/-- A piece comes first when the mark follows it. -/
theorem piecesOf_append_mark {mark : Char} {piece : List Char} (h : mark ∉ piece)
    (rest : List Char) : piecesOf mark (piece ++ mark :: rest) = piece :: piecesOf mark rest := by
  induction piece with
  | nil => rw [List.nil_append, piecesOf, if_pos rfl]
  | cons c piece ih =>
      rw [List.mem_cons, not_or] at h
      rw [List.cons_append, piecesOf, if_neg (Ne.symm h.1), ih h.2]

theorem piecesOf_intercalate {mark : Char} {pieces : List (List Char)} (hne : pieces ≠ [])
    (hpieces : ∀ piece ∈ pieces, mark ∉ piece) :
    piecesOf mark ([mark].intercalate pieces) = pieces := by
  induction pieces with
  | nil => exact absurd rfl hne
  | cons piece pieces ih =>
      obtain ⟨hpiece, hpieces⟩ := List.forall_mem_cons.mp hpieces
      cases pieces with
      | nil => rw [List.intercalate_singleton, piecesOf_of_not_mem hpiece]
      | cons next pieces =>
          rw [List.intercalate_cons_cons, List.append_assoc, List.singleton_append,
            piecesOf_append_mark hpiece, ih (List.cons_ne_nil _ _) hpieces]

theorem pieces_ne_nil (mark : Char) (text : String) : pieces mark text ≠ [] := by
  simpa [pieces] using piecesOf_ne_nil mark text.toList

theorem intercalate_piecesOf (mark : Char) (text : List Char) :
    [mark].intercalate (piecesOf mark text) = text := by
  induction text with
  | nil => rfl
  | cons c text ih =>
      obtain ⟨piece, pieces, hpieces⟩ := List.exists_cons_of_ne_nil (piecesOf_ne_nil mark text)
      rw [hpieces] at ih
      by_cases hc : c = mark
      · rw [piecesOf, if_pos hc, hpieces, List.intercalate_cons_cons, ih, hc]
        rfl
      · rw [piecesOf, if_neg hc, hpieces]
        cases pieces with
        | nil => simpa using ih
        | cons next pieces => simpa using ih

/-- The pieces of a text make up the text again. -/
theorem intercalate_pieces {mark : Char} {joint : String} (hjoint : joint.toList = [mark]) (text : String) :
    joint.intercalate (pieces mark text) = text := by
  rw [← String.toList_inj, String.toList_intercalate, hjoint, pieces, List.map_map]
  simp [Function.comp_def, intercalate_piecesOf]

/-- Pieces that were joined by the mark are found again. -/
theorem pieces_intercalate {mark : Char} {joint : String} (hjoint : joint.toList = [mark])
    {parts : List String} (hne : parts ≠ []) (hparts : ∀ part ∈ parts, mark ∉ part.toList) :
    pieces mark (joint.intercalate parts) = parts := by
  have hne' : parts.map String.toList ≠ [] := by simpa using hne
  rw [pieces, String.toList_intercalate, hjoint, piecesOf_intercalate hne' (by simpa using hparts),
    List.map_map]
  simp [Function.comp_def]

end TransitionNetwork.Text
