import TransitionNetwork.Proofs.CandidateSearch
import Mathlib.Algebra.BigOperators.Ring.Finset

/-! How often the search over readings begins the sentence again. Each restart gives up one beginning of a
choice vector: the beginning behind which no candidate is left, or the one that came to an error state. The
search goes through the beginnings from left to right, and through the longer ones before the one that they
extend, so no beginning is given up twice. `remaining` counts those that can still be given up; it does not
grow while the search advances, and each restart takes at least one away. This holds whatever the analyser
answers, so nothing has to be known about the analyser. -/

namespace TransitionNetwork.Analyser

/-! ### Beginnings of choice vectors -/

/-- How many ways there are to choose for the first positions, at least for one. -/
def beginnings : List (List Token) → Nat
  | [] => 0
  | candidates :: later => candidates.length * (1 + beginnings later)

theorem beginnings_eq_sum (positions : List (List Token)) :
    beginnings positions =
      ∑ last ∈ Finset.range positions.length, ((positions.take (last + 1)).map List.length).prod := by
  induction positions with
  | nil => rfl
  | cons candidates later ih =>
      rw [beginnings, ih, List.length_cons, Finset.sum_range_succ', Nat.mul_add, Finset.mul_sum,
        Nat.add_comm]
      simp

/-- The beginnings that can still be given up while the first choices are held and the candidates behind
them are tried from a number on. At each held position these are the beginnings with a later candidate
there, and the held beginning itself. -/
def remaining (first : Nat) : (held : Nat) → List (List Token) → List Nat → Nat
  | _, [], _ => 0
  | 0, candidates :: later, _ => (candidates.length - first) * (1 + beginnings later)
  | _ + 1, _ :: _, [] => 0
  | held + 1, candidates :: later, choice :: choices =>
    (candidates.length - (choice + 1)) * (1 + beginnings later) + 1 +
      remaining first held later choices

variable {positions : List (List Token)} {candidates : List Token} {choices : List Nat}
  {choice old first held position : Nat}

theorem remaining_zero (positions : List (List Token)) (choices : List Nat) :
    remaining 0 0 positions choices = beginnings positions := by
  cases positions with
  | nil => rfl
  | cons candidates later => rw [remaining, beginnings, Nat.sub_zero]

/-- To give up a held choice is to give up a beginning. -/
theorem remaining_lt (hheld : position < held) (hposition : position < positions.length)
    (hchoice : choices[position]? = some choice) :
    remaining (choice + 1) position positions choices < remaining first held positions choices := by
  induction positions generalizing position held choices with
  | nil => exact absurd hposition (Nat.not_lt_zero _)
  | cons candidates later ih =>
      obtain ⟨held, rfl⟩ := Nat.exists_eq_add_one_of_ne_zero (Nat.ne_zero_of_lt hheld)
      cases choices with
      | nil => cases hchoice
      | cons head choices =>
          cases position with
          | zero =>
              cases hchoice
              rw [remaining, remaining]
              omega
          | succ position =>
              have hrest := ih (Nat.lt_of_succ_lt_succ hheld) (Nat.lt_of_succ_lt_succ hposition) hchoice
              rw [remaining, remaining]
              omega

/-- A later candidate at a held position leaves no more than before. -/
theorem remaining_set_le (hheld : position < held) (hold : choices[position]? = some old)
    (hle : old ≤ choice) :
    remaining first held positions (choices.set position choice) ≤
      remaining first held positions choices := by
  induction positions generalizing position held choices with
  | nil => rw [remaining, remaining]
  | cons candidates later ih =>
      obtain ⟨held, rfl⟩ := Nat.exists_eq_add_one_of_ne_zero (Nat.ne_zero_of_lt hheld)
      cases choices with
      | nil => cases hold
      | cons head choices =>
          cases position with
          | zero =>
              cases hold
              rw [List.set_cons_zero, remaining, remaining]
              have hfewer : candidates.length - (choice + 1) ≤ candidates.length - (old + 1) := by
                omega
              have := Nat.mul_le_mul_right (1 + beginnings later) hfewer
              omega
          | succ position =>
              have hrest := ih (Nat.lt_of_succ_lt_succ hheld) hold
              rw [List.set_cons_succ, remaining, remaining]
              omega

/-- A candidate that is chosen takes with it the candidates before it. -/
theorem remaining_succ_le (hposition : positions[position]? = some candidates)
    (hlength : position < choices.length) (hfirst : first ≤ choice)
    (hchoice : choice < candidates.length) :
    remaining 0 (position + 1) positions (choices.set position choice) ≤
      remaining first position positions choices := by
  induction positions generalizing position choices with
  | nil => cases hposition
  | cons head later ih =>
      cases choices with
      | nil => cases hlength
      | cons old choices =>
          cases position with
          | zero =>
              cases hposition
              rw [List.set_cons_zero, remaining, remaining, remaining_zero]
              have hmore : candidates.length - (choice + 1) + 1 ≤ candidates.length - first := by
                omega
              calc (candidates.length - (choice + 1)) * (1 + beginnings later) + 1 + beginnings later
                  = (candidates.length - (choice + 1) + 1) * (1 + beginnings later) := by
                    rw [Nat.succ_mul, Nat.add_assoc]
                _ ≤ (candidates.length - first) * (1 + beginnings later) :=
                    Nat.mul_le_mul_right _ hmore
          | succ position =>
              have hrest := ih hposition (Nat.lt_of_succ_lt_succ hlength)
              rw [List.set_cons_succ, remaining, remaining]
              omega

/-! ### Steps of the search -/

/-- How often a search can still begin the sentence again. Up to the point to revise, the choices recorded
for it are held; behind it, those made on the way. -/
def restartsLeft (positions : List (List Token)) (choices : List Nat) (revise : Option Nat)
    (position : Nat) : Nat :=
  match revise with
  | none => remaining 0 position positions choices
  | some point =>
    if position ≤ point then remaining (choices[point]?.getD 0 + 1) point positions choices
    else remaining 0 position positions choices

theorem restartsLeft_of_le {point : Nat} (h : position ≤ point) :
    restartsLeft positions choices (some point) position =
      remaining (choices[point]?.getD 0 + 1) point positions choices := if_pos h

/-- The search stands before the point to revise, or goes on from the first candidate of its position. -/
theorem restartsLeft_cases (positions : List (List Token)) (revise : Option Nat) (position : Nat) :
    (∃ point, position < point ∧ revise = some point) ∨
      (∀ choices, restartsLeft positions choices revise position =
        remaining (firstCandidate revise position (choices[position]?.getD 0)) position positions
          choices) ∧
      ∀ choices, restartsLeft positions choices revise (position + 1) =
        remaining 0 (position + 1) positions choices := by
  cases revise with
  | none => exact .inr ⟨fun _ => rfl, fun _ => rfl⟩
  | some point =>
      rcases Nat.lt_or_ge position point with hless | hle
      · exact .inl ⟨point, hless, rfl⟩
      · refine .inr ⟨fun choices => ?_, fun choices => if_neg (by omega)⟩
        rcases Nat.eq_or_lt_of_le hle with rfl | hgreater
        · rw [firstCandidate_self, restartsLeft_of_le (Nat.le_refl _)]
        · rw [firstCandidate, if_neg (by omega), if_neg (by omega)]
          exact if_neg (by omega)

section Steps

variable {revise : Option Nat}

/-- A candidate that leads on gives nothing up. -/
theorem restartsLeft_advance (hlength : choices.length = positions.length)
    (hposition : positions[position]? = some candidates)
    (hfirst : firstCandidate revise position (choices[position]?.getD 0) ≤ choice)
    (hchoice : choice < candidates.length) :
    restartsLeft positions (choices.set position choice) revise (position + 1) ≤
      restartsLeft positions choices revise position := by
  have hinside : position < choices.length :=
    hlength ▸ (List.getElem?_eq_some_iff.mp hposition).1
  rcases restartsLeft_cases positions revise position with ⟨point, hless, rfl⟩ | ⟨hhere, hnext⟩
  · have hold := List.getElem?_eq_getElem hinside
    rw [hold, Option.getD_some, firstCandidate_of_lt hless] at hfirst
    rw [restartsLeft_of_le hless, restartsLeft_of_le (Nat.le_of_lt hless),
      List.getElem?_set_ne (Nat.ne_of_lt hless)]
    exact remaining_set_le hless hold hfirst
  · rw [hhere, hnext]
    exact remaining_succ_le hposition hinside hfirst hchoice

/-- When no candidate is left, the beginning up to the choice before is given up. -/
theorem restartsLeft_retreat (revise : Option Nat) {previous : Nat}
    (hlength : choices.length = positions.length) (hprevious : previous < positions.length) :
    restartsLeft positions choices (some previous) 0 <
      restartsLeft positions choices revise (previous + 1) := by
  have hold := List.getElem?_eq_getElem (hlength ▸ hprevious)
  have hback : ∀ {first held : Nat}, previous < held →
      restartsLeft positions choices (some previous) 0 < remaining first held positions choices := by
    intro first held hheld
    rw [restartsLeft_of_le (Nat.zero_le _), hold, Option.getD_some]
    exact remaining_lt hheld hprevious hold
  rcases restartsLeft_cases positions revise (previous + 1) with ⟨point, hless, rfl⟩ | ⟨hhere, -⟩
  · rw [restartsLeft_of_le (Nat.le_of_lt hless)]
    exact hback (by omega)
  · rw [hhere]
    exact hback (Nat.lt_succ_self _)

/-- When a candidate comes to an error state, the beginning that ends with it is given up. -/
theorem restartsLeft_reconsider (hlength : choices.length = positions.length)
    (hposition : positions[position]? = some candidates)
    (hfirst : firstCandidate revise position (choices[position]?.getD 0) ≤ choice)
    (hchoice : choice < candidates.length) :
    restartsLeft positions (choices.set position choice) (some position) 0 <
      restartsLeft positions choices revise position := by
  have hinside := (List.getElem?_eq_some_iff.mp hposition).1
  exact Nat.lt_of_lt_of_le
    (restartsLeft_retreat revise (List.length_set.trans hlength) hinside)
    (restartsLeft_advance hlength hposition hfirst hchoice)

end Steps

/-! ### The whole search -/

variable {analyser after : Analyser} {revise : Option Nat} {budget : Nat}

theorem feedFirst_bounds {tokens : List Token}
    (h : analyser.feedFirst first tokens = (some choice, after)) :
    first ≤ choice ∧ choice < first + tokens.length := by
  induction tokens generalizing analyser first with
  | nil => cases h
  | cons token tokens ih =>
      rw [feedFirst] at h
      rw [List.length_cons]
      split at h
      · cases h
        omega
      · have := ih h
        omega

/-- A candidate that is consumed is one of those that were tried. -/
theorem tryPosition_bounds
    (h : analyser.tryPosition candidates first = (.advance choice, after) ∨
      analyser.tryPosition candidates first = (.reconsider choice, after)) :
    first ≤ choice ∧ choice < candidates.length := by
  have hfed : analyser.feedFirst first (candidates.drop first) = (some choice, after) := by
    unfold tryPosition at h
    split at h
    · rcases h with h | h <;> cases h
    · next heq =>
      rw [heq]
      split at h
      · rcases h with h | h <;> cases h
        rfl
      · rcases h with h | h <;> cases h
        rfl
  have hbounds := feedFirst_bounds hfed
  rw [List.length_drop] at hbounds
  omega

/-- The search ends, and for each restart it gives up one of the beginnings that are left. -/
theorem searches_of_restartsLeft_le (hlength : choices.length = positions.length)
    (hbudget : restartsLeft positions choices revise position ≤ budget) :
    ∃ restarts result, Searches positions analyser choices revise position restarts result ∧
      restarts ≤ budget := by
  fun_induction search positions analyser choices revise budget position with
  | case1 analyser choices revise budget position hinside first choice after htry ih =>
      have hposition := List.getElem?_eq_getElem hinside
      obtain ⟨hfirst, hchoice⟩ := tryPosition_bounds (.inl htry)
      have hnext := restartsLeft_advance hlength hposition hfirst hchoice
      obtain ⟨restarts, result, hsearch, hle⟩ :=
        ih (List.length_set.trans hlength) (Nat.le_trans hnext hbudget)
      exact ⟨restarts, result, .advance hposition htry hsearch, hle⟩
  | case2 analyser choices revise budget after _ hinside first htry =>
      exact ⟨0, _, .exhaust (List.getElem?_eq_getElem hinside) htry, Nat.zero_le _⟩
  | case3 analyser choices revise after previous _ hinside first htry =>
      have hless := restartsLeft_retreat revise hlength (Nat.lt_of_succ_lt hinside)
      exact absurd (Nat.lt_of_lt_of_le hless hbudget) (Nat.not_lt_zero _)
  | case4 analyser choices revise after previous budget _ hinside first htry ih =>
      have hless := restartsLeft_retreat revise hlength (Nat.lt_of_succ_lt hinside)
      obtain ⟨restarts, result, hsearch, hle⟩ :=
        ih hlength (Nat.le_of_lt_succ (Nat.lt_of_lt_of_le hless hbudget))
      exact ⟨restarts + 1, result, .retreat (List.getElem?_eq_getElem hinside) htry hsearch,
        Nat.succ_le_succ hle⟩
  | case5 analyser choices revise position hinside first choice after htry =>
      obtain ⟨hfirst, hchoice⟩ := tryPosition_bounds (.inr htry)
      have hless := restartsLeft_reconsider hlength (List.getElem?_eq_getElem hinside) hfirst hchoice
      exact absurd (Nat.lt_of_lt_of_le hless hbudget) (Nat.not_lt_zero _)
  | case6 analyser choices revise position hinside first choice after htry budget ih =>
      have hposition := List.getElem?_eq_getElem hinside
      obtain ⟨hfirst, hchoice⟩ := tryPosition_bounds (.inr htry)
      have hless := restartsLeft_reconsider hlength hposition hfirst hchoice
      obtain ⟨restarts, result, hsearch, hle⟩ := ih (List.length_set.trans hlength)
        (Nat.le_of_lt_succ (Nat.lt_of_lt_of_le hless hbudget))
      exact ⟨restarts + 1, result, .reconsider hposition htry hsearch, Nat.succ_le_succ hle⟩
  | case7 analyser choices revise budget position hbeyond =>
      exact ⟨0, _, .settle (Nat.not_lt.mp hbeyond), Nat.zero_le _⟩

/-- Without a bound, the search makes no more restarts than there are beginnings of choice vectors. -/
theorem searches_beginnings (analyser : Analyser) (positions : List (List Token)) :
    ∃ restarts result, Searches positions analyser.reset (List.replicate positions.length 0) none 0
      restarts result ∧ restarts ≤ beginnings positions := by
  refine searches_of_restartsLeft_le List.length_replicate (Nat.le_of_eq ?_)
  exact remaining_zero positions _

/-- The search of any analyser ends without its budget. The restarts it makes are at most twice as many as
there are beginnings of choice vectors, `n₁ + n₁ n₂ + … + n₁ ⋯ nₖ` for candidate lists of these lengths, so
with a budget of that size there is always a verdict. -/
theorem analyseCandidates_restarts_le (analyser : Analyser) (positions : List (List Token)) :
    ∃ restarts result, Searches positions analyser.reset (List.replicate positions.length 0) none 0
        restarts result ∧
      restarts ≤ 2 * ∑ last ∈ Finset.range positions.length,
        ((positions.take (last + 1)).map List.length).prod ∧
      (2 * ∑ last ∈ Finset.range positions.length,
          ((positions.take (last + 1)).map List.length).prod ≤ analyser.limits.maxRestarts →
        analyser.analyseCandidates positions = (.ok result.1, result.2)) := by
  obtain ⟨restarts, result, hsearch, hle⟩ := searches_beginnings analyser positions
  rw [← beginnings_eq_sum]
  refine ⟨restarts, result, hsearch, by omega, fun hbudget => ?_⟩
  exact (analyseCandidates_of_searches hsearch).2 (by omega)

/-- One word with two readings and one with a single reading. -/
def doubtful : List (List Token) :=
  [[⟨"a", "one", []⟩, ⟨"c", "one", []⟩], [⟨"d", "two", []⟩]]

/-- Two beginnings of length one and two of length two: a budget of eight restarts is enough. -/
theorem doubtful_restarts_le :
    ∃ compiled, couple.compile = .ok compiled ∧
      2 * ∑ last ∈ Finset.range doubtful.length,
        ((doubtful.take (last + 1)).map List.length).prod = 8 ∧
      ∃ restarts ≤ 8, ∃ result,
        Searches doubtful (Analyser.start compiled.network { maxRestarts := 8 }).reset [0, 0] none 0
          restarts result ∧
        (Analyser.start compiled.network { maxRestarts := 8 }).analyseCandidates doubtful =
          (.ok result.1, result.2) := by
  have hcount : 2 * ∑ last ∈ Finset.range doubtful.length,
      ((doubtful.take (last + 1)).map List.length).prod = 8 := by decide
  have hcompiles : (match couple.compile with
      | .ok _ => true
      | .error _ => false) = true := by cbv
  split at hcompiles
  · next compiled hcompile =>
    obtain ⟨restarts, result, hsearch, hle, hverdict⟩ := analyseCandidates_restarts_le
      (Analyser.start compiled.network { maxRestarts := 8 }) doubtful
    exact ⟨compiled, hcompile, hcount, restarts, hcount ▸ hle, result, hsearch,
      hverdict (Nat.le_of_eq hcount)⟩
  · cases hcompiles

end TransitionNetwork.Analyser
