import TransitionNetwork.Proofs.ChoiceVectors

/-! What the search over readings finds. The search works through the choice vectors in lexicographic
order: it begins the sentence again for each choice that it revises, but the choices before that one are
replayed, so it comes back to where they led. Without a bound on the restarts it ends at the least viable
vector, or without one. -/

namespace TransitionNetwork.Analyser

/-! ### One position -/

variable {analyser after : Analyser} {candidates : List Token} {positions : List (List Token)}
  {choice : Nat} {choices : List Nat} {tokens : List Token} {network : Network}
  {limits : AnalyserLimits} {reached : Analyser}

/-- Feeding candidates comes to the first that is consumed, as if those before it had not been
tried. -/
theorem feedFirst_cases (hready : Ready network limits analyser) (halike : Alike analyser reached)
    (candidates : List Token) (first : Nat) :
    (∃ after, analyser.feedFirst first (candidates.drop first) = (none, after) ∧
      Ready network limits after ∧ reached.NoneLeads candidates first candidates.length) ∨
    ∃ choice token after, analyser.feedFirst first (candidates.drop first) = (some choice, after) ∧
      Ready network limits after ∧ first ≤ choice ∧ reached.NoneLeads candidates first choice ∧
      candidates[choice]? = some token ∧ (reached.feed token).1 = true ∧
      Same after (reached.feed token).2 := by
  induction hcount : candidates.length - first generalizing analyser first with
  | zero =>
      left
      rw [List.drop_eq_nil_of_le (Nat.le_of_sub_eq_zero hcount)]
      refine ⟨analyser, rfl, hready, fun choice hle hlt => ?_⟩
      omega
  | succ count ih =>
      have hlt : first < candidates.length := by omega
      have hcandidate := List.getElem?_eq_getElem hlt
      obtain ⟨hanswer, hsame⟩ := halike.feed candidates[first]
      have hnext := hready.feed candidates[first]
      rw [List.drop_eq_getElem_cons hlt, feedFirst]
      rcases hfeed : analyser.feed candidates[first] with ⟨consumed, next⟩
      rw [hfeed] at hanswer hsame hnext
      cases consumed with
      | true =>
          right
          refine ⟨first, candidates[first], next, rfl, hnext, Nat.le_refl _, ?_, hcandidate,
            hanswer.symm, hsame⟩
          intro choice hle hless
          omega
      | false =>
          have hskip : ∀ after, ¬ reached.Leads candidates first after := fun _ =>
            not_leads_of_feed hcandidate (.inl hanswer.symm)
          have halike' := (alike_of_rejected hready hfeed).trans halike
          rcases ih hnext halike' (first + 1) (by omega) with
            ⟨after, heq, hafter, hnone⟩ |
              ⟨choice, token, after, heq, hafter, hle, hnone, htoken, hconsumed, hsame'⟩
          · exact .inl ⟨after, heq, hafter, hnone.cons hskip⟩
          · exact .inr ⟨choice, token, after, heq, hafter, by omega, hnone.cons hskip, htoken,
              hconsumed, hsame'⟩

/-- What trying the candidates of a position comes to. -/
theorem tryPosition_cases (hready : Ready network limits analyser)
    (halike : Alike analyser reached) (candidates : List Token) (first : Nat) :
    ∃ progress after, analyser.tryPosition candidates first = (progress, after) ∧
      Ready network limits after ∧
      match progress with
      | .advance choice => first ≤ choice ∧ reached.NoneLeads candidates first choice ∧
          ∃ next, reached.Leads candidates choice next ∧ Same after next
      | .retreat => reached.NoneLeads candidates first candidates.length
      | .reconsider choice => first ≤ choice ∧ choice < candidates.length ∧
          reached.NoneLeads candidates first (choice + 1) := by
  rw [tryPosition]
  rcases feedFirst_cases hready halike candidates first with
    ⟨after, heq, hafter, hnone⟩ |
      ⟨choice, token, after, heq, hafter, hle, hnone, htoken, hconsumed, hsame⟩
  · rw [heq]
    exact ⟨.retreat, after, rfl, hafter, hnone⟩
  · rw [heq]
    dsimp only
    by_cases herror : after.session.atError = true
    · rw [if_pos herror]
      rw [hsame.atError_eq] at herror
      refine ⟨_, after, rfl, hafter, hle, (List.getElem?_eq_some_iff.mp htoken).1, ?_⟩
      intro index hindex hless
      rcases Nat.eq_or_lt_of_le (Nat.le_of_lt_succ hless) with rfl | hbefore
      · exact fun _ => not_leads_of_feed htoken (.inr herror)
      · exact hnone index hindex hbefore
    · rw [if_neg herror]
      rw [hsame.atError_eq] at herror
      refine ⟨_, after, rfl, hafter, hle, hnone, (reached.feed token).2, ?_, hsame⟩
      exact ⟨token, htoken, Prod.ext hconsumed rfl, Bool.eq_false_iff.mpr herror⟩

/-! ### The search without a bound -/

/-- The search from a position on, however often it begins the sentence again: how often it does, and
what it ends with. -/
inductive Searches (positions : List (List Token)) :
    Analyser → List Nat → Option Nat → Nat → Nat → Bool × Analyser → Prop
  | settle {analyser : Analyser} {choices : List Nat} {revise : Option Nat} {position : Nat}
      (hposition : positions.length ≤ position) :
      Searches positions analyser choices revise position 0 analyser.settle
  | advance {analyser after : Analyser} {choices : List Nat} {revise : Option Nat}
      {position choice restarts : Nat} {candidates : List Token} {result : Bool × Analyser}
      (hposition : positions[position]? = some candidates)
      (htry : analyser.tryPosition candidates
        (firstCandidate revise position (choices[position]?.getD 0)) = (.advance choice, after))
      (h : Searches positions after (choices.set position choice) revise (position + 1) restarts
        result) :
      Searches positions analyser choices revise position restarts result
  | exhaust {analyser after : Analyser} {choices : List Nat} {revise : Option Nat}
      {candidates : List Token} (hposition : positions[0]? = some candidates)
      (htry : analyser.tryPosition candidates
        (firstCandidate revise 0 (choices[0]?.getD 0)) = (.retreat, after)) :
      Searches positions analyser choices revise 0 0 (false, after)
  | retreat {analyser after : Analyser} {choices : List Nat} {revise : Option Nat}
      {previous restarts : Nat} {candidates : List Token} {result : Bool × Analyser}
      (hposition : positions[previous + 1]? = some candidates)
      (htry : analyser.tryPosition candidates
        (firstCandidate revise (previous + 1) (choices[previous + 1]?.getD 0)) = (.retreat, after))
      (h : Searches positions after.reset choices (some previous) 0 restarts result) :
      Searches positions analyser choices revise (previous + 1) (restarts + 1) result
  | reconsider {analyser after : Analyser} {choices : List Nat} {revise : Option Nat}
      {position choice restarts : Nat} {candidates : List Token} {result : Bool × Analyser}
      (hposition : positions[position]? = some candidates)
      (htry : analyser.tryPosition candidates
        (firstCandidate revise position (choices[position]?.getD 0)) = (.reconsider choice, after))
      (h : Searches positions after.reset (choices.set position choice) (some position) 0 restarts
        result) :
      Searches positions analyser choices revise position (restarts + 1) result

/-- A bounded search has a verdict exactly if the bound allows all restarts. -/
theorem Searches.search_eq {revise : Option Nat} {position restarts : Nat}
    {result : Bool × Analyser}
    (h : Searches positions analyser choices revise position restarts result) (budget : Nat) :
    (restarts ≤ budget → search positions analyser choices revise budget position =
      (some result.1, result.2)) ∧
    (budget < restarts → (search positions analyser choices revise budget position).1 = none) := by
  induction h generalizing budget with
  | settle hposition =>
      rw [search, dif_neg (Nat.not_lt.mpr hposition)]
      exact ⟨fun _ => rfl, fun hless => absurd hless (Nat.not_lt_zero budget)⟩
  | advance hposition htry _ ih =>
      obtain ⟨hinside, rfl⟩ := List.getElem?_eq_some_iff.mp hposition
      rw [search, dif_pos hinside]
      dsimp only
      rw [htry]
      exact ih budget
  | exhaust hposition htry =>
      obtain ⟨hinside, rfl⟩ := List.getElem?_eq_some_iff.mp hposition
      rw [search, dif_pos hinside]
      dsimp only
      rw [htry]
      exact ⟨fun _ => rfl, fun hless => absurd hless (Nat.not_lt_zero budget)⟩
  | retreat hposition htry _ ih =>
      obtain ⟨hinside, rfl⟩ := List.getElem?_eq_some_iff.mp hposition
      rw [search, dif_pos hinside]
      dsimp only
      rw [htry]
      cases budget with
      | zero => exact ⟨fun hle => absurd hle (Nat.not_succ_le_zero _), fun _ => rfl⟩
      | succ budget =>
          exact ⟨fun hle => (ih budget).1 (Nat.le_of_succ_le_succ hle),
            fun hless => (ih budget).2 (Nat.lt_of_succ_lt_succ hless)⟩
  | reconsider hposition htry _ ih =>
      obtain ⟨hinside, rfl⟩ := List.getElem?_eq_some_iff.mp hposition
      rw [search, dif_pos hinside]
      dsimp only
      rw [htry]
      cases budget with
      | zero => exact ⟨fun hle => absurd hle (Nat.not_succ_le_zero _), fun _ => rfl⟩
      | succ budget =>
          exact ⟨fun hle => (ih budget).1 (Nat.le_of_succ_le_succ hle),
            fun hless => (ih budget).2 (Nat.lt_of_succ_lt_succ hless)⟩

/-- There is one way for the search to go. -/
theorem Searches.unique {revise : Option Nat} {position restarts restarts' : Nat}
    {result result' : Bool × Analyser}
    (h : Searches positions analyser choices revise position restarts result)
    (h' : Searches positions analyser choices revise position restarts' result') :
    restarts = restarts' ∧ result = result' := by
  rcases Nat.lt_trichotomy restarts restarts' with hless | rfl | hless
  · have hnone := (h'.search_eq restarts).2 hless
    rw [(h.search_eq restarts).1 (Nat.le_refl _)] at hnone
    cases hnone
  · have hsome := (h'.search_eq restarts).1 (Nat.le_refl _)
    rw [(h.search_eq restarts).1 (Nat.le_refl _)] at hsome
    obtain ⟨hverdict, hfinal⟩ := Prod.mk.inj hsome
    exact ⟨rfl, Prod.ext (Option.some.inj hverdict) hfinal⟩
  · have hnone := (h.search_eq restarts').2 hless
    rw [(h'.search_eq restarts').1 (Nat.le_refl _)] at hnone
    cases hnone

/-- The search comes to an end with this result. -/
def Ends (positions : List (List Token)) (analyser : Analyser) (choices : List Nat)
    (revise : Option Nat) (position : Nat) (result : Bool × Analyser) : Prop :=
  ∃ restarts, Searches positions analyser choices revise position restarts result

/-! ### One step of the search

The positions are given as those before and those behind the one at hand. -/

section Steps

variable {before later : List (List Token)} {chosen pending : List Nat} {old : Nat}
  {revise : Option Nat} {result : Bool × Analyser}

theorem getElem?_position (before later : List (List Token)) (candidates : List Token) :
    (before ++ candidates :: later)[before.length]? = some candidates := by
  rw [List.getElem?_append_right (Nat.le_refl _), Nat.sub_self, List.getElem?_cons_zero]

theorem getElem?_choice (hchosen : chosen.length = before.length) (old : Nat)
    (pending : List Nat) :
    (chosen ++ old :: pending)[before.length]?.getD 0 = old := by
  rw [← hchosen, List.getElem?_append_right (Nat.le_refl _), Nat.sub_self, List.getElem?_cons_zero,
    Option.getD_some]

theorem set_choice (hchosen : chosen.length = before.length) :
    (chosen ++ old :: pending).set before.length choice = chosen ++ choice :: pending := by
  rw [← hchosen, List.set_append_right _ _ (Nat.le_refl _), Nat.sub_self, List.set_cons_zero]

/-- The search goes on behind a candidate that leads on. -/
theorem Ends.advance (hpositions : positions = before ++ candidates :: later)
    (hchosen : chosen.length = before.length)
    (htry : analyser.tryPosition candidates (firstCandidate revise before.length old) =
      (.advance choice, after))
    (h : Ends positions after (chosen ++ choice :: pending) revise (before.length + 1) result) :
    Ends positions analyser (chosen ++ old :: pending) revise before.length result := by
  obtain ⟨restarts, hsearch⟩ := h
  have hposition := getElem?_position before later candidates
  rw [← hpositions] at hposition
  rw [← getElem?_choice hchosen old pending] at htry
  rw [← set_choice hchosen] at hsearch
  exact ⟨restarts, .advance hposition htry hsearch⟩

/-- A candidate that leads to an error state is revised. -/
theorem Ends.reconsider (hpositions : positions = before ++ candidates :: later)
    (hchosen : chosen.length = before.length)
    (htry : analyser.tryPosition candidates (firstCandidate revise before.length old) =
      (.reconsider choice, after))
    (h : Ends positions after.reset (chosen ++ choice :: pending) (some before.length) 0 result) :
    Ends positions analyser (chosen ++ old :: pending) revise before.length result := by
  obtain ⟨restarts, hsearch⟩ := h
  have hposition := getElem?_position before later candidates
  rw [← hpositions] at hposition
  rw [← getElem?_choice hchosen old pending] at htry
  rw [← set_choice hchosen] at hsearch
  exact ⟨restarts + 1, .reconsider hposition htry hsearch⟩

/-- When no candidate is left, the choice before is revised. -/
theorem Ends.retreat (hpositions : positions = before ++ candidates :: later) {previous : Nat}
    (hprevious : before.length = previous + 1) (hchosen : chosen.length = before.length)
    (htry : analyser.tryPosition candidates (firstCandidate revise before.length old) =
      (.retreat, after))
    (h : Ends positions after.reset (chosen ++ old :: pending) (some previous) 0 result) :
    Ends positions analyser (chosen ++ old :: pending) revise before.length result := by
  obtain ⟨restarts, hsearch⟩ := h
  have hposition := getElem?_position before later candidates
  rw [← hpositions] at hposition
  rw [← getElem?_choice hchosen old pending] at htry
  rw [hprevious] at hposition htry ⊢
  exact ⟨restarts + 1, .retreat hposition htry hsearch⟩

/-- When no candidate is left at the first position, the search has failed. -/
theorem Ends.exhaust (hpositions : positions = candidates :: later)
    (htry : analyser.tryPosition candidates (firstCandidate revise 0 old) = (.retreat, after)) :
    Ends positions analyser (old :: pending) revise 0 (false, after) := by
  refine ⟨0, .exhaust ?_ htry⟩
  rw [hpositions, List.getElem?_cons_zero]

theorem firstCandidate_of_lt {point position : Nat} (h : position < point) :
    firstCandidate (some point) position choice = choice := by
  rw [firstCandidate, if_neg (Nat.ne_of_lt h), if_pos h]

theorem firstCandidate_self (point : Nat) :
    firstCandidate (some point) point choice = choice + 1 := if_pos rfl

theorem tryPosition_of_leads (h : analyser.Leads candidates choice after) :
    analyser.tryPosition candidates choice = (.advance choice, after) := by
  obtain ⟨token, htoken, hfeed, herror⟩ := h
  obtain ⟨hlt, rfl⟩ := List.getElem?_eq_some_iff.mp htoken
  rw [tryPosition, List.drop_eq_getElem_cons hlt, feedFirst, hfeed]
  dsimp only
  rw [if_neg (Bool.eq_false_iff.mp herror)]

/-- Choices before the point that is revised lead again where they led before. -/
theorem Ends.replay {replayed : List (List Token)} {kept : List Nat}
    (hpositions : positions = before ++ (replayed ++ later))
    (hchosen : chosen.length = before.length) (hpick : pick replayed kept = some tokens)
    (hfollow : analyser.follow tokens = some after) {point : Nat}
    (hpoint : before.length + replayed.length = point)
    (h : Ends positions after (chosen ++ (kept ++ pending)) (some point) point result) :
    Ends positions analyser (chosen ++ (kept ++ pending)) (some point) before.length result := by
  induction replayed generalizing before chosen kept tokens analyser with
  | nil =>
      cases kept with
      | nil =>
          cases hpick
          cases hfollow
          cases hpoint
          exact h
      | cons choice kept => cases hpick
  | cons candidates replayed ih =>
      cases kept with
      | nil => cases hpick
      | cons choice kept =>
          obtain ⟨token, others, htoken, hothers, rfl⟩ := pick_cons_iff.mp hpick
          obtain ⟨next, hfeed, herror, hnext⟩ := follow_cons_iff.mp hfollow
          rw [List.length_cons] at hpoint
          have hfirst : firstCandidate (some point) before.length choice = choice :=
            firstCandidate_of_lt (by omega)
          have htry : analyser.tryPosition candidates
              (firstCandidate (some point) before.length choice) = (.advance choice, next) := by
            rw [hfirst]
            exact tryPosition_of_leads ⟨token, htoken, hfeed, herror⟩
          have hpositions' : positions = before ++ [candidates] ++ (replayed ++ later) := by
            rw [hpositions, List.append_assoc]
            rfl
          have hchosen' : (chosen ++ [choice]).length = (before ++ [candidates]).length := by
            rw [List.length_append, List.length_append, hchosen]
            rfl
          have hpoint' : (before ++ [candidates]).length + replayed.length = point := by
            rw [List.length_append, List.length_singleton]
            omega
          have hchoices : chosen ++ (choice :: kept ++ pending) =
              chosen ++ [choice] ++ (kept ++ pending) := by
            rw [List.append_assoc]
            rfl
          rw [hchoices] at h
          have hrest := ih hpositions' hchosen' hothers hnext hpoint' h
          rw [List.append_assoc, List.length_append] at hrest
          exact Ends.advance hpositions hchosen htry hrest

end Steps

/-! ### Working through the vectors -/

/-- What the search behind some choices comes to. Either it ends at the least vector that continues
them, or there is none; then the search has failed, or the last of the choices is revised. -/
inductive Outcome (start : Analyser) (positions : List (List Token)) (chosen : List Nat)
    (reached : Analyser) (rest : List (List Token)) (first : Nat)
    (ends : Bool × Analyser → Prop) : Prop
  | found {choices : List Nat} {tokens : List Token} {final current : Analyser}
      (hleast : reached.LeastFrom rest first choices) (hpick : pick rest choices = some tokens)
      (hfollow : reached.follow tokens = some final) (hsame : Same current final)
      (hends : ends current.settle)
  | failed (hnone : ∀ choices, StartsFrom first choices → ¬ reached.ViableFrom rest choices)
      (hends : chosen = [] → ∃ after, ends (false, after))
      (hback : ∀ previous, chosen.length = previous + 1 → ∃ pending : List Nat,
        pending.length = rest.length ∧ ∀ result,
          Ends positions start (chosen ++ pending) (some previous) 0 result → ends result)

variable {start : Analyser} {chosen : List Nat} {rest later : List (List Token)} {first : Nat}

/-- Candidates that no viable vector begins with can be left out. -/
theorem Outcome.skip {bound : Nat} {ends ends' : Bool × Analyser → Prop}
    (h : Outcome start positions chosen reached rest bound ends') (hle : first ≤ bound)
    (hskip : ∀ choices, reached.ViableFrom rest choices → StartsFrom first choices →
      StartsFrom bound choices)
    (hends : ∀ result, ends' result → ends result) :
    Outcome start positions chosen reached rest first ends := by
  cases h with
  | found hleast hpick hfollow hsame hfound =>
      refine .found ⟨hleast.viable, ?_, ?_⟩ hpick hfollow hsame (hends _ hfound)
      · exact fun choice hchoice => Nat.le_trans hle (hleast.starts choice hchoice)
      · exact fun other hviable hstarts => hleast.least other hviable (hskip other hviable hstarts)
  | failed hnone hfailed hback =>
      refine .failed ?_ ?_ ?_
      · exact fun choices hstarts hviable =>
          hnone choices (hskip choices hviable hstarts) hviable
      · intro hchosen
        obtain ⟨after, hafter⟩ := hfailed hchosen
        exact ⟨after, hends _ hafter⟩
      · intro previous hprevious
        obtain ⟨pending, hlength, hpending⟩ := hback previous hprevious
        exact ⟨pending, hlength, fun result hresult => hends _ (hpending result hresult)⟩

theorem Ready.follow (h : Ready network limits analyser)
    (hfollow : analyser.follow tokens = some after) : Ready network limits after := by
  induction tokens generalizing analyser with
  | nil =>
      cases hfollow
      exact h
  | cons token tokens ih =>
      obtain ⟨next, hfeed, -, hrest⟩ := follow_cons_iff.mp hfollow
      have hnext := h.feed token
      rw [hfeed] at hnext
      exact ih hnext hrest

section Positions

variable {before : List (List Token)} {pending : List Nat} {old : Nat} {revise : Option Nat}

/-- From the beginning of a sentence, the choices for some positions lead to an analyser. -/
def Arrives (network : Network) (limits : AnalyserLimits) (before : List (List Token))
    (chosen : List Nat) (reached : Analyser) : Prop :=
  ∃ taken, pick before chosen = some taken ∧
    (Analyser.start network limits).follow taken = some reached

theorem Arrives.length_eq (h : Arrives network limits before chosen reached) :
    chosen.length = before.length := by
  obtain ⟨taken, hpick, -⟩ := h
  exact length_of_pick hpick

theorem Arrives.ready (h : Arrives network limits before chosen reached) :
    Ready network limits reached := by
  obtain ⟨taken, -, hfollow⟩ := h
  exact (ready_start network limits).follow hfollow

theorem Arrives.concat (h : Arrives network limits before chosen reached)
    (hleads : reached.Leads candidates choice after) :
    Arrives network limits (before ++ [candidates]) (chosen ++ [choice]) after := by
  obtain ⟨taken, hpick, hfollow⟩ := h
  obtain ⟨token, htoken, hfeed, herror⟩ := hleads
  have hpick' : pick [candidates] [choice] = some [token] :=
    pick_cons_iff.mpr ⟨token, [], htoken, rfl, rfl⟩
  have hfollow' : reached.follow [token] = some after :=
    follow_cons_iff.mpr ⟨after, hfeed, herror, rfl⟩
  exact ⟨taken ++ [token], pick_append hpick hpick', follow_append taken hfollow hfollow'⟩

/-- A search that begins the sentence again to revise the choice behind some others comes back to
where those led. -/
theorem Arrives.replay (h : Arrives network limits before chosen reached)
    (hpositions : positions = before ++ rest) {result : Bool × Analyser}
    (hends : Ends positions reached (chosen ++ pending) (some before.length) before.length result) :
    Ends positions (Analyser.start network limits) (chosen ++ pending) (some before.length) 0
      result := by
  obtain ⟨taken, hpick, hfollow⟩ := h
  have hnil : ([] : List Nat).length = ([] : List (List Token)).length := rfl
  exact Ends.replay hpositions hnil hpick hfollow (Nat.zero_add _) hends

/-- Behind a position every choice starts with the first candidate. -/
def Afresh (revise : Option Nat) (position : Nat) : Prop :=
  ∀ later choice, position < later → firstCandidate revise later choice = 0

theorem afresh_self (point : Nat) : Afresh (some point) point := by
  intro later choice hless
  rw [firstCandidate, if_neg (Nat.ne_of_gt hless), if_neg (Nat.lt_asymm hless)]

/-- No candidate is left: the search has failed, or the choice before is revised. -/
theorem outcome_retreat (hpositions : positions = before ++ candidates :: later)
    (harrives : Arrives network limits before chosen reached)
    (hpending : pending.length = later.length)
    (htry : analyser.tryPosition candidates (firstCandidate revise before.length old) =
      (.retreat, after)) (hafter : Ready network limits after)
    (hnone : reached.NoneLeads candidates (firstCandidate revise before.length old)
      candidates.length) :
    Outcome (Analyser.start network limits) positions chosen reached (candidates :: later)
      (firstCandidate revise before.length old)
      (Ends positions analyser (chosen ++ old :: pending) revise before.length) := by
  have hchosen := harrives.length_eq
  refine .failed (fun choices => hnone.not_viableFrom) ?_ ?_
  · rintro rfl
    cases before with
    | nil => exact ⟨after, .exhaust hpositions htry⟩
    | cons _ _ => cases hchosen
  · intro previous hprevious
    refine ⟨old :: pending, congrArg Nat.succ hpending, fun result hresult => ?_⟩
    rw [← hafter.reset_eq] at hresult
    exact .retreat hpositions (hchosen.symm.trans hprevious) hchosen htry hresult

/-- A candidate leads on: the search ends behind it, or comes back to the next candidate. -/
theorem outcome_advance (hpositions : positions = before ++ candidates :: later)
    (harrives : Arrives network limits before chosen reached)
    (htry : analyser.tryPosition candidates (firstCandidate revise before.length old) =
      (.advance choice, after))
    (hle : firstCandidate revise before.length old ≤ choice)
    (hnone : reached.NoneLeads candidates (firstCandidate revise before.length old) choice)
    {next : Analyser} (hleads : reached.Leads candidates choice next)
    (hbehind : Outcome (Analyser.start network limits) positions (chosen ++ [choice]) next later 0
      (Ends positions after (chosen ++ [choice] ++ pending) revise (before.length + 1)))
    (hnext : ∀ {pending : List Nat}, pending.length = later.length →
      Outcome (Analyser.start network limits) positions chosen reached (candidates :: later)
        (choice + 1)
        (Ends positions reached (chosen ++ choice :: pending) (some before.length) before.length)) :
    Outcome (Analyser.start network limits) positions chosen reached (candidates :: later)
      (firstCandidate revise before.length old)
      (Ends positions analyser (chosen ++ old :: pending) revise before.length) := by
  have hchosen := harrives.length_eq
  have hadvance : ∀ {result : Bool × Analyser}, Ends positions after
      (chosen ++ [choice] ++ pending) revise (before.length + 1) result →
      Ends positions analyser (chosen ++ old :: pending) revise before.length result := by
    intro result h
    rw [← List.append_cons] at h
    exact .advance hpositions hchosen htry h
  cases hbehind with
  | found hleast hpick hfollow hsettled hends =>
      obtain ⟨token, htoken, hfeed, herror⟩ := hleads
      exact .found (hleast.cons hle hnone ⟨token, htoken, hfeed, herror⟩)
        (pick_cons_iff.mpr ⟨token, _, htoken, hpick, rfl⟩)
        (follow_cons_iff.mpr ⟨next, hfeed, herror, hfollow⟩) hsettled (hadvance hends)
  | failed hfailed _ hback =>
      have hlength : (chosen ++ [choice]).length = before.length + 1 := by
        rw [List.length_append, hchosen, List.length_singleton]
      obtain ⟨pending', hpending', hresume⟩ := hback before.length hlength
      refine (hnext hpending').skip (Nat.le_succ_of_le hle) ?_ ?_
      · intro choices hviable hstarts
        refine hleads.startsFrom_succ (fun others => ?_) hviable (hnone.startsFrom hviable hstarts)
        exact hfailed others fun _ _ => Nat.zero_le _
      · intro result hresult
        have hagain := harrives.replay hpositions hresult
        rw [List.append_cons] at hagain
        exact hadvance (hresume result hagain)

/-- From some choices on: each candidate in turn, with all that can follow it. The induction is on the
candidates that are left; `hbehind` is what the search comes to behind each of them. -/
theorem outcome_position (hpositions : positions = before ++ candidates :: later)
    (harrives : Arrives network limits before chosen reached)
    (hbehind : ∀ {choice : Nat} {next analyser : Analyser} {pending : List Nat}
      {revise : Option Nat}, reached.Leads candidates choice next →
      Ready network limits analyser → Same analyser next → pending.length = later.length →
      Afresh revise before.length →
      Outcome (Analyser.start network limits) positions (chosen ++ [choice]) next later 0
        (Ends positions analyser (chosen ++ [choice] ++ pending) revise (before.length + 1)))
    (hready : Ready network limits analyser) (hsame : Same analyser reached)
    (hpending : pending.length = later.length) (hafresh : Afresh revise before.length) :
    Outcome (Analyser.start network limits) positions chosen reached (candidates :: later)
      (firstCandidate revise before.length old)
      (Ends positions analyser (chosen ++ old :: pending) revise before.length) := by
  induction hcount : candidates.length - firstCandidate revise before.length old
      using Nat.strong_induction_on generalizing analyser old pending revise with
  | _ count ih =>
      have hnext : ∀ {choice : Nat} {pending : List Nat}, choice < candidates.length →
          firstCandidate revise before.length old ≤ choice → pending.length = later.length →
          Outcome (Analyser.start network limits) positions chosen reached (candidates :: later)
            (choice + 1) (Ends positions reached (chosen ++ choice :: pending) (some before.length)
              before.length) := by
        intro choice pending hlt hle hpending
        have hfirst : firstCandidate (some before.length) before.length choice = choice + 1 :=
          firstCandidate_self before.length
        rw [← hfirst]
        exact ih _ (by omega) harrives.ready (.refl reached) hpending (afresh_self _) rfl
      obtain ⟨progress, after, htry, hafter, hcase⟩ := tryPosition_cases hready hsame.alike
        candidates (firstCandidate revise before.length old)
      cases progress with
      | retreat => exact outcome_retreat hpositions harrives hpending htry hafter hcase
      | reconsider choice =>
          obtain ⟨hle, hlt, hnone⟩ := hcase
          refine (hnext hlt hle hpending).skip (Nat.le_succ_of_le hle)
            (fun choices => hnone.startsFrom) fun result hresult => ?_
          refine .reconsider hpositions harrives.length_eq htry ?_
          rw [hafter.reset_eq]
          exact harrives.replay hpositions hresult
      | advance choice =>
          obtain ⟨hle, hnone, next, hleads, hsame'⟩ := hcase
          exact outcome_advance hpositions harrives htry hle hnone hleads
            (hbehind hleads hafter hsame' hpending hafresh) (hnext hleads.lt_length hle)

/-- The search behind some choices, by induction on the positions that are left. -/
theorem outcome_search (hpositions : positions = before ++ rest)
    (harrives : Arrives network limits before chosen reached)
    (hready : Ready network limits analyser) (hsame : Same analyser reached)
    (hpending : pending.length = rest.length)
    (hafresh : ∀ position choice, before.length ≤ position →
      firstCandidate revise position choice = 0) :
    Outcome (Analyser.start network limits) positions chosen reached rest 0
      (Ends positions analyser (chosen ++ pending) revise before.length) := by
  induction rest generalizing before chosen reached analyser pending revise with
  | nil =>
      have hlength : positions.length ≤ before.length := by
        rw [hpositions, List.append_nil]
      exact .found (leastFrom_nil reached 0) rfl rfl hsame ⟨0, .settle hlength⟩
  | cons candidates later ih =>
      cases pending with
      | nil => cases hpending
      | cons old pending =>
          have hlength : (before ++ [candidates]).length = before.length + 1 :=
            List.length_append
          have hpositions' : positions = before ++ [candidates] ++ later := by
            rw [hpositions, List.append_cons]
          rw [← hafresh before.length old (Nat.le_refl _)]
          refine outcome_position hpositions harrives ?_ hready hsame (Nat.succ.inj hpending)
            fun position choice hless => hafresh position choice (Nat.le_of_lt hless)
          intro choice next analyser pending revise hleads hready hsame hpending hafresh
          rw [← hlength]
          refine ih hpositions' (harrives.concat hleads) hready hsame hpending ?_
          intro position choice hle
          rw [hlength] at hle
          exact hafresh position choice hle

end Positions

/-! ### The search within its budget -/

theorem outcome_reset (hready : Ready network limits analyser) (positions : List (List Token)) :
    Outcome analyser.reset positions [] analyser.reset positions 0
      (Ends positions analyser.reset (List.replicate positions.length 0) none 0) := by
  have harrives : Arrives network limits [] [] (Analyser.start network limits) := ⟨[], rfl, rfl⟩
  have hafresh : ∀ position choice, ([] : List (List Token)).length ≤ position →
      firstCandidate none position choice = 0 := fun _ _ _ => rfl
  rw [hready.reset_eq]
  exact outcome_search (List.nil_append positions).symm harrives (ready_start network limits)
    (.refl _) List.length_replicate hafresh

/-- Two analyses have the same verdict, tree, machine in control and frames. -/
structure Agrees (left right : Bool × Analyser) : Prop where
  verdict_eq : left.1 = right.1
  tree_eq : left.2.tree = right.2.tree
  active_eq : left.2.session.active = right.2.session.active
  frames_eq : left.2.session.frames = right.2.session.frames

/-- The search has a verdict unless it would have to begin the sentence again too often. -/
theorem analyseCandidates_of_searches {restarts : Nat} {result : Bool × Analyser}
    (h : Searches positions analyser.reset (List.replicate positions.length 0) none 0 restarts
      result) :
    ((analyser.analyseCandidates positions).1 =
        .error (.budgetExhausted analyser.limits.maxRestarts) ↔
      analyser.limits.maxRestarts < restarts) ∧
    (restarts ≤ analyser.limits.maxRestarts →
      analyser.analyseCandidates positions = (.ok result.1, result.2)) := by
  obtain ⟨hwithin, hbeyond⟩ := h.search_eq analyser.limits.maxRestarts
  rw [analyseCandidates]
  constructor
  · constructor
    · intro herror
      by_contra hle
      rw [hwithin (Nat.not_lt.mp hle)] at herror
      cases herror
    · intro hless
      have hnone := hbeyond hless
      split
      · next heq =>
        rw [heq] at hnone
        cases hnone
      · rfl
  · intro hle
    rw [hwithin hle]

theorem agrees_of_same {current final : Analyser}
    (hfollow : analyser.reset.follow tokens = some final) (hsame : Same current final) :
    Agrees current.settle (analyser.analyseTokens tokens) := by
  obtain ⟨hverdict, hsettled⟩ := hsame.settle
  obtain ⟨hactive, hframes, hbuilder⟩ := hsettled.shown
  rw [analyseTokens, feedAll_of_follow hfollow]
  exact ⟨hverdict, congrArg Builder.tree hbuilder, hactive, hframes⟩

/-- The search without a bound ends like the analysis of the least viable vector, and rejects the
sentence if no vector is viable. -/
theorem searches_least (hready : Ready network limits analyser) (positions : List (List Token)) :
    ∃ restarts result, Searches positions analyser.reset (List.replicate positions.length 0) none 0
        restarts result ∧
      ((∃ choices tokens, IsLeast {choices | analyser.Viable positions choices} choices ∧
          pick positions choices = some tokens ∧ Agrees result (analyser.analyseTokens tokens)) ∨
        (∀ choices, ¬ analyser.Viable positions choices) ∧ result.1 = false) := by
  cases outcome_reset hready positions with
  | found hleast hpick hfollow hsame hends =>
      obtain ⟨restarts, hsearch⟩ := hends
      exact ⟨restarts, _, hsearch,
        .inl ⟨_, _, isLeast_of_leastFrom hleast, hpick, agrees_of_same hfollow hsame⟩⟩
  | failed hnone hends _ =>
      obtain ⟨after, restarts, hsearch⟩ := hends rfl
      refine ⟨restarts, _, hsearch, .inr ⟨fun choices hviable => ?_, rfl⟩⟩
      exact hnone choices (fun _ _ => Nat.zero_le _) hviable

/-- The search without a bound makes so many restarts and has such a result. If it makes more restarts
than allowed, the budget is exhausted. Otherwise its result is the answer: that of the least viable
vector, or a rejection if no vector is viable. -/
theorem analyseCandidates_follows_least (hreachable : Reachable network limits analyser)
    (positions : List (List Token)) :
    ∃ restarts result, Searches positions analyser.reset (List.replicate positions.length 0) none 0
        restarts result ∧
      ((analyser.analyseCandidates positions).1 = .error (.budgetExhausted limits.maxRestarts) ↔
        limits.maxRestarts < restarts) ∧
      (restarts ≤ limits.maxRestarts →
        analyser.analyseCandidates positions = (.ok result.1, result.2)) ∧
      ((∃ choices tokens, IsLeast {choices | analyser.Viable positions choices} choices ∧
          pick positions choices = some tokens ∧ Agrees result (analyser.analyseTokens tokens)) ∨
        (∀ choices, ¬ analyser.Viable positions choices) ∧ result.1 = false) := by
  have hready := hreachable.ready
  obtain ⟨restarts, result, hsearch, hresult⟩ := searches_least hready positions
  have hanswer := analyseCandidates_of_searches hsearch
  rw [hready.limits_eq] at hanswer
  exact ⟨restarts, result, hsearch, hanswer.1, hanswer.2, hresult⟩

/-- Two words that go together in two ways. -/
def couple : Grammar where
  start := some "S"
  nonterminals := ["S"]
  terminals := ["a", "b", "c", "d"]
  rules := [⟨"S", [.terminal "a", .terminal "b"]⟩, ⟨"S", [.terminal "c", .terminal "d"]⟩]

/-- The first reading of the first word is refuted only by the second word. -/
theorem couple_follows_least :
    ∃ compiled, couple.compile = .ok compiled ∧
      ∃ choices tokens,
        IsLeast {choices | (Analyser.start compiled.network).Viable
          [[⟨"a", "one", []⟩, ⟨"c", "one", []⟩], [⟨"d", "two", []⟩]] choices} choices ∧
        pick [[⟨"a", "one", []⟩, ⟨"c", "one", []⟩], [⟨"d", "two", []⟩]] choices = some tokens ∧
        ((Analyser.start compiled.network).analyseCandidates
          [[⟨"a", "one", []⟩, ⟨"c", "one", []⟩], [⟨"d", "two", []⟩]]).1 = .ok true ∧
        ((Analyser.start compiled.network).analyseTokens tokens).1 = true := by
  have haccepted : (match couple.compile with
      | .ok compiled => ((Analyser.start compiled.network).analyseCandidates
          [[⟨"a", "one", []⟩, ⟨"c", "one", []⟩], [⟨"d", "two", []⟩]]).1
      | .error _ => .ok false) = .ok true := by cbv
  split at haccepted
  · next compiled hcompile =>
    obtain ⟨restarts, result, -, hbudget, hwithin, hresult⟩ := analyseCandidates_follows_least
      (.start : Reachable compiled.network {} _)
      [[⟨"a", "one", []⟩, ⟨"c", "one", []⟩], [⟨"d", "two", []⟩]]
    have hverdict : result.1 = true := by
      rcases Nat.lt_or_ge ({} : AnalyserLimits).maxRestarts restarts with hless | hle
      · rw [hbudget.mpr hless] at haccepted
        cases haccepted
      · rw [hwithin hle] at haccepted
        exact Except.ok.inj haccepted
    rcases hresult with ⟨choices, tokens, hleast, hpick, hagrees⟩ | ⟨-, hrejected⟩
    · exact ⟨compiled, hcompile, choices, tokens, hleast, hpick, haccepted,
        hagrees.verdict_eq.symm.trans hverdict⟩
    · rw [hrejected] at hverdict
      cases hverdict
  · cases haccepted

end TransitionNetwork.Analyser
