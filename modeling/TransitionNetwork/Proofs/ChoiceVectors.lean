import TransitionNetwork.Proofs.AnalyserRuns
import Mathlib.Data.List.Lex
import Mathlib.Order.Bounds.Defs

/-! Choices among the readings of a sentence. A choice vector has the number of a candidate for each
position. It is viable when each of its tokens is consumed and none leads to an error state. Vectors are
compared lexicographically; the least viable one begins with the first candidate behind which any vector
is viable. -/

namespace TransitionNetwork.Analyser

/-! ### Viable vectors -/

/-- The tokens that a choice vector picks, one for each position. -/
def pick : List (List Token) → List Nat → Option (List Token)
  | [], [] => some []
  | candidates :: positions, choice :: choices => do
    let token ← candidates[choice]?
    let tokens ← pick positions choices
    return token :: tokens
  | _, _ => none

/-- The analyser behind tokens that are all consumed without coming to an error state. -/
def follow (analyser : Analyser) : List Token → Option Analyser
  | [] => some analyser
  | token :: tokens =>
    match analyser.feed token with
    | (true, after) => if after.session.atError then none else after.follow tokens
    | (false, _) => none

/-- The choices pick tokens that can be followed from here. -/
def ViableFrom (analyser : Analyser) (positions : List (List Token)) (choices : List Nat) : Prop :=
  ∃ tokens, pick positions choices = some tokens ∧ (analyser.follow tokens).isSome

/-- The choices pick tokens that can be followed from the beginning of a sentence. -/
def Viable (analyser : Analyser) (positions : List (List Token)) (choices : List Nat) : Prop :=
  analyser.reset.ViableFrom positions choices

/-- A candidate that is consumed without coming to an error state. -/
def Leads (analyser : Analyser) (candidates : List Token) (choice : Nat) (after : Analyser) : Prop :=
  ∃ token, candidates[choice]? = some token ∧ analyser.feed token = (true, after) ∧
    after.session.atError = false

variable {analyser after : Analyser} {candidates : List Token} {positions : List (List Token)}
  {choice : Nat} {choices : List Nat} {tokens : List Token}

theorem pick_cons_iff : pick (candidates :: positions) (choice :: choices) = some tokens ↔
    ∃ token rest, candidates[choice]? = some token ∧ pick positions choices = some rest ∧
      tokens = token :: rest := by
  simp only [pick, Option.bind_eq_bind, Option.bind_eq_some_iff, Option.pure_def,
    Option.some.injEq]
  constructor
  · rintro ⟨token, htoken, rest, hrest, rfl⟩
    exact ⟨token, rest, htoken, hrest, rfl⟩
  · rintro ⟨token, rest, htoken, hrest, rfl⟩
    exact ⟨token, htoken, rest, hrest, rfl⟩

theorem length_of_pick (h : pick positions choices = some tokens) :
    choices.length = positions.length := by
  induction positions generalizing choices tokens with
  | nil =>
      cases choices with
      | nil => rfl
      | cons choice choices => cases h
  | cons candidates positions ih =>
      cases choices with
      | nil => cases h
      | cons choice choices =>
          obtain ⟨token, rest, -, hrest, -⟩ := pick_cons_iff.mp h
          rw [List.length_cons, List.length_cons, ih hrest]

theorem pick_append {first : List (List Token)} {chosen : List Nat} {taken : List Token}
    (h : pick first chosen = some taken) (h' : pick positions choices = some tokens) :
    pick (first ++ positions) (chosen ++ choices) = some (taken ++ tokens) := by
  induction first generalizing chosen taken with
  | nil =>
      cases chosen with
      | nil =>
          cases h
          exact h'
      | cons choice chosen => cases h
  | cons candidates first ih =>
      cases chosen with
      | nil => cases h
      | cons choice chosen =>
          obtain ⟨token, rest, htoken, hrest, rfl⟩ := pick_cons_iff.mp h
          exact pick_cons_iff.mpr ⟨token, _, htoken, ih hrest, rfl⟩

theorem follow_cons_iff {token : Token} {final : Analyser} :
    analyser.follow (token :: tokens) = some final ↔
      ∃ after, analyser.feed token = (true, after) ∧ after.session.atError = false ∧
        after.follow tokens = some final := by
  rw [follow]
  rcases analyser.feed token with ⟨consumed, next⟩
  cases consumed with
  | true =>
      dsimp only
      constructor
      · intro h
        split at h
        · cases h
        · next herror => exact ⟨next, rfl, Bool.eq_false_iff.mpr herror, h⟩
      · rintro ⟨other, hother, herror, h⟩
        cases hother
        rw [if_neg (Bool.eq_false_iff.mp herror)]
        exact h
  | false =>
      constructor
      · intro h
        cases h
      · rintro ⟨other, hother, -⟩
        cases hother

theorem follow_append {final : Analyser} (taken : List Token)
    (h : analyser.follow taken = some after) (h' : after.follow tokens = some final) :
    analyser.follow (taken ++ tokens) = some final := by
  induction taken generalizing analyser with
  | nil =>
      cases h
      exact h'
  | cons token taken ih =>
      obtain ⟨next, hfeed, herror, hrest⟩ := follow_cons_iff.mp h
      exact follow_cons_iff.mpr ⟨next, hfeed, herror, ih hrest⟩

/-- Tokens that can be followed are fed to the end. -/
theorem feedAll_of_follow (h : analyser.follow tokens = some after) :
    analyser.feedAll tokens = after.settle := by
  induction tokens generalizing analyser with
  | nil =>
      cases h
      rfl
  | cons token tokens ih =>
      obtain ⟨next, hfeed, -, hrest⟩ := follow_cons_iff.mp h
      rw [feedAll, hfeed]
      exact ih hrest

theorem viableFrom_cons_iff : analyser.ViableFrom (candidates :: positions) (choice :: choices) ↔
    ∃ after, analyser.Leads candidates choice after ∧ after.ViableFrom positions choices := by
  constructor
  · rintro ⟨tokens, hpick, hfollow⟩
    obtain ⟨token, rest, htoken, hrest, rfl⟩ := pick_cons_iff.mp hpick
    obtain ⟨final, hfinal⟩ := Option.isSome_iff_exists.mp hfollow
    obtain ⟨after, hfeed, herror, hafter⟩ := follow_cons_iff.mp hfinal
    exact ⟨after, ⟨token, htoken, hfeed, herror⟩, rest, hrest, hafter ▸ rfl⟩
  · rintro ⟨after, ⟨token, htoken, hfeed, herror⟩, rest, hrest, hfollow⟩
    obtain ⟨final, hfinal⟩ := Option.isSome_iff_exists.mp hfollow
    refine ⟨token :: rest, pick_cons_iff.mpr ⟨token, rest, htoken, hrest, rfl⟩, ?_⟩
    rw [follow_cons_iff.mpr ⟨after, hfeed, herror, hfinal⟩]
    rfl

theorem not_viableFrom_cons_nil : ¬ analyser.ViableFrom (candidates :: positions) [] := by
  rintro ⟨tokens, hpick, -⟩
  cases hpick

/-! ### Candidates that do not lead on -/

/-- No candidate from one number up to another leads on. -/
def NoneLeads (analyser : Analyser) (candidates : List Token) (first bound : Nat) : Prop :=
  ∀ choice, first ≤ choice → choice < bound → ∀ after, ¬ analyser.Leads candidates choice after

theorem NoneLeads.cons {first bound : Nat} (h : analyser.NoneLeads candidates (first + 1) bound)
    (hfirst : ∀ after, ¬ analyser.Leads candidates first after) :
    analyser.NoneLeads candidates first bound := by
  intro choice hle hlt
  rcases Nat.eq_or_lt_of_le hle with rfl | hless
  · exact hfirst
  · exact h choice hless hlt

theorem not_leads_of_feed {token : Token} (hcandidate : candidates[choice]? = some token)
    (hfeed : (analyser.feed token).1 = false ∨ (analyser.feed token).2.session.atError = true) :
    ¬ analyser.Leads candidates choice after := by
  rintro ⟨other, hother, hfed, herror⟩
  rw [hcandidate] at hother
  cases hother
  rw [hfed] at hfeed
  rcases hfeed with hrejected | hstopped
  · cases hrejected
  · rw [herror] at hstopped
    cases hstopped

/-! ### The least vector -/

/-- The choices do not begin below a number. -/
def StartsFrom (first : Nat) (choices : List Nat) : Prop :=
  ∀ choice ∈ choices.head?, first ≤ choice

/-- The least vector of those that are viable from here and do not begin below a number. -/
structure LeastFrom (analyser : Analyser) (positions : List (List Token)) (first : Nat)
    (choices : List Nat) : Prop where
  viable : analyser.ViableFrom positions choices
  starts : StartsFrom first choices
  least : ∀ other, analyser.ViableFrom positions other → StartsFrom first other → choices ≤ other

variable {reached : Analyser} {later : List (List Token)} {first : Nat}

/-- A candidate that does not lead on need not be tried. -/
theorem NoneLeads.startsFrom {bound : Nat} (h : reached.NoneLeads candidates first bound)
    (hviable : reached.ViableFrom (candidates :: later) choices)
    (hstarts : StartsFrom first choices) : StartsFrom bound choices := by
  rintro choice hchoice
  cases choices with
  | nil => cases hchoice
  | cons other choices =>
      cases hchoice
      obtain ⟨after, hleads, -⟩ := viableFrom_cons_iff.mp hviable
      by_contra hlt
      exact h choice (hstarts choice rfl) (Nat.lt_of_not_le hlt) after hleads

theorem Leads.lt_length (h : analyser.Leads candidates choice after) :
    choice < candidates.length := by
  obtain ⟨token, htoken, -⟩ := h
  exact (List.getElem?_eq_some_iff.mp htoken).1

theorem Leads.unique {other : Analyser} (h : analyser.Leads candidates choice after)
    (h' : analyser.Leads candidates choice other) : other = after := by
  obtain ⟨token, htoken, hfeed, -⟩ := h
  obtain ⟨token', htoken', hfeed', -⟩ := h'
  rw [htoken] at htoken'
  cases htoken'
  rw [hfeed] at hfeed'
  exact (Prod.mk.inj hfeed').2.symm

/-- The least vector behind the first candidate that leads on. -/
theorem LeastFrom.cons {next : Analyser} (h : next.LeastFrom later 0 choices)
    (hle : first ≤ choice) (hnone : reached.NoneLeads candidates first choice)
    (hleads : reached.Leads candidates choice next) :
    reached.LeastFrom (candidates :: later) first (choice :: choices) where
  viable := viableFrom_cons_iff.mpr ⟨next, hleads, h.viable⟩
  starts := by
    rintro other ⟨⟩
    exact hle
  least := by
    intro other hviable hstarts
    have hbound := hnone.startsFrom hviable hstarts
    cases other with
    | nil => exact absurd hviable not_viableFrom_cons_nil
    | cons head others =>
        obtain ⟨after, hafter, hothers⟩ := viableFrom_cons_iff.mp hviable
        rcases Nat.eq_or_lt_of_le (hbound head rfl) with rfl | hless
        · rw [hleads.unique hafter] at hothers
          exact List.cons_le_cons _ (h.least others hothers fun _ _ => Nat.zero_le _)
        · exact le_of_lt (List.cons_lt_cons_iff.mpr (.inl hless))

/-- If no candidate is left that leads on, no vector is viable. -/
theorem NoneLeads.not_viableFrom (h : reached.NoneLeads candidates first candidates.length)
    (hstarts : StartsFrom first choices) : ¬ reached.ViableFrom (candidates :: later) choices := by
  intro hviable
  have hbound := h.startsFrom hviable hstarts
  cases choices with
  | nil => exact not_viableFrom_cons_nil hviable
  | cons head others =>
      obtain ⟨next, hleads, -⟩ := viableFrom_cons_iff.mp hviable
      exact absurd hleads.lt_length (Nat.not_lt.mpr (hbound head rfl))

/-- A candidate behind which no vector is viable need not be tried. -/
theorem Leads.startsFrom_succ {next : Analyser} (hleads : reached.Leads candidates choice next)
    (hnone : ∀ others, ¬ next.ViableFrom later others)
    (hviable : reached.ViableFrom (candidates :: later) choices)
    (hstarts : StartsFrom choice choices) : StartsFrom (choice + 1) choices := by
  rintro head hhead
  cases choices with
  | nil => cases hhead
  | cons other others =>
      cases hhead
      refine Nat.lt_of_le_of_ne (hstarts head rfl) ?_
      rintro rfl
      obtain ⟨after, hafter, hothers⟩ := viableFrom_cons_iff.mp hviable
      rw [hleads.unique hafter] at hothers
      exact hnone others hothers

theorem leastFrom_nil (analyser : Analyser) (first : Nat) : analyser.LeastFrom [] first [] where
  viable := ⟨[], rfl, rfl⟩
  starts := by
    rintro choice ⟨⟩
  least := by
    rintro other ⟨tokens, hpick, -⟩ -
    rw [List.eq_nil_of_length_eq_zero (length_of_pick hpick)]

theorem isLeast_of_leastFrom (h : analyser.reset.LeastFrom positions 0 choices) :
    IsLeast {choices | analyser.Viable positions choices} choices :=
  ⟨h.viable, fun other hviable => h.least other hviable fun _ _ => Nat.zero_le _⟩

end TransitionNetwork.Analyser
