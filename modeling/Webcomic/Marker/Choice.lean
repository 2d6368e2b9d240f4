/-!
# Runs of characters, tried in order

Two ways of taking a run of characters off a text before the rest is matched: the longest run
first, giving characters back one by one, or the shortest first, taking one more each time the
rest does not match. The first way that lets the rest match decides.
-/

namespace Webcomic.Marker

variable {β : Type}

/-- Matches `next` after a run of characters of `p`, possibly empty, the longest run first. -/
def longestRun (p : Char → Bool) (next : List Char → Option β) : List Char → Option β
  | [] => next []
  | c :: cs => if p c then (longestRun p next cs).or (next (c :: cs)) else next (c :: cs)

/-- Matches `next` after a run of at least one character of `p`, the shortest run first. The run
is handed on last character first, in front of `taken`. -/
def shortestRun (p : Char → Bool) (next : List Char → List Char → Option β)
    (taken : List Char) : List Char → Option β
  | [] => none
  | c :: cs =>
    if p c then (next (c :: taken) cs).or (shortestRun p next (c :: taken) cs) else none

/-- What `longestRun` finds is found after a run of `p`. -/
theorem exists_of_longestRun {p : Char → Bool} {next : List Char → Option β} {cs : List Char}
    {b : β} (h : longestRun p next cs = some b) :
    ∃ run rest, cs = run ++ rest ∧ (∀ c ∈ run, p c = true) ∧ next rest = some b := by
  induction cs with
  | nil => exact ⟨[], [], rfl, by simp, h⟩
  | cons c cs ih =>
    unfold longestRun at h
    split at h
    next hc =>
      rcases Option.or_eq_some_iff.1 h with h | ⟨-, h⟩
      · obtain ⟨run, rest, rfl, hrun, hnext⟩ := ih h
        exact ⟨c :: run, rest, rfl, by simpa [hc] using hrun, hnext⟩
      · exact ⟨[], c :: cs, rfl, by simp, h⟩
    next => exact ⟨[], c :: cs, rfl, by simp, h⟩

/-- What `shortestRun` finds is found after a run of `p` that no shorter one can replace. -/
theorem exists_least_of_shortestRun {p : Char → Bool}
    {next : List Char → List Char → Option β} {taken cs : List Char} {b : β}
    (h : shortestRun p next taken cs = some b) :
    ∃ run rest, run ≠ [] ∧ cs = run ++ rest ∧ (∀ c ∈ run, p c = true) ∧
      next (run.reverse ++ taken) rest = some b ∧
      ∀ run' mid, run' ≠ [] → mid ≠ [] → run = run' ++ mid →
        next (run'.reverse ++ taken) (mid ++ rest) = none := by
  induction cs generalizing taken with
  | nil => cases h
  | cons c cs ih =>
    by_cases hc : p c = true
    · rw [shortestRun, if_pos hc] at h
      rcases Option.or_eq_some_iff.1 h with hfirst | ⟨hfirst, hrest⟩
      · -- one character is enough, and a shorter run would be empty
        refine ⟨[c], cs, List.cons_ne_nil _ _, rfl, by simpa using hc, hfirst, ?_⟩
        intro run' mid hrun' hmid heq
        have hlength := congrArg List.length heq
        have h1 := List.length_pos_iff.mpr hrun'
        have h2 := List.length_pos_iff.mpr hmid
        simp only [List.length_append, List.length_cons, List.length_nil] at hlength
        omega
      · obtain ⟨run, rest, hne, rfl, hrun, hnext, hleast⟩ := ih hrest
        refine ⟨c :: run, rest, List.cons_ne_nil _ _, rfl, by simpa [hc] using hrun,
          by simpa using hnext, ?_⟩
        intro run' mid hrun' hmid heq
        cases run' with
        | nil => exact absurd rfl hrun'
        | cons d run' =>
          obtain ⟨rfl, rfl⟩ := List.cons.inj heq
          -- the run of the first character alone is the one that has just failed
          cases run' with
          | nil => exact hfirst
          | cons e run' =>
            have := hleast (e :: run') mid (List.cons_ne_nil _ _) hmid rfl
            simpa using this
    · rw [shortestRun, if_neg hc] at h
      cases h

/-- What `shortestRun` finds is found after a run of `p` that is not empty. -/
theorem exists_of_shortestRun {p : Char → Bool} {next : List Char → List Char → Option β}
    {taken cs : List Char} {b : β} (h : shortestRun p next taken cs = some b) :
    ∃ run rest, run ≠ [] ∧ cs = run ++ rest ∧ (∀ c ∈ run, p c = true)
      ∧ next (run.reverse ++ taken) rest = some b := by
  obtain ⟨run, rest, hne, heq, hrun, hnext, -⟩ := exists_least_of_shortestRun h
  exact ⟨run, rest, hne, heq, hrun, hnext⟩

end Webcomic.Marker
