import Mathlib.Data.List.DropRight
import Webcomic.Marker.Scan

/-!
# What the order of trying comes to

`at?` tries the parts of a marker in an order, and gives characters back when the rest does not
match. Here each of these searches is worked out once, in terms of the longest runs of blanks and of
other characters alone:

- `afterClosing?_eq`, `bodyAt?_eq`: blanks that are given back never help.
- `nameAt?_eq`: a name ends at the first delimiter inside the word it starts, and else is the word.
- `blanksAndParamsAt?_eq`: the blanks before parameters are given back in one case only. Where no
  parameters follow and the marker could close, the last blank that is no newline becomes the
  parameters.
-/

namespace Webcomic.Marker

open Text

variable {β : Type} {p : Char → Bool}

/-! ## Runs -/

/-- The longest run decides, if the rest never matches after a shorter one alone. -/
theorem longestRun_eq {next : List Char → Option β}
    (h : ∀ c cs, p c = true → next (cs.dropWhile p) = none → next (c :: cs) = none)
    (cs : List Char) : longestRun p next cs = next (cs.dropWhile p) := by
  induction cs with
  | nil => rfl
  | cons c cs ih =>
    by_cases hc : p c = true
    · rw [longestRun, if_pos hc, ih, List.dropWhile_cons_of_pos hc]
      cases hnext : next (cs.dropWhile p) with
      | none => rw [Option.none_or, h c cs hc hnext]
      | some b => rfl
    · rw [longestRun, if_neg hc, List.dropWhile_cons_of_neg hc]

/-- A search that agrees with another one inside a run, and matches at its end only if the other one
does not, tries the other one first and the end of the run last. -/
theorem shortestRun_eq {next inner : List Char → List Char → Option β}
    (hinner : ∀ taken c cs, p c = true → next taken (c :: cs) = inner taken (c :: cs))
    (hend : ∀ taken cs, (cs.head?.all fun c => !p c) = true → inner taken cs = none)
    (taken cs : List Char) :
    shortestRun p next taken cs = (shortestRun p inner taken cs).or
      (if cs.takeWhile p = [] then none
        else next ((cs.takeWhile p).reverse ++ taken) (cs.dropWhile p)) := by
  induction cs generalizing taken with
  | nil => rfl
  | cons c cs ih =>
    by_cases hc : p c = true
    · rw [shortestRun, shortestRun, if_pos hc, if_pos hc, ih, List.takeWhile_cons_of_pos hc,
        List.dropWhile_cons_of_pos hc, if_neg (List.cons_ne_nil _ _), List.reverse_cons,
        List.append_assoc, List.singleton_append]
      -- inside the run both searches try the same; only at its end do they part
      cases cs with
      | nil =>
        rw [hend (c :: taken) [] rfl]
        simp [shortestRun]
      | cons d ds =>
        by_cases hd : p d = true
        · rw [hinner (c :: taken) d ds hd, List.takeWhile_cons_of_pos hd,
            if_neg (List.cons_ne_nil _ _), Option.or_assoc]
        · have hstop : shortestRun p inner (c :: taken) (d :: ds) = none := by
            rw [shortestRun, if_neg hd]
          rw [hend (c :: taken) (d :: ds) (by simpa using hd), hstop,
            List.takeWhile_cons_of_neg hd, List.dropWhile_cons_of_neg hd, if_pos rfl]
          simp
    · rw [shortestRun, shortestRun, if_neg hc, if_neg hc, List.takeWhile_cons_of_neg hc,
        if_pos rfl]
      rfl

/-- The shortest run finds nothing if the rest matches after no run. -/
theorem shortestRun_eq_none_iff {next : List Char → List Char → Option β} {taken cs : List Char} :
    shortestRun p next taken cs = none ↔
      ∀ run rest, run ≠ [] → cs = run ++ rest → (∀ c ∈ run, p c = true) →
        next (run.reverse ++ taken) rest = none := by
  induction cs generalizing taken with
  | nil =>
    refine ⟨fun _ run rest hne heq _ => ?_, fun _ => rfl⟩
    exact absurd (List.append_eq_nil_iff.mp heq.symm).1 hne
  | cons c cs ih =>
    by_cases hc : p c = true
    · rw [shortestRun, if_pos hc, Option.or_eq_none_iff, ih]
      constructor
      · rintro ⟨hfirst, hrest⟩ run rest hne heq hrun
        cases run with
        | nil => exact absurd rfl hne
        | cons d run =>
          obtain ⟨rfl, rfl⟩ := List.cons.inj heq
          -- a run of one character is the first that is tried, and longer ones are left to the rest
          cases run with
          | nil => exact hfirst
          | cons e run =>
            have := hrest (e :: run) rest (List.cons_ne_nil _ _) rfl
              (fun x hx => hrun x (List.mem_cons_of_mem _ hx))
            simpa using this
      · intro h
        refine ⟨?_, fun run rest hne heq hrun => ?_⟩
        · simpa using h [c] cs (List.cons_ne_nil _ _) rfl (by simpa using hc)
        · have := h (c :: run) rest (List.cons_ne_nil _ _) (by rw [heq]; rfl) (by simp_all)
          simpa using this
    · rw [shortestRun, if_neg hc]
      refine ⟨fun _ run rest hne heq hrun => ?_, fun _ => rfl⟩
      cases run with
      | nil => exact absurd rfl hne
      | cons d run =>
        obtain ⟨rfl, rfl⟩ := List.cons.inj heq
        exact absurd (hrun c List.mem_cons_self) hc

/-- The shortest run is found: after it the rest matches, and after no shorter one. -/
theorem shortestRun_of_least {next : List Char → List Char → Option β} {taken run rest : List Char}
    {b : β} (hne : run ≠ []) (hrun : ∀ c ∈ run, p c = true)
    (hnext : next (run.reverse ++ taken) rest = some b)
    (hleast : ∀ run' mid, run' ≠ [] → mid ≠ [] → run = run' ++ mid →
      next (run'.reverse ++ taken) (mid ++ rest) = none) :
    shortestRun p next taken (run ++ rest) = some b := by
  induction run generalizing taken with
  | nil => exact absurd rfl hne
  | cons c run ih =>
    rw [List.cons_append, shortestRun, if_pos (hrun c List.mem_cons_self)]
    cases run with
    | nil =>
      rw [List.nil_append, show next (c :: taken) rest = some b from by simpa using hnext]
      rfl
    | cons d run =>
      -- the first character alone is a shorter run
      have hfirst : next (c :: taken) (d :: run ++ rest) = none := by
        simpa using hleast [c] (d :: run) (List.cons_ne_nil _ _) (List.cons_ne_nil _ _) rfl
      rw [hfirst, Option.none_or]
      refine ih (List.cons_ne_nil _ _) (fun x hx => hrun x (List.mem_cons_of_mem _ hx))
        (by simpa using hnext) fun run' mid hrun' hmid heq => ?_
      simpa using hleast (c :: run') mid (List.cons_ne_nil _ _) hmid (by rw [heq]; rfl)

/-! ## Delimiters -/

/-- Three stars. -/
def delimiter : List Char := ['*', '*', '*']

theorem afterDelimiter?_eq_some_iff {cs rest : List Char} :
    afterDelimiter? cs = some rest ↔ cs = delimiter ++ rest := by
  constructor
  · intro h
    unfold afterDelimiter? at h
    split at h
    · cases h
      rfl
    · cases h
  · rintro rfl
    rfl

theorem afterDelimiter?_delimiter (rest : List Char) :
    afterDelimiter? (delimiter ++ rest) = some rest :=
  afterDelimiter?_eq_some_iff.2 rfl

theorem not_isBlank_star : isBlank '*' = false := by decide

/-- A delimiter starts with a character that is no blank. -/
theorem afterDelimiter?_of_isBlank {c : Char} (cs : List Char) (hc : isBlank c = true) :
    afterDelimiter? (c :: cs) = none := by
  cases h : afterDelimiter? (c :: cs) with
  | none => rfl
  | some rest =>
    obtain ⟨rfl, -⟩ := List.cons.inj (afterDelimiter?_eq_some_iff.1 h)
    rw [not_isBlank_star] at hc
    cases hc

/-- A closing delimiter stands behind all blanks. -/
theorem afterClosing?_eq (cs : List Char) :
    afterClosing? cs = afterDelimiter? (cs.dropWhile isBlank) :=
  longestRun_eq (fun _ cs hc _ => afterDelimiter?_of_isBlank cs hc) cs

/-! ## The body -/

theorem nameAt?_of_isBlank {c : Char} (cs : List Char) (hc : isBlank c = true) :
    nameAt? (c :: cs) = none := by
  rw [nameAt?, shortestRun, if_neg (by simp [hc])]

/-- The body of a marker starts behind all blanks. -/
theorem bodyAt?_eq (cs : List Char) :
    bodyAt? cs = (nameAt? (cs.dropWhile isBlank)).or
      ((afterDelimiter? (cs.dropWhile isBlank)).map (⟨none, none, ·⟩)) := by
  rw [bodyAt?, longestRun_eq, afterClosing?_eq, List.dropWhile_idempotent]
  intro c cs hc hnone
  -- with a blank in front there is no name, and the same delimiter is found
  rw [Option.or_eq_none_iff, afterClosing?_eq, List.dropWhile_idempotent] at hnone
  rw [nameAt?_of_isBlank cs hc, Option.none_or, afterClosing?_eq, List.dropWhile_cons_of_pos hc]
  exact hnone.2

/-! ## The name -/

/-- A name, last character first, with a delimiter right behind it. -/
def endedName? (name rest : List Char) : Option Found :=
  (afterDelimiter? rest).map (⟨some name.reverse, none, ·⟩)

/-- A name that a delimiter ends inside the word it starts. -/
def shortName? (cs : List Char) : Option Found :=
  shortestRun (fun c => !isBlank c) endedName? [] cs

theorem shortName?_eq_none_iff {cs : List Char} :
    shortName? cs = none ↔
      ∀ name rest, name ≠ [] → cs = name ++ rest → (∀ c ∈ name, isBlank c = false) →
        afterDelimiter? rest = none := by
  rw [shortName?, shortestRun_eq_none_iff]
  refine forall_congr' fun name => forall_congr' fun rest => ?_
  simp only [Bool.not_eq_true', endedName?, Option.map_eq_none_iff]

/-- A name that is a whole word, and what follows it. -/
def wholeName? (name after : List Char) : Option Found :=
  (blanksAndParamsAt? name after).or ((afterClosing? after).map (⟨some name, none, ·⟩))

theorem blanksAndParamsAt?_of_not_isBlank (name : List Char) {c : Char} (cs : List Char)
    (hc : isBlank c = false) : blanksAndParamsAt? name (c :: cs) = none := by
  rw [blanksAndParamsAt?, if_neg (by simp [hc])]

/-- A name ends at the first delimiter inside its word, and else with the word. -/
theorem nameAt?_eq (cs : List Char) :
    nameAt? cs = (shortName? cs).or
      (if cs.takeWhile (fun c => !isBlank c) = [] then none
        else wholeName? (cs.takeWhile fun c => !isBlank c) (cs.dropWhile fun c => !isBlank c)) := by
  rw [nameAt?, shortName?, shortestRun_eq]
  · simp only [List.append_nil, List.reverse_reverse]
    rfl
  · intro taken c cs hc
    have hblank : isBlank c = false := by simpa using hc
    rw [blanksAndParamsAt?_of_not_isBlank _ cs hblank, Option.none_or, afterClosing?_eq,
      List.dropWhile_cons_of_neg (by simp [hblank]), endedName?]
  · intro taken cs hcs
    cases cs with
    | nil => rfl
    | cons c cs =>
      rw [endedName?, afterDelimiter?_of_isBlank cs (by simpa using hcs), Option.map_none]

/-! ## The parameters -/

/-- The last blank of a run that parameters can be made of: they stay on one line. -/
def lastInline? (blanks : List Char) : Option Char :=
  (blanks.filter (· != '\n')).getLast?

theorem lastInline?_cons (b : Char) (blanks : List Char) :
    lastInline? (b :: blanks) =
      (lastInline? blanks).or (if b = '\n' then none else some b) := by
  unfold lastInline?
  by_cases hb : b = '\n'
  · rw [List.filter_cons_of_neg (by simp [hb]), if_pos hb, Option.or_none]
  · rw [List.filter_cons_of_pos (by simp [hb]), if_neg hb, List.getLast?_cons]
    cases (blanks.filter (· != '\n')).getLast? <;> rfl

theorem lastInline?_eq_none_iff {blanks : List Char} :
    lastInline? blanks = none ↔ ∀ c ∈ blanks, c = '\n' := by
  rw [lastInline?, List.getLast?_eq_none_iff, List.filter_eq_nil_iff]
  simp

theorem mem_of_lastInline? {blanks : List Char} {c : Char} (h : lastInline? blanks = some c) :
    c ∈ blanks :=
  (List.mem_filter.1 (List.mem_of_getLast? h)).1

theorem paramsAt?_eq_none_iff {name cs : List Char} :
    paramsAt? name cs = none ↔
      ∀ params rest, params ≠ [] → cs = params ++ rest → '\n' ∉ params →
        afterDelimiter? (rest.dropWhile isBlank) = none := by
  rw [paramsAt?, shortestRun_eq_none_iff]
  refine forall_congr' fun params => forall_congr' fun rest => ?_
  have hinline : (∀ c ∈ params, (c != '\n') = true) ↔ '\n' ∉ params := by
    constructor
    · intro h hmem
      simpa using h '\n' hmem
    · intro h c hc
      have hne : c ≠ '\n' := fun heq => h (heq ▸ hc)
      simpa using hne
  rw [hinline, Option.map_eq_none_iff, afterClosing?_eq]

/-- Where no parameters start behind a run of blanks, none longer than one blank start in it. -/
theorem paramsAt?_of_isBlank {name : List Char} {b : Char} {cs : List Char}
    (hnone : paramsAt? name (cs.dropWhile isBlank) = none) :
    paramsAt? name (b :: cs) =
      if b = '\n' then none
      else (afterDelimiter? (cs.dropWhile isBlank)).map (⟨some name, some [b], ·⟩) := by
  by_cases hb : b = '\n'
  · rw [paramsAt?, shortestRun, if_neg (by simp [hb]), if_pos hb]
  · rw [paramsAt?, shortestRun, if_pos (by simpa using hb), if_neg hb, afterClosing?_eq]
    cases hclose : afterDelimiter? (cs.dropWhile isBlank) with
    | some rest => rfl
    | none =>
      rw [Option.map_none, Option.none_or, Option.map_none, shortestRun_eq_none_iff]
      intro run rest hne heq hrun
      rw [Option.map_eq_none_iff, afterClosing?_eq]
      by_cases hblank : ∀ c ∈ run, isBlank c = true
      · -- the run stops among the blanks, and the delimiter is the one looked for before
        rw [heq, List.dropWhile_append_of_pos hblank] at hclose
        exact hclose
      · -- what the run holds behind the blanks would have been parameters
        have hdrop : run.dropWhile isBlank ≠ [] := by
          rwa [ne_eq, List.dropWhile_eq_nil_iff]
        rw [heq, List.dropWhile_append, if_neg (by simpa using hdrop)] at hnone
        refine paramsAt?_eq_none_iff.1 hnone _ rest hdrop rfl fun hmem => ?_
        simpa using hrun '\n' ((List.dropWhile_subset isBlank) hmem)

/-- Blanks and parameters: the parameters start behind all blanks, or else are the last blank that
is no newline. -/
theorem blanksAndParamsAt?_eq (name : List Char) {c : Char} (cs : List Char)
    (hc : isBlank c = true) :
    blanksAndParamsAt? name (c :: cs) = (paramsAt? name (cs.dropWhile isBlank)).or
      ((lastInline? (cs.takeWhile isBlank)).bind fun b =>
        (afterDelimiter? (cs.dropWhile isBlank)).map (⟨some name, some [b], ·⟩)) := by
  rw [blanksAndParamsAt?, if_pos hc]
  clear hc
  -- on the blanks that can be given back: each is tried only if all behind it have failed
  induction cs with
  | nil => rfl
  | cons b cs ih =>
    by_cases hb : isBlank b = true
    · rw [longestRun, if_pos hb, ih, List.dropWhile_cons_of_pos hb, List.takeWhile_cons_of_pos hb,
        lastInline?_cons, Option.or_assoc]
      cases hparams : paramsAt? name (cs.dropWhile isBlank) with
      | some found => rfl
      | none =>
        rw [paramsAt?_of_isBlank hparams, Option.none_or, Option.none_or]
        cases lastInline? (cs.takeWhile isBlank) with
        | none => by_cases hnl : b = '\n' <;> simp [hnl]
        | some last => cases afterDelimiter? (cs.dropWhile isBlank) <;> simp
    · rw [longestRun, if_neg hb, List.dropWhile_cons_of_neg hb, List.takeWhile_cons_of_neg hb]
      simp [lastInline?]

end Webcomic.Marker
