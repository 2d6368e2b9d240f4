import Webcomic.Proofs.Marker.Captures

/-!
# Markers and their neighbours

A marker is meant to end at its own closing delimiter. Names and parameters are as short as they can
be, but the search for parameters comes before the search for the closing delimiter, so a delimiter
behind blanks can be taken for the start of parameters.

- `UpToDelimiter.isInfix_iff`: a run up to the first delimiter holds a delimiter only at its start.
- `Wording`: a marker as it is written, with blanks anywhere just inside its delimiters.
- `ends_at_own_delimiter_iff`: which markers capture a delimiter, and which markers end where they
  were written to end if another one stands behind them.
-/

namespace Webcomic.Marker

open Text

/-! ## A delimiter inside a capture -/

theorem not_star_of_isBlank {c : Char} (h : isBlank c = true) : c ≠ '*' := by
  rintro rfl
  rw [not_isBlank_star] at h
  cases h

/-- What starts with a star behind a run of blanks starts behind the empty run. -/
theorem Blanks.eq_nil_of_star {blanks after rest : List Char} (hblanks : Blanks blanks)
    (h : blanks ++ after = '*' :: rest) : blanks = [] := by
  cases blanks with
  | nil => rfl
  | cons c blanks =>
    obtain ⟨rfl, -⟩ := List.cons.inj h
    exact absurd rfl (not_star_of_isBlank (hblanks '*' List.mem_cons_self))

/-- A run up to the first delimiter holds a delimiter only if it starts with one that is not part of
a longer run of stars. -/
theorem UpToDelimiter.isInfix_iff {run after : List Char} (h : UpToDelimiter run after)
    (hne : run ≠ []) (hafter : after ≠ [])
    (hstar : ∀ rest, after = '*' :: rest → delimiter <+: after) :
    delimiter <:+: run ↔ ∃ c rest, c ≠ '*' ∧ run ++ after = delimiter ++ c :: rest := by
  constructor
  · rintro ⟨a, b, rfl⟩
    -- the first delimiter stands at the start, or else the run would be shorter
    have ha : a = [] := by
      by_cases ha : a = []
      · exact ha
      · have := h a (b ++ after) ha (by simp)
        simp only [List.length_append, delimiter, List.length_cons, List.length_nil] at this
        omega
    subst ha
    obtain ⟨c, rest, hrest⟩ :=
      List.exists_cons_of_ne_nil (List.append_ne_nil_of_right_ne_nil b hafter)
    refine ⟨c, rest, ?_, by rw [← hrest]; simp⟩
    rintro rfl
    have := h ['*'] rest (List.cons_ne_nil _ _) (by simp [hrest, delimiter])
    simp only [List.length_append, delimiter, List.length_cons, List.length_nil] at this
    omega
  · rintro ⟨c, rest, hc, heq⟩
    -- a run of one or two stars would leave stars to `after`, and with them a whole delimiter
    rcases run with _ | ⟨x, _ | ⟨y, _ | ⟨z, run⟩⟩⟩
    · exact absurd rfl hne
    · obtain ⟨-, heq⟩ := List.cons.inj heq
      obtain ⟨tail, htail⟩ := hstar _ heq
      have hthird : '*' = c ∧ tail = rest := by simpa [delimiter, ← htail] using heq
      exact absurd hthird.1.symm hc
    · obtain ⟨-, heq⟩ := List.cons.inj heq
      obtain ⟨-, heq⟩ := List.cons.inj heq
      obtain ⟨tail, htail⟩ := hstar _ heq
      have hthird : '*' = c ∧ '*' :: tail = rest := by simpa [delimiter, ← htail] using heq
      exact absurd hthird.1.symm hc
    · simp only [delimiter, List.cons_append, List.nil_append, List.cons.injEq] at heq
      obtain ⟨rfl, rfl, rfl, -⟩ := heq
      exact (List.prefix_append delimiter run).isInfix

/-- A name that was captured holds a delimiter exactly if the first one behind the opening delimiter
and its blanks is followed by something else than a star. -/
theorem Shape.delimiter_in_name_iff {text : List Char} {name params : Option (List Char)}
    (h : Shape text name params) :
    (∃ n, name = some n ∧ delimiter <:+: n) ↔
      ∃ lead c rest, Blanks lead ∧ c ≠ '*' ∧ text = lead ++ (delimiter ++ c :: rest) := by
  -- what holds of a name with any blanks and any text behind it
  have hnamed : ∀ {lead n after : List Char}, Blanks lead → Word n → after ≠ [] →
      (∀ rest, after = '*' :: rest → delimiter <+: after) → UpToDelimiter n after →
      (delimiter <:+: n ↔ ∃ lead' c rest, Blanks lead' ∧ c ≠ '*' ∧
        lead ++ (n ++ after) = lead' ++ (delimiter ++ c :: rest)) := by
    intro lead n after hlead hn hne hstar hupto
    rw [hupto.isInfix_iff hn.ne_nil hne hstar]
    constructor
    · rintro ⟨c, rest, hc, heq⟩
      exact ⟨lead, c, rest, hlead, hc, by rw [heq]⟩
    · rintro ⟨lead', c, rest, hlead', hc, heq⟩
      exact ⟨c, rest, hc,
        (hlead.append_inj hlead' (hn.solid_append after) (solid_delimiter _) heq).2⟩
  cases h with
  | bare hlead =>
    constructor
    · rintro ⟨_, hn, _⟩
      cases hn
    · rintro ⟨lead', c, rest, hlead', hc, heq⟩
      obtain ⟨-, heq⟩ := hlead.append_inj hlead' (solid_delimiter []) (solid_delimiter _) heq
      cases heq
  | @plain lead n gap hlead hn hgap hupto =>
    simp only [Option.some.injEq, exists_eq_left']
    refine hnamed hlead hn (by simp [delimiter]) (fun rest heq => ?_) hupto
    rw [hgap.eq_nil_of_star heq]
    exact List.prefix_rfl
  | @full lead n gap params trail hlead hn hgap hne _ _ _ hupto _ =>
    simp only [Option.some.injEq, exists_eq_left']
    refine hnamed hlead hn (by simp [delimiter]) (fun rest heq => ?_) hupto
    exact absurd (hgap.eq_nil_of_star heq) hne

/-- Parameters that were captured hold a delimiter exactly if it stands right behind the blanks
after the name, and is followed by something else than a star. -/
theorem Shape.delimiter_in_params_iff {text : List Char} {name params : Option (List Char)}
    (h : Shape text name params) :
    (∃ ps, params = some ps ∧ delimiter <:+: ps) ↔
      ∃ lead n gap c rest, Blanks lead ∧ name = some n ∧ Blanks gap ∧ gap ≠ [] ∧ c ≠ '*' ∧
        text = lead ++ (n ++ (gap ++ (delimiter ++ c :: rest))) := by
  cases h with
  | bare hlead =>
    constructor
    · rintro ⟨_, hps, _⟩
      cases hps
    · rintro ⟨_, n, _, _, _, _, hn, _⟩
      cases hn
  | @plain lead n gap hlead hn hgap _ =>
    constructor
    · -- one blank has no room for a delimiter
      rintro ⟨ps, hps, hinfix⟩
      obtain ⟨c, -, rfl⟩ := Option.map_eq_some_iff.1 hps
      exact absurd hinfix.length_le (by simp [delimiter])
    · rintro ⟨lead', n', gap', c, rest, hlead', hname, hgap', -, -, heq⟩
      obtain rfl := Option.some.inj hname
      obtain ⟨-, heq⟩ := hlead.append_inj hlead' (hn.solid_append _) (hn.solid_append _) heq
      -- the delimiter behind the blanks is the closing one, and nothing follows it
      obtain ⟨-, heq⟩ := hgap.append_inj hgap' (solid_delimiter []) (solid_delimiter _)
        (List.append_cancel_left heq)
      cases heq
  | @full lead n gap ps trail hlead hn hgap hne hps _ htrail _ hupto =>
    have hiff := hupto.isInfix_iff hps.ne_nil (by simp [delimiter]) fun rest heq => by
      rw [htrail.eq_nil_of_star heq]
      exact List.prefix_rfl
    simp only [Option.some.injEq, exists_eq_left']
    rw [hiff]
    constructor
    · rintro ⟨c, rest, hc, heq⟩
      exact ⟨lead, n, gap, c, rest, hlead, rfl, hgap, hne, hc, by rw [heq]⟩
    · rintro ⟨lead', n', gap', c, rest, hlead', rfl, hgap', -, hc, heq⟩
      obtain ⟨-, heq⟩ := hlead.append_inj hlead' (hn.solid_append _) (hn.solid_append _) heq
      obtain ⟨-, heq⟩ := hgap.append_inj hgap' (hps.solid_append _) (solid_delimiter _)
        (List.append_cancel_left heq)
      exact ⟨c, rest, hc, heq⟩

/-! ## Markers as they are written -/

/-- A marker as it is written. Blanks can stand anywhere just inside its delimiters. -/
inductive Wording where
  /-- No name, only blanks. -/
  | bare (blanks : List Char)
  /-- A name. -/
  | plain (lead name trail : List Char)
  /-- A name with parameters. -/
  | full (lead name gap params trail : List Char)

namespace Wording

/-- The text of the marker. -/
def chars : Wording → List Char
  | bare blanks => delimiter ++ (blanks ++ delimiter)
  | plain lead name trail => delimiter ++ (lead ++ (name ++ (trail ++ delimiter)))
  | full lead name gap params trail =>
    delimiter ++ (lead ++ (name ++ (gap ++ (params ++ (trail ++ delimiter)))))

/-- The name is a word, the parameters are trimmed and on one line, and neither holds a star. -/
def Proper : Wording → Prop
  | bare blanks => Blanks blanks
  | plain lead name trail => Blanks lead ∧ Word name ∧ '*' ∉ name ∧ Blanks trail
  | full lead name gap params trail =>
    Blanks lead ∧ Word name ∧ '*' ∉ name ∧ Blanks gap ∧ gap ≠ [] ∧
      Trimmed params ∧ '*' ∉ params ∧ '\n' ∉ params ∧ Blanks trail

/-- The markers that end at their own closing delimiter when another marker stands behind them:
those with parameters, and those with a name right before the closing delimiter. -/
def EndsItself : Wording → Prop
  | bare _ => False
  | plain _ _ trail => trail = []
  | full .. => True

end Wording

/-- No delimiter starts inside a run without stars. -/
theorem afterDelimiter?_of_starless {mid : List Char} (rest : List Char) (hne : mid ≠ [])
    (hstar : '*' ∉ mid) : afterDelimiter? (mid ++ rest) = none := by
  cases mid with
  | nil => exact absurd rfl hne
  | cons c mid =>
    cases h : afterDelimiter? (c :: mid ++ rest) with
    | none => rfl
    | some tail =>
      obtain ⟨rfl, -⟩ := List.cons.inj (afterDelimiter?_eq_some_iff.1 h)
      exact absurd List.mem_cons_self hstar

/-- The body of a marker, behind the blanks it starts with. -/
theorem bodyAt?_of_nameAt? {lead cs : List Char} {found : Found} (hlead : Blanks lead)
    (hcs : Solid cs) (h : nameAt? cs = some found) : bodyAt? (lead ++ cs) = some found := by
  rw [bodyAt?_eq, (hlead.span hcs).2, h, Option.some_or]

/-- A name without stars ends at the delimiter right behind it. -/
theorem nameAt?_of_delimiter {name : List Char} (rest : List Char) (hname : Word name)
    (hstar : '*' ∉ name) :
    nameAt? (name ++ (delimiter ++ rest)) = some ⟨some name, none, rest⟩ := by
  have hshort : shortName? (name ++ (delimiter ++ rest)) = some ⟨some name, none, rest⟩ := by
    refine shortestRun_of_least hname.ne_nil (fun c hc => by simp [hname.not_isBlank c hc]) ?_
      fun run' mid _ hmid heq => ?_
    · rw [endedName?, afterDelimiter?_delimiter]
      simp
    · have hmem : '*' ∉ mid := fun h => hstar (heq ▸ List.mem_append_right run' h)
      rw [endedName?, afterDelimiter?_of_starless _ hmid hmem, Option.map_none]
  rw [nameAt?_eq, hshort, Option.some_or]

/-- A name without stars is a whole word, if blanks stand behind it. -/
theorem nameAt?_of_blanks {name gap : List Char} (rest : List Char) (hname : Word name)
    (hstar : '*' ∉ name) (hgap : Blanks gap) (hne : gap ≠ []) :
    nameAt? (name ++ (gap ++ rest)) = wholeName? name (gap ++ rest) := by
  cases gap with
  | nil => exact absurd rfl hne
  | cons c gap =>
    have hc : isBlank c = true := hgap c List.mem_cons_self
    have hshort : shortName? (name ++ (c :: gap ++ rest)) = none := by
      rw [shortName?_eq_none_iff]
      intro run tail hrun heq hsolid
      rcases List.append_eq_append_iff.1 heq with ⟨mid, rfl, hmid⟩ | ⟨mid, rfl, rfl⟩
      · -- the run goes on into the blanks, so it stops right before them
        cases mid with
        | nil =>
          rw [← List.nil_append tail, ← hmid]
          exact afterDelimiter?_of_isBlank _ hc
        | cons d mid =>
          obtain ⟨rfl, -⟩ := List.cons.inj hmid
          have := hsolid c (List.mem_append_right _ List.mem_cons_self)
          rw [hc] at this
          cases this
      · -- the run stops inside the name, where no star is, or at its end
        by_cases hmid : mid = []
        · rw [hmid]
          exact afterDelimiter?_of_isBlank _ hc
        · exact afterDelimiter?_of_starless _ hmid fun h => hstar (List.mem_append_right run h)
    have hword : ∀ d ∈ name, (!isBlank d) = true := fun d hd => by simp [hname.not_isBlank d hd]
    have hblank : ∀ d ∈ (c :: gap ++ rest).head?, (!isBlank d) = false := by
      intro d hd
      obtain rfl : c = d := Option.some.inj hd
      rw [hc]
      rfl
    obtain ⟨htake, hdrop⟩ := run_span hword hblank
    rw [nameAt?_eq, hshort, Option.none_or, htake, hdrop, if_neg hname.ne_nil]

/-- Parameters without stars end at the delimiter behind the blanks after them. -/
theorem paramsAt?_of_delimiter {name params trail : List Char} (rest : List Char)
    (hparams : Trimmed params) (hstar : '*' ∉ params) (hline : '\n' ∉ params)
    (htrail : Blanks trail) :
    paramsAt? name (params ++ (trail ++ (delimiter ++ rest))) =
      some ⟨some name, some params, rest⟩ := by
  refine shortestRun_of_least hparams.ne_nil (fun c hc => ?_) ?_ fun run' mid _ hmid heq => ?_
  · have hne : c ≠ '\n' := fun h => hline (h ▸ hc)
    simpa using hne
  · rw [afterClosing?_delimiter htrail]
    simp
  · -- what is left of the parameters ends with a character that is neither blank nor a star
    have hdrop : mid.dropWhile isBlank ≠ [] := by
      rw [ne_eq, List.dropWhile_eq_nil_iff]
      intro hblanks
      have hlast := hparams.last (mid.getLast hmid) (by
        rw [heq, List.getLast?_append_of_ne_nil _ hmid, List.getLast?_eq_some_getLast hmid]
        rfl)
      rw [hblanks _ (List.getLast_mem hmid)] at hlast
      cases hlast
    have hmem : '*' ∉ mid.dropWhile isBlank := fun h =>
      hstar (heq ▸ List.mem_append_right run' (List.dropWhile_subset isBlank h))
    rw [afterClosing?_eq, List.dropWhile_append, if_neg (by simpa using hdrop),
      afterDelimiter?_of_starless _ hdrop hmem]
    rfl

theorem at?_delimiter (cs : List Char) : at? (delimiter ++ cs) = bodyAt? cs := rfl

/-- A marker with a name right before its closing delimiter is found as it was written, whatever
stands behind it. -/
theorem at?_plain {lead name : List Char} (rest : List Char)
    (hw : (Wording.plain lead name []).Proper) :
    at? ((Wording.plain lead name []).chars ++ rest) = some ⟨some name, none, rest⟩ := by
  obtain ⟨hlead, hname, hstar, -⟩ := hw
  have h := bodyAt?_of_nameAt? hlead (hname.solid_append _)
    (nameAt?_of_delimiter rest hname hstar)
  rw [← h, ← at?_delimiter]
  simp [Wording.chars]

/-- A marker with parameters is found as it was written, whatever stands behind it. -/
theorem at?_full {lead name gap params trail : List Char} (rest : List Char)
    (hw : (Wording.full lead name gap params trail).Proper) :
    at? ((Wording.full lead name gap params trail).chars ++ rest) =
      some ⟨some name, some params, rest⟩ := by
  obtain ⟨hlead, hname, hstar, hgap, hne, hparams, hstar', hline, htrail⟩ := hw
  have hat : nameAt? (name ++ (gap ++ (params ++ (trail ++ (delimiter ++ rest))))) =
      some ⟨some name, some params, rest⟩ := by
    rw [nameAt?_of_blanks _ hname hstar hgap hne, wholeName?_eq hgap hne (hparams.solid_append _),
      paramsAt?_of_delimiter rest hparams hstar' hline htrail, Option.some_or]
  have h := bodyAt?_of_nameAt? hlead (hname.solid_append _) hat
  rw [← h, ← at?_delimiter]
  simp [Wording.chars]

/-! ## A marker with another one behind it -/

variable {between : List Char}

/-- Whatever stands before a delimiter on its line can be parameters. -/
theorem paramsAt?_ne_none (name after : List Char) {cs : List Char} (hne : cs ≠ [])
    (hline : '\n' ∉ cs) : paramsAt? name (cs ++ (delimiter ++ after)) ≠ none := by
  intro h
  have hnone := paramsAt?_eq_none_iff.1 h cs (delimiter ++ after) hne rfl hline
  rw [(solid_delimiter after).dropWhile_eq, afterDelimiter?_delimiter] at hnone
  cases hnone

/-- Whatever stands between a word and a delimiter on its line, the word can be a name. -/
theorem wholeName?_ne_none (name after : List Char) {c : Char} {cs : List Char}
    (hc : isBlank c = true) (hline : '\n' ∉ cs) :
    wholeName? name (c :: cs ++ (delimiter ++ after)) ≠ none := by
  have hgap : Blanks (c :: cs.takeWhile isBlank) := List.forall_mem_cons.2 ⟨hc, blanks_takeWhile cs⟩
  have hsplit : c :: cs ++ (delimiter ++ after) =
      (c :: cs.takeWhile isBlank) ++ (cs.dropWhile isBlank ++ (delimiter ++ after)) := by
    rw [List.cons_append, List.cons_append, ← List.append_assoc (cs.takeWhile isBlank),
      List.takeWhile_append_dropWhile]
  rw [hsplit]
  -- with nothing but blanks in between the delimiter closes the marker, and else it follows
  -- parameters
  by_cases htail : cs.dropWhile isBlank = []
  · rw [htail, List.nil_append, wholeName?_eq hgap (List.cons_ne_nil _ _) (solid_delimiter after),
      afterDelimiter?_delimiter]
    simp
  · have hsolid := Solid.append htail (solid_dropWhile cs) (delimiter ++ after)
    have hparams := paramsAt?_ne_none name after htail
      fun h => hline (List.dropWhile_subset isBlank h)
    rw [wholeName?_eq hgap (List.cons_ne_nil _ _) hsolid, ne_eq, Option.or_eq_none_iff]
    exact fun h => hparams h.1

/-- A delimiter with another one behind it on the line is taken for the start of parameters. -/
theorem exists_paramsAt?_delimiter (name after : List Char) (hbetween : '\n' ∉ between) :
    ∃ found, paramsAt? name (delimiter ++ (between ++ (delimiter ++ after))) = some found ∧
      found.rest ≠ between ++ (delimiter ++ after) := by
  have hopen : delimiter ++ between ≠ [] := by simp [delimiter]
  have hline : '\n' ∉ delimiter ++ between := by simpa [delimiter] using hbetween
  have hne := paramsAt?_ne_none name after hopen hline
  rw [List.append_assoc] at hne
  obtain ⟨found, hfound⟩ := Option.ne_none_iff_exists'.1 hne
  refine ⟨found, hfound, fun hrest => ?_⟩
  obtain ⟨params, trail, heq, -, -, hparams, -⟩ := exists_of_paramsAt? (solid_delimiter _) hfound
  -- parameters and a closing delimiter take more than the delimiter they start with
  have hlength := congrArg List.length heq
  have := List.length_pos_iff.mpr hparams.ne_nil
  rw [hrest] at hlength
  simp only [List.length_append] at hlength
  omega

/-- A marker with a name and blanks swallows the start of a marker behind it. -/
theorem exists_at?_plain (after : List Char) {lead name trail : List Char}
    (hw : (Wording.plain lead name trail).Proper) (hne : trail ≠ []) (hbetween : '\n' ∉ between) :
    ∃ found, at? ((Wording.plain lead name trail).chars ++ (between ++ (delimiter ++ after))) =
      some found ∧ found.rest ≠ between ++ (delimiter ++ after) := by
  obtain ⟨hlead, hname, hstar, htrail⟩ := hw
  obtain ⟨found, hparams, hrest⟩ := exists_paramsAt?_delimiter name after hbetween
  have hat : nameAt? (name ++ (trail ++ (delimiter ++ (between ++ (delimiter ++ after))))) =
      some found := by
    rw [nameAt?_of_blanks _ hname hstar htrail hne, wholeName?_eq htrail hne (solid_delimiter _),
      hparams, Option.some_or]
  refine ⟨found, ?_, hrest⟩
  have h := bodyAt?_of_nameAt? hlead (hname.solid_append _) hat
  rw [← h, ← at?_delimiter]
  simp [Wording.chars]

/-- Whatever stands before a delimiter on its line and starts with no blank, a name can start it. -/
theorem nameAt?_ne_none (after : List Char) {cs : List Char} (hne : cs ≠ []) (hsolid : Solid cs)
    (hline : '\n' ∉ cs) : nameAt? (cs ++ (delimiter ++ after)) ≠ none := by
  intro h
  have hnone := shortestRun_eq_none_iff.1 h
  cases hfind : cs.find? isBlank with
  | none =>
    -- everything up to the delimiter is one word
    have hword : ∀ c ∈ cs, (!isBlank c) = true := by simpa using hfind
    have hrun := hnone cs (delimiter ++ after) hne rfl hword
    rw [Option.or_eq_none_iff, Option.map_eq_none_iff, afterClosing?_eq,
      (solid_delimiter after).dropWhile_eq, afterDelimiter?_delimiter] at hrun
    cases hrun.2
  | some c =>
    obtain ⟨hc, word, rest, rfl, hword⟩ := List.find?_eq_some_iff_append.1 hfind
    have hwordNe : word ≠ [] := by
      rintro rfl
      have hsolid : isBlank c = false := hsolid c rfl
      rw [hsolid] at hc
      cases hc
    have hrun := hnone word (c :: rest ++ (delimiter ++ after)) hwordNe (by simp) hword
    have hwhole : wholeName? word (c :: rest ++ (delimiter ++ after)) = none := by
      simpa [wholeName?] using hrun
    have hline : '\n' ∉ rest := fun hmem =>
      hline (List.mem_append_right word (List.mem_cons_of_mem c hmem))
    exact wholeName?_ne_none word after hc hline hwhole

/-- Two delimiters on a line are enough for a name that starts with the first of them. -/
theorem nameAt?_delimiter_ne_none (after : List Char) (hbetween : '\n' ∉ between) :
    nameAt? (delimiter ++ (between ++ (delimiter ++ after))) ≠ none := by
  have hline : '\n' ∉ delimiter ++ between := by simpa [delimiter] using hbetween
  have hname := nameAt?_ne_none after (by simp [delimiter]) (solid_delimiter between) hline
  rwa [List.append_assoc] at hname

theorem name_of_paramsAt? {name cs : List Char} {found : Found}
    (h : paramsAt? name cs = some found) : found.name = some name := by
  obtain ⟨_, _, _, _, _, h⟩ := exists_of_shortestRun h
  obtain ⟨_, _, rfl⟩ := Option.map_eq_some_iff.1 h
  rfl

theorem exists_name_of_nameAt? {cs : List Char} {found : Found} (h : nameAt? cs = some found) :
    ∃ name, found.name = some name := by
  obtain ⟨name, rest, _, _, _, h⟩ := exists_of_shortestRun h
  rcases Option.or_eq_some_iff.1 h with hparams | ⟨-, hplain⟩
  · cases rest with
    | nil => cases hparams
    | cons c rest =>
      obtain ⟨-, hparams⟩ := Option.ite_none_right_eq_some.1 hparams
      obtain ⟨_, _, _, _, hparams⟩ := exists_of_longestRun hparams
      exact ⟨_, name_of_paramsAt? hparams⟩
  · obtain ⟨_, _, rfl⟩ := Option.map_eq_some_iff.1 hplain
    exact ⟨_, rfl⟩

/-- A marker with a name is not a marker without one. -/
theorem Shape.ne_of_name {text name blanks : List Char} {params : Option (List Char)}
    (h : Shape text (some name) params) (hblanks : Blanks blanks) : text ≠ blanks ++ delimiter := by
  -- behind the blanks there is room for the delimiter alone
  have hroom : ∀ {lead after : List Char}, Blanks lead → Word name →
      delimiter.length ≤ after.length → lead ++ (name ++ after) ≠ blanks ++ delimiter := by
    intro lead after hlead hname hafter heq
    obtain ⟨-, heq⟩ :=
      hlead.append_inj hblanks (hname.solid_append after) (solid_delimiter []) heq
    have hlength := congrArg List.length heq
    have := List.length_pos_iff.mpr hname.ne_nil
    simp only [List.length_append, List.length_nil] at hlength
    omega
  cases h with
  | plain hlead hname _ _ => exact hroom hlead hname (by simp)
  | full hlead hname _ _ _ _ _ _ _ =>
    refine hroom hlead hname ?_
    simp only [List.length_append]
    omega

/-- A marker without a name swallows the start of a marker behind it. -/
theorem exists_at?_bare (after : List Char) {blanks : List Char} (hw : (Wording.bare blanks).Proper)
    (hbetween : '\n' ∉ between) :
    ∃ found, at? ((Wording.bare blanks).chars ++ (between ++ (delimiter ++ after))) =
      some found ∧ found.rest ≠ between ++ (delimiter ++ after) := by
  obtain ⟨found, hname⟩ := Option.ne_none_iff_exists'.1 (nameAt?_delimiter_ne_none after hbetween)
  have hat : at? ((Wording.bare blanks).chars ++ (between ++ (delimiter ++ after))) =
      some found := by
    rw [← bodyAt?_of_nameAt? hw (solid_delimiter _) hname, ← at?_delimiter]
    simp [Wording.chars]
  refine ⟨found, hat, fun hrest => ?_⟩
  -- the marker that is found has a name, for which the written one has no room
  obtain ⟨name, hname⟩ := exists_name_of_nameAt? hname
  obtain ⟨text, heq, hshape⟩ := shape_of_at? hat
  rw [hname] at hshape
  rw [hrest] at heq
  refine hshape.ne_of_name hw ?_
  have := List.append_cancel_right heq
  exact (List.append_cancel_left this).symm

/-- A marker is found where it was written, and ends where it was written to end exactly if its
wording keeps it from the marker behind it. -/
theorem exists_at?_wording {w : Wording} (after : List Char) (hw : w.Proper)
    (hbetween : '\n' ∉ between) :
    ∃ found, at? (w.chars ++ (between ++ (delimiter ++ after))) = some found ∧
      (found.rest = between ++ (delimiter ++ after) ↔ w.EndsItself) := by
  cases w with
  | bare blanks =>
    obtain ⟨found, hat, hrest⟩ := exists_at?_bare after hw hbetween
    exact ⟨found, hat, iff_of_false hrest id⟩
  | plain lead name trail =>
    by_cases hne : trail = []
    · subst hne
      exact ⟨_, at?_plain _ hw, iff_of_true rfl rfl⟩
    · obtain ⟨found, hat, hrest⟩ := exists_at?_plain after hw hne hbetween
      exact ⟨found, hat, iff_of_false hrest hne⟩
  | full lead name gap params trail => exact ⟨_, at?_full _ hw, iff_of_true rfl trivial⟩

/-! ## The markers of a line -/

/-- A marker does not start at another character than a star. -/
theorem at?_of_ne_star {c : Char} (cs : List Char) (hc : c ≠ '*') : at? (c :: cs) = none := by
  have hstar : '*' ∉ [c] := fun h => hc (List.mem_singleton.mp h).symm
  rw [at?, ← List.singleton_append, afterDelimiter?_of_starless cs (List.cons_ne_nil _ _) hstar,
    Option.bind_none]

/-- The first marker of a text that has no stars before it. -/
theorem next?_of_at? {before cs : List Char} {found : Found} (hbefore : '*' ∉ before)
    (hat : at? cs = some found) : next? (before ++ cs) = some (before, found) := by
  induction before with
  | nil =>
    cases cs with
    | nil => cases hat
    | cons c cs => rw [List.nil_append, next?, hat]
  | cons c before ih =>
    have hc : c ≠ '*' := fun h => hbefore (h ▸ List.mem_cons_self)
    rw [List.cons_append, next?, at?_of_ne_star _ hc,
      ih fun hmem => hbefore (List.mem_cons_of_mem c hmem)]
    rfl

/-- A line is cut at its first marker, and then behind that. -/
theorem ofChars_of_next? {cs gap : List Char} {found : Found} (h : next? cs = some (gap, found)) :
    Line.ofChars cs =
      ⟨(String.ofList gap, ofFound (cs.drop gap.length) found) :: (Line.ofChars found.rest).cuts,
        (Line.ofChars found.rest).tail⟩ := by
  rw [Line.ofChars]
  split
  next hnone =>
    rw [h] at hnone
    cases hnone
  next gap' found' hsome =>
    rw [h] at hsome
    cases hsome
    rfl

/-- A line without a marker is not cut. -/
theorem ofChars_of_next?_eq_none {cs : List Char} (h : next? cs = none) :
    Line.ofChars cs = ⟨[], String.ofList cs⟩ := by
  rw [Line.ofChars]
  split
  · rfl
  next hsome =>
    rw [h] at hsome
    cases hsome

/-- The first cut of a text is its first marker. -/
theorem cuts_of_next? {cs gap : List Char} {found : Found} (h : next? cs = some (gap, found)) :
    (Line.ofChars cs).cuts =
      (String.ofList gap, ofFound (cs.drop gap.length) found) ::
        (Line.ofChars found.rest).cuts :=
  congrArg Line.cuts (ofChars_of_next? h)

/-- **Which markers end at their own delimiter.** A captured name holds a delimiter exactly if one
stands behind the blanks the marker starts with, followed by something else than a star; captured
parameters hold one exactly if one stands so behind the blanks after the name. So the first of two
markers on a line, the second of which starts with any delimiter, ends where it was written to end
exactly if it has parameters, or a name and no blanks behind it. -/
theorem ends_at_own_delimiter_iff (t : String) (before between after : List Char)
    (first : Wording) :
    (∀ cut ∈ (Line.ofText t).cuts,
      ((∃ name, cut.2.name = some name ∧ delimiter <:+: name.toList) ↔
        ∃ lead c rest, Blanks lead ∧ c ≠ '*' ∧
          cut.2.text.toList = delimiter ++ lead ++ delimiter ++ c :: rest) ∧
      ((∃ params, cut.2.params = some params ∧ delimiter <:+: params.toList) ↔
        ∃ lead name gap c rest, Blanks lead ∧ cut.2.name = some (String.ofList name) ∧
          Blanks gap ∧ gap ≠ [] ∧ c ≠ '*' ∧
          cut.2.text.toList = delimiter ++ lead ++ name ++ gap ++ delimiter ++ c :: rest)) ∧
    ('*' ∉ before → first.Proper → '\n' ∉ between →
      ∃ cut cuts,
        (Line.ofText (String.ofList
          (before ++ (first.chars ++ (between ++ (delimiter ++ after)))))).cuts = cut :: cuts ∧
        cut.1 = String.ofList before ∧
        (cut.2.text = String.ofList first.chars ↔ first.EndsItself)) := by
  constructor
  · intro cut hcut
    obtain ⟨text, name, params, h⟩ := exists_reads_of_mem_cuts hcut
    have htext : cut.2.text.toList = delimiter ++ text := by
      rw [h.text_eq, String.toList_ofList]
    rw [htext, h.name_eq, h.params_eq]
    constructor
    · simpa [String.toList_ofList] using h.shape.delimiter_in_name_iff
    · simpa [String.toList_ofList, String.ofList_inj] using h.shape.delimiter_in_params_iff
  · intro hbefore hfirst hbetween
    obtain ⟨found, hat, hrest⟩ := exists_at?_wording after hfirst hbetween
    obtain ⟨text, heq, -⟩ := shape_of_at? hat
    have hcuts := cuts_of_next? (next?_of_at? hbefore hat)
    rw [Line.ofText, String.toList_ofList]
    refine ⟨_, _, hcuts, rfl, ?_⟩
    -- what the marker takes off the text is its wording exactly if it leaves what stands behind it
    rw [List.drop_left, heq, text_ofFound, String.ofList_inj, ← hrest]
    constructor
    · intro htext
      rw [htext] at heq
      exact (List.append_cancel_left heq).symm
    · intro htail
      rw [htail] at heq
      exact (List.append_cancel_right heq).symm

/-- A name and a blank: the marker goes on to the start of the next one. -/
theorem ends_at_own_delimiter_iff_date :
    ∃ cut cuts, (Line.ofText "***date *** to ***today***").cuts = cut :: cuts ∧
      cut.2.params = some "*** to" ∧ cut.2.text ≠ "***date ***" := by
  have hline : (Line.ofText "***date *** to ***today***").cuts =
      [("", ⟨"***date *** to ***", some "date", some "*** to"⟩)] := by
    decide +kernel
  have hproper : (Wording.plain [] "date".toList [' ']).Proper :=
    ⟨by decide, by decide, by decide, by decide⟩
  obtain ⟨cut, cuts, hcuts, -, hiff⟩ := (ends_at_own_delimiter_iff "" [] " to ".toList
    "today***".toList (.plain [] "date".toList [' '])).2 (by decide) hproper (by decide)
  have htext : String.ofList ([] ++ ((Wording.plain [] "date".toList [' ']).chars ++
      (" to ".toList ++ (delimiter ++ "today***".toList)))) = "***date *** to ***today***" := by
    decide
  rw [htext] at hcuts
  refine ⟨cut, cuts, hcuts, ?_, fun heq => ?_⟩
  · obtain ⟨rfl, -⟩ := List.cons.inj (hline.symm.trans hcuts)
    rfl
  · exact absurd (hiff.1 heq) (List.cons_ne_nil _ _)

end Webcomic.Marker
