import Webcomic.Proofs.Marker.Grammar
import Webcomic.Proofs.Text.Words

/-!
# What a marker captures

A marker that was found has one of three shapes. `shape_of_at?` reads them off the closed forms of
the search, and what its name and its parameters can be follows from the shapes alone:

- `Shape`: no name, a name and blanks, or a name with parameters.
- `params_trimmed_iff`: parameters are absent or trimmed, except in a marker that holds a name and
  more blanks than one, the later ones not only newlines. There they are the last such blank.
-/

namespace Webcomic.Marker

open Text

/-! ## Blanks, words and trimmed texts -/

/-- Nothing but blanks. -/
def Blanks (cs : List Char) : Prop :=
  ∀ c ∈ cs, isBlank c = true

/-- A text that does not start with a blank. -/
def Solid (cs : List Char) : Prop :=
  ∀ c ∈ cs.head?, isBlank c = false

instance : DecidablePred Blanks := fun _ =>
  decidable_of_iff _ List.all_eq_true

/-- One word: at least one character, and none of them blank. -/
structure Word (cs : List Char) : Prop where
  ne_nil : cs ≠ []
  not_isBlank : ∀ c ∈ cs, isBlank c = false

instance : DecidablePred Word := fun cs =>
  decidable_of_iff (cs.isEmpty = false ∧ (cs.all fun c => !isBlank c) = true) <| by
    constructor
    · rintro ⟨hne, hall⟩
      exact ⟨List.isEmpty_eq_false_iff.1 hne, by simpa using hall⟩
    · rintro ⟨hne, hall⟩
      exact ⟨List.isEmpty_eq_false_iff.2 hne, by simpa using hall⟩

/-- At least one character, and neither the first nor the last of them blank. -/
structure Trimmed (cs : List Char) : Prop where
  ne_nil : cs ≠ []
  first : Solid cs
  last : ∀ c ∈ cs.getLast?, isBlank c = false

theorem blanks_nil : Blanks [] :=
  fun _ hc => absurd hc List.not_mem_nil

theorem Solid.append {cs : List Char} (hne : cs ≠ []) (h : Solid cs) (rest : List Char) :
    Solid (cs ++ rest) := by
  cases cs with
  | nil => exact absurd rfl hne
  | cons c cs => exact h

theorem solid_delimiter (rest : List Char) : Solid (delimiter ++ rest) := by
  intro c hc
  obtain rfl : c = '*' := by simpa [delimiter] using hc.symm
  exact not_isBlank_star

theorem Word.solid_append {cs : List Char} (h : Word cs) (rest : List Char) : Solid (cs ++ rest) :=
  Solid.append h.ne_nil (fun c hc => h.not_isBlank c (List.mem_of_mem_head? hc)) rest

theorem Trimmed.solid_append {cs : List Char} (h : Trimmed cs) (rest : List Char) :
    Solid (cs ++ rest) :=
  Solid.append h.ne_nil h.first rest

/-- A run of blanks is taken off whole, and nothing more than it. -/
theorem Blanks.span {blanks rest : List Char} (hblanks : Blanks blanks) (hrest : Solid rest) :
    (blanks ++ rest).takeWhile isBlank = blanks ∧ (blanks ++ rest).dropWhile isBlank = rest :=
  run_span hblanks hrest

theorem Solid.dropWhile_eq {cs : List Char} (h : Solid cs) : cs.dropWhile isBlank = cs :=
  (blanks_nil.span h).2

/-- A text starts with one run of blanks. -/
theorem Blanks.append_inj {blanks blanks' rest rest' : List Char} (hblanks : Blanks blanks)
    (hblanks' : Blanks blanks') (hrest : Solid rest) (hrest' : Solid rest')
    (heq : blanks ++ rest = blanks' ++ rest') : blanks = blanks' ∧ rest = rest' :=
  run_append_inj hblanks hblanks' hrest hrest' heq

theorem blanks_takeWhile (cs : List Char) : Blanks (cs.takeWhile isBlank) :=
  List.all_eq_true.mp List.all_takeWhile

theorem solid_dropWhile (cs : List Char) : Solid (cs.dropWhile isBlank) := by
  intro c hc
  have h := List.head?_dropWhile_not isBlank cs
  rw [Option.mem_def.1 hc] at h
  simpa using h

/-- A delimiter is found by the search for a closing one. -/
theorem afterClosing?_delimiter {blanks : List Char} (hblanks : Blanks blanks)
    (rest : List Char) : afterClosing? (blanks ++ (delimiter ++ rest)) = some rest := by
  rw [afterClosing?_eq, (hblanks.span (solid_delimiter rest)).2, afterDelimiter?_eq_some_iff]

/-- Where no closing delimiter is found, there is no delimiter either. -/
theorem afterDelimiter?_eq_none_of_afterClosing? {cs : List Char} (h : afterClosing? cs = none) :
    afterDelimiter? cs = none := by
  cases hopen : afterDelimiter? cs with
  | none => rfl
  | some rest =>
    rw [afterDelimiter?_eq_some_iff.1 hopen, ← List.nil_append (delimiter ++ rest),
      afterClosing?_delimiter blanks_nil] at h
    cases h

/-! ## The first delimiter -/

/-- A run that ends at the first delimiter behind its first character. -/
def UpToDelimiter (run after : List Char) : Prop :=
  ∀ a b, a ≠ [] → run ++ after = a ++ delimiter ++ b → run.length ≤ a.length

/-- A run ends at the first delimiter if none was found after a shorter run. -/
theorem upToDelimiter_of_none {run after : List Char} (rest : List Char)
    (h : ∀ a mid, a ≠ [] → mid ≠ [] → run = a ++ mid →
      afterDelimiter? (mid ++ (after ++ rest)) = none) : UpToDelimiter run after := by
  intro a b ha heq
  by_cases hlength : run.length ≤ a.length
  · exact hlength
  · rw [List.append_assoc, List.append_eq_append_iff] at heq
    rcases heq with ⟨mid, rfl, -⟩ | ⟨mid, rfl, hmid⟩
    · exact absurd (by simp) hlength
    · -- the delimiter starts inside the run, so the search would have stopped there
      have hne : mid ≠ [] := by
        rintro rfl
        simp at hlength
      have hfound : afterDelimiter? (mid ++ (after ++ rest)) = some (b ++ rest) := by
        rw [afterDelimiter?_eq_some_iff, ← List.append_assoc, ← hmid, List.append_assoc]
      rw [h a mid ha hne rfl] at hfound
      cases hfound

/-! ## The shapes of a marker -/

/-- **The shapes of a marker.** `Shape text name params`: what follows the opening delimiter up to
the end of the closing one, with what the marker captures of it. -/
inductive Shape : List Char → Option (List Char) → Option (List Char) → Prop where
  /-- Nothing but blanks. -/
  | bare {lead : List Char} : Blanks lead → Shape (lead ++ delimiter) none none
  /-- A name and blanks. The last of them that can be is taken for parameters, but never the one
  that separates them from the name. -/
  | plain {lead name gap : List Char} : Blanks lead → Word name → Blanks gap →
      UpToDelimiter name (gap ++ delimiter) →
      Shape (lead ++ (name ++ (gap ++ delimiter))) (some name) ((lastInline? gap.tail).map ([·]))
  /-- A name with parameters. -/
  | full {lead name gap params trail : List Char} : Blanks lead → Word name → Blanks gap →
      gap ≠ [] → Trimmed params → '\n' ∉ params → Blanks trail →
      UpToDelimiter name (gap ++ (params ++ (trail ++ delimiter))) →
      UpToDelimiter params (trail ++ delimiter) →
      Shape (lead ++ (name ++ (gap ++ (params ++ (trail ++ delimiter))))) (some name) (some params)

/-- Parameters that are as short as they can be are trimmed: a blank at their end would have been
left to the search for the closing delimiter. -/
theorem trimmed_of_shortest {params rest after : List Char} (hne : params ≠ [])
    (hhead : Solid params) (hclosing : afterClosing? rest = some after)
    (hshorter : ∀ run mid, run ≠ [] → mid ≠ [] → params = run ++ mid →
      afterClosing? (mid ++ rest) = none) : Trimmed params := by
  refine ⟨hne, hhead, ?_⟩
  intro c hc
  obtain ⟨init, rfl⟩ : ∃ init, params = init ++ [c] :=
    ⟨params.dropLast, (List.dropLast_append_getLast? c hc).symm⟩
  cases hblank : isBlank c with
  | false => rfl
  | true =>
    cases init with
    | nil => exact hblank ▸ hhead c rfl
    | cons d init =>
      have hnone := hshorter (d :: init) [c] (List.cons_ne_nil _ _) (List.cons_ne_nil _ _) rfl
      rw [List.singleton_append, afterClosing?_eq, List.dropWhile_cons_of_pos hblank,
        ← afterClosing?_eq, hclosing] at hnone
      cases hnone

/-- Parameters behind all blanks are trimmed, and end at the first delimiter. -/
theorem exists_of_paramsAt? {name cs : List Char} {found : Found} (hcs : Solid cs)
    (h : paramsAt? name cs = some found) :
    ∃ params trail, cs = params ++ (trail ++ (delimiter ++ found.rest)) ∧
      found.name = some name ∧ found.params = some params ∧ Trimmed params ∧ '\n' ∉ params ∧
      Blanks trail ∧ UpToDelimiter params (trail ++ delimiter) := by
  obtain ⟨params, rest, hne, rfl, hinline, hnext, hleast⟩ := exists_least_of_shortestRun h
  obtain ⟨after, hafter, rfl⟩ := Option.map_eq_some_iff.1 hnext
  have hclosing : afterClosing? rest = some after := hafter
  rw [afterClosing?_eq, afterDelimiter?_eq_some_iff] at hafter
  have hsplit : rest = rest.takeWhile isBlank ++ (delimiter ++ after) := by
    rw [← hafter, List.takeWhile_append_dropWhile]
  -- fewer characters were tried before, and nothing closed the marker behind them
  have hshorter : ∀ run' mid, run' ≠ [] → mid ≠ [] → params = run' ++ mid →
      afterClosing? (mid ++ rest) = none := fun run' mid hrun' hmid heq =>
    Option.map_eq_none_iff.1 (hleast run' mid hrun' hmid heq)
  have hhead : Solid params := by
    cases params with
    | nil => exact absurd rfl hne
    | cons c params => exact hcs
  have htrimmed := trimmed_of_shortest hne hhead hclosing hshorter
  refine ⟨params, rest.takeWhile isBlank, ?_, rfl, by simp, htrimmed, ?_, blanks_takeWhile rest, ?_⟩
  · exact congrArg (params ++ ·) hsplit
  · -- a newline cannot be captured
    intro hmem
    simpa using hinline '\n' hmem
  · refine upToDelimiter_of_none after fun a mid ha hmid heq => ?_
    rw [List.append_assoc, ← hsplit]
    exact afterDelimiter?_eq_none_of_afterClosing? (hshorter a mid ha hmid heq)

/-- Behind a name that is a whole word and the blanks after it stand parameters, or else a
delimiter. -/
theorem wholeName?_eq {name gap rest : List Char} (hgap : Blanks gap) (hne : gap ≠ [])
    (hrest : Solid rest) :
    wholeName? name (gap ++ rest) = (paramsAt? name rest).or
      ((afterDelimiter? rest).map (⟨some name, (lastInline? gap.tail).map ([·]), ·⟩)) := by
  cases gap with
  | nil => exact absurd rfl hne
  | cons c gap =>
    have htail : Blanks gap := fun x hx => hgap x (List.mem_cons_of_mem _ hx)
    have hclosing : afterClosing? (c :: gap ++ rest) = afterDelimiter? rest := by
      rw [afterClosing?_eq, (hgap.span hrest).2]
    have hc : isBlank c = true := hgap c List.mem_cons_self
    rw [wholeName?, hclosing, List.cons_append, blanksAndParamsAt?_eq _ _ hc,
      (htail.span hrest).1, (htail.span hrest).2, Option.or_assoc, List.tail_cons]
    congr 1
    cases lastInline? gap <;> cases afterDelimiter? rest <;> rfl

/-- A name that ends inside its word ends at the first delimiter. -/
theorem shape_of_shortName? {lead cs : List Char} {found : Found} (hlead : Blanks lead)
    (h : shortName? cs = some found) :
    ∃ text, cs = text ++ found.rest ∧ Shape (lead ++ text) found.name found.params := by
  obtain ⟨name, rest, hne, rfl, hname, hnext, hleast⟩ := exists_least_of_shortestRun h
  obtain ⟨after, hafter, rfl⟩ := Option.map_eq_some_iff.1 hnext
  obtain rfl := afterDelimiter?_eq_some_iff.1 hafter
  have hword : Word name := ⟨hne, fun c hc => by simpa using hname c hc⟩
  have hfirst : UpToDelimiter name ([] ++ delimiter) :=
    upToDelimiter_of_none after fun a mid ha hmid heq =>
      Option.map_eq_none_iff.1 (hleast a mid ha hmid heq)
  refine ⟨name ++ delimiter, by simp, ?_⟩
  show Shape _ (some (name.reverse ++ []).reverse) none
  rw [List.append_nil, List.reverse_reverse]
  exact .plain hlead hword blanks_nil hfirst

/-- A name that is a whole word is followed by blanks, and by parameters if they are found. -/
theorem shape_of_wholeName? {lead name after : List Char} {found : Found} (hlead : Blanks lead)
    (hname : Word name) (hshort : shortName? (name ++ after) = none)
    (h : wholeName? name after = some found) :
    ∃ text, name ++ after = text ++ found.rest ∧
      Shape (lead ++ text) found.name found.params := by
  -- a delimiter inside the word would have ended the name
  have hfirst : ∀ rest tail, after = tail ++ rest → UpToDelimiter name tail := by
    rintro rest tail rfl
    refine upToDelimiter_of_none rest fun a mid ha _ heq => ?_
    refine shortName?_eq_none_iff.1 hshort a _ ha (by rw [heq, List.append_assoc]) fun c hc => ?_
    exact hname.not_isBlank c (heq ▸ List.mem_append_left mid hc)
  obtain ⟨gap, rest, rfl, hgap, hrest⟩ :
      ∃ gap rest, after = gap ++ rest ∧ Blanks gap ∧ Solid rest :=
    ⟨_, _, List.takeWhile_append_dropWhile.symm, blanks_takeWhile after, solid_dropWhile after⟩
  by_cases hne : gap = []
  · -- no blanks: the delimiter right behind the word would have ended the name too
    subst hne
    have hnone : afterDelimiter? rest = none :=
      shortName?_eq_none_iff.1 hshort name rest hname.ne_nil rfl hname.not_isBlank
    have hhead : blanksAndParamsAt? name rest = none := by
      cases rest with
      | nil => rfl
      | cons c rest => exact blanksAndParamsAt?_of_not_isBlank name rest (hrest c rfl)
    rw [List.nil_append, wholeName?, hhead, Option.none_or, afterClosing?_eq,
      hrest.dropWhile_eq, hnone] at h
    cases h
  · rw [wholeName?_eq hgap hne hrest] at h
    rcases Option.or_eq_some_iff.1 h with hparams | ⟨-, hplain⟩
    · obtain ⟨params, trail, heq, hn, hp, htrimmed, hinline, htrail, hupto⟩ :=
        exists_of_paramsAt? hrest hparams
      refine ⟨name ++ (gap ++ (params ++ (trail ++ delimiter))), by simp [heq], ?_⟩
      rw [hn, hp]
      exact .full hlead hname hgap hne htrimmed hinline htrail
        (hfirst found.rest _ (by simp [heq])) hupto
    · obtain ⟨tail, htail, rfl⟩ := Option.map_eq_some_iff.1 hplain
      obtain rfl := afterDelimiter?_eq_some_iff.1 htail
      refine ⟨name ++ (gap ++ delimiter), by simp, ?_⟩
      exact .plain hlead hname hgap (hfirst tail _ (by simp))

/-- **Every marker that is found has a shape.** -/
theorem shape_of_at? {cs : List Char} {found : Found} (h : at? cs = some found) :
    ∃ text, cs = delimiter ++ text ++ found.rest ∧ Shape text found.name found.params := by
  obtain ⟨body, hbody, hfound⟩ := Option.bind_eq_some_iff.1 h
  obtain rfl := afterDelimiter?_eq_some_iff.1 hbody
  have hlead := blanks_takeWhile body
  have hsplit : body.takeWhile isBlank ++ body.dropWhile isBlank = body :=
    List.takeWhile_append_dropWhile
  -- the blanks in front are skipped, and have to be put back
  suffices hshape : ∃ text, body.dropWhile isBlank = text ++ found.rest ∧
      Shape (body.takeWhile isBlank ++ text) found.name found.params by
    obtain ⟨text, heq, hshape⟩ := hshape
    refine ⟨_, ?_, hshape⟩
    rw [List.append_assoc, List.append_assoc, ← heq, hsplit]
  rw [bodyAt?_eq] at hfound
  rcases Option.or_eq_some_iff.1 hfound with hname | ⟨-, hbare⟩
  · rw [nameAt?_eq] at hname
    rcases Option.or_eq_some_iff.1 hname with hshort | ⟨hshort, hwhole⟩
    · exact shape_of_shortName? hlead hshort
    · obtain ⟨hne, hwhole⟩ := Option.ite_none_left_eq_some.1 hwhole
      have hword : Word ((body.dropWhile isBlank).takeWhile fun c => !isBlank c) := by
        refine ⟨hne, fun c hc => ?_⟩
        simpa using List.all_eq_true.mp List.all_takeWhile c hc
      have hcut : (body.dropWhile isBlank).takeWhile (fun c => !isBlank c) ++
          (body.dropWhile isBlank).dropWhile (fun c => !isBlank c) = body.dropWhile isBlank :=
        List.takeWhile_append_dropWhile
      rw [← hcut] at hshort
      rw [← hcut]
      exact shape_of_wholeName? hlead hword hshort hwhole
  · obtain ⟨rest, hrest, rfl⟩ := Option.map_eq_some_iff.1 hbare
    exact ⟨delimiter, afterDelimiter?_eq_some_iff.1 hrest, .bare hlead⟩

/-! ## The markers of a line -/

theorem at?_of_next? {cs gap : List Char} {found : Found} (h : next? cs = some (gap, found)) :
    ∃ tail, cs = gap ++ tail ∧ at? tail = some found := by
  induction cs generalizing gap with
  | nil => cases h
  | cons c cs ih =>
    unfold next? at h
    split at h
    next hat =>
      cases h
      exact ⟨c :: cs, rfl, hat⟩
    next =>
      obtain ⟨⟨gap', found'⟩, hnext, heq⟩ := Option.map_eq_some_iff.1 h
      cases heq
      obtain ⟨tail, rfl, hat⟩ := ih hnext
      exact ⟨tail, rfl, hat⟩

/-- The text of a marker that was found is what it takes off the text it heads. -/
theorem text_ofFound (text : List Char) (found : Found) :
    (ofFound (text ++ found.rest) found).text = String.ofList text := by
  simp [ofFound]

/-- A marker as its shape says it is: the text behind its opening delimiter, and its captures. -/
structure Reads (marker : Marker) (text : List Char) (name params : Option (List Char)) : Prop where
  text_eq : marker.text = String.ofList (delimiter ++ text)
  name_eq : marker.name = name.map String.ofList
  params_eq : marker.params = params.map String.ofList
  shape : Shape text name params

/-- Every marker of a text has a shape. -/
theorem exists_reads_of_mem_cuts {cs : List Char} {cut : String × Marker}
    (h : cut ∈ (Line.ofChars cs).cuts) : ∃ text name params, Reads cut.2 text name params := by
  -- on the length of the text: a marker leaves a shorter one to the markers behind it
  induction hn : cs.length using Nat.strongRecOn generalizing cs with
  | ind n ih =>
    rw [Line.ofChars] at h
    split at h
    next => cases h
    next gap found hnext =>
      rcases List.mem_cons.mp h with rfl | hlater
      · obtain ⟨tail, rfl, hat⟩ := at?_of_next? hnext
        obtain ⟨text, rfl, hshape⟩ := shape_of_at? hat
        refine ⟨text, found.name, found.params, ?_, rfl, rfl, hshape⟩
        show (ofFound (List.drop _ _) found).text = _
        rw [List.drop_left, text_ofFound]
      · have := length_rest_next? hnext
        exact ih found.rest.length (by omega) hlater rfl

/-! ## Parameters are trimmed, except behind a name alone -/

/-- A marker that holds a name with blanks around it, and nothing else. -/
structure NameAndBlanks (marker : Marker) (lead name gap : List Char) : Prop where
  blanks_lead : Blanks lead
  blanks_gap : Blanks gap
  name_eq : marker.name = some (String.ofList name)
  text_eq : marker.text.toList = delimiter ++ lead ++ name ++ gap ++ delimiter

/-- In a marker of a name and blanks, the parameters are the last blank that can be. -/
theorem Shape.params_of_blanks {text lead name gap : List Char} {params : Option (List Char)}
    (h : Shape text (some name) params) (hlead : Blanks lead) (hgap : Blanks gap)
    (htext : text = lead ++ (name ++ (gap ++ delimiter))) :
    params = (lastInline? gap.tail).map ([·]) := by
  cases h with
  | plain hlead' hname hgap' _ =>
    obtain ⟨-, heq⟩ :=
      hlead'.append_inj hlead (hname.solid_append _) (hname.solid_append _) htext
    obtain rfl := List.append_cancel_right (List.append_cancel_left heq)
    rfl
  | @full _ _ _ params trail hlead' hname hgap' _ hparams _ _ _ _ =>
    obtain ⟨-, heq⟩ :=
      hlead'.append_inj hlead (hname.solid_append _) (hname.solid_append _) htext
    obtain ⟨-, heq⟩ := hgap'.append_inj hgap (hparams.solid_append _) (solid_delimiter [])
      (List.append_cancel_left heq)
    -- no room is left for parameters before the closing delimiter
    have hlength := congrArg List.length heq
    have := List.length_pos_iff.mpr hparams.ne_nil
    simp only [List.length_append, List.length_nil] at hlength
    omega

theorem Reads.shape_of_nameAndBlanks {marker : Marker} {text lead name gap : List Char}
    {name' params : Option (List Char)} (h : Reads marker text name' params)
    (hm : marker.NameAndBlanks lead name gap) : params = (lastInline? gap.tail).map ([·]) := by
  have hname : name' = some name := by
    have := h.name_eq.symm.trans hm.name_eq
    obtain ⟨cs, rfl, hcs⟩ := Option.map_eq_some_iff.1 this
    rw [String.ofList_injective hcs]
  have htext : text = lead ++ (name ++ (gap ++ delimiter)) := by
    have := hm.text_eq
    rw [h.text_eq, String.toList_ofList] at this
    simpa using this
  rw [hname] at h
  exact h.shape.params_of_blanks hm.blanks_lead hm.blanks_gap htext

/-- **Parameters are trimmed, with one exception.** The parameters of a marker are absent or
trimmed, exactly if it is not a name with blanks behind it of which one after the first is no
newline. The parameters of a name with blanks are the last such blank. -/
theorem params_trimmed_iff (t : String) :
    ∀ cut ∈ (Line.ofText t).cuts,
      ((∀ params, cut.2.params = some params → Trimmed params.toList) ↔
        ∀ lead name gap, cut.2.NameAndBlanks lead name gap → ∀ c ∈ gap.tail, c = '\n') ∧
      ∀ lead name gap, cut.2.NameAndBlanks lead name gap →
        cut.2.params = (lastInline? gap.tail).map fun c => String.ofList [c] := by
  intro cut hcut
  obtain ⟨text, name, params, h⟩ := exists_reads_of_mem_cuts hcut
  have hblanks : ∀ lead name gap, cut.2.NameAndBlanks lead name gap →
      cut.2.params = (lastInline? gap.tail).map fun c => String.ofList [c] := by
    intro lead name gap hm
    rw [h.params_eq, h.shape_of_nameAndBlanks hm, Option.map_map]
    rfl
  refine ⟨?_, hblanks⟩
  constructor
  · intro htrimmed lead name gap hm
    rw [← lastInline?_eq_none_iff]
    cases hlast : lastInline? gap.tail with
    | none => rfl
    | some c =>
      have hparams := hblanks lead name gap hm
      rw [hlast] at hparams
      have hmem : c ∈ gap := List.mem_of_mem_tail (mem_of_lastInline? hlast)
      have hblank : isBlank c = true := hm.blanks_gap c hmem
      -- a blank that was captured would have to be trimmed
      have := (htrimmed _ hparams).first c (by simp)
      rw [hblank] at this
      cases this
  · intro hnewlines ps hps
    have hcaptured := h.params_eq.symm.trans hps
    have hshape := h.shape
    cases hshape with
    | bare => cases hcaptured
    | @plain lead name gap hlead hname hgap _ =>
      have hm : cut.2.NameAndBlanks lead name gap :=
        ⟨hlead, hgap, h.name_eq, by rw [h.text_eq, String.toList_ofList]; simp⟩
      rw [lastInline?_eq_none_iff.2 (hnewlines lead name gap hm)] at hcaptured
      cases hcaptured
    | full _ _ _ _ hparams _ _ _ _ =>
      obtain rfl := Option.some.inj hcaptured
      rwa [String.toList_ofList]

/-- A name and two blanks: the second blank becomes the parameters. -/
theorem params_trimmed_iff_two_blanks :
    ∃ cut ∈ (Line.ofText "***a  ***").cuts,
      cut.2.NameAndBlanks [] ['a'] [' ', ' '] ∧ cut.2.params = some " " ∧
        ¬ ∀ params, cut.2.params = some params → Trimmed params.toList := by
  have hline : Line.ofText "***a  ***" = ⟨[("", ⟨"***a  ***", some "a", some " "⟩)], ""⟩ := by
    decide +kernel
  have hcut : ("", ⟨"***a  ***", some "a", some " "⟩) ∈ (Line.ofText "***a  ***").cuts := by
    rw [hline]
    exact List.mem_singleton_self _
  have hm : NameAndBlanks ⟨"***a  ***", some "a", some " "⟩ [] ['a'] [' ', ' '] :=
    ⟨by decide, by decide, rfl, by decide⟩
  refine ⟨_, hcut, hm, rfl, fun htrimmed => ?_⟩
  have hnewline := (params_trimmed_iff _ _ hcut).1.1 htrimmed _ _ _ hm ' ' List.mem_cons_self
  exact absurd hnewline (by decide)

end Webcomic.Marker
