import Webcomic.Proofs.Files.Names

/-!
# A name behind a directory

A name can be put behind a directory as a text, or be seen from it as a path. If the directory is
empty or ends in a slash, both are one text (`Path.join_append`). Otherwise the name and the last
name of the directory run together in the text, and the two paths are not the same, name by name
(`Path.sameText_join_append_iff`).
-/

namespace Webcomic.Files

open Text

namespace Path

variable {p base dir name : Path}

/-! ## Joining as putting behind -/

/-- What is seen from a directory stands behind nothing or behind a slash. -/
theorem exists_join_eq (base : Path) :
    ∃ front : String, (front.toList = [] ∨ front.toList.getLast? = some '/') ∧
      ∀ p : Path, p.isAbsolute = false → base.join p = front ++ p := by
  by_cases h : (base.isEmpty || base.endsInSlash) = true
  · refine ⟨base, ?_, fun p hp => ?_⟩
    · simpa [endsInSlash] using h
    · simp [join, hp, h]
  · refine ⟨base ++ "/", .inr ?_, fun p hp => ?_⟩
    · simp [String.toList_append]
    · simp [join, hp, h]

/-- Behind nothing or behind a slash, a name is put as it is. -/
theorem join_of_ends (hname : name.isAbsolute = false)
    (h : base.toList = [] ∨ base.toList.getLast? = some '/') : base.join name = base ++ name := by
  have hends : (base.isEmpty || base.endsInSlash) = true := by simpa [endsInSlash] using h
  simp [join, hname, hends]

theorem isAbsolute_append (hdir : dir.isAbsolute = false) (hname : name.isAbsolute = false) :
    isAbsolute (dir ++ name) = false := by
  cases hcons : dir.toList with
  | nil => simpa [isAbsolute, String.toList_append, hcons] using hname
  | cons c cs => simpa [isAbsolute, String.toList_append, hcons] using hdir

/-- **A name behind a directory that ends in a slash is a name in the directory.** -/
theorem join_append (hdir : dir.isAbsolute = false) (hname : name.isAbsolute = false)
    (h : dir = "" ∨ dir.endsInSlash = true) :
    base.join (dir ++ name) = (base.join dir).join name := by
  obtain ⟨front, hfront, hjoin⟩ := exists_join_eq base
  have hends : (front ++ dir).toList = [] ∨ (front ++ dir).toList.getLast? = some '/' := by
    rw [String.toList_append]
    rcases h with rfl | h
    · simpa using hfront
    · have hlast : dir.toList.getLast? = some '/' := by simpa [endsInSlash] using h
      rw [List.getLast?_append, hlast]
      exact .inr rfl
  rw [hjoin _ (isAbsolute_append hdir hname), hjoin dir hdir, join_of_ends hname hends,
    String.append_assoc]

/-! ## Components -/

/-- The names behind a text that is empty or ends in a slash. -/
theorem names_of_toList {front rest : List Char} (h : p.toList = front ++ rest)
    (hfront : front = [] ∨ front.getLast? = some '/') :
    p.names = (words '/' front).map String.ofList ++ (words '/' rest).map String.ofList := by
  rw [names, h, words_append hfront, List.map_append]

/-- **Behind a directory that does not end in a slash, names run together**: its last name and the
first of what is put behind it. -/
theorem exists_names_of_merged (base : Path) (hdir : dir.isAbsolute = false)
    (hname : name.isAbsolute = false) (hdirNe : dir ≠ "") (hnameNe : name ≠ "")
    (hends : dir.endsInSlash = false) :
    ∃ (front behind : List String) (last first : List Char), last ≠ [] ∧ first ≠ [] ∧
      first <+: name.toList ∧
      (base.join (dir ++ name)).names = front ++ String.ofList (last ++ first) :: behind ∧
      ((base.join dir).join name).names =
        (front ++ [String.ofList last]) ++ String.ofList first :: behind := by
  obtain ⟨lead, hlead, hjoin⟩ := exists_join_eq base
  obtain ⟨above, last, hdirWords, hlast, habove⟩ := exists_last_word '/' dir.toList
  obtain ⟨first, rest, hnameWords, hfirst, hrest⟩ := exists_first_word '/' name.toList
  -- the directory does not end in a slash, and so has a last name; the name has a first one
  have hlastNe : last ≠ [] := by
    rintro rfl
    rw [List.append_nil] at hdirWords
    subst hdirWords
    rcases habove with hnil | hslash
    · exact hdirNe (by simpa using hnil)
    · simp [endsInSlash, hslash] at hends
  have hfirstNe : first ≠ [] := by
    rintro rfl
    rw [List.nil_append] at hnameWords
    subst hnameWords
    rcases hrest with hnil | hslash
    · exact hnameNe (by simpa using hnil)
    · simp [isAbsolute, hslash] at hname
  -- the last name begins behind a slash, or begins the path
  have hfront : lead.toList ++ above = [] ∨ (lead.toList ++ above).getLast? = some '/' := by
    rcases habove with rfl | habove
    · simpa using hlead
    · rw [List.getLast?_append, habove]
      exact .inr rfl
  refine ⟨(words '/' (lead.toList ++ above)).map String.ofList,
    (words '/' rest).map String.ofList, last, first, hlastNe, hfirstNe,
    ⟨rest, hnameWords.symm⟩, ?_, ?_⟩
  · have hlist : (base.join (dir ++ name)).toList =
        (lead.toList ++ above) ++ ((last ++ first) ++ rest) := by
      rw [hjoin _ (isAbsolute_append hdir hname), String.toList_append, String.toList_append,
        hdirWords, hnameWords]
      simp only [List.append_assoc]
    have hword : '/' ∉ last ++ first := by simp [hlast, hfirst]
    rw [names_of_toList hlist hfront, words_word_append hword (by simp [hlastNe]) hrest]
    rfl
  · have hlist : (base.join dir).toList = (lead.toList ++ above) ++ last := by
      rw [hjoin dir hdir, String.toList_append, hdirWords, List.append_assoc]
    have hbehind : names name = String.ofList first :: (words '/' rest).map String.ofList := by
      rw [names, hnameWords, words_word_append hfirst hfirstNe hrest]
      rfl
    rw [names_join hname, names_of_toList hlist hfront, words_eq_singleton hlast hlastNe, hbehind]
    rfl

/-- A name that is no dot is a component, whatever stands in front of it. -/
theorem exists_components_eq {front behind : List String} (h : p.names = front ++ name :: behind)
    (hname : name ≠ ".") :
    ∃ front', p.components = front' ++ name :: behind.filter (· ≠ ".") := by
  have hbehind : (name :: behind).filter (· ≠ ".") = name :: behind.filter (· ≠ ".") :=
    List.filter_cons_of_pos (by simpa using hname)
  unfold components
  rw [h]
  -- a single dot counts as a component in front of everything else
  cases front with
  | nil => exact ⟨[], by simp [hname]⟩
  | cons first front =>
    rw [List.cons_append]
    dsimp only
    split
    · refine ⟨first :: front.filter (· ≠ "."), ?_⟩
      rw [List.filter_append, hbehind, List.cons_append]
    · refine ⟨(first :: front).filter (· ≠ "."), ?_⟩
      rw [← List.cons_append, List.filter_append, hbehind]

/-- **A name put behind a directory is a name in it** exactly if the directory is empty or ends in a
slash. -/
theorem sameText_join_append_iff {c : Char} {cs : List Char} (base : Path)
    (hdir : dir.isAbsolute = false) (hname : name.toList = c :: cs) (hslash : c ≠ '/')
    (hdot : c ≠ '.') :
    (base.join (dir ++ name)).sameText ((base.join dir).join name) = true ↔
      dir = "" ∨ dir.endsInSlash = true := by
  have hrel : name.isAbsolute = false := by simpa [isAbsolute, hname] using hslash
  constructor
  · intro hsame
    by_contra hnot
    obtain ⟨hne, hends⟩ := not_or.mp hnot
    have hnameNe : name ≠ "" := by
      rintro rfl
      cases hname
    obtain ⟨front, behind, last, first, hlast, hfirst, hprefix, htext, hpath⟩ :=
      exists_names_of_merged base hdir hrel hne hnameNe (by simpa using hends)
    have hfirstDot : String.ofList first ≠ "." := by
      intro heq
      obtain rfl : first = ['.'] := String.ofList_injective heq
      rw [hname] at hprefix
      exact hdot (List.cons_prefix_cons.mp hprefix).1.symm
    have hmergedDot : String.ofList (last ++ first) ≠ "." := by
      intro heq
      have hlength : (last ++ first).length = 1 :=
        congrArg List.length (String.ofList_injective heq : last ++ first = ['.'])
      have hlastPos := List.length_pos_iff.mpr hlast
      have hfirstPos := List.length_pos_iff.mpr hfirst
      rw [List.length_append] at hlength
      omega
    obtain ⟨front₁, htext⟩ := exists_components_eq htext hmergedDot
    obtain ⟨front₂, hpath⟩ := exists_components_eq hpath hfirstDot
    -- what stands behind the merged name is as long in both, so the merged name is its second half
    have hcomponents : front₁ ++ String.ofList (last ++ first) :: behind.filter (· ≠ ".") =
        front₂ ++ String.ofList first :: behind.filter (· ≠ ".") := by
      rw [← htext, ← hpath]
      simp only [sameText, Bool.and_eq_true, decide_eq_true_eq] at hsame
      exact hsame.2
    have hmerged := (List.cons.inj (List.append_inj' hcomponents rfl).2).1
    exact hlast (List.append_left_eq_self.mp (String.ofList_injective hmerged))
  · intro h
    rw [join_append hdir hrel h]
    simp [sameText]

end Path

end Webcomic.Files
