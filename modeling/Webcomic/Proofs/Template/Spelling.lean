import Mathlib
import Webcomic.Proofs.Template.Registration
import Webcomic.Proofs.Text.Words

/-!
# Spellings of a tag

In ASCII, the canonical name of a tag says nothing but its words in lower case
(`canonicalName_of_isAscii`). They are read back from it if each of them begins with a letter: then
every word begins with a capital, and there is no capital anywhere else (`Hump`). So such tags share
a handler exactly if they have the same words, up to their case.

Which tags have the same words can be said without words. One goes over into the other by changing
the case of single letters, and by putting in or taking out underscores in front, at the end and
next to other underscores (`Respelled`).
-/

namespace Webcomic.Text

variable {c d : Char} {cs : List Char}

/-! ## Case in ASCII -/

/-- A text of ASCII characters. -/
def IsAscii (cs : List Char) : Prop :=
  ∀ c ∈ cs, c.toNat < 0x80

instance (cs : List Char) : Decidable (IsAscii cs) :=
  List.decidableBAll (fun c : Char => c.toNat < 0x80) cs

theorem toNat_lt_of_isAlpha (h : c.isAlpha = true) : c.toNat < 0x80 := by
  simp only [Char.isAlpha, Char.isUpper, Char.isLower, Bool.or_eq_true, Bool.and_eq_true,
    decide_eq_true_eq, UInt32.le_iff_toNat_le] at h
  rcases h with ⟨-, hle⟩ | ⟨-, hle⟩
  · have hZ : c.toNat ≤ 90 := hle
    omega
  · have hz : c.toNat ≤ 122 := hle
    omega

/-- Case comes and goes within the letters of ASCII. -/
theorem toNat_toLower_lt_iff : c.toLower.toNat < 0x80 ↔ c.toNat < 0x80 := by
  by_cases h : c.isUpper = true
  · have halpha : c.isAlpha = true := by simp [Char.isAlpha, h]
    exact iff_of_true (toNat_lt_of_isAlpha (by simpa using halpha)) (toNat_lt_of_isAlpha halpha)
  · rw [Char.toLower_eq_of_not_isUpper h]

theorem toLower_eq_underscore_iff (c : Char) : c.toLower = '_' ↔ c = '_' := by
  by_cases h : c.isUpper = true
  · have hne : ∀ d : Char, d.isAlpha = true → d ≠ '_' := by
      rintro d halpha rfl
      exact absurd halpha (by decide)
    have halpha : c.isAlpha = true := by simp [Char.isAlpha, h]
    exact iff_of_false (hne _ (by simpa using halpha)) (hne c halpha)
  · rw [Char.toLower_eq_of_not_isUpper h]

theorem lowerAfter_of_isAscii (h : IsAscii cs) (before : List Char) :
    lowerAfter before cs = cs.map Char.toLower := by
  induction cs generalizing before with
  | nil => rfl
  | cons c cs ih =>
    obtain ⟨hc, hcs⟩ := List.forall_mem_cons.mp h
    have hsigma : c ≠ 'Σ' := by
      rintro rfl
      exact absurd hc (by decide)
    rw [lowerAfter, if_neg hsigma, lowerChar, if_pos hc, ih hcs]
    rfl

/-- On ASCII names the lower case is taken letter by letter. Elsewhere a letter can depend on those
before it. -/
theorem toLower_of_isAscii (h : IsAscii cs) : toLower cs = cs.map Char.toLower :=
  lowerAfter_of_isAscii h []

theorem capitalize_of_isLower (h : c.isLower = true) :
    capitalize (c :: cs) = c.toUpper :: cs := by
  have hc : c.toNat < 0x80 := toNat_lt_of_isAlpha (by simp [Char.isAlpha, h])
  rw [capitalize, upperChar, if_pos hc]
  rfl

end Webcomic.Text

namespace Webcomic.Template

open Text

variable {a b cs ds : List Char} {ws vs : List (List Char)}

/-! ## The words of a tag -/

/-- The words of a tag in lower case. -/
def foldedWords (cs : List Char) : List (List Char) :=
  (words '_' cs).map (List.map Char.toLower)

theorem words_map_toLower (cs : List Char) :
    words '_' (cs.map Char.toLower) = foldedWords cs :=
  words_map toLower_eq_underscore_iff cs

/-- **Nothing but the words of a tag, in lower case, goes into its canonical name.** -/
theorem canonicalName_of_isAscii {name : String} (h : IsAscii name.toList) :
    canonicalName name =
      String.ofList (((foldedWords name.toList).map capitalize).flatten ++ nameEnding) := by
  rw [canonicalName, toLower_of_isAscii h, words_map_toLower]

/-- A word that begins with a letter. -/
def Lettered (w : List Char) : Prop :=
  ∃ c ∈ w.head?, c.isAlpha = true

instance (w : List Char) : Decidable (Lettered w) :=
  match w with
  | [] => isFalse (by simp [Lettered])
  | c :: _ => decidable_of_iff (c.isAlpha = true) (by simp [Lettered])

/-! ## Reading the words back -/

/-- A word as it stands in a canonical name: it begins with a capital, and has no other. -/
inductive Hump : List Char → Prop where
  | intro {c : Char} {cs : List Char} :
      c.isUpper = true → (∀ d ∈ cs, (!d.isUpper) = true) → Hump (c :: cs)

/-- After a hump comes nothing, or the capital of the next. -/
theorem head?_flatten_of_humps (h : ∀ w ∈ ws, Hump w) :
    ∀ c ∈ ws.flatten.head?, (!c.isUpper) = false := by
  cases ws with
  | nil => nofun
  | cons w ws =>
    obtain ⟨hupper, -⟩ := h w List.mem_cons_self
    simpa using hupper

/-- **Humps that are run together are told apart by their capitals.** -/
theorem eq_of_flatten_humps_eq (hws : ∀ w ∈ ws, Hump w) (hvs : ∀ v ∈ vs, Hump v)
    (h : ws.flatten = vs.flatten) : ws = vs := by
  induction ws generalizing vs with
  | nil =>
    cases vs with
    | nil => rfl
    | cons v vs =>
      obtain ⟨-, -⟩ := hvs v List.mem_cons_self
      cases h
  | cons w ws ih =>
    obtain ⟨hw, hrest⟩ := List.forall_mem_cons.mp hws
    cases vs with
    | nil =>
      cases hw
      cases h
    | cons v vs =>
      obtain ⟨hv, hrest'⟩ := List.forall_mem_cons.mp hvs
      cases hw with | @intro c cs hc hcs =>
      cases hv with | @intro d ds hd hds =>
      obtain ⟨rfl, htail⟩ := List.cons.inj h
      -- both first humps go on to the next capital, and so end in one place
      obtain ⟨rfl, hflatten⟩ := run_append_inj hcs hds (head?_flatten_of_humps hrest)
        (head?_flatten_of_humps hrest') htail
      rw [ih hrest hrest' hflatten]

/-- A folded word begins with a small letter and holds no capital. -/
theorem exists_of_mem_foldedWords (hletters : ∀ w ∈ words '_' cs, Lettered w) {w : List Char}
    (h : w ∈ foldedWords cs) :
    ∃ c rest, w = c :: rest ∧ c.isLower = true ∧ ∀ d ∈ rest, d.isUpper = false := by
  obtain ⟨w, hw, rfl⟩ := List.mem_map.mp h
  obtain ⟨c, hc, halpha⟩ := hletters w hw
  obtain ⟨rest, rfl⟩ := List.head?_eq_some_iff.mp hc
  refine ⟨c.toLower, rest.map Char.toLower, rfl, by simpa using halpha, ?_⟩
  simp

/-- With its first letter capitalized it is a hump. -/
theorem hump_capitalize {c : Char} {rest : List Char} (hc : c.isLower = true)
    (hrest : ∀ d ∈ rest, d.isUpper = false) : Hump (capitalize (c :: rest)) := by
  rw [capitalize_of_isLower hc]
  refine .intro (by simp [Char.isAlpha, hc]) fun d hd => ?_
  rw [hrest d hd]
  rfl

/-- A word in lower case is read back from its capitalized form. -/
theorem map_toLower_capitalize {c : Char} {rest : List Char} (hc : c.isLower = true)
    (hrest : ∀ d ∈ rest, d.isUpper = false) :
    (capitalize (c :: rest)).map Char.toLower = c :: rest := by
  rw [capitalize_of_isLower hc, List.map_cons, Char.toLower_toUpper_eq_toLower,
    Char.toLower_eq_of_not_isUpper (Char.not_isUpper_of_isLower hc)]
  congr 1
  refine (List.map_congr_left fun d hd => ?_).trans (List.map_id rest)
  exact Char.toLower_eq_of_not_isUpper (by simp [hrest d hd])

theorem humps_of_lettered (hletters : ∀ w ∈ words '_' cs, Lettered w) :
    ∀ hump ∈ (foldedWords cs).map capitalize, Hump hump := by
  intro hump hmem
  obtain ⟨w, hw, rfl⟩ := List.mem_map.mp hmem
  obtain ⟨c, rest, rfl, hc, hrest⟩ := exists_of_mem_foldedWords hletters hw
  exact hump_capitalize hc hrest

/-- The folded words can be read back from the humps. -/
theorem map_toLower_humps (hletters : ∀ w ∈ words '_' cs, Lettered w) :
    ((foldedWords cs).map capitalize).map (List.map Char.toLower) = foldedWords cs := by
  rw [List.map_map]
  refine (List.map_congr_left fun w hw => ?_).trans (List.map_id _)
  obtain ⟨c, rest, rfl, hc, hrest⟩ := exists_of_mem_foldedWords hletters hw
  exact map_toLower_capitalize hc hrest

/-- **The words of a tag are read back from its canonical name**, if they begin with letters. -/
theorem foldedWords_eq_of_canonicalName_eq {a b : String} (ha : IsAscii a.toList)
    (hb : IsAscii b.toList) (hla : ∀ w ∈ words '_' a.toList, Lettered w)
    (hlb : ∀ w ∈ words '_' b.toList, Lettered w) (h : canonicalName a = canonicalName b) :
    foldedWords a.toList = foldedWords b.toList := by
  rw [canonicalName_of_isAscii ha, canonicalName_of_isAscii hb] at h
  -- the ending is the same in both, so it does not matter whether it looks like a word
  have hflatten := List.append_cancel_right (String.ofList_injective h)
  have hhumps := eq_of_flatten_humps_eq (humps_of_lettered hla) (humps_of_lettered hlb) hflatten
  rw [← map_toLower_humps hla, ← map_toLower_humps hlb, hhumps]

/-! ## Spellings -/

/-- One change to how a tag is spelled. -/
inductive Respelling : List Char → List Char → Prop where
  /-- A letter in upper or in lower case. -/
  | letter {a : List Char} {c d : Char} {b : List Char} :
      c.toLower = d.toLower → Respelling (a ++ c :: b) (a ++ d :: b)
  | leading {cs : List Char} : Respelling cs ('_' :: cs)
  | trailing {cs : List Char} : Respelling cs (cs ++ ['_'])
  /-- One underscore more where there is one. -/
  | repeated {a b : List Char} : Respelling (a ++ '_' :: b) (a ++ '_' :: '_' :: b)

/-- Two spellings that go over into each other by such changes, made or taken back. -/
def Respelled : List Char → List Char → Prop :=
  Relation.EqvGen Respelling

/-- No single change of the spelling changes the folded words. -/
theorem foldedWords_of_respelling (h : Respelling cs ds) : foldedWords cs = foldedWords ds := by
  cases h with
  | letter heq =>
    rw [← words_map_toLower, ← words_map_toLower]
    simp [heq]
  | leading => rw [foldedWords, foldedWords, words_cons_separator]
  | trailing => rw [foldedWords, foldedWords, words_snoc_separator]
  | repeated =>
    rw [foldedWords, foldedWords, words_append_separator, words_append_separator,
      words_cons_separator]

theorem isAscii_of_respelling (h : Respelling cs ds) : IsAscii cs ↔ IsAscii ds := by
  cases h with
  | @letter a c d b heq =>
    have hiff : c.toNat < 0x80 ↔ d.toNat < 0x80 := by
      rw [← toNat_toLower_lt_iff, heq, toNat_toLower_lt_iff]
    simp [IsAscii, or_imp, forall_and, hiff]
  | leading => simp [IsAscii]
  | trailing => simp [IsAscii, or_imp, forall_and]
  | repeated => simp [IsAscii, or_imp, forall_and]

namespace Respelled

theorem refl (cs : List Char) : Respelled cs cs :=
  Relation.EqvGen.refl cs

theorem symm (h : Respelled cs ds) : Respelled ds cs :=
  Relation.EqvGen.symm _ _ h

theorem trans (h : Respelled cs ds) {es : List Char} (h' : Respelled ds es) : Respelled cs es :=
  Relation.EqvGen.trans _ _ _ h h'

/-- What no single change affects is the same in all spellings. -/
theorem invariant {α : Sort*} {f : List Char → α}
    (hstep : ∀ {cs ds}, Respelling cs ds → f cs = f ds) (h : Respelled cs ds) :
    f cs = f ds := by
  induction h with
  | rel cs ds hchange => exact hstep hchange
  | refl cs => rfl
  | symm cs ds _ ih => exact ih.symm
  | trans cs ds es _ _ ih ih' => exact ih.trans ih'

/-- What stands behind an underscore can be respelled by itself. -/
theorem behind (a : List Char) (h : Respelled cs ds) :
    Respelled (a ++ '_' :: cs) (a ++ '_' :: ds) := by
  have hlist : ∀ b c : List Char, a ++ '_' :: (b ++ c) = (a ++ '_' :: b) ++ c := by simp
  induction h with
  | rel cs ds hchange =>
    refine .rel _ _ ?_
    cases hchange with
    | letter heq =>
      rw [hlist, hlist]
      exact .letter heq
    -- behind another underscore, one in front is one too many
    | leading => exact .repeated
    | trailing =>
      rw [hlist]
      exact .trailing
    | repeated =>
      rw [hlist, hlist]
      exact .repeated
  | refl cs => exact .refl _
  | symm cs ds _ ih => exact ih.symm
  | trans cs ds es _ _ ih ih' => exact ih.trans ih'

/-- Letter by letter, a tag can be written in lower case. -/
theorem lower (a cs : List Char) : Respelled (a ++ cs) (a ++ cs.map Char.toLower) := by
  induction cs generalizing a with
  | nil => exact refl _
  | cons c cs ih =>
    have hfirst : Respelled (a ++ c :: cs) (a ++ c.toLower :: cs) :=
      .rel _ _ (.letter (Char.toLower_toLower_eq_toLower c).symm)
    have hrest := ih (a ++ [c.toLower])
    rw [List.append_assoc, List.append_assoc] at hrest
    exact hfirst.trans hrest

/-- A tag can be written as its words, with one underscore behind each of them. -/
theorem parted (cs : List Char) : Respelled cs ((words '_' cs).flatMap (· ++ ['_'])) := by
  -- on what stands behind a beginning without underscores
  suffices hall : ∀ w, '_' ∉ w →
      Respelled (w ++ cs) ((words '_' (w ++ cs)).flatMap (· ++ ['_'])) from
    hall [] List.not_mem_nil
  induction cs with
  | nil =>
    intro w hw
    rw [List.append_nil]
    cases w with
    | nil => exact refl []
    | cons c w =>
      rw [words_eq_singleton hw (List.cons_ne_nil c w), List.flatMap_singleton]
      exact .rel _ _ .trailing
  | cons c cs ih =>
    intro w hw
    by_cases h : c = '_'
    · subst h
      have hcs := ih [] List.not_mem_nil
      rw [List.nil_append] at hcs
      cases w with
      | nil =>
        rw [List.nil_append, words_cons_separator]
        exact (symm (.rel _ _ .leading)).trans hcs
      | cons c w =>
        rw [words_word_append hw (List.cons_ne_nil c w) (.inr rfl), words_cons_separator,
          List.flatMap_cons, List.append_assoc]
        exact hcs.behind (c :: w)
    · have hwc : '_' ∉ w ++ [c] := by simp [hw, Ne.symm h]
      have hlist : w ++ c :: cs = (w ++ [c]) ++ cs := by simp
      rw [hlist]
      exact ih (w ++ [c]) hwc

end Respelled

/-- **Two spellings go over into each other exactly if they have the same words**, up to case. -/
theorem respelled_iff : Respelled cs ds ↔ foldedWords cs = foldedWords ds := by
  have hnormal : ∀ cs, Respelled cs ((foldedWords cs).flatMap (· ++ ['_'])) := by
    intro cs
    rw [← words_map_toLower]
    exact (Respelled.lower [] cs).trans (.parted _)
  constructor
  · exact Respelled.invariant foldedWords_of_respelling
  · intro h
    have hcs := hnormal cs
    rw [h] at hcs
    exact hcs.trans (hnormal ds).symm

/-- **Names of tags collide by case and stray underscores only.** However a tag of ASCII characters
is respelled, it keeps its canonical name, so every registry has one handler for both spellings. And
two tags whose words begin with letters have one canonical name only if they have the same words up
to case, that is, if one is a spelling of the other: a handler that is registered for one of them
takes the place of the handler of the other then, and else leaves it alone. -/
theorem tags_collide_exactly_on_respelling {M : Type} {a b : String} (ha : IsAscii a.toList) :
    (Respelled a.toList b.toList →
      canonicalName b = canonicalName a ∧ ∀ r : Registry M, r.handler? b = r.handler? a) ∧
    (IsAscii b.toList → (∀ w ∈ words '_' a.toList, Lettered w) →
      (∀ w ∈ words '_' b.toList, Lettered w) →
      (canonicalName a = canonicalName b ↔ foldedWords a.toList = foldedWords b.toList) ∧
      (canonicalName a = canonicalName b ↔ Respelled a.toList b.toList) ∧
      ∀ (r : Registry M) (handler : Handler M),
        (Respelled a.toList b.toList → (r.register a handler).handler? b = some handler) ∧
        (¬ Respelled a.toList b.toList → (r.register a handler).handler? b = r.handler? b)) := by
  have hkeep : Respelled a.toList b.toList → canonicalName b = canonicalName a := by
    intro h
    have hb : IsAscii b.toList :=
      (h.invariant fun hchange => propext (isAscii_of_respelling hchange)).mp ha
    rw [canonicalName_of_isAscii ha, canonicalName_of_isAscii hb, respelled_iff.mp h]
  refine ⟨fun h => ⟨hkeep h, fun r => ?_⟩, fun hb hla hlb => ?_⟩
  · rw [Registry.handler?, Registry.handler?, hkeep h]
  · have hiff : canonicalName a = canonicalName b ↔ Respelled a.toList b.toList :=
      ⟨fun h => respelled_iff.mpr (foldedWords_eq_of_canonicalName_eq ha hb hla hlb h),
        fun h => (hkeep h).symm⟩
    refine ⟨hiff.trans respelled_iff, hiff, fun r handler => ⟨fun h => ?_, fun h => ?_⟩⟩
    · rw [Registry.handler?_register, if_pos (hiff.mpr h)]
    · rw [Registry.handler?_register, if_neg (mt hiff.mp h)]

/-- A tag in another spelling, and a tag that is none of its spellings: the words run together. -/
theorem tags_collide_exactly_on_respelling_nav_prev :
    Respelled "nav_prev".toList "_NAV__Prev_".toList ∧
      canonicalName "_NAV__Prev_" = canonicalName "nav_prev" ∧
      canonicalName "nav_prev" ≠ canonicalName "navprev" ∧
      ∀ (r : Registry Unit) (handler : Handler Unit),
        (r.register "nav_prev" handler).handler? "_NAV__Prev_" = some handler ∧
        (r.register "nav_prev" handler).handler? "navprev" = r.handler? "navprev" := by
  have hascii : IsAscii "nav_prev".toList := by decide
  have hletters : ∀ w ∈ words '_' "nav_prev".toList, Lettered w := by decide
  have hsame : Respelled "nav_prev".toList "_NAV__Prev_".toList := respelled_iff.mpr (by decide)
  have hother : ¬ Respelled "nav_prev".toList "navprev".toList :=
    mt respelled_iff.mp (by decide)
  obtain ⟨hkeep, hiff⟩ :=
    tags_collide_exactly_on_respelling (M := Unit) (b := "_NAV__Prev_") hascii
  obtain ⟨-, -, hregister⟩ := hiff (by decide) hletters (by decide)
  obtain ⟨-, hiff'⟩ := tags_collide_exactly_on_respelling (M := Unit) (b := "navprev") hascii
  obtain ⟨-, hrespelled, hregister'⟩ := hiff' (by decide) hletters (by decide)
  exact ⟨hsame, (hkeep hsame).1, mt hrespelled.mp hother, fun r handler =>
    ⟨(hregister r handler).1 hsame, (hregister' r handler).2 hother⟩⟩

-- a word that begins with a digit has no capital, so it is lost in the word in front of it
example : canonicalName "strip_2" = canonicalName "strip2" := by decide

end Webcomic.Template
