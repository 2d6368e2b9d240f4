import Webcomic.Calendar.Format

/-!
# Formats of dates compose

No specifier is the beginning of another (`specifiers_prefixFree`), so the specifier at the head of
a text is found whatever stands behind it (`specifierAt?_eq_some_iff`). A format that can be read is
therefore read the same way with another format behind it (`formatItems?_append`), and a date is
written in one format after the other (`Date.format?_append`).

`Date.format?_eq_none_iff` says when a date cannot be written in a format. The date itself makes no
difference to that.
-/

namespace Webcomic.Calendar

variable {cs rest f : List Char} {items : List FormatItem} {date : Date} {format text : String}

/-! ## The specifier at the head of a text -/

/-- No specifier is the beginning of another, and none has two meanings. -/
theorem specifiers_prefixFree :
    ∀ s ∈ specifiers, ∀ s' ∈ specifiers, s.1 <+: s'.1 → s = s' := by
  decide +kernel

/-- A specifier that is found stands in the table, under the spelling that it has. -/
theorem exists_of_specifierAt? (h : specifierAt? cs = some (items, rest)) :
    ∃ spelling, (spelling, items) ∈ specifiers ∧ cs = spelling ++ rest := by
  obtain ⟨⟨spelling, items'⟩, hmem, hfound⟩ := List.exists_of_findSome?_eq_some h
  obtain ⟨hbegins, heq⟩ := Option.ite_none_right_eq_some.mp hfound
  obtain ⟨rfl, rfl⟩ := Prod.mk.inj (Option.some.inj heq)
  obtain ⟨behind, rfl⟩ := List.isPrefixOf_iff_prefix.mp hbegins
  exact ⟨spelling, hmem, by rw [List.drop_left]⟩

/-- **The specifier at the head of a text** is the one that the text begins with. -/
theorem specifierAt?_eq_some_iff :
    specifierAt? cs = some (items, rest) ↔
      ∃ spelling, (spelling, items) ∈ specifiers ∧ cs = spelling ++ rest := by
  refine ⟨exists_of_specifierAt?, ?_⟩
  rintro ⟨spelling, hmem, rfl⟩
  cases hfound : specifierAt? (spelling ++ rest) with
  | none =>
    have hnone := List.findSome?_eq_none_iff.mp hfound (spelling, items) hmem
    simp at hnone
  | some found =>
    obtain ⟨spelling', hmem', hsplit⟩ := exists_of_specifierAt? hfound
    -- two beginnings of one text, so one of them is the beginning of the other
    have hsame : (spelling, items) = (spelling', found.1) := by
      rcases List.prefix_or_prefix_of_prefix ⟨rest, rfl⟩ ⟨found.2, hsplit.symm⟩ with h | h
      · exact specifiers_prefixFree _ hmem _ hmem' h
      · exact (specifiers_prefixFree _ hmem' _ hmem h).symm
    obtain ⟨rfl, rfl⟩ := Prod.mk.inj hsame
    rw [List.append_cancel_left hsplit]

/-- What stands behind a specifier makes no difference to it. -/
theorem specifierAt?_append (h : specifierAt? cs = some (items, rest)) (behind : List Char) :
    specifierAt? (cs ++ behind) = some (items, rest ++ behind) := by
  obtain ⟨spelling, hmem, rfl⟩ := specifierAt?_eq_some_iff.mp h
  exact specifierAt?_eq_some_iff.mpr ⟨spelling, hmem, List.append_assoc _ _ _⟩

/-! ## The items of a format -/

theorem formatItems?_literal {c : Char} (h : c ≠ '%') (cs : List Char) :
    formatItems? (c :: cs) = (formatItems? cs).map (.literal c :: ·) := by
  rw [formatItems?, if_neg h]

theorem formatItems?_specifier (h : specifierAt? cs = some (items, rest)) :
    formatItems? ('%' :: cs) = (formatItems? rest).map (items ++ ·) := by
  rw [formatItems?, if_pos rfl]
  split
  next hnone =>
    rw [h] at hnone
    cases hnone
  next hfound =>
    rw [h] at hfound
    cases hfound
    rfl

theorem formatItems?_unknown (h : specifierAt? cs = none) : formatItems? ('%' :: cs) = none := by
  rw [formatItems?, if_pos rfl]
  split
  next => rfl
  next hfound =>
    rw [h] at hfound
    cases hfound

/-- **A format that can be read is read the same with anything behind it.** -/
theorem formatItems?_append (h : formatItems? f = some items) (g : List Char) :
    formatItems? (f ++ g) = (formatItems? g).map (items ++ ·) := by
  -- along the reading of the format, one literal or one specifier at a time
  induction f using formatItems?.induct generalizing items with
  | case1 =>
    rw [formatItems?] at h
    obtain rfl := Option.some.inj h
    exact Option.map_id'.symm
  | case2 cs hnone =>
    rw [formatItems?_unknown hnone] at h
    cases h
  | case3 cs found rest hfound _ ih =>
    rw [formatItems?_specifier hfound] at h
    obtain ⟨items', hrest, rfl⟩ := Option.map_eq_some_iff.mp h
    rw [List.cons_append, formatItems?_specifier (specifierAt?_append hfound g), ih hrest,
      Option.map_map]
    simp only [Function.comp_def, List.append_assoc]
  | case4 c cs hliteral ih =>
    rw [formatItems?_literal hliteral] at h
    obtain ⟨items', hrest, rfl⟩ := Option.map_eq_some_iff.mp h
    rw [List.cons_append, formatItems?_literal hliteral, ih hrest, Option.map_map]
    rfl

/-! ## Writing -/

theorem FormatItem.text?_eq_none_iff {item : FormatItem} :
    item.text? date = none ↔ item = .clock := by
  cases item <;> simp [FormatItem.text?]

/-- Items are written for a date unless one of them asks for a time of day or a time zone. -/
theorem mapM_text?_eq_none_iff :
    items.mapM (FormatItem.text? date) = none ↔ FormatItem.clock ∈ items := by
  induction items with
  | nil => simp
  | cons item items ih =>
    have hitem : item.text? date = none ↔ FormatItem.clock = item :=
      FormatItem.text?_eq_none_iff.trans eq_comm
    rw [List.mapM_cons, List.mem_cons, ← ih, ← hitem]
    cases item.text? date with
    | none => simp
    | some text => cases items.mapM (FormatItem.text? date) <;> simp

/-- Items are written one behind the other. -/
theorem mapM_text?_append {items' : List FormatItem} {texts : List (List Char)}
    (h : items.mapM (FormatItem.text? date) = some texts) :
    (items ++ items').mapM (FormatItem.text? date) =
      (items'.mapM (FormatItem.text? date)).map (texts ++ ·) := by
  rw [List.mapM_append, h]
  cases items'.mapM (FormatItem.text? date) <;> rfl

/-- A date is written by reading the format first and its items then. Either can fail. -/
theorem Date.format?_eq (date : Date) (format : String) :
    date.format? format =
      ((formatItems? format.toList).bind (·.mapM (FormatItem.text? date))).map
        fun texts => String.ofList texts.flatten := by
  rw [Option.map_eq_bind, Option.bind_assoc]
  rfl

/-- No date can be written in a format: a percent sign in it starts no specifier, or a specifier
asks for a time of day or a time zone. -/
def Unwritable (format : String) : Prop :=
  ∀ items, formatItems? format.toList = some items → .clock ∈ items

/-- **When a date cannot be written in a format.** The date makes no difference. -/
theorem Date.format?_eq_none_iff : date.format? format = none ↔ Unwritable format := by
  rw [Date.format?_eq, Option.map_eq_none_iff, Option.bind_eq_none_iff]
  exact forall₂_congr fun _ _ => mapM_text?_eq_none_iff

/-- **A date is written in one format after the other.** -/
theorem Date.format?_append {f : String} (h : date.format? f = some text) (g : String) :
    date.format? (f ++ g) = (date.format? g).map (text ++ ·) := by
  rw [Date.format?_eq] at h
  obtain ⟨texts, hwritten, rfl⟩ := Option.map_eq_some_iff.mp h
  obtain ⟨items, hitems, htexts⟩ := Option.bind_eq_some_iff.mp hwritten
  rw [Date.format?_eq, Date.format?_eq, String.toList_append, formatItems?_append hitems]
  cases formatItems? g.toList with
  | none => rfl
  | some items' =>
    simp only [Option.map_some, Option.bind_some, mapM_text?_append htexts, Option.map_map]
    congr 1
    funext texts'
    simp [String.ofList_append]

end Webcomic.Calendar
