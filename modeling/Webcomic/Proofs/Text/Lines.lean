import Mathlib.Data.List.Basic
import Webcomic.Text.Lines

/-!
# Lines of characters and lines of bytes

Which lists are the lines of a text is said by `Cut`, without a way to find them: each line ends in
the only newline that it holds, and only the last one can lack it. A text has one list of lines
(`Cut.splitAfter_flatten`), so every list of that kind is the one that is found.

A file is cut into lines before it is read as text, a text after that. The lines are the same
(`rawLines_toUTF8`), since a newline is one byte and that byte is part of no other character. So a
file whose lines can all be read as text is a text, and a file that is not has a first line that
cannot be read. The lines in front of it are those of a text of their own (`lines_legible`).
-/

namespace Webcomic.Text

variable {α β : Type} {stop : α} {as bs : List α} {ps qs : List (List α)}

/-! ## One list of lines -/

/-- Parts that hold `stop` at their end only. The last of them can lack it. -/
inductive Cut (stop : α) : List (List α) → Prop where
  | nil : Cut stop []
  | last {as : List α} : as ≠ [] → stop ∉ as → Cut stop [as]
  | cons {as : List α} {ps : List (List α)} :
      stop ∉ as → Cut stop ps → Cut stop ((as ++ [stop]) :: ps)

namespace Cut

/-- The parts in front of others. -/
theorem of_append (h : Cut stop (ps ++ qs)) : Cut stop ps := by
  induction ps with
  | nil => exact .nil
  | cons p ps ih =>
    generalize hparts : p :: ps ++ qs = parts at h
    cases h with
    | nil => cases hparts
    | last hne hstop =>
      obtain ⟨rfl, hnil⟩ := List.cons.inj hparts
      obtain ⟨rfl, -⟩ := List.append_eq_nil_iff.mp hnil
      exact .last hne hstop
    | cons hstop hrest =>
      obtain ⟨rfl, rfl⟩ := List.cons.inj hparts
      exact .cons hstop (ih hrest)

/-- What a part holds in front of its last element is not `stop`. -/
theorem not_mem_dropLast (h : Cut stop ps) : ∀ p ∈ ps, stop ∉ p.dropLast := by
  induction h with
  | nil => nofun
  | last _ hstop =>
    rw [List.forall_mem_singleton]
    exact fun hmem => hstop (List.dropLast_subset _ hmem)
  | cons hstop _ ih =>
    rw [List.forall_mem_cons, List.dropLast_concat]
    exact ⟨hstop, ih⟩

/-- Parts that come to an end with `stop` can be followed by others. -/
theorem append (h : Cut stop ps) (hend : ps.flatten = [] ∨ ps.flatten.getLast? = some stop)
    (h' : Cut stop qs) : Cut stop (ps ++ qs) := by
  induction h with
  | nil => exact h'
  | last hne hstop =>
    rw [List.flatten_singleton] at hend
    rcases hend with hnil | hlast
    · exact absurd hnil hne
    · exact absurd (List.mem_of_getLast? hlast) hstop
  | @cons as ps hstop _ ih =>
    refine .cons hstop (ih ?_)
    rw [List.flatten_cons] at hend
    -- the end of the whole is that of the parts behind the first, if they are not empty
    by_cases hnil : ps.flatten = []
    · exact .inl hnil
    · rcases hend with hall | hlast
      · exact .inl (List.append_eq_nil_iff.mp hall).2
      · rw [List.getLast?_append_of_ne_nil _ hnil] at hlast
        exact .inr hlast

/-- Parts stay parts if each element is written as others, `stop` as one that comes from nothing
else. -/
theorem flatMap {stop' : β} {enc : α → List β} (h : Cut stop ps) (hstop : enc stop = [stop'])
    (hother : ∀ a, stop' ∈ enc a → a = stop) (hne : ∀ a, enc a ≠ []) :
    Cut stop' (ps.map (·.flatMap enc)) := by
  have hfree : ∀ as : List α, stop ∉ as → stop' ∉ as.flatMap enc := by
    intro as has hmem
    obtain ⟨a, ha, hmem⟩ := List.mem_flatMap.mp hmem
    obtain rfl := hother a hmem
    exact has ha
  induction h with
  | nil => exact .nil
  | @last as has hfree' =>
    refine .last ?_ (hfree as hfree')
    obtain ⟨a, as, rfl⟩ := List.exists_cons_of_ne_nil has
    show enc a ++ as.flatMap enc ≠ []
    exact List.append_ne_nil_of_left_ne_nil (hne a) _
  | @cons as ps hfree' _ ih =>
    rw [List.map_cons, List.flatMap_append, List.flatMap_singleton, hstop]
    exact .cons (hfree as hfree') ih

end Cut

section

variable [DecidableEq α]

theorem splitAfter_of_not_mem (hne : as ≠ []) (h : stop ∉ as) : splitAfter stop as = [as] := by
  induction as with
  | nil => exact absurd rfl hne
  | cons a as ih =>
    have ha : a ≠ stop := fun heq => h (heq ▸ List.mem_cons_self)
    cases as with
    | nil => simp [splitAfter, ha]
    | cons b as =>
      rw [splitAfter, if_neg ha,
        ih (List.cons_ne_nil _ _) fun hmem => h (List.mem_cons_of_mem _ hmem)]

/-- The part up to the first stop is cut off with it. -/
theorem splitAfter_append_stop (h : stop ∉ as) (bs : List α) :
    splitAfter stop (as ++ [stop] ++ bs) = (as ++ [stop]) :: splitAfter stop bs := by
  induction as with
  | nil => exact splitAfter_stop stop bs
  | cons a as ih =>
    have ha : a ≠ stop := fun heq => h (heq ▸ List.mem_cons_self)
    rw [List.cons_append, List.cons_append, splitAfter, if_neg ha,
      ih fun hmem => h (List.mem_cons_of_mem _ hmem)]

/-- **The parts that are found are the only ones.** -/
theorem Cut.splitAfter_flatten (h : Cut stop ps) : splitAfter stop ps.flatten = ps := by
  induction h with
  | nil => rfl
  | last hne hstop => rw [List.flatten_singleton, splitAfter_of_not_mem hne hstop]
  | cons hstop _ ih => rw [List.flatten_cons, splitAfter_append_stop hstop, ih]

/-- Every part but the last ends with the one stop that it has. -/
theorem cut_splitAfter (stop : α) (as : List α) : Cut stop (splitAfter stop as) := by
  induction as with
  | nil => exact .nil
  | cons a as ih =>
    by_cases ha : a = stop
    · subst ha
      rw [splitAfter_stop]
      exact @Cut.cons _ _ [] _ List.not_mem_nil ih
    · rw [splitAfter, if_neg ha]
      -- the element goes in front of the first part
      have hmem : ∀ as' : List α, stop ∉ as' → stop ∉ a :: as' := by
        intro as' has'
        simp [Ne.symm ha, has']
      generalize splitAfter stop as = parts at ih
      cases ih with
      | nil => exact .last (List.cons_ne_nil _ _) (hmem [] List.not_mem_nil)
      | last _ hstop => exact .last (List.cons_ne_nil _ _) (hmem _ hstop)
      | cons hstop hrest => exact .cons (hmem _ hstop) hrest

/-- Behind a `stop` a list can be cut in two. -/
theorem splitAfter_append (h : as = [] ∨ as.getLast? = some stop) :
    splitAfter stop (as ++ bs) = splitAfter stop as ++ splitAfter stop bs := by
  have hflatten := flatten_splitAfter stop as
  have hcut : Cut stop (splitAfter stop as ++ splitAfter stop bs) :=
    (cut_splitAfter stop as).append (by rwa [hflatten]) (cut_splitAfter stop bs)
  have hsplit := hcut.splitAfter_flatten
  rwa [List.flatten_append, hflatten, flatten_splitAfter] at hsplit

end

/-- The lines of two texts, the first of which ends in a newline, are the lines of both. -/
theorem lines_append {s t : String} (h : s = "" ∨ s.toList.getLast? = some '\n') :
    lines (s ++ t) = lines s ++ lines t := by
  have hend : s.toList = [] ∨ s.toList.getLast? = some '\n' :=
    h.imp_left String.toList_eq_nil_iff.mpr
  rw [lines, String.toList_append, splitAfter_append hend, List.map_append]
  rfl

/-- A line of a text holds a newline at its end only. -/
theorem newline_not_mem_dropLast {s line : String} (h : line ∈ lines s) :
    '\n' ∉ line.toList.dropLast := by
  obtain ⟨cs, hcs, rfl⟩ := List.mem_map.mp h
  rw [String.toList_ofList]
  exact (cut_splitAfter '\n' s.toList).not_mem_dropLast cs hcs

/-- Nothing is lost when a text is cut into lines. -/
theorem join_lines (s : String) : String.join (lines s) = s := by
  refine String.toList_inj.mp ?_
  rw [String.toList_join, lines, List.flatMap_def, List.map_map]
  have hlist : (String.toList ∘ String.ofList) = id := funext fun _ => String.toList_ofList
  rw [hlist, List.map_id, flatten_splitAfter]

/-! ## Bytes -/

theorem utf8EncodeChar_newline : String.utf8EncodeChar '\n' = [10] := by
  decide

/-- The byte of a newline is part of no other character. -/
theorem eq_newline_of_mem_utf8EncodeChar {c : Char} (h : 10 ∈ String.utf8EncodeChar c) :
    c = '\n' := by
  have hbyte : ∀ n < 256, (10 : UInt8) = UInt8.ofNat n → n = 10 := by
    intro n hn heq
    have hnat := congrArg UInt8.toNat heq
    rw [UInt8.toNat_ofNat_of_lt' hn] at hnat
    exact hnat.symm
  unfold String.utf8EncodeChar at h
  dsimp only at h
  split at h
  · have hv := hbyte c.val.toNat (by omega) (List.mem_singleton.mp h)
    exact Char.ext (UInt32.toNat_inj.mp hv)
  · -- the bytes of a longer character are all 128 or more
    have hlong : ∀ n, 128 ≤ n → n < 256 → (10 : UInt8) ≠ UInt8.ofNat n := by
      intro n hlow hn heq
      have := hbyte n hn heq
      omega
    exfalso
    split at h
    · simp only [List.mem_cons, List.not_mem_nil, or_false] at h
      rcases h with h | h
      · exact hlong _ (by omega) (by omega) h
      · exact hlong _ (by omega) (by omega) h
    · split at h
      · simp only [List.mem_cons, List.not_mem_nil, or_false] at h
        rcases h with h | h | h
        · exact hlong _ (by omega) (by omega) h
        · exact hlong _ (by omega) (by omega) h
        · exact hlong _ (by omega) (by omega) h
      · simp only [List.mem_cons, List.not_mem_nil, or_false] at h
        rcases h with h | h | h | h
        · exact hlong _ (by omega) (by omega) h
        · exact hlong _ (by omega) (by omega) h
        · exact hlong _ (by omega) (by omega) h
        · exact hlong _ (by omega) (by omega) h

theorem toList_data_toUTF8 (s : String) :
    s.toUTF8.data.toList = s.toList.flatMap String.utf8EncodeChar := by
  obtain ⟨cs, rfl⟩ := s.exists_eq_ofList
  rw [String.toUTF8_eq_toByteArray, String.toByteArray_ofList, String.toList_ofList,
    List.utf8Encode, List.data_toByteArray]

theorem fromUTF8?_toUTF8 (s : String) : String.fromUTF8? s.toUTF8 = some s := by
  rw [String.fromUTF8?, String.toUTF8_eq_toByteArray, dif_pos s.isValidUTF8]
  rfl

theorem toUTF8_of_fromUTF8? {bytes : ByteArray} {s : String}
    (h : String.fromUTF8? bytes = some s) : s.toUTF8 = bytes := by
  unfold String.fromUTF8? at h
  split at h
  · cases h
    rfl
  · cases h

theorem toUTF8_inj {s t : String} (h : s.toUTF8 = t.toUTF8) : s = t :=
  String.toByteArray_inj.mp h

/-- The lines of a file are cut at the byte of a newline. -/
theorem map_data_rawLines (content : ByteArray) :
    (rawLines content).map (·.data.toList) = splitAfter 10 content.data.toList := by
  rw [rawLines, List.map_map]
  exact List.map_id _

theorem flatten_rawLines (content : ByteArray) :
    ((rawLines content).map (·.data.toList)).flatten = content.data.toList := by
  rw [map_data_rawLines, flatten_splitAfter]

theorem data_toUTF8_join (ls : List String) :
    (String.join ls).toUTF8.data.toList = (ls.map (·.toUTF8.data.toList)).flatten := by
  rw [toList_data_toUTF8, String.toList_join, List.flatMap_assoc, List.flatMap_def]
  simp only [toList_data_toUTF8]

/-- **The lines of a text are cut the same before it is read as text.** -/
theorem rawLines_toUTF8 (s : String) : rawLines s.toUTF8 = (lines s).map String.toUTF8 := by
  -- the lines are cut first and written as bytes then
  have hcut := (cut_splitAfter '\n' s.toList).flatMap utf8EncodeChar_newline
    (fun _ => eq_newline_of_mem_utf8EncodeChar) fun _ => String.utf8EncodeChar_ne_nil
  have hsplit := hcut.splitAfter_flatten
  have hbytes : ((splitAfter '\n' s.toList).map (·.flatMap String.utf8EncodeChar)).flatten =
      s.toUTF8.data.toList := by
    have hassoc := List.flatMap_assoc (l := splitAfter '\n' s.toList) (f := id)
      (g := String.utf8EncodeChar)
    rw [List.flatMap_id, flatten_splitAfter] at hassoc
    rw [toList_data_toUTF8, hassoc, List.flatMap_def]
    rfl
  rw [hbytes] at hsplit
  rw [rawLines, hsplit, lines, List.map_map, List.map_map]
  refine List.map_congr_left fun line _ => ByteArray.ext ?_
  have hline := toList_data_toUTF8 (String.ofList line)
  rw [String.toList_ofList] at hline
  show (line.flatMap String.utf8EncodeChar).toArray = (String.ofList line).toUTF8.data
  rw [← hline, Array.toArray_toList]

/-- A line of a file that can be read as text holds a newline at its end only. -/
theorem newline_not_mem_dropLast_of_rawLines {content bytes : ByteArray} {line : String}
    (h : bytes ∈ rawLines content) (hline : String.fromUTF8? bytes = some line) :
    '\n' ∉ line.toList.dropLast := by
  have hbytes : bytes.data.toList ∈ splitAfter 10 content.data.toList :=
    map_data_rawLines content ▸ List.mem_map_of_mem h
  have hnone := (cut_splitAfter 10 content.data.toList).not_mem_dropLast _ hbytes
  rw [← toUTF8_of_fromUTF8? hline, toList_data_toUTF8] at hnone
  intro hmem
  refine hnone ?_
  -- the byte of a newline in front of the last character is in front of its last byte
  obtain hnil | ⟨init, last, hlist⟩ := List.eq_nil_or_concat line.toList
  · rw [hnil] at hmem
    cases hmem
  · rw [hlist, List.concat_eq_append] at hmem ⊢
    rw [List.dropLast_concat] at hmem
    rw [List.flatMap_append, List.flatMap_singleton,
      List.dropLast_append_of_ne_nil String.utf8EncodeChar_ne_nil]
    refine List.mem_append_left _ (List.mem_flatMap.mpr ⟨'\n', hmem, ?_⟩)
    rw [utf8EncodeChar_newline]
    exact List.mem_singleton_self _

/-! ## The first line that is not text -/

/-- The lines in front of the first one that is not text. -/
def legibleLines : List ByteArray → List String
  | [] => []
  | bytes :: rest =>
    match String.fromUTF8? bytes with
    | none => []
    | some line => line :: legibleLines rest

/-- The text in front of the first line that is not text. -/
def legible (content : ByteArray) : String :=
  String.join (legibleLines (rawLines content))

/-- Lines are legible as far as they are text. -/
theorem exists_of_legibleLines (raw : List ByteArray) :
    ∃ rest, raw = (legibleLines raw).map String.toUTF8 ++ rest ∧
      ∀ bytes ∈ rest.head?, String.fromUTF8? bytes = none := by
  induction raw with
  | nil => exact ⟨[], rfl, nofun⟩
  | cons bytes raw ih =>
    unfold legibleLines
    split
    next hnone => exact ⟨bytes :: raw, rfl, by simpa using hnone⟩
    next line hline =>
      obtain ⟨rest, hraw, hrest⟩ := ih
      refine ⟨rest, ?_, hrest⟩
      rw [List.map_cons, toUTF8_of_fromUTF8? hline, List.cons_append, ← hraw]

/-- **The legible lines are the lines of the legible text.** -/
theorem lines_legible (content : ByteArray) :
    lines (legible content) = legibleLines (rawLines content) := by
  obtain ⟨rest, hraw, -⟩ := exists_of_legibleLines (rawLines content)
  generalize hls : legibleLines (rawLines content) = ls at hraw
  -- their bytes are lines of the file, with nothing behind them
  have hcut : Cut 10 (ls.map (·.toUTF8.data.toList)) := by
    have hall := cut_splitAfter 10 content.data.toList
    rw [← map_data_rawLines, hraw, List.map_append, List.map_map] at hall
    exact hall.of_append
  have hlegible : rawLines (legible content).toUTF8 = ls.map String.toUTF8 := by
    rw [rawLines, legible, hls, data_toUTF8_join, hcut.splitAfter_flatten, List.map_map]
    rfl
  rw [rawLines_toUTF8] at hlegible
  exact List.map_injective_iff.mpr (fun _ _ => toUTF8_inj) hlegible

/-- A file that is not text has a line that is not. -/
theorem exists_of_fromUTF8?_eq_none {content : ByteArray} (h : String.fromUTF8? content = none) :
    ∃ bytes rest, rawLines content = (lines (legible content)).map String.toUTF8 ++ bytes :: rest ∧
      String.fromUTF8? bytes = none := by
  obtain ⟨rest, hraw, hrest⟩ := exists_of_legibleLines (rawLines content)
  rw [← lines_legible] at hraw
  cases rest with
  | cons bytes rest => exact ⟨bytes, rest, hraw, hrest bytes rfl⟩
  | nil =>
    -- all lines are text, and so the file is
    have hcontent : (legible content).toUTF8 = content := by
      rw [List.append_nil] at hraw
      refine ByteArray.ext (Array.toList_inj.mp ?_)
      rw [← flatten_rawLines content, hraw, List.map_map, ← join_lines (legible content),
        data_toUTF8_join, join_lines]
      rfl
    rw [← hcontent, fromUTF8?_toUTF8] at h
    cases h

end Webcomic.Text
