import Mathlib.Data.String.Basic
import Webcomic.Proofs.Text.Lines

/-!
# The order of bytes

File names are sorted by their bytes, and texts are compared by their characters. In UTF-8 the two
orders are one (`bytes_lt_bytes_iff`): the first byte of a longer character is greater, and the
bytes of two characters of one length differ first where the numbers of the characters do.
-/

namespace Webcomic.Text

variable {α β : Type} {c d : Char} {s t : String}

/-- The bytes of a text. -/
def bytes (s : String) : List UInt8 :=
  s.toUTF8.data.toList

theorem bytes_eq_flatMap (s : String) : bytes s = s.toList.flatMap String.utf8EncodeChar :=
  toList_data_toUTF8 s

theorem bytes_inj : bytes s = bytes t ↔ s = t := by
  refine ⟨fun h => toUTF8_inj (ByteArray.ext (Array.toList_inj.mp h)), fun h => ?_⟩
  rw [h]

/-! ## One character -/

theorem ofNat_eq_iff_eq {m n : Nat} (hm : m < UInt8.size) (hn : n < UInt8.size) :
    UInt8.ofNat m = UInt8.ofNat n ↔ m = n := by
  rw [← UInt8.toNat_inj, UInt8.toNat_ofNat_of_lt' hm, UInt8.toNat_ofNat_of_lt' hn]

/-- The bytes of a lesser character come first, whatever follows. -/
theorem utf8EncodeChar_append_lt (h : c < d) (us vs : List UInt8) :
    String.utf8EncodeChar c ++ us < String.utf8EncodeChar d ++ vs := by
  have hlt : c.val.toNat < d.val.toNat := h
  have hmax : d.val.toNat < 0x110000 := by
    have hvalid := d.valid
    simp only [UInt32.isValidChar, Nat.isValidChar] at hvalid
    omega
  unfold String.utf8EncodeChar
  dsimp only
  generalize c.val.toNat = m at hlt
  generalize d.val.toNat = n at hlt hmax
  -- six bits at a time, as the bytes behind the first hold them
  have hsix : ∀ a b, a < b → a / 64 < b / 64 ∨ a / 64 = b / 64 ∧ a % 64 < b % 64 := by omega
  have hlast := hsix m n hlt
  have hmiddle := hsix (m / 64) (n / 64)
  have hfirst := hsix (m / 64 / 64) (n / 64 / 64)
  simp only [Nat.div_div_eq_div_mul, Nat.reduceMul] at hmiddle hfirst
  have hm : m / 262144 % 8 = m / 262144 := Nat.mod_eq_of_lt (by omega)
  have hn : n / 262144 % 8 = n / 262144 := Nat.mod_eq_of_lt (by omega)
  repeat' split
  all_goals
    simp (disch := simp only [UInt8.size]; omega) only [List.cons_append, List.cons_lt_cons_iff,
      UInt8.ofNat_lt_iff_lt, ofNat_eq_iff_eq]
    omega

/-! ## Texts -/

/-- Lists are written out in their order, if the lesser of two elements is written as what comes
first, whatever follows. -/
theorem flatMap_lt_flatMap [LT α] [LT β] {f : α → List β} {as bs : List α}
    (hf : ∀ a b, a < b → ∀ us vs, f a ++ us < f b ++ vs) (hne : ∀ a, f a ≠ [])
    (h : as < bs) : as.flatMap f < bs.flatMap f := by
  induction as generalizing bs with
  | nil =>
    cases bs with
    | nil => exact absurd h (List.not_lt_nil _)
    | cons b bs =>
      obtain ⟨x, xs, hx⟩ := List.exists_cons_of_ne_nil (hne b)
      rw [List.flatMap_nil, List.flatMap_cons, hx]
      exact List.nil_lt_cons _ _
  | cons a as ih =>
    cases bs with
    | nil => exact absurd h (List.not_lt_nil _)
    | cons b bs =>
      rw [List.flatMap_cons, List.flatMap_cons]
      -- the first elements differ, or else decide nothing
      rcases List.cons_lt_cons_iff.mp h with hlt | ⟨rfl, hlt⟩
      · exact hf a b hlt _ _
      · exact List.append_left_lt (ih hlt)

theorem bytes_lt_bytes (h : s < t) : bytes s < bytes t := by
  rw [bytes_eq_flatMap, bytes_eq_flatMap]
  exact flatMap_lt_flatMap (fun _ _ => utf8EncodeChar_append_lt)
    (fun _ => String.utf8EncodeChar_ne_nil) (String.lt_iff_toList_lt.mp h)

/-- **Texts are in the order of their bytes.** -/
theorem bytes_lt_bytes_iff : bytes s < bytes t ↔ s < t := by
  refine ⟨fun h => ?_, bytes_lt_bytes⟩
  rcases lt_trichotomy s t with hlt | rfl | hgt
  · exact hlt
  · exact absurd h (List.lt_irrefl _)
  · exact absurd (bytes_lt_bytes hgt) (List.lt_asymm h)

end Webcomic.Text
