import Mathlib.Data.Nat.Digits.Defs
import Webcomic.Proofs.Calendar.Stamp

/-!
# Numerals

A numeral is a number in positional notation, in decimal digits of which there are as many as its
field holds (`Numeral`). Digits are read and written so: the value of a run of digits is the number
it is the numeral of (`numeral_iff`), and filling a number with zeros writes its numeral
(`numeral_padded`). In one field a number has one numeral, and numerals are in the order of their
numbers (`Numeral.lt_iff`).
-/

namespace Webcomic.Text

variable {width m n : Nat} {cs ds : List Char}

/-- A text is the numeral of a number in a field of `width` digits. -/
def Numeral (width n : Nat) (cs : List Char) : Prop :=
  ∃ ns : List Nat, ns.length = width ∧ (∀ k ∈ ns, k < 10) ∧ cs = ns.map Nat.digitChar ∧
    n = Nat.ofDigits 10 ns.reverse

/-! ## The value of a run of digits -/

theorem digitsValue_append (cs ds : List Char) :
    digitsValue (cs ++ ds) = 10 ^ ds.length * digitsValue cs + digitsValue ds := by
  show Nat.ofDigitChars 10 (cs ++ ds) 0 = _
  rw [Nat.ofDigitChars_append, Nat.ofDigitChars_eq_ofDigitChars_zero]
  rfl

theorem digitsValue_cons (c : Char) (cs : List Char) :
    digitsValue (c :: cs) = 10 ^ cs.length * (c.toNat - '0'.toNat) + digitsValue cs := by
  have hdigit : digitsValue [c] = c.toNat - '0'.toNat := by simp [digitsValue]
  rw [← List.singleton_append, digitsValue_append, hdigit]

theorem digitsValue_map_digitChar {ns : List Nat} (h : ∀ k ∈ ns, k < 10) :
    digitsValue (ns.map Nat.digitChar) = Nat.ofDigits 10 ns.reverse := by
  induction ns with
  | nil => rfl
  | cons k ns ih =>
    rw [List.map_cons, digitsValue_cons, ih fun m hm => h m (List.mem_cons_of_mem _ hm),
      Nat.toNat_digitChar_of_lt_ten (h k List.mem_cons_self), List.reverse_cons,
      Nat.ofDigits_append, Nat.ofDigits_singleton, List.length_map, List.length_reverse,
      Nat.add_comm]
    congr 2
    show 48 + k - 48 = k
    omega

/-- Digits are the characters of their values. -/
theorem exists_map_digitChar (h : ∀ c ∈ cs, c.isDigit = true) :
    ∃ ns : List Nat, (∀ k ∈ ns, k < 10) ∧ cs = ns.map Nat.digitChar := by
  have hrange : ∀ c ∈ cs, 48 ≤ c.toNat ∧ c.toNat ≤ 57 :=
    fun c hc => Char.isDigit_iff_toNat.mp (h c hc)
  have hrebuilt : ∀ c ∈ cs, Nat.digitChar (c.toNat - 48) = c := by
    intro c hc
    have hc := hrange c hc
    rw [← Char.toNat_inj, Nat.toNat_digitChar_of_lt_ten (by omega)]
    omega
  refine ⟨cs.map fun c => c.toNat - 48, fun k hk => ?_, ?_⟩
  · obtain ⟨c, hc, rfl⟩ := List.mem_map.mp hk
    have := hrange c hc
    omega
  · rw [List.map_map]
    exact ((List.map_congr_left hrebuilt).trans (List.map_id cs)).symm

/-! ## Reading and writing -/

/-- **A run of digits is the numeral of its value.** -/
theorem numeral_iff :
    Numeral width n cs ↔
      cs.length = width ∧ (∀ c ∈ cs, c.isDigit = true) ∧ n = digitsValue cs := by
  constructor
  · rintro ⟨ns, rfl, hsmall, rfl, rfl⟩
    refine ⟨List.length_map _, fun c hc => ?_, (digitsValue_map_digitChar hsmall).symm⟩
    obtain ⟨k, hk, rfl⟩ := List.mem_map.mp hc
    rw [Nat.isDigit_digitChar, decide_eq_true (hsmall k hk)]
  · rintro ⟨rfl, hdigits, rfl⟩
    obtain ⟨ns, hsmall, rfl⟩ := exists_map_digitChar hdigits
    exact ⟨ns, (List.length_map _).symm, hsmall, rfl, digitsValue_map_digitChar hsmall⟩

/-- The digits up to a place are the numeral of their value. -/
theorem numeral_take (hlen : width ≤ cs.length) (hdigits : ∀ c ∈ cs, c.isDigit = true) :
    Numeral width (digitsValue (cs.take width)) (cs.take width) :=
  numeral_iff.mpr ⟨List.length_take_of_le hlen, fun c hc => hdigits c (List.mem_of_mem_take hc),
    rfl⟩

/-- The digits behind a place are the numeral of their value. -/
theorem numeral_drop {k : Nat} (hlen : cs.length = k + width)
    (hdigits : ∀ c ∈ cs, c.isDigit = true) :
    Numeral width (digitsValue (cs.drop k)) (cs.drop k) := by
  refine numeral_iff.mpr ⟨?_, fun c hc => hdigits c (List.mem_of_mem_drop hc), rfl⟩
  rw [List.length_drop, hlen, Nat.add_sub_cancel_left]

/-- A number that fits its field is written as its numeral. -/
theorem numeral_padded (hw : 0 < width) (h : n < 10 ^ width) :
    Numeral width n (padded .zero width false n) :=
  numeral_iff.mpr ⟨length_padded_zero hw h, isDigit_of_mem_padded_zero,
    (digitsValue_padded_zero width n).symm⟩

/-- A number that has a numeral fits the field. -/
theorem Numeral.lt (h : Numeral width n cs) : n < 10 ^ width := by
  obtain ⟨rfl, hdigits, rfl⟩ := numeral_iff.mp h
  exact digitsValue_lt hdigits

/-! ## Numerals in one field -/

/-- Numbers in a base are compared by their first digits, and then by what follows. -/
theorem mul_add_lt_iff {k a b r s : Nat} (hr : r < k) (hs : s < k) :
    k * a + r < k * b + s ↔ a < b ∨ a = b ∧ r < s := by
  rcases Nat.lt_trichotomy a b with hlt | rfl | hgt
  · have hstep := Nat.mul_le_mul_left k (Nat.succ_le_of_lt hlt)
    rw [Nat.mul_succ] at hstep
    exact ⟨fun _ => .inl hlt, fun _ => by omega⟩
  · simp
  · have hstep := Nat.mul_le_mul_left k (Nat.succ_le_of_lt hgt)
    rw [Nat.mul_succ] at hstep
    constructor
    · intro h
      omega
    · rintro (h | ⟨h, -⟩) <;> omega

/-- Runs of digits of one length are in the order of their values. -/
theorem digitsValue_lt_iff (hcs : ∀ c ∈ cs, c.isDigit = true) (hds : ∀ c ∈ ds, c.isDigit = true)
    (hlen : cs.length = ds.length) : digitsValue cs < digitsValue ds ↔ cs < ds := by
  induction cs generalizing ds with
  | nil =>
    obtain rfl : ds = [] := List.length_eq_zero_iff.mp hlen.symm
    simp
  | cons c cs ih =>
    cases ds with
    | nil => cases hlen
    | cons d ds =>
      have hlen : cs.length = ds.length := Nat.succ.inj hlen
      have hcs' : ∀ c ∈ cs, c.isDigit = true := fun c hc => hcs c (List.mem_cons_of_mem _ hc)
      have hds' : ∀ c ∈ ds, c.isDigit = true := fun c hc => hds c (List.mem_cons_of_mem _ hc)
      have hc := Char.isDigit_iff_toNat.mp (hcs c List.mem_cons_self)
      have hd := Char.isDigit_iff_toNat.mp (hds d List.mem_cons_self)
      -- digits are in the order of their characters
      have hlt : c.toNat - '0'.toNat < d.toNat - '0'.toNat ↔ c < d := by
        rw [Char.lt_def, UInt32.lt_iff_toNat_lt]
        show _ ↔ c.toNat < d.toNat
        omega
      have heq : c.toNat - '0'.toNat = d.toNat - '0'.toNat ↔ c = d := by
        rw [← Char.toNat_inj]
        omega
      rw [digitsValue_cons, digitsValue_cons, hlen,
        mul_add_lt_iff (hlen ▸ digitsValue_lt hcs') (digitsValue_lt hds'), hlt, heq,
        ih hcs' hds' hlen, List.cons_lt_cons_iff]

/-- **Numerals in one field are in the order of their numbers.** -/
theorem Numeral.lt_iff (hm : Numeral width m cs) (hn : Numeral width n ds) : m < n ↔ cs < ds := by
  obtain ⟨hcs, hdigits, rfl⟩ := numeral_iff.mp hm
  obtain ⟨hds, hdigits', rfl⟩ := numeral_iff.mp hn
  exact digitsValue_lt_iff hdigits hdigits' (hcs.trans hds.symm)

/-- **In one field a number has one numeral.** -/
theorem Numeral.unique (h : Numeral width n cs) (h' : Numeral width n ds) : cs = ds := by
  have hlt : ¬ cs < ds := fun hlt => lt_irrefl n ((h.lt_iff h').mpr hlt)
  have hgt : ¬ ds < cs := fun hgt => lt_irrefl n ((h'.lt_iff h).mpr hgt)
  exact List.le_antisymm (List.not_lt.mp hgt) (List.not_lt.mp hlt)

end Webcomic.Text
