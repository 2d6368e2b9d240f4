/-!
# Lists of keyed values

Association lists in which every key stands once. Putting a value under a key replaces the value
that was there, in its place, and a new key goes to the end; so the order of the keys is the order
in which they first came.
-/

namespace Webcomic.Keyed

variable {κ ν : Type} [DecidableEq κ]

/-- The list with `value` under `key`. -/
def put (key : κ) (value : ν) : List (κ × ν) → List (κ × ν)
  | [] => [(key, value)]
  | (k, v) :: rest => if k = key then (k, value) :: rest else (k, v) :: put key value rest

/-- The value under a key. -/
def get? (key : κ) : List (κ × ν) → Option ν
  | [] => none
  | (k, v) :: rest => if k = key then some v else get? key rest

@[simp] theorem get?_nil (key : κ) : get? key ([] : List (κ × ν)) = none := rfl

/-- **What is put is what is found**, and nothing else changes. -/
@[simp] theorem get?_put (key k : κ) (value : ν) (list : List (κ × ν)) :
    get? k (put key value list) = if key = k then some value else get? k list := by
  induction list with
  | nil => simp [put, get?]
  | cons head rest ih =>
    obtain ⟨k', v⟩ := head
    by_cases h : k' = key
    · subst h
      simp [put, get?]
      split <;> rfl
    · by_cases hk : k' = k
      · subst hk
        simp [put, get?, h, Ne.symm h]
      · simp [put, get?, h, hk, ih]

theorem keys_put (key : κ) (value : ν) (list : List (κ × ν)) :
    (put key value list).map Prod.fst =
      if key ∈ list.map Prod.fst then list.map Prod.fst else list.map Prod.fst ++ [key] := by
  induction list with
  | nil => simp [put]
  | cons head rest ih =>
    obtain ⟨k, v⟩ := head
    by_cases h : k = key
    · simp [put, h]
    · simp only [put, h, if_false, List.map_cons, ih, List.mem_cons, Ne.symm h, false_or]
      split <;> simp

theorem nodup_keys_put {key : κ} {value : ν} {list : List (κ × ν)}
    (h : (list.map Prod.fst).Nodup) : ((put key value list).map Prod.fst).Nodup := by
  rw [keys_put]
  split
  next => exact h
  next hmem =>
    rw [List.nodup_append]
    refine ⟨h, by simp, ?_⟩
    rintro a ha b hb rfl
    exact hmem (List.mem_singleton.1 hb ▸ ha)

/-- A value is found only where it stands. -/
theorem mem_of_get? {key : κ} {value : ν} {list : List (κ × ν)} (h : get? key list = some value) :
    (key, value) ∈ list := by
  induction list with
  | nil => cases h
  | cons head rest ih =>
    obtain ⟨k, v⟩ := head
    by_cases hk : k = key
    · simp only [get?, hk, if_true, Option.some.injEq] at h
      simp [hk, h]
    · simp only [get?, hk, if_false] at h
      exact List.mem_cons_of_mem _ (ih h)

/-- Where a key stands once, what stands there is found. -/
theorem get?_of_mem {key : κ} {value : ν} {list : List (κ × ν)}
    (hd : (list.map Prod.fst).Nodup) (h : (key, value) ∈ list) : get? key list = some value := by
  induction list with
  | nil => cases h
  | cons head rest ih =>
    obtain ⟨k, v⟩ := head
    simp only [List.map_cons, List.nodup_cons] at hd
    rcases List.mem_cons.1 h with h | h
    · cases h; simp [get?]
    · have : k ≠ key := fun hk => hd.1 (hk ▸ List.mem_map_of_mem h)
      simpa [get?, this] using ih hd.2 h

end Webcomic.Keyed
