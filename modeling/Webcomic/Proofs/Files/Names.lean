import Webcomic.Files.Path
import Webcomic.Proofs.Text.Words

/-!
# The names of joined and of shortened paths

What the operations on paths do to their names. A path seen from a directory has the names of the
directory and then its own; the parent of a path has the first of its names. Single dots are no
names that lead anywhere, so names are told up to them.
-/

namespace Webcomic.Files

open Text

/-! ## Names that lead somewhere -/

/-- A name that leads from a directory to something in it. -/
structure IsName (name : String) : Prop where
  nonempty : name ≠ ""
  no_slash : '/' ∉ name.toList
  not_dot : name ≠ "."
  not_dots : name ≠ ".."

instance (name : String) : Decidable (IsName name) :=
  decidable_of_iff (name ≠ "" ∧ '/' ∉ name.toList ∧ name ≠ "." ∧ name ≠ "..")
    ⟨fun h => ⟨h.1, h.2.1, h.2.2.1, h.2.2.2⟩, fun h => ⟨h.1, h.2, h.3, h.4⟩⟩

namespace Location

/-- The locations that are looked at on the way from `loc` by some names. No dots are looked at. -/
def visits (loc : Location) : List String → List Location
  | [] => []
  | name :: names =>
    (if name = "." ∨ name = ".." then [] else [loc ++ [name]]) ++ visits (loc.enter name) names

@[simp] theorem enter_dot (loc : Location) : loc.enter "." = loc := rfl

theorem enter_of_isName {loc : Location} {name : String} (h : IsName name) :
    loc.enter name = loc ++ [name] := by
  rw [enter, if_neg h.not_dot, if_neg h.not_dots]

/-- A way visits what its first part visits, and then what the rest does from there. -/
theorem visits_append (loc : Location) (names names' : List String) :
    visits loc (names ++ names') = visits loc names ++ visits (names.foldl enter loc) names' := by
  induction names generalizing loc with
  | nil => rfl
  | cons name names ih =>
    simp only [List.cons_append, visits, ih, List.foldl_cons, List.append_assoc]

/-- Single dots lead nowhere. -/
theorem visits_filter_dot (loc : Location) (names : List String) :
    visits loc (names.filter (· ≠ ".")) = visits loc names := by
  induction names generalizing loc with
  | nil => rfl
  | cons name names ih =>
    by_cases h : name = "."
    · subst h
      rw [List.filter_cons_of_neg (by simp), ih, visits]
      simp
    · rw [List.filter_cons_of_pos (by simpa using h), visits, visits, ih]

/-- Names that do not go back lead further down. -/
theorem prefix_foldl_enter {names : List String} (h : ".." ∉ names) (loc : Location) :
    loc <+: names.foldl enter loc := by
  induction names generalizing loc with
  | nil => exact List.prefix_refl loc
  | cons name names ih =>
    obtain ⟨hname, hnames⟩ := not_or.mp (mt List.mem_cons.mpr h)
    refine List.IsPrefix.trans ?_ (ih hnames (loc.enter name))
    rw [enter]
    split
    · exact List.prefix_refl loc
    · rw [if_neg (Ne.symm hname)]
      exact List.prefix_append loc [name]

/-- So what is looked at on the way lies above its end. -/
theorem prefix_of_mem_visits {names : List String} (h : ".." ∉ names) {loc l : Location}
    (hl : l ∈ loc.visits names) : l <+: names.foldl enter loc := by
  induction names generalizing loc with
  | nil => cases hl
  | cons name names ih =>
    obtain ⟨hname, hnames⟩ := not_or.mp (mt List.mem_cons.mpr h)
    rw [visits, List.mem_append] at hl
    rcases hl with hfirst | hrest
    · split at hfirst
      · cases hfirst
      next hdot =>
        obtain rfl := List.mem_singleton.mp hfirst
        -- a plain name leads down, and nothing leads up again
        have henter : loc.enter name = loc ++ [name] := by
          rw [enter, if_neg fun hd => hdot (.inl hd), if_neg (Ne.symm hname)]
        rw [List.foldl_cons, henter]
        exact prefix_foldl_enter hnames _
    · exact ih hnames hrest

end Location

namespace Path

variable {p base name : Path} {wd : Location}

/-- The locations that are looked at when a path is resolved. -/
def lookups (wd : Location) (p : Path) : List Location :=
  (p.start wd).visits p.names

/-! ## A path seen from a directory -/

/-- The names behind a directory are its own and those of the path, whether it ends in a slash or
not. -/
theorem names_join (hp : p.isAbsolute = false) : (base.join p).names = base.names ++ p.names := by
  have happend : ∀ a : List Char, words '/' a = words '/' base.toList →
      (words '/' (a ++ '/' :: p.toList)).map String.ofList = base.names ++ p.names := by
    intro a ha
    rw [words_append_separator, List.map_append, ha]
    rfl
  unfold join
  rw [if_neg (by simp [hp])]
  split
  next hbase =>
    rcases Bool.or_eq_true_iff.mp hbase with hempty | hslash
    · obtain rfl : base = "" := by simpa using hempty
      simp [names, words, pieces]
    · -- the slash at the end of the directory separates the names
      have hlast : base.toList.getLast? = some '/' := by simpa [endsInSlash] using hslash
      obtain ⟨a, ha⟩ := List.getLast?_eq_some_iff.mp hlast
      rw [names, String.toList_append, ha, List.append_assoc]
      refine happend a ?_
      rw [ha, words_snoc_separator]
  next =>
    rw [names, String.toList_append, String.toList_append, List.append_assoc]
    exact happend base.toList rfl

theorem isAbsolute_join (hp : p.isAbsolute = false) :
    (base.join p).isAbsolute = base.isAbsolute := by
  unfold join
  rw [if_neg (by simp [hp])]
  by_cases hempty : base = ""
  · subst hempty
    simpa [isAbsolute] using hp
  · have hne : base.toList ≠ [] := by simpa using hempty
    obtain ⟨c, cs, hcons⟩ := List.exists_cons_of_ne_nil hne
    split <;> simp [isAbsolute, String.toList_append, hcons]

theorem isAbsolute_of_isName (h : IsName name) : isAbsolute name = false := by
  have hhead : name.toList.head? ≠ some '/' := fun heq => h.no_slash (List.mem_of_head? heq)
  simpa [isAbsolute] using hhead

theorem names_of_isName (h : IsName name) : names name = [name] := by
  have hne : name.toList ≠ [] := by simpa using h.nonempty
  rw [names, words_eq_singleton h.no_slash hne]
  simp

theorem start_join (hp : p.isAbsolute = false) : (base.join p).start wd = base.start wd := by
  rw [start, start, isAbsolute_join hp]

/-- A name is located in its directory. -/
theorem locate_join (h : IsName name) :
    (base.join name).locate wd = base.locate wd ++ [name] := by
  have hrel := isAbsolute_of_isName h
  rw [locate, locate, names_join hrel, start_join hrel, names_of_isName h, List.foldl_append]
  exact Location.enter_of_isName h

/-- What is looked at for a name in a directory: the way to the directory, and then the name. -/
theorem lookups_join (h : IsName name) :
    (base.join name).lookups wd = base.lookups wd ++ [base.locate wd ++ [name]] := by
  have hrel := isAbsolute_of_isName h
  rw [lookups, lookups, names_join hrel, start_join hrel, names_of_isName h,
    Location.visits_append, ← locate]
  simp [Location.visits, h.not_dot, h.not_dots]

/-! ## The parent of a path -/

/-- What trimming the end of a path leaves of it: all names but single dots. Both are read last
character first. -/
structure TrimOf (cs trimmed : List Char) : Prop where
  words : (words '/' trimmed.reverse).filter (· ≠ ['.']) =
    (words '/' cs.reverse).filter (· ≠ ['.'])
  first : trimmed.getLast? = cs.getLast?
  length_le : trimmed.length ≤ cs.length
  /-- It ends in a slash only if it is one. -/
  slash : ∀ rest, trimmed = '/' :: rest → rest = []

/-- Trimming drops slashes and single dots at the end of a path, and no name. -/
theorem trimOf_trimEnd (cs : List Char) : TrimOf cs (trimEnd cs) := by
  fun_induction trimEnd cs with
  | case1 => exact ⟨rfl, rfl, Nat.le_refl _, by simp⟩
  | case2 cs hne ih =>
    refine ⟨?_, ?_, Nat.le_succ_of_le ih.length_le, ih.slash⟩
    · rw [ih.words, List.reverse_cons, words_snoc_separator]
    · obtain ⟨c, cs, rfl⟩ := List.exists_cons_of_ne_nil hne
      rw [ih.first, List.getLast?_cons_cons]
  | case3 cs ih =>
    refine ⟨?_, ?_, Nat.le_succ_of_le ih.length_le, ih.slash⟩
    · -- the dot is a word of its own, which does not count
      have hdot : (Text.words '/' ['.']).filter (· ≠ ['.']) = [] := by decide
      have hsplit : ('.' :: '/' :: cs).reverse = cs.reverse ++ '/' :: ['.'] := by simp
      rw [ih.words, hsplit, words_append_separator, List.filter_append, hdot, List.append_nil,
        List.reverse_cons, words_snoc_separator]
    · rw [ih.first, List.getLast?_cons_cons]
  | case4 cs hslash hcons hdot =>
    refine ⟨rfl, rfl, Nat.le_refl _, ?_⟩
    rintro rest rfl
    cases rest with
    | nil => rfl
    | cons c rest => exact absurd rfl (hcons (c :: rest))

/-- A path that has a parent is, up to slashes and single dots at its end, a name behind the parent
and a slash, or the name alone. -/
theorem exists_of_parent? {parent : Path} (h : p.parent? = some parent) :
    ∃ name rest : List Char, name ≠ [] ∧ TrimOf p.toList.reverse (name ++ rest) ∧
      TrimOf rest parent.toList.reverse ∧ (rest = [] ∨ ∃ rest', rest = '/' :: rest') := by
  have hcs := trimOf_trimEnd p.toList.reverse
  unfold parent? at h
  generalize trimEnd p.toList.reverse = cs at h hcs
  split at h
  · cases h
  · cases h
  next hnil hslash =>
    cases h
    refine ⟨cs.takeWhile (· ≠ '/'), cs.dropWhile (· ≠ '/'), ?_, ?_, ?_, ?_⟩
    · -- the path does not end in a slash, unless it is one, which has no parent
      cases hcons : cs with
      | nil => exact absurd hcons hnil
      | cons c rest =>
        have hc : c ≠ '/' := by
          rintro rfl
          have hrest := hcs.slash rest hcons
          exact hslash (by rw [hcons, hrest])
        simp [hc]
    · rw [List.takeWhile_append_dropWhile]
      exact hcs
    · rw [String.toList_ofList, List.reverse_reverse]
      exact trimOf_trimEnd _
    · cases hrest : cs.dropWhile (· ≠ '/') with
      | nil => exact .inl rfl
      | cons c rest =>
        have hc := List.head?_dropWhile_not (· ≠ '/') cs
        rw [hrest] at hc
        obtain rfl : c = '/' := by simpa using hc
        exact .inr ⟨rest, rfl⟩

/-- The names of the parent stand first among those of a path. -/
theorem names_parent?_prefix {parent : Path} (h : p.parent? = some parent) :
    parent.names.filter (· ≠ ".") <+: p.names.filter (· ≠ ".") := by
  have hfilter : ∀ q : Path, q.names.filter (· ≠ ".") =
      ((words '/' q.toList).filter (· ≠ ['.'])).map String.ofList := by
    intro q
    rw [names, List.filter_map]
    congr 1
    refine List.filter_congr fun word _ => ?_
    have hdot : String.ofList word = "." ↔ word = ['.'] := by
      rw [← String.toList_inj, String.toList_ofList]
      rfl
    simp [hdot]
  obtain ⟨name, rest, -, hp, hparent, hrest⟩ := exists_of_parent? h
  have hwords := hparent.words
  have hwords' := hp.words
  rw [List.reverse_reverse] at hwords hwords'
  rw [hfilter, hfilter, hwords, ← hwords', List.reverse_append]
  refine List.IsPrefix.map _ ?_
  -- behind the parent stands the name, or the name is all there is
  rcases hrest with rfl | ⟨rest, rfl⟩
  · exact List.nil_prefix
  · rw [List.reverse_cons, words_snoc_separator, List.append_assoc, List.singleton_append,
      words_append_separator, List.filter_append]
    exact List.prefix_append _ _

/-- A parent with names is read from the root exactly if the path is. -/
theorem isAbsolute_parent? {parent : Path} (h : p.parent? = some parent) (hne : parent.names ≠ []) :
    parent.isAbsolute = p.isAbsolute := by
  obtain ⟨name, rest, -, hp, hparent, -⟩ := exists_of_parent? h
  have hrest : rest ≠ [] := by
    rintro rfl
    have hlength := hparent.length_le
    rw [List.length_nil, Nat.le_zero, List.length_reverse, List.length_eq_zero_iff] at hlength
    exact hne (by rw [names, hlength]; rfl)
  have hfirst := hp.first
  obtain ⟨c, hc⟩ := Option.isSome_iff_exists.mp (List.getLast?_isSome.mpr hrest)
  rw [List.getLast?_append, hc, Option.some_or, ← hc, ← hparent.first, List.getLast?_reverse,
    List.getLast?_reverse] at hfirst
  rw [isAbsolute, isAbsolute, hfirst]

/-- What is looked at for the parent is looked at for the path. -/
theorem lookups_parent?_subset {parent : Path} (h : p.parent? = some parent) :
    parent.lookups wd ⊆ p.lookups wd := by
  by_cases hne : parent.names = []
  · rw [lookups, hne]
    exact List.nil_subset _
  · have hstart : parent.start wd = p.start wd := by rw [start, start, isAbsolute_parent? h hne]
    obtain ⟨names, hnames⟩ := names_parent?_prefix h
    rw [lookups, lookups, ← Location.visits_filter_dot _ parent.names,
      ← Location.visits_filter_dot _ p.names, ← hnames, Location.visits_append, hstart]
    exact List.subset_append_left _ _

end Path

end Webcomic.Files
