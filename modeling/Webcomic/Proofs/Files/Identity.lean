import Mathlib.Data.List.Induction
import Webcomic.Proofs.Files.Listing

/-!
# One file, one normal form

The **normal form** of a path is worked out on its text: the path is read from the working
directory, single dots are dropped, and two dots take the name before them away. It is the absolute
path of the location that the path names (`Path.normalize_eq`), so it has no dots and is its own
normal form.

A file system goes another way. It follows the names of a path one after the other through the tree,
and each is looked up in a directory that has to be there (`FileTree.Follows`). Where it comes to an
end, both agree: two paths that can be opened have one normal form exactly if they open the same
file or directory (`FileTree.same_normal_form_iff`). This needs a tree that is one: what stands
somewhere stands in a directory (`FileTree.Rooted`), and under a name (`FileTree.Named`).
-/

namespace Webcomic.Files

open Text

/-! ## The absolute path of a location -/

namespace Location

variable {loc loc' : Location} {names : List String}

/-- Each part of the location is a name. -/
def IsNamed (loc : Location) : Prop :=
  ∀ name ∈ loc, IsName name

instance (loc : Location) : Decidable loc.IsNamed := by
  unfold IsNamed; infer_instance

/-- The absolute path of a location. -/
def path (loc : Location) : Path :=
  if loc.isEmpty then "/" else String.ofList (loc.flatMap fun name => '/' :: name.toList)

/-- A location is read back from its path. -/
theorem names_path (h : loc.IsNamed) : Path.names loc.path = loc := by
  have hwords : ∀ loc : Location, loc.IsNamed →
      words '/' (loc.flatMap fun name => '/' :: name.toList) = loc.map String.toList := by
    intro loc h
    -- on the last name: what is in front of it is a path of its own
    induction loc using List.reverseRecOn with
    | nil => rfl
    | append_singleton loc name ih =>
      have hname := h name (by simp)
      have hne : name.toList ≠ [] := by simpa using hname.nonempty
      rw [List.flatMap_append, List.flatMap_singleton, words_append_separator,
        ih fun name hmem => h name (List.mem_append_left _ hmem),
        words_eq_singleton hname.no_slash hne, List.map_append]
      rfl
  unfold path
  split
  next hempty =>
    rw [List.isEmpty_iff.mp hempty]
    rfl
  next => simp [Path.names, hwords loc h]

theorem isAbsolute_path (loc : Location) : Path.isAbsolute loc.path = true := by
  unfold path
  split
  · rfl
  next hne =>
    obtain ⟨name, rest, rfl⟩ := List.exists_cons_of_ne_nil (by simpa using hne)
    simp [Path.isAbsolute]

/-- Different locations have different paths. -/
theorem path_inj (h : loc.IsNamed) (h' : loc'.IsNamed) : loc.path = loc'.path ↔ loc = loc' := by
  refine ⟨fun heq => ?_, fun heq => heq ▸ rfl⟩
  rw [← names_path h, ← names_path h', heq]

/-- Names lead on from where one is. -/
theorem foldl_enter_of_isNamed (h : IsNamed names) (loc : Location) :
    names.foldl enter loc = loc ++ names := by
  induction names generalizing loc with
  | nil => simp
  | cons name names ih =>
    rw [List.foldl_cons, enter_of_isName (h name List.mem_cons_self),
      ih fun name hmem => h name (List.mem_cons_of_mem _ hmem), List.append_assoc]
    rfl

theorem isNamed_enter (h : loc.IsNamed) {name : String}
    (hname : ¬ (name = "." ∨ name = "..") → IsName name) : (loc.enter name).IsNamed := by
  unfold enter
  split
  · exact h
  split
  · exact fun name hmem => h name (List.dropLast_subset _ hmem)
  next hdot hdots =>
    intro name' hmem
    rcases List.mem_append.mp hmem with hmem | hmem
    · exact h name' hmem
    · rw [List.mem_singleton.mp hmem]
      exact hname (not_or.mpr ⟨hdot, hdots⟩)

end Location

/-! ## Normal forms -/

namespace Path

variable {p : Path} {wd : Location}

/-- The normal form of a path: it is made absolute, and dots are carried out on its names. -/
def normalize (wd : Location) (p : Path) : Path :=
  ((wd.path.join p).names.foldl Location.enter []).path

/-- The names of a path lead from one named location to another. -/
theorem isNamed_locate (hwd : wd.IsNamed) (p : Path) : (p.locate wd).IsNamed := by
  have hstart : (p.start wd).IsNamed := by
    unfold start
    split
    · exact fun name hmem => absurd hmem List.not_mem_nil
    · exact hwd
  have hnames : ∀ name ∈ p.names, ¬ (name = "." ∨ name = "..") → IsName name :=
    fun name hmem => isName_of_mem_names hmem
  unfold locate
  generalize p.start wd = loc at hstart
  generalize p.names = names at hnames
  induction names generalizing loc with
  | nil => exact hstart
  | cons name names ih =>
    exact ih _ (Location.isNamed_enter hstart (hnames name List.mem_cons_self))
      fun name hmem => hnames name (List.mem_cons_of_mem _ hmem)

/-- **The normal form of a path is the absolute path of its location.** -/
theorem normalize_eq (hwd : wd.IsNamed) (p : Path) : p.normalize wd = (p.locate wd).path := by
  unfold normalize locate start
  cases habs : p.isAbsolute with
  | true =>
    rw [join, if_pos habs]
    rfl
  | false =>
    rw [names_join habs, Location.names_path hwd, List.foldl_append,
      Location.foldl_enter_of_isNamed hwd]
    rfl

/-- Paths have one normal form exactly if they name one location. -/
theorem normalize_eq_normalize_iff (hwd : wd.IsNamed) (p q : Path) :
    p.normalize wd = q.normalize wd ↔ p.locate wd = q.locate wd := by
  rw [normalize_eq hwd, normalize_eq hwd,
    Location.path_inj (isNamed_locate hwd p) (isNamed_locate hwd q)]

theorem isAbsolute_normalize (wd : Location) (p : Path) : (p.normalize wd).isAbsolute = true :=
  Location.isAbsolute_path _

/-- A normal form spells out the location that its path leads to. -/
theorem names_normalize (hwd : wd.IsNamed) (p : Path) : (p.normalize wd).names = p.locate wd := by
  rw [normalize_eq hwd, Location.names_path (isNamed_locate hwd p)]

/-- **A normal form is its own normal form.** -/
theorem normalize_normalize (hwd : wd.IsNamed) (p : Path) :
    (p.normalize wd).normalize wd = p.normalize wd := by
  rw [normalize_eq_normalize_iff hwd, locate, start, if_pos (isAbsolute_normalize wd p),
    names_normalize hwd, Location.foldl_enter_of_isNamed (isNamed_locate hwd p)]
  rfl

end Path

namespace FileTree

variable {t : FileTree} {p q : Path} {loc loc' dir next goal : Location} {name : String}
  {names : List String} {node node' : Node}

/-! ## Following a path through a tree -/

/-- What stands somewhere stands in a directory. -/
def Rooted (t : FileTree) : Prop :=
  ∀ dir name node, t.node? (dir ++ [name]) = some node → t.node? dir = some .directory

/-- To see that a tree is rooted it is enough to look at its nodes. -/
theorem rooted_iff :
    t.Rooted ↔ ∀ entry ∈ t.nodes, entry.1 ≠ [] → t.node? entry.1.dropLast = some .directory := by
  constructor
  · rintro h ⟨loc, node⟩ hmem hne
    obtain ⟨name, hlast⟩ := Option.isSome_iff_exists.mp (List.getLast?_isSome.mpr hne)
    obtain ⟨dir, rfl⟩ := List.getLast?_eq_some_iff.mp hlast
    rw [List.dropLast_concat]
    refine h dir name node ?_
    rw [FileTree.node?, if_neg hne]
    exact Keyed.get?_of_mem t.distinct hmem
  · intro h dir name node hnode
    rw [FileTree.node?, if_neg (by simp)] at hnode
    have hdir := h _ (Keyed.mem_of_get? hnode) (by simp)
    rwa [List.dropLast_concat] at hdir

instance : Decidable t.Rooted := decidable_of_iff _ rooted_iff.symm

/-- Where one name of a path leads from a directory: a single dot stays, two dots go to the parent,
and the root is its own. Any other name goes to what stands under it. -/
inductive Step (t : FileTree) : Location → String → Location → Prop where
  | stay {loc : Location} : Step t loc "." loc
  | root : Step t [] ".." []
  | up {dir : Location} {name : String} : Step t (dir ++ [name]) ".." dir
  | enter {loc : Location} {name : String} {node : Node} : IsName name →
      t.node? (loc ++ [name]) = some node → Step t loc name (loc ++ [name])

/-- The names of a path are followed one after the other, each from a directory. -/
inductive Follows (t : FileTree) : Location → List String → Location → Prop where
  | nil {loc : Location} : Follows t loc [] loc
  | cons {loc next goal : Location} {name : String} {names : List String} :
      t.node? loc = some .directory → Step t loc name next → Follows t next names goal →
      Follows t loc (name :: names) goal

/-- The path is of a form and a length that a file system takes. -/
structure Accepts (p : Path) : Prop where
  nonempty : p ≠ ""
  no_nul : '\x00' ∉ p.toList
  length : p.utf8ByteSize ≤ maxPath
  names : ∀ name ∈ p.names, name.utf8ByteSize ≤ maxName

/-- A path opens what is reached by following its names. A path with a slash at its end asks for a
directory. -/
structure Opens (t : FileTree) (p : Path) (loc : Location) (node : Node) : Prop where
  accepts : Accepts p
  follows : t.Follows (p.start t.workingDir) p.names loc
  holds : t.node? loc = some node
  slash : node.isFile = true → p.endsInSlash = false

theorem Step.eq_enter (h : t.Step loc name next) : next = loc.enter name := by
  cases h with
  | stay => rfl
  | root => rfl
  | up => simp [Location.enter]
  | enter hname _ => exact (Location.enter_of_isName hname).symm

/-- **Names are followed to the location that they give as a text.** -/
theorem Follows.eq_foldl (h : t.Follows loc names goal) :
    goal = names.foldl Location.enter loc := by
  induction h with
  | nil => rfl
  | cons _ hstep _ ih => rw [ih, List.foldl_cons, hstep.eq_enter]

/-- What a path opens stands at its location. -/
theorem Opens.eq_locate (h : t.Opens p loc node) : loc = p.locate t.workingDir :=
  h.follows.eq_foldl

/-- The last name is followed from the directory that the names before it lead to. -/
theorem follows_concat_iff :
    t.Follows loc (names ++ [name]) goal ↔
      ∃ dir, t.Follows loc names dir ∧ t.node? dir = some .directory ∧ t.Step dir name goal := by
  constructor
  · intro h
    induction names generalizing loc with
    | nil =>
      cases h with
      | cons hdir hstep hrest =>
        cases hrest
        exact ⟨loc, .nil, hdir, hstep⟩
    | cons first names ih =>
      cases h with
      | cons hdir hstep hrest =>
        obtain ⟨last, hfollows, hlast⟩ := ih hrest
        exact ⟨last, .cons hdir hstep hfollows, hlast⟩
  · rintro ⟨dir, hfollows, hdir, hstep⟩
    induction hfollows with
    | nil => exact .cons hdir hstep .nil
    | cons hdir' hstep' _ ih => exact .cons hdir' hstep' (ih hdir hstep)

/-! ## Resolving is following -/

/-- The names `.` and `..` are followed as the location says, whatever is there. -/
theorem step_dots_iff (hdot : name = "." ∨ name = "..") :
    t.Step loc name next ↔ next = loc.enter name := by
  refine ⟨Step.eq_enter, ?_⟩
  rintro rfl
  rcases hdot with rfl | rfl
  · exact .stay
  · rcases List.eq_nil_or_concat loc with rfl | ⟨dir, name, rfl⟩
    · exact .root
    · simpa [Location.enter] using Step.up

/-- Any other name is followed to what stands under it. -/
theorem step_name_iff (hname : IsName name) :
    t.Step loc name next ↔ next = loc ++ [name] ∧ ∃ node, t.node? next = some node := by
  constructor
  · intro hstep
    cases hstep with
    | stay => exact absurd rfl hname.not_dot
    | root => exact absurd rfl hname.not_dots
    | up => exact absurd rfl hname.not_dots
    | enter _ hnode => exact ⟨rfl, _, hnode⟩
  · rintro ⟨rfl, node, hnode⟩
    exact .enter hname hnode

/-- From a directory, dots lead to a directory. -/
theorem Rooted.directory_enter (h : t.Rooted) (hdir : t.node? loc = some .directory)
    (hdot : name = "." ∨ name = "..") : t.node? (loc.enter name) = some .directory := by
  rcases hdot with rfl | rfl
  · exact hdir
  · rcases List.eq_nil_or_concat loc with rfl | ⟨dir, name, rfl⟩
    · exact hdir
    · rw [List.concat_eq_append] at hdir
      simpa [Location.enter] using h dir name _ hdir

theorem short_of_dots (hdot : name = "." ∨ name = "..") : name.utf8ByteSize ≤ maxName := by
  rcases hdot with rfl | rfl <;> decide

/-- No name on a way that can be gone is too long. -/
theorem short_of_foldlM (h : names.foldlM t.enterDirectory loc = .ok goal) :
    ∀ name ∈ names, name.utf8ByteSize ≤ maxName := by
  induction names generalizing loc with
  | nil => exact fun name hmem => absurd hmem List.not_mem_nil
  | cons name names ih =>
    rw [List.foldlM_cons] at h
    cases hnext : t.enterDirectory loc name with
    | error fault =>
      rw [hnext] at h
      cases h
    | ok next =>
      rw [hnext] at h
      intro name' hmem
      rcases List.mem_cons.mp hmem with rfl | hmem
      · -- the first name: a name that is looked at is measured before
        by_cases hdot : name' = "." ∨ name' = ".."
        · exact short_of_dots hdot
        · rw [enterDirectory, if_neg hdot] at hnext
          split at hnext
          · cases hnext
          next hshort => exact Nat.not_lt.mp hshort
      · exact ih h name' hmem

/-- A name that a path of a file system can have. -/
structure IsPart (name : String) : Prop where
  isName : ¬ (name = "." ∨ name = "..") → IsName name
  short : name.utf8ByteSize ≤ maxName

section

variable (hrooted : t.Rooted)
include hrooted

/-- To enter a directory is to follow its name and find a directory. -/
theorem Rooted.enterDirectory_eq_ok_iff (hdir : t.node? loc = some .directory)
    (hpart : IsPart name) :
    t.enterDirectory loc name = .ok next ↔
      t.Step loc name next ∧ t.node? next = some .directory := by
  by_cases hdot : name = "." ∨ name = ".."
  · rw [enterDirectory_of_dots hdot, step_dots_iff hdot, Except.ok.injEq]
    constructor
    · rintro rfl
      exact ⟨rfl, hrooted.directory_enter hdir hdot⟩
    · exact fun h => h.1.symm
  · rw [enterDirectory, if_neg hdot, if_neg (Nat.not_lt.mpr hpart.short),
      step_name_iff (hpart.isName hdot)]
    -- a name is followed to whatever stands there, but only a directory is entered
    cases hnode : t.node? (loc ++ [name]) with
    | none =>
      constructor
      · intro h
        cases h
      · rintro ⟨⟨rfl, node, hnode'⟩, -⟩
        rw [hnode] at hnode'
        cases hnode'
    | some node =>
      cases node with
      | file content =>
        constructor
        · intro h
          cases h
        · rintro ⟨⟨rfl, -⟩, hdir'⟩
          rw [hnode] at hdir'
          cases hdir'
      | directory =>
        constructor
        · intro h
          obtain rfl := Except.ok.inj h
          exact ⟨⟨rfl, _, hnode⟩, hnode⟩
        · rintro ⟨⟨rfl, -⟩, -⟩
          rfl

/-- A way can be gone exactly if its names can be followed to a directory. -/
theorem Rooted.foldlM_eq_ok_iff (hdir : t.node? loc = some .directory)
    (hparts : ∀ name ∈ names, IsPart name) :
    names.foldlM t.enterDirectory loc = .ok goal ↔
      t.Follows loc names goal ∧ t.node? goal = some .directory := by
  induction names generalizing loc with
  | nil =>
    constructor
    · intro h
      obtain rfl : loc = goal := Except.ok.inj h
      exact ⟨.nil, hdir⟩
    · rintro ⟨hfollows, -⟩
      cases hfollows
      rfl
  | cons name names ih =>
    have hstep : ∀ next, t.enterDirectory loc name = .ok next ↔
        t.Step loc name next ∧ t.node? next = some .directory :=
      fun _ => hrooted.enterDirectory_eq_ok_iff hdir (hparts name List.mem_cons_self)
    have hrest := fun name hmem => hparts name (List.mem_cons_of_mem _ hmem)
    rw [List.foldlM_cons]
    constructor
    · intro h
      cases hnext : t.enterDirectory loc name with
      | error fault =>
        rw [hnext] at h
        cases h
      | ok next =>
        rw [hnext] at h
        obtain ⟨hname, hdir'⟩ := (hstep next).mp hnext
        obtain ⟨hfollows, hgoal⟩ := (ih hdir' hrest).mp h
        exact ⟨.cons hdir hname hfollows, hgoal⟩
    · rintro ⟨hfollows, hgoal⟩
      cases hfollows with
      | @cons _ next _ _ _ _ hname hfollows =>
        -- a name that another is followed from leads to a directory, and so does the last
        have hdir' : t.node? next = some .directory := by
          cases hfollows with
          | nil => exact hgoal
          | cons hdir' _ _ => exact hdir'
        rw [(hstep next).mpr ⟨hname, hdir'⟩]
        exact (ih hdir' hrest).mpr ⟨hfollows, hgoal⟩

variable (hwd : t.node? t.workingDir = some .directory)
include hwd

omit hrooted in
theorem directory_start (p : Path) : t.node? (p.start t.workingDir) = some .directory := by
  unfold Path.start
  split
  · rfl
  · exact hwd

/-- A path is approached by following its names up to the last. -/
theorem Rooted.approach_eq_ok_iff {last : Option String} :
    t.approach p = .ok (dir, last) ↔
      (p ≠ "" ∧ '\x00' ∉ p.toList ∧ p.utf8ByteSize ≤ maxPath ∧
        ∀ name ∈ p.names.dropLast, name.utf8ByteSize ≤ maxName) ∧
      (t.Follows (p.start t.workingDir) p.names.dropLast dir ∧ t.node? dir = some .directory) ∧
      p.names.getLast? = last := by
  have hstart := directory_start hwd p
  have hparts : (∀ name ∈ p.names.dropLast, name.utf8ByteSize ≤ maxName) →
      ∀ name ∈ p.names.dropLast, IsPart name :=
    fun hshort name hmem =>
      ⟨Path.isName_of_mem_names (List.dropLast_subset _ hmem), hshort name hmem⟩
  constructor
  · intro h
    unfold approach at h
    split at h
    · cases h
    next hnul =>
      split at h
      · cases h
      next hempty =>
        split at h
        · cases h
        next hlong =>
          split at h
          · cases h
          next hway =>
            cases h
            have hshort := short_of_foldlM hway
            exact ⟨⟨by simpa using hempty, hnul, Nat.not_lt.mp hlong, hshort⟩,
              (hrooted.foldlM_eq_ok_iff hstart (hparts hshort)).mp hway, rfl⟩
  · rintro ⟨⟨hempty, hnul, hlong, hshort⟩, hfollows, rfl⟩
    -- the text of the path is in order, so that only the way could fail
    have hway := (hrooted.foldlM_eq_ok_iff hstart (hparts hshort)).mpr hfollows
    rw [approach, if_neg hnul, if_neg (by simpa using hempty), if_neg (Nat.not_lt.mpr hlong), hway]

/-- What is opened by the last name of a path, once the names before it have been followed. -/
theorem Rooted.opens_of_approach (happroach : t.approach p = .ok (dir, some name))
    (hshort : name.utf8ByteSize ≤ maxName) (hstep : t.Step dir name loc)
    (hnode : t.node? loc = some node) (hslash : node.isFile = true → p.endsInSlash = false) :
    t.Opens p loc node := by
  obtain ⟨⟨hempty, hnul, hlong, hshort'⟩, ⟨hfollows, hdir⟩, hlast⟩ :=
    (hrooted.approach_eq_ok_iff hwd).mp happroach
  have hnames := dropLast_append_getLast? p.names
  rw [hlast, Option.toList_some] at hnames
  refine ⟨⟨hempty, hnul, hlong, ?_⟩, ?_, hnode, hslash⟩
  · rw [← hnames]
    intro name' hmem
    rcases List.mem_append.mp hmem with hmem | hmem
    · exact hshort' name' hmem
    · rwa [List.mem_singleton.mp hmem]
  · rw [← hnames]
    exact follows_concat_iff.mpr ⟨dir, hfollows, hdir, hstep⟩

/-- **What a path resolves to is what it opens.** -/
theorem Rooted.resolve_eq_ok_iff : t.resolve p = .ok (loc, node) ↔ t.Opens p loc node := by
  rw [FileTree.resolve_eq_ok_iff]
  constructor
  · intro h
    cases h with
    | nameless happroach =>
      obtain ⟨⟨hempty, hnul, hlong, -⟩, ⟨hfollows, hdir⟩, hlast⟩ :=
        (hrooted.approach_eq_ok_iff hwd).mp happroach
      have hnil := List.getLast?_eq_none_iff.mp hlast
      rw [hnil] at hfollows
      exact ⟨⟨hempty, hnul, hlong, by simp [hnil]⟩, hnil ▸ hfollows, hdir, nofun⟩
    | dots happroach hdot =>
      have hdir := ((hrooted.approach_eq_ok_iff hwd).mp happroach).2.1.2
      exact hrooted.opens_of_approach hwd happroach (short_of_dots hdot)
        ((step_dots_iff hdot).mpr rfl)
        (hrooted.directory_enter hdir hdot) nofun
    | named happroach hdot hshort hnode hslash =>
      have hlast := ((hrooted.approach_eq_ok_iff hwd).mp happroach).2.2
      have hname := Path.isName_of_mem_names (List.mem_of_getLast? hlast) hdot
      exact hrooted.opens_of_approach hwd happroach (Nat.not_lt.mp hshort) (.enter hname hnode)
        hnode hslash
  · rintro ⟨⟨hempty, hnul, hlong, hshort⟩, hfollows, hnode, hslash⟩
    have hshort' := fun name hmem => hshort name (List.dropLast_subset p.names hmem)
    have hnames := dropLast_append_getLast? p.names
    -- the same three cases, told apart by the last name
    cases hlast : p.names.getLast? with
    | none =>
      have hnil := List.getLast?_eq_none_iff.mp hlast
      rw [hnil] at hfollows
      cases hfollows
      have hstart := directory_start hwd p
      obtain rfl : node = .directory := Option.some.inj (hnode.symm.trans hstart)
      exact .nameless ((hrooted.approach_eq_ok_iff hwd).mpr
        ⟨⟨hempty, hnul, hlong, hshort'⟩, ⟨by rw [hnil]; exact .nil, hstart⟩, hlast⟩)
    | some name =>
      rw [hlast, Option.toList_some] at hnames
      rw [← hnames] at hfollows
      obtain ⟨dir, hfollows, hdir, hstep⟩ := follows_concat_iff.mp hfollows
      have happroach : t.approach p = .ok (dir, some name) :=
        (hrooted.approach_eq_ok_iff hwd).mpr
          ⟨⟨hempty, hnul, hlong, hshort'⟩, ⟨hfollows, hdir⟩, hlast⟩
      have hmem := List.mem_of_getLast? hlast
      by_cases hdot : name = "." ∨ name = ".."
      · obtain rfl := hstep.eq_enter
        obtain rfl : node = .directory :=
          Option.some.inj (hnode.symm.trans (hrooted.directory_enter hdir hdot))
        exact .dots happroach hdot
      · obtain ⟨rfl, -⟩ := (step_name_iff (Path.isName_of_mem_names hmem hdot)).mp hstep
        exact .named happroach hdot (Nat.not_lt.mpr (hshort name hmem)) hnode hslash

end

/-! ## The same file -/

/-- What stands somewhere in the tree of a file system stands there under names. -/
theorem Rooted.isNamed (hrooted : t.Rooted) (hnamed : t.Named) (h : t.node? loc = some node) :
    loc.IsNamed := by
  -- on the way to it, last name first
  induction loc using List.reverseRecOn generalizing node with
  | nil => exact fun name hmem => absurd hmem List.not_mem_nil
  | append_singleton dir name ih =>
    intro name' hmem
    rcases List.mem_append.mp hmem with hmem | hmem
    · exact ih (hrooted dir name node h) name' hmem
    · rw [List.mem_singleton.mp hmem]
      exact hnamed dir name node h

/-- **Paths have one normal form exactly if they open the same.** In the tree of a file system, what
a path resolves to is what is reached by following its names, and two paths that open something have
the same normal form if and only if they open the same file or directory.

The normal form of any path is absolute, has no dots, and is its own normal form. Its names are the
location by which a session knows the file. -/
theorem same_normal_form_iff (hrooted : t.Rooted) (hnamed : t.Named)
    (hwd : t.node? t.workingDir = some .directory) :
    (∀ (p : Path) (loc : Location) (node : Node),
      t.resolve p = .ok (loc, node) ↔ t.Opens p loc node) ∧
    (∀ (p q : Path) (loc loc' : Location) (node node' : Node),
      t.Opens p loc node → t.Opens q loc' node' →
      (p.normalize t.workingDir = q.normalize t.workingDir ↔ loc = loc')) ∧
    ∀ p : Path,
      (p.normalize t.workingDir).normalize t.workingDir = p.normalize t.workingDir ∧
      (p.normalize t.workingDir).isAbsolute = true ∧
      (p.normalize t.workingDir).names = p.locate t.workingDir ∧
      ∀ name ∈ (p.normalize t.workingDir).names, name ≠ "." ∧ name ≠ ".." := by
  have hnames := hrooted.isNamed hnamed hwd
  refine ⟨fun p loc node => hrooted.resolve_eq_ok_iff hwd, ?_, fun p => ?_⟩
  · intro p q loc loc' node node' hp hq
    rw [Path.normalize_eq_normalize_iff hnames, hp.eq_locate, hq.eq_locate]
  · refine ⟨Path.normalize_normalize hnames p, Path.isAbsolute_normalize _ p,
      Path.names_normalize hnames p, ?_⟩
    rw [Path.names_normalize hnames]
    intro name hmem
    have hname := Path.isNamed_locate hnames p name hmem
    exact ⟨hname.not_dot, hname.not_dots⟩

/-- A site with one template. -/
def oneTemplate : FileTree where
  workingDir := ["srv", "site"]
  nodes :=
    [(["srv"], .directory),
      (["srv", "site"], .directory),
      (["srv", "site", "pages"], .directory),
      (["srv", "site", "pages", "a.tmpl"], .file "x".toUTF8)]
  distinct := by decide

/-- Two spellings of the template of `oneTemplate`, one of them from above the root, and the path of
its directory. -/
theorem same_normal_form_iff_one_template :
    oneTemplate.Rooted ∧ oneTemplate.Named ∧
      oneTemplate.node? oneTemplate.workingDir = some .directory ∧
      oneTemplate.Opens "./pages//../pages/a.tmpl" ["srv", "site", "pages", "a.tmpl"]
        (.file "x".toUTF8) ∧
      oneTemplate.Opens "/../srv/site/pages/./a.tmpl" ["srv", "site", "pages", "a.tmpl"]
        (.file "x".toUTF8) ∧
      oneTemplate.Opens "pages/" ["srv", "site", "pages"] .directory ∧
      Path.normalize ["srv", "site"] "./pages//../pages/a.tmpl" =
        Path.normalize ["srv", "site"] "/../srv/site/pages/./a.tmpl" ∧
      Path.normalize ["srv", "site"] "./pages//../pages/a.tmpl" ≠
        Path.normalize ["srv", "site"] "pages/" := by
  have hrooted : oneTemplate.Rooted := by decide +kernel
  have hnamed : oneTemplate.Named := by decide +kernel
  have hwd : oneTemplate.node? oneTemplate.workingDir = some .directory := by decide +kernel
  obtain ⟨hopens, hsame, -⟩ := same_normal_form_iff hrooted hnamed hwd
  have hp := (hopens "./pages//../pages/a.tmpl" ["srv", "site", "pages", "a.tmpl"]
    (.file "x".toUTF8)).mp (by decide +kernel)
  have hq := (hopens "/../srv/site/pages/./a.tmpl" ["srv", "site", "pages", "a.tmpl"]
    (.file "x".toUTF8)).mp (by decide +kernel)
  have hdir := (hopens "pages/" ["srv", "site", "pages"] .directory).mp (by decide +kernel)
  exact ⟨hrooted, hnamed, hwd, hp, hq, hdir, (hsame _ _ _ _ _ _ hp hq).mpr rfl,
    mt (hsame _ _ _ _ _ _ hp hdir).mp (by decide)⟩

end FileTree

end Webcomic.Files
