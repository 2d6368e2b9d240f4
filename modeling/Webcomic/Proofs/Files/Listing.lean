import Webcomic.Proofs.Files.Change

/-!
# What a directory lists

A directory lists what stands one name below it, each name once. In the tree of a file system a
location is made of names (`Named`).
-/

namespace Webcomic.Files

namespace Path

variable {p q : Path} {wd : Location}

/-- Only the names that are no single dots count for the location of a path. -/
theorem locate_eq_foldl_filter :
    p.locate wd = (p.names.filter (· ≠ ".")).foldl Location.enter (p.start wd) := by
  rw [locate]
  generalize p.start wd = loc
  induction p.names generalizing loc with
  | nil => rfl
  | cons name names ih =>
    by_cases h : name = "."
    · rw [List.filter_cons_of_neg (by simpa using h), List.foldl_cons, h, Location.enter_dot, ih]
    · rw [List.filter_cons_of_pos (by simpa using h), List.foldl_cons, List.foldl_cons, ih]

theorem filter_components : p.components.filter (· ≠ ".") = p.names.filter (· ≠ ".") := by
  unfold components
  split
  next h => rw [h]
  next name names h =>
    rw [h]
    split
    next hdot => simp [hdot.1]
    · rw [List.filter_filter]
      simp

/-- Paths that are the same as texts name one location. -/
theorem locate_eq_of_sameText (h : p.sameText q = true) : p.locate wd = q.locate wd := by
  simp only [sameText, Bool.and_eq_true, decide_eq_true_eq] at h
  rw [locate_eq_foldl_filter, locate_eq_foldl_filter, ← filter_components, ← filter_components,
    h.2, start, start, h.1]

/-- The names of a path that are no dots are names. -/
theorem isName_of_mem_names {name : String} (h : name ∈ p.names)
    (hdot : ¬ (name = "." ∨ name = "..")) : IsName name := by
  obtain ⟨word, hword, rfl⟩ := List.mem_map.mp h
  refine ⟨?_, ?_, fun heq => hdot (.inl heq), fun heq => hdot (.inr heq)⟩
  · simpa using Text.ne_nil_of_mem_words hword
  · rw [String.toList_ofList]
    exact Text.not_mem_of_mem_words hword

end Path

namespace FileTree

variable {t t' : FileTree} {X L : Location → Prop} {p q : Path} {loc dir : Location} {node : Node}
  {name : String} {content : ByteArray}

/-- Paths that name the same directory or file have one location. -/
theorem locate_eq_of_same (h : t.same p q = true) :
    p.locate t.workingDir = q.locate t.workingDir := by
  unfold same at h
  split at h
  next hp hq =>
    rw [← eq_locate_of_resolve hp, ← eq_locate_of_resolve hq]
    simpa using h
  · exact Path.locate_eq_of_sameText h

theorem same_of_sameText (h : p.sameText q = true) : t.same p q = true := by
  unfold same
  split
  next hp hq =>
    rw [eq_locate_of_resolve hp, eq_locate_of_resolve hq, Path.locate_eq_of_sameText h]
    exact decide_eq_true rfl
  · exact h

/-- Paths stay the same as long as what they name does not go away. -/
theorem same_of_resolve
    (hp : ∀ loc node, t.resolve p = .ok (loc, node) → ∃ node', t'.resolve p = .ok (loc, node'))
    (hq : ∀ loc node, t.resolve q = .ok (loc, node) → ∃ node', t'.resolve q = .ok (loc, node'))
    (h : t.same p q = true) : t'.same p q = true := by
  unfold same at h
  split at h
  next hp' hq' =>
    obtain ⟨_, hp'⟩ := hp _ _ hp'
    obtain ⟨_, hq'⟩ := hq _ _ hq'
    rw [same, hp', hq']
    exact h
  · exact same_of_sameText h

theorem list_of_resolve (h : t.resolve p = .ok (dir, .directory)) :
    t.list p = .ok (t.entries dir) := by
  rw [list, h]

/-- What is listed are the entries of a directory. -/
theorem exists_of_list {entries : List (String × Node)} (h : t.list p = .ok entries) :
    ∃ dir, t.resolve p = .ok (dir, .directory) ∧ entries = t.entries dir := by
  unfold list at h
  split at h
  · cases h
  · cases h
  next dir hresolve =>
    cases h
    exact ⟨dir, hresolve, rfl⟩

/-! ## Entries -/

theorem entryOf?_eq_some_iff {entry : Location × Node} :
    entryOf? dir entry = some (name, node) ↔ entry = (dir ++ [name], node) := by
  obtain ⟨loc, node'⟩ := entry
  constructor
  · intro h
    cases hlast : loc.getLast? with
    | none => simp [entryOf?, hlast] at h
    | some name' =>
      obtain ⟨before, rfl⟩ := List.getLast?_eq_some_iff.mp hlast
      simp only [entryOf?, hlast, List.dropLast_concat, Option.ite_none_right_eq_some,
        Option.some.injEq, Prod.mk.injEq] at h
      obtain ⟨rfl, rfl, rfl⟩ := h
      rfl
  · intro h
    cases h
    simp [entryOf?]

theorem mem_entries : (name, node) ∈ t.entries dir ↔ t.node? (dir ++ [name]) = some node := by
  have hmem : (name, node) ∈ t.entries dir ↔ (dir ++ [name], node) ∈ t.nodes := by
    simp only [entries, List.mem_filterMap, entryOf?_eq_some_iff, exists_eq_right]
  rw [hmem, FileTree.node?, if_neg (by simp)]
  exact ⟨Keyed.get?_of_mem t.distinct, Keyed.mem_of_get?⟩

/-- A directory lists each name once. -/
theorem nodup_entries (t : FileTree) (dir : Location) : ((t.entries dir).map Prod.fst).Nodup := by
  have hdistinct : t.nodes.Pairwise fun a b => a.1 ≠ b.1 := List.pairwise_map.mp t.distinct
  rw [List.Nodup, List.pairwise_map, entries, List.pairwise_filterMap]
  refine hdistinct.imp ?_
  rintro a b hne ⟨name, node⟩ ha ⟨name', node'⟩ hb heq
  rw [entryOf?_eq_some_iff] at ha hb
  refine hne ?_
  rw [ha, hb]
  exact congrArg (fun name => dir ++ [name]) heq

/-- Without some locations a directory lists what is left. -/
theorem entries_discard (drop : Location → Bool) (t : FileTree) (dir : Location) :
    (t.discard drop).entries dir =
      (t.entries dir).filter fun entry => !drop (dir ++ [entry.1]) := by
  show (t.nodes.filter _).filterMap _ = (t.nodes.filterMap _).filter _
  rw [List.filterMap_filter, List.filter_filterMap]
  congr 1
  funext entry
  cases hentry : entryOf? dir entry with
  | none => simp
  | some found =>
    obtain ⟨name, node⟩ := found
    obtain rfl := entryOf?_eq_some_iff.mp hentry
    cases hdrop : drop (dir ++ [name]) <;> simp [Option.filter, hdrop]

/-- A tree that has grown lists the same plain files. -/
theorem Grown.plain_entries (h : Grown L t t') (dir : Location) :
    (t'.entries dir).filter (·.2.isFile) = (t.entries dir).filter (·.2.isFile) := by
  have hnodes : ∀ s : FileTree, (s.entries dir).filter (·.2.isFile) =
      (s.nodes.filter (·.2.isFile)).filterMap (entryOf? dir) := by
    intro s
    rw [entries, List.filterMap_filter, List.filter_filterMap]
    congr 1
    funext entry
    cases hentry : entryOf? dir entry with
    | none => simp
    | some found =>
      obtain ⟨name, node⟩ := found
      obtain rfl := entryOf?_eq_some_iff.mp hentry
      cases hfile : node.isFile <;> simp [hfile]
  rw [hnodes, hnodes, h.plain]

/-- A directory can be listed in two trees that agree on the way to it, or in neither. The listings
can differ. -/
theorem AgreeOff.list (h : AgreeOff X t t') (hp : p.Avoids t.workingDir X) :
    (t.list p = .ok (t.entries (p.locate t.workingDir)) ∧
      t'.list p = .ok (t'.entries (p.locate t.workingDir))) ∨
    ∃ fault, t.list p = .error fault ∧ t'.list p = .error fault := by
  unfold FileTree.list
  rw [h.resolve hp]
  split
  next fault _ => exact .inr ⟨fault, rfl, rfl⟩
  · exact .inr ⟨_, rfl, rfl⟩
  next hresolve =>
    rw [eq_locate_of_resolve hresolve]
    exact .inl ⟨rfl, rfl⟩

/-! ## Trees whose locations are made of names -/

/-- What stands in a directory stands there under a name. -/
def Named (t : FileTree) : Prop :=
  ∀ dir name node, t.node? (dir ++ [name]) = some node → IsName name

theorem named_iff : t.Named ↔ ∀ entry ∈ t.nodes, ∀ name ∈ entry.1.getLast?, IsName name := by
  constructor
  · rintro h ⟨loc, node⟩ hmem name hlast
    obtain ⟨dir, rfl⟩ := List.getLast?_eq_some_iff.mp hlast
    refine h dir name node ?_
    rw [FileTree.node?, if_neg (by simp)]
    exact Keyed.get?_of_mem t.distinct hmem
  · intro h dir name node hnode
    rw [FileTree.node?, if_neg (by simp)] at hnode
    exact h _ (Keyed.mem_of_get? hnode) name (by simp)

instance : Decidable t.Named := decidable_of_iff _ named_iff.symm

/-- The last name of a path that names an entry is a name. -/
theorem NamesEntry.isName (h : NamesEntry t p (dir ++ [name])) : IsName name := by
  generalize hloc : dir ++ [name] = loc at h
  cases h with
  | @intro dir' name' happroach hdot _ =>
    obtain ⟨-, hname⟩ := List.append_inj' hloc rfl
    obtain rfl : name = name' := List.singleton_inj.mp hname
    exact Path.isName_of_mem_names (List.mem_of_getLast? (getLast?_of_approach happroach)) hdot

/-- **A tree stays named** when something is set at the entry that a path names. -/
theorem Named.set (h : t.Named) {loc : Location} (hentry : NamesEntry t' p loc) (node : Node) :
    (t.set loc node).Named := by
  intro dir name node' hnode
  by_cases hloc : dir ++ [name] = loc
  · subst hloc
    exact hentry.isName
  · rw [node?_set_of_ne hentry.ne_nil hloc] at hnode
    exact h dir name node' hnode

theorem Named.discard (h : t.Named) (drop : Location → Bool) : (t.discard drop).Named := by
  intro dir name node hnode
  rw [node?_discard drop (by simp)] at hnode
  split at hnode
  · cases hnode
  · exact h dir name node hnode

end FileTree

end Webcomic.Files
