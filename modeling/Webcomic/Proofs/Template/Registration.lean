import Mathlib.Data.List.Dedup
import Webcomic.Template.Builtin
import Webcomic.Template.Expand

/-!
# A registry is a map from canonical names to handlers

However a registry was filled, by single handlers and by tables, a tag is answered by the handler
that was registered last under its canonical name (`registry_refines_map`). Rows without a handler
make no difference, so a registry is known by the rows that had one, in their order
(`Registry.fill`):

- `Registry.handler?_fill`: the handler of a tag is the last of its canonical name,
- `Registry.mem_names_fill`: the names are the canonical names of the rows, each once,
- `Registry.memory_fill`: the memory is what the handlers have made of it when they started.
-/

namespace Webcomic.Template

open Files

variable {M : Type}

/-! ## What is registered -/

/-- A call that puts handlers into a registry. -/
inductive Registration (M : Type) where
  | one (tag : String) (handler : Handler M)
  | table (entries : List (Entry M))

/-- The rows of a call. -/
def Registration.entries : Registration M → List (Entry M)
  | .one tag handler => [⟨tag, .ok handler⟩]
  | .table entries => entries

/-- The rows of a table that have a handler, with their handlers. -/
def withHandlers (entries : List (Entry M)) : List (String × Handler M) :=
  entries.filterMap fun entry => entry.handler.toOption.map (entry.name, ·)

/-- The last of some handlers whose tag has the canonical name. -/
def lastHandler? (canonical : String) (rows : List (String × Handler M)) : Option (Handler M) :=
  ((rows.filter fun row => canonicalName row.1 = canonical).getLast?).map Prod.snd

/-- What a registry is made with. -/
inductive Beginning where
  | empty
  | builtins
deriving DecidableEq

theorem withHandlers_cons (entry : Entry M) (entries : List (Entry M)) :
    withHandlers (entry :: entries) =
      (entry.handler.toOption.map (entry.name, ·)).toList ++ withHandlers entries := by
  rw [withHandlers, List.filterMap_cons]
  cases entry.handler <;> rfl

theorem withHandlers_append (entries entries' : List (Entry M)) :
    withHandlers (entries ++ entries') = withHandlers entries ++ withHandlers entries' :=
  List.filterMap_append

/-- As many rows are registered as have a handler. -/
theorem length_withHandlers (entries : List (Entry M)) :
    (withHandlers entries).length = entries.countP (·.handler.isOk) := by
  induction entries with
  | nil => rfl
  | cons entry entries ih =>
    rw [withHandlers_cons, List.length_append, ih, List.countP_cons, Nat.add_comm]
    cases entry.handler <;> rfl

/-- A later handler of the same canonical name comes before an earlier one. -/
theorem lastHandler?_cons (canonical : String) (row : String × Handler M)
    (rows : List (String × Handler M)) :
    lastHandler? canonical (row :: rows) =
      (lastHandler? canonical rows).or
        (if canonicalName row.1 = canonical then some row.2 else none) := by
  unfold lastHandler?
  by_cases h : canonicalName row.1 = canonical
  · rw [List.filter_cons_of_pos (by simpa using h), List.getLast?_cons, if_pos h]
    cases (rows.filter fun row => canonicalName row.1 = canonical).getLast? <;> rfl
  · rw [List.filter_cons_of_neg (by simpa using h), if_neg h, Option.or_none]

/-- A name has a handler exactly if one was registered under it, in whatever spelling. -/
theorem isSome_lastHandler? {canonical : String} {rows : List (String × Handler M)} :
    (lastHandler? canonical rows).isSome = true ↔ canonical ∈ rows.map (canonicalName ·.1) := by
  rw [lastHandler?, Option.isSome_map, List.getLast?_isSome, ne_eq, List.filter_eq_nil_iff]
  simp

namespace Registry

/-! ## One registration -/

/-- A handler is registered for every spelling of its tag, and for no other tag. -/
theorem handler?_register (r : Registry M) (tag : String) (handler : Handler M) (other : String) :
    (r.register tag handler).handler? other =
      if canonicalName tag = canonicalName other then some handler else r.handler? other :=
  Keyed.get?_put _ _ _ _

theorem names_register (r : Registry M) (tag : String) (handler : Handler M) (name : String) :
    name ∈ (r.register tag handler).names ↔ canonicalName tag = name ∨ name ∈ r.names := by
  show name ∈ (Keyed.put (canonicalName tag) handler r.handlers).map Prod.fst ↔ _
  rw [Keyed.keys_put]
  split
  next hmem =>
    refine ⟨.inr, ?_⟩
    rintro (rfl | h)
    · exact hmem
    · exact h
  next =>
    rw [List.mem_append, List.mem_singleton, or_comm, eq_comm]
    rfl

/-! ## Registering one row after the other -/

/-- The registry with the handlers of some rows, one after the other. -/
def fill (r : Registry M) (rows : List (String × Handler M)) : Registry M :=
  rows.foldl (fun r row => r.register row.1 row.2) r

/-- Rows are filled in one after another. -/
theorem fill_append (r : Registry M) (rows rows' : List (String × Handler M)) :
    r.fill (rows ++ rows') = (r.fill rows).fill rows' :=
  List.foldl_append

/-- **A table registers the rows that have a handler**, and counts them. -/
theorem registerAll_eq (r : Registry M) (entries : List (Entry M)) :
    r.registerAll entries = (r.fill (withHandlers entries), (withHandlers entries).length) := by
  induction entries generalizing r with
  | nil => rfl
  | cons entry entries ih =>
    rw [withHandlers_cons]
    unfold registerAll
    cases entry.handler with
    | error e => exact ih r
    | ok handler =>
      dsimp only
      rw [ih]
      rfl

/-- **A tag has the last handler of its canonical name.** -/
theorem handler?_fill (r : Registry M) (rows : List (String × Handler M)) (tag : String) :
    (r.fill rows).handler? tag = (lastHandler? (canonicalName tag) rows).or (r.handler? tag) := by
  induction rows generalizing r with
  | nil => rfl
  | cons row rows ih =>
    show ((r.register row.1 row.2).fill rows).handler? tag = _
    rw [ih, handler?_register, lastHandler?_cons, Option.or_assoc]
    split <;> rfl

/-- Filling in rows adds their names and drops none. -/
theorem mem_names_fill (r : Registry M) (rows : List (String × Handler M)) (name : String) :
    name ∈ (r.fill rows).names ↔ name ∈ rows.map (canonicalName ·.1) ∨ name ∈ r.names := by
  induction rows generalizing r with
  | nil => simp [fill]
  | cons row rows ih =>
    show name ∈ ((r.register row.1 row.2).fill rows).names ↔ _
    rw [ih, names_register, List.map_cons, List.mem_cons, eq_comm, or_left_comm, or_assoc]

theorem policy_fill (r : Registry M) (rows : List (String × Handler M)) :
    (r.fill rows).policy = r.policy := by
  induction rows generalizing r with
  | nil => rfl
  | cons row rows ih => exact ih (r.register row.1 row.2)

/-- Nothing but the start of a handler changes the memory. -/
theorem memory_fill (r : Registry M) (rows : List (String × Handler M)) :
    (r.fill rows).memory = rows.foldl (fun memory row => row.2.start memory) r.memory := by
  induction rows generalizing r with
  | nil => rfl
  | cons row rows ih => exact ih (r.register row.1 row.2)

/-! ## A registry that was empty at first -/

section

variable (policy : UnknownTagPolicy) (memory : M) (rows : List (String × Handler M))

/-- **The handler that was registered last is found.** -/
theorem handler?_fill_new (tag : String) :
    ((new policy memory).fill rows).handler? tag = lastHandler? (canonicalName tag) rows := by
  rw [handler?_fill]
  exact Option.or_none

theorem mem_names_fill_new {name : String} :
    name ∈ ((new policy memory).fill rows).names ↔ name ∈ rows.map (canonicalName ·.1) := by
  rw [mem_names_fill]
  exact or_iff_left List.not_mem_nil

/-- **Each canonical name counts once.** -/
theorem size_fill_new :
    ((new policy memory).fill rows).size = (rows.map (canonicalName ·.1)).dedup.length := by
  have hperm : ((new policy memory).fill rows).names.Perm
      (rows.map (canonicalName ·.1)).dedup := by
    refine (List.perm_ext_iff_of_nodup ((new policy memory).fill rows).distinct
      (List.nodup_dedup _)).mpr fun name => ?_
    rw [List.mem_dedup]
    exact mem_names_fill_new policy memory rows
  rw [← hperm.length_eq]
  exact (List.length_map _).symm

theorem isEmpty_fill_new : ((new policy memory).fill rows).isEmpty = rows.isEmpty := by
  -- both are empty exactly if no name is in them
  have hempty : ((new policy memory).fill rows).names = [] ↔ rows = [] := by
    rw [List.eq_nil_iff_forall_not_mem, ← List.map_eq_nil_iff (f := (canonicalName ·.1)),
      List.eq_nil_iff_forall_not_mem]
    simp only [mem_names_fill_new]
  rw [Bool.eq_iff_iff, List.isEmpty_iff, ← hempty, names, List.map_eq_nil_iff]
  exact List.isEmpty_iff

end

/-! ## Any sequence of calls -/

/-- The registry after a call. -/
def carryOut (r : Registry M) : Registration M → Registry M
  | .one tag handler => r.register tag handler
  | .table entries => (r.registerAll entries).1

/-- The rows of some calls that have a handler. -/
def rowsOf (calls : List (Registration M)) : List (String × Handler M) :=
  calls.flatMap fun call => withHandlers call.entries

/-- To register one handler, or a table, is to fill in the rows that have one. -/
theorem carryOut_eq (r : Registry M) (call : Registration M) :
    r.carryOut call = r.fill (withHandlers call.entries) := by
  cases call with
  | one tag handler => rfl
  | table entries => exact congrArg Prod.fst (registerAll_eq r entries)

/-- **Calls register their rows, in order.** -/
theorem foldl_carryOut (r : Registry M) (calls : List (Registration M)) :
    calls.foldl carryOut r = r.fill (rowsOf calls) := by
  induction calls generalizing r with
  | nil => rfl
  | cons call calls ih =>
    rw [List.foldl_cons, carryOut_eq, ih, ← fill_append]
    rfl

/-! ## Replies -/

/-- What a marker with a name is answered with: the reply of the handler of its tag, or what the
policy has for tags without one. -/
theorem dispatch_eq (r : Registry M) (files : FileTree) (depth : Nat) (s : Session)
    (text name : String) (params : Option String) :
    r.dispatch files depth ⟨text, some name, params⟩ s =
      match r.handler? name with
      | some handler => r.perform s
          ((handler.handle ⟨text, some name, params⟩).run files.workingDir
            (Template.expand r files depth))
      | none =>
        match r.policy with
        | .echo => some (Marker.echo ⟨text, some name, params⟩, r, s)
        | .report => some (noHandler (canonicalName name),
            { r with notice := noHandler (canonicalName name) }, s) := by
  rw [dispatch, reply]
  dsimp only
  cases r.handler? name with
  | some handler => rfl
  | none =>
    obtain ⟨policy, handlers, distinct, memory, notice⟩ := r
    cases policy <;> rfl

end Registry

/-! ## The whole -/

/-- The registry that is made at first. -/
def Beginning.registry (policy : UnknownTagPolicy) (memory : M) : Beginning → Registry M
  | .empty => .new policy memory
  | .builtins => .withBuiltins policy memory

/-- The calls that it is filled by. -/
def Beginning.calls : Beginning → List (Registration M)
  | .empty => []
  | .builtins => [.table builtinTags]

theorem Beginning.registry_eq (start : Beginning) (policy : UnknownTagPolicy) (memory : M) :
    start.registry policy memory =
      (Registry.new policy memory).fill (Registry.rowsOf start.calls) := by
  cases start with
  | empty => rfl
  | builtins => exact congrArg Prod.fst (Registry.registerAll_eq _ _)

/-- **A registry is a map from canonical names to handlers.** After any calls, to register one
handler or a table of them, a marker is answered by the handler that was registered last under the
canonical name of its tag, and by the fallback of the policy if there is none. The names are the
canonical names of what was registered. What registers nothing changes nothing: the memory is what
the registered handlers have made of it when they started, and a table is as good without the rows
that have no handler. What is registered for a tag changes no tag of another canonical name. -/
theorem registry_refines_map (start : Beginning) (policy : UnknownTagPolicy) (memory : M)
    (calls : List (Registration M)) :
    let r := calls.foldl Registry.carryOut (start.registry policy memory)
    let rows := Registry.rowsOf (start.calls ++ calls)
    (∀ files depth s text name params,
      r.dispatch files depth ⟨text, some name, params⟩ s =
        match lastHandler? (canonicalName name) rows with
        | some handler => r.perform s
            ((handler.handle ⟨text, some name, params⟩).run files.workingDir
              (Template.expand r files depth))
        | none =>
          match policy with
          | .echo => some (Marker.echo ⟨text, some name, params⟩, r, s)
          | .report => some (noHandler (canonicalName name),
              { r with notice := noHandler (canonicalName name) }, s)) ∧
    (∀ name, name ∈ r.names ↔ ∃ row ∈ rows, canonicalName row.1 = name) ∧
    r.names.Nodup ∧ r.size = (rows.map (canonicalName ·.1)).dedup.length ∧
    r.isEmpty = rows.isEmpty ∧
    (∀ name, r.hasHandler name = true ↔ canonicalName name ∈ r.names) ∧
    r.memory = rows.foldl (fun memory row => row.2.start memory) memory ∧
    (∀ before after tag e,
      r.registerAll (before ++ ⟨tag, .error e⟩ :: after) = r.registerAll (before ++ after)) ∧
    (∀ entries, (r.registerAll entries).2 = entries.countP (·.handler.isOk)) ∧
    (∀ tag handler other, (r.register tag handler).handler? other =
      if canonicalName tag = canonicalName other then some handler else r.handler? other) := by
  intro r rows
  -- a beginning and calls are so many rows, filled in one after another
  have hr : r = (Registry.new policy memory).fill rows := by
    show calls.foldl Registry.carryOut (start.registry policy memory) = _
    rw [start.registry_eq, Registry.foldl_carryOut, ← Registry.fill_append]
    exact congrArg _ List.flatMap_append.symm
  clear_value r
  subst hr
  refine ⟨?_, ?_, Registry.distinct _, Registry.size_fill_new .., Registry.isEmpty_fill_new .., ?_,
    Registry.memory_fill .., ?_, ?_, Registry.handler?_register _⟩
  · intro files depth s text name params
    rw [Registry.dispatch_eq, Registry.handler?_fill_new, Registry.policy_fill]
    rfl
  · intro name
    rw [Registry.mem_names_fill_new, List.mem_map]
  · intro name
    rw [Registry.mem_names_fill_new, Registry.hasHandler, Registry.handler?_fill_new,
      isSome_lastHandler?]
  · intro before after tag e
    rw [Registry.registerAll_eq, Registry.registerAll_eq, withHandlers_append, withHandlers_cons,
      withHandlers_append]
    rfl
  · intro entries
    rw [Registry.registerAll_eq, length_withHandlers]

end Webcomic.Template
