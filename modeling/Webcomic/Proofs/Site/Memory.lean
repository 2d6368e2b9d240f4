import Webcomic.Proofs.Template.Simulation
import Webcomic.Site.Page

/-!
# What the tags remember does not show

The tags of a comic remember the number of files that a page has used up and the days that links
lead to. A day that is remembered is the right one (`Memory.Sound`), so it makes no difference
whether a page finds it or works it out: the tags respect memories that are sound and have used up
the same number of files (`respects_registry`).

A new comic day forgets everything, whatever page came before (`memory_resetForDay`), and a new page
all but the links (`memory_resetForPage`).
-/

namespace Webcomic.Template

open Calendar

variable {M : Type} {R : M → M → Prop}

/-- What holds of the handlers of a registry and of those of a table holds of the handlers of the
registry with the table. -/
theorem Registry.forall_registerAll {P : Handler M → Prop} {r : Registry M} {table : List (Entry M)}
    (hr : ∀ name h, (name, h) ∈ r.handlers → P h)
    (ht : ∀ entry ∈ table, ∀ h, entry.handler = .ok h → P h) :
    ∀ name h, (name, h) ∈ (r.registerAll table).1.handlers → P h := by
  induction table generalizing r with
  | nil => exact hr
  | cons entry rest ih =>
    have hrest : ∀ e ∈ rest, ∀ h, e.handler = .ok h → P h :=
      fun e he => ht e (List.mem_cons_of_mem _ he)
    unfold registerAll
    split
    · exact ih hr hrest
    next handler hok =>
      refine ih ?_ hrest
      intro name h hmem
      have hget := Keyed.get?_of_mem (r.register entry.name handler).distinct hmem
      -- the handler is the one just put in or was there before
      simp only [register, Keyed.get?_put] at hget
      split at hget
      · cases hget
        exact ht entry List.mem_cons_self _ hok
      · exact hr _ _ (Keyed.mem_of_get? hget)

/-- A handler that remembers nothing respects every relation. -/
theorem respects_includeHandler : (includeHandler : Handler M).Respects R := by
  intro marker m m' hm
  unfold includeHandler
  dsimp only
  split
  · exact .reply hm
  · exact .look fun s => .expand hm fun text n n' hn => .reply hn

theorem respects_dateHandler (source : DateSource) :
    (dateHandler source : Handler M).Respects R :=
  fun _ _ _ hm => .look fun _ => .reply hm

/-- What holds of the handlers of the tags of every site holds of all handlers of a registry with
these tags. -/
theorem Registry.forall_withBuiltins {P : Handler M → Prop} (hinclude : P includeHandler)
    (hdate : ∀ source, P (dateHandler source)) (policy : UnknownTagPolicy) (memory : M) :
    ∀ name h, (name, h) ∈ (Registry.withBuiltins policy memory).handlers → P h := by
  refine forall_registerAll (fun _ _ h => nomatch h) fun entry hentry handler hok => ?_
  simp only [builtinTags, List.mem_cons, List.not_mem_nil, or_false] at hentry
  rcases hentry with rfl | rfl | rfl
  · cases hok
    exact hinclude
  · cases hok
    exact hdate .requested
  · cases hok
    exact hdate .today

end Webcomic.Template

namespace Webcomic.Site

open Calendar Files Template

/-! ## Memories that give the same pages -/

namespace Memory

/-- Every day that is remembered is the one that the link leads to. -/
def Sound (archive : Archive) (m : Memory) : Prop :=
  ∀ direction target, m.target direction = some target →
    target.day = direction.day? archive target.requested

/-- As many files are used up, and what else is remembered is right. -/
structure Alike (archive : Archive) (m m' : Memory) : Prop where
  used : m.used = m'.used
  sound : m.Sound archive
  sound' : m'.Sound archive

/-- Who remembers nothing remembers nothing wrong. -/
theorem sound_blank (archive : Archive) : blank.Sound archive := by
  intro direction target h
  cases h

theorem Alike.use {archive : Archive} {m m' : Memory} (h : Alike archive m m') (n : Nat) :
    Alike archive (usedSlot.set n m) (usedSlot.set n m') :=
  ⟨rfl, h.sound, h.sound'⟩

/-- A day that has been worked out can be remembered. -/
theorem Sound.learn {archive : Archive} {m : Memory} (h : m.Sound archive) (direction : Direction)
    (requested : Date) :
    ((targetSlot direction).set (some ⟨requested, direction.day? archive requested⟩) m).Sound
      archive := by
  intro direction' target htarget
  change (if direction' = direction then _ else _) = some target at htarget
  split at htarget
  next heq =>
    cases htarget
    rw [heq]
  · exact h direction' target htarget

end Memory

variable {archive : Archive} {c : Config}

/-- Strips are counted alike, whatever links are remembered. -/
theorem respects_comicHandler (archive : Archive) (c : Config) :
    (comicHandler (Memory.whole.within Memory.usedSlot) archive c).Respects
      (Memory.Alike archive) := by
  intro marker m m' hm
  refine .look fun s => ?_
  split
  · exact .reply hm
  next files _ =>
    refine .recollectLeft (.recollectRight ?_)
    have hused : (Memory.whole.within Memory.usedSlot).get m' =
        (Memory.whole.within Memory.usedSlot).get m := hm.used.symm
    rw [hused]
    split
    · exact .reply hm
    · exact .rememberLeft (.rememberRight (.reply (hm.use _)))

/-- A link comes to the same whether its day is remembered or not. -/
theorem linkScript_of_sound {m : Memory} (hm : m.Sound archive) (direction : Direction)
    (requested : Date) (params : Option String) :
    let script := linkScript direction (Memory.whole.within (Memory.targetSlot direction)) archive c
      requested params m
    let reply := Script.reply (link c direction (direction.day? archive requested) params)
    script = reply ∨
      ∃ n : Memory, script = .remember n reply ∧ n.Sound archive ∧ n.used = m.used := by
  dsimp only
  unfold linkScript
  split
  next known hknown =>
    obtain ⟨htarget, hrequested⟩ := Option.filter_eq_some_iff.mp hknown
    refine .inl ?_
    -- what is remembered for the day is what would be found again
    rw [hm direction known htarget]
    congr 3
    simpa using hrequested
  · exact .inr ⟨_, rfl, hm.learn direction requested, rfl⟩

/-- Links come to the same from memories that are alike, of which one may have learned the link and
the other not. -/
theorem respects_navHandler (direction : Direction) (archive : Archive) (c : Config) :
    (navHandler direction (Memory.whole.within (Memory.targetSlot direction)) archive c).Respects
      (Memory.Alike archive) := by
  intro marker m m' hm
  refine .look fun s => .recollectLeft (.recollectRight ?_)
  have hleft := linkScript_of_sound (c := c) hm.sound direction s.requested marker.params
  have hright := linkScript_of_sound (c := c) hm.sound' direction s.requested marker.params
  dsimp only at hleft hright
  -- either side can have its day by heart or look it up and learn it
  rcases hleft with hleft | ⟨n, hleft, hn, hused⟩
  · rcases hright with hright | ⟨n', hright, hn', hused'⟩
    · rw [hleft, hright]
      exact .reply hm
    · rw [hleft, hright]
      exact .rememberRight (.reply ⟨hm.used.trans hused'.symm, hm.sound, hn'⟩)
  · rcases hright with hright | ⟨n', hright, hn', hused'⟩
    · rw [hleft, hright]
      exact .rememberLeft (.reply ⟨hused.trans hm.used, hn, hm.sound'⟩)
    · rw [hleft, hright]
      exact .rememberLeft
        (.rememberRight (.reply ⟨hused.trans (hm.used.trans hused'.symm), hn, hn'⟩))

/-- What holds of the handlers of each tag holds of all handlers of a site. -/
theorem forall_registry {M : Type} {P : Handler M → Prop} {slot : Slot M Memory}
    (hinclude : P includeHandler) (hdate : ∀ source, P (dateHandler source))
    (hcomic : P (comicHandler (slot.within Memory.usedSlot) archive c))
    (hnav : ∀ direction,
      P (navHandler direction (slot.within (Memory.targetSlot direction)) archive c))
    (memory : M) (policy : UnknownTagPolicy) :
    ∀ name h, (name, h) ∈ (registry slot memory archive c policy).handlers → P h := by
  refine Registry.forall_registerAll (Registry.forall_withBuiltins hinclude hdate policy memory)
    fun entry hentry handler hok => ?_
  simp only [comicTags, List.mem_cons, List.mem_map] at hentry
  rcases hentry with rfl | ⟨direction, -, rfl⟩
  · cases hok
    exact hcomic
  · cases hok
    exact hnav direction

/-- **What the tags of a comic remember does not show**, as long as it is right. -/
theorem respects_registry (memory : Memory) (archive : Archive) (c : Config)
    (policy : UnknownTagPolicy) :
    (registry Memory.whole memory archive c policy).Respects (Memory.Alike archive) :=
  forall_registry respects_includeHandler respects_dateHandler (respects_comicHandler archive c)
    (fun direction => respects_navHandler direction archive c) memory policy

/-! ## Forgetting -/

/-- The names that the tags of a site are kept under. -/
theorem canonicalName_tags :
    ["include", "date", "today", "comic", "nav_first", "nav_prev", "nav_next", "nav_last"].map
        canonicalName =
      ["IncludeTag", "DateTag", "TodayTag", "ComicTag", "NavFirstTag", "NavPrevTag", "NavNextTag",
        "NavLastTag"] := by
  decide +kernel

/-- The handler of a link. -/
def navEntry {M : Type} (slot : Slot M Memory) (archive : Archive) (c : Config)
    (direction : Direction) : Handler M :=
  navHandler direction (slot.within (Memory.targetSlot direction)) archive c

/-- The handlers of a site. They do not depend on what is remembered, nor on the policy. -/
theorem handlers_registry {M : Type} (slot : Slot M Memory) (memory : M) (archive : Archive)
    (c : Config) (policy : UnknownTagPolicy) :
    (registry slot memory archive c policy).handlers =
      [("IncludeTag", includeHandler), ("DateTag", dateHandler .requested),
        ("TodayTag", dateHandler .today),
        ("ComicTag", comicHandler (slot.within Memory.usedSlot) archive c),
        ("NavFirstTag", navEntry slot archive c .first),
        ("NavPrevTag", navEntry slot archive c .previous),
        ("NavNextTag", navEntry slot archive c .next),
        ("NavLastTag", navEntry slot archive c .last)] := by
  have hnames := canonicalName_tags
  simp only [List.map_cons, List.map_nil, List.cons.injEq, and_true] at hnames
  obtain ⟨hinclude, hdate, htoday, hcomic, hfirst, hprev, hnext, hlast⟩ := hnames
  simp [registry, Registry.withBuiltins, Registry.new, Registry.registerAll, Registry.register,
    builtinTags, comicTags, Direction.tagName, Keyed.put, hinclude, hdate, htoday, hcomic, hfirst,
    hprev, hnext, hlast, navEntry]

/-- Each handler of a site is that of an include, of a date, of the strips or of a link. -/
theorem handler_registry {M : Type} {slot : Slot M Memory} {memory : M} {policy : UnknownTagPolicy}
    {name : String} {handler : Handler M}
    (h : (name, handler) ∈ (registry slot memory archive c policy).handlers) :
    handler = includeHandler ∨ (∃ source, handler = dateHandler source) ∨
      (name = canonicalName "comic" ∧
        handler = comicHandler (slot.within Memory.usedSlot) archive c) ∨
      ∃ direction : Direction, name = canonicalName direction.tagName ∧
        handler = navEntry slot archive c direction := by
  have hnames := canonicalName_tags
  simp only [List.map_cons, List.map_nil, List.cons.injEq, and_true] at hnames
  obtain ⟨-, -, -, hcomic, hfirst, hprevious, hnext, hlast⟩ := hnames
  rw [handlers_registry] at h
  simp only [List.mem_cons, Prod.mk.injEq, List.not_mem_nil, or_false] at h
  rcases h with ⟨-, rfl⟩ | ⟨-, rfl⟩ | ⟨-, rfl⟩ | ⟨rfl, rfl⟩ | ⟨rfl, rfl⟩ | ⟨rfl, rfl⟩ | ⟨rfl, rfl⟩ |
    ⟨rfl, rfl⟩
  · exact .inl rfl
  · exact .inr (.inl ⟨.requested, rfl⟩)
  · exact .inr (.inl ⟨.today, rfl⟩)
  · exact .inr (.inr (.inl ⟨hcomic.symm, rfl⟩))
  · exact .inr (.inr (.inr ⟨.first, hfirst.symm, rfl⟩))
  · exact .inr (.inr (.inr ⟨.previous, hprevious.symm, rfl⟩))
  · exact .inr (.inr (.inr ⟨.next, hnext.symm, rfl⟩))
  · exact .inr (.inr (.inr ⟨.last, hlast.symm, rfl⟩))

theorem policy_registerAll {M : Type} (r : Registry M) (table : List (Entry M)) :
    (r.registerAll table).1.policy = r.policy := by
  induction table generalizing r with
  | nil => rfl
  | cons entry rest ih =>
    unfold Registry.registerAll
    split
    · exact ih r
    · exact ih _

theorem policy_registry {M : Type} (slot : Slot M Memory) (memory : M) (archive : Archive)
    (c : Config) (policy : UnknownTagPolicy) :
    (registry slot memory archive c policy).policy = policy := by
  rw [registry, policy_registerAll, Registry.withBuiltins, policy_registerAll]
  rfl

/-- Tags with the handlers of a site and sound memory of an archive. They can have been used for
other pages. -/
structure Serves (archive : Archive) (c : Config) (policy : UnknownTagPolicy)
    (tags : PageTags Memory) : Prop where
  handlers : tags.1.handlers = (registry Memory.whole .blank archive c policy).handlers
  policy : tags.1.policy = policy
  sound : tags.1.memory.Sound archive

/-- A memory is the number of strips used and the day remembered for each direction. -/
theorem Memory.ext {m m' : Memory} (hused : m.used = m'.used)
    (htarget : ∀ direction, m.target direction = m'.target direction) : m = m' := by
  obtain ⟨used, target⟩ := m
  obtain ⟨used', target'⟩ := m'
  obtain rfl : used = used' := hused
  obtain rfl : target = target' := funext htarget
  rfl

theorem memory_registry (archive : Archive) (c : Config) (policy : UnknownTagPolicy) :
    (registry Memory.whole .blank archive c policy).memory = .blank := by
  refine Memory.ext rfl fun direction => ?_
  cases direction <;> rfl

/-- The tags of an archive serve it when they are new. -/
theorem serves_ofArchive (archive : Archive) (c : Config) (policy : UnknownTagPolicy) :
    Serves archive c policy (PageTags.ofArchive Memory.whole .blank archive c policy) := by
  refine ⟨rfl, policy_registry _ _ _ _ _, ?_⟩
  show ((registry Memory.whole .blank archive c policy).memory).Sound archive
  rw [memory_registry]
  exact Memory.sound_blank archive

namespace Serves

variable {policy : UnknownTagPolicy} {tags : PageTags Memory}

/-- **A new comic day forgets everything.** -/
theorem memory_resetForDay (h : Serves archive c policy tags) :
    tags.resetForDay.1.memory = .blank := by
  show tags.1.handlers.foldl (fun m (_, handler) => handler.resetForDay m) tags.1.memory = .blank
  rw [h.handlers, handlers_registry]
  refine Memory.ext rfl fun direction => ?_
  cases direction <;> rfl

/-- A new page forgets which files are used up, and nothing else. -/
theorem memory_resetForPage (h : Serves archive c policy tags) :
    tags.resetForPage.1.memory = Memory.usedSlot.set 0 tags.1.memory := by
  show tags.1.handlers.foldl (fun m (_, handler) => handler.resetForPage m) tags.1.memory = _
  rw [h.handlers, handlers_registry]
  rfl

theorem used_resetForDay (h : Serves archive c policy tags) :
    tags.resetForDay.1.memory.used = 0 :=
  congrArg Memory.used h.memory_resetForDay

theorem used_resetForPage (h : Serves archive c policy tags) :
    tags.resetForPage.1.memory.used = 0 :=
  congrArg Memory.used h.memory_resetForPage

theorem resetForDay (h : Serves archive c policy tags) :
    Serves archive c policy tags.resetForDay := by
  refine ⟨h.handlers, h.policy, ?_⟩
  rw [h.memory_resetForDay]
  exact Memory.sound_blank archive

theorem resetForPage (h : Serves archive c policy tags) :
    Serves archive c policy tags.resetForPage := by
  refine ⟨h.handlers, h.policy, ?_⟩
  rw [h.memory_resetForPage]
  exact h.sound

/-- Tags that serve an archive answer alike from memories that are alike. -/
theorem respects (h : Serves archive c policy tags) :
    tags.1.Respects (Memory.Alike archive) := by
  intro name handler hmem
  rw [h.handlers] at hmem
  exact respects_registry .blank archive c policy name handler hmem

end Serves

end Webcomic.Site
