import Webcomic.Proofs.Site.Memory
import Webcomic.Proofs.Template.Hosting

/-!
# Tags that are as good as new

However the tags of a site have been used, once a comic day or a page has started they write what
new tags write (`answers_after_reset`). They do not remember the same: after a page they still know
where links lead to, and which tag was reported last. But what they know is right, so it does not
show.
-/

namespace Webcomic.Template

variable {M : Type} {R : M → M → Prop}

/-- A handler that remembers nothing has nothing to reset. -/
theorem resetsAlike_includeHandler : (includeHandler : Handler M).ResetsAlike R :=
  ⟨fun _ _ hm => hm, fun _ _ hm => hm⟩

theorem resetsAlike_dateHandler (source : DateSource) :
    (dateHandler source : Handler M).ResetsAlike R :=
  ⟨fun _ _ hm => hm, fun _ _ hm => hm⟩

end Webcomic.Template

namespace Webcomic.Site

open Template

variable {archive : Archive} {c : Config} {policy : UnknownTagPolicy} {m m' : Memory}

/-- What a link leads to can be forgotten. -/
theorem Memory.Sound.forget (h : m.Sound archive) (direction : Direction) :
    ((targetSlot direction).set none m).Sound archive := by
  intro direction' target htarget
  change (if direction' = direction then _ else _) = some target at htarget
  split at htarget
  · cases htarget
  · exact h direction' target htarget

theorem resetsAlike_comicHandler (archive : Archive) (c : Config) :
    (comicHandler (Memory.whole.within Memory.usedSlot) archive c).ResetsAlike
      (Memory.Alike archive) :=
  ⟨fun _ _ hm => hm.use 0, fun _ _ hm => hm.use 0⟩

theorem resetsAlike_navHandler (direction : Direction) (archive : Archive) (c : Config) :
    (navHandler direction (Memory.whole.within (Memory.targetSlot direction)) archive
      c).ResetsAlike (Memory.Alike archive) where
  forDay _ _ hm := ⟨hm.used, hm.sound.forget direction, hm.sound'.forget direction⟩
  forPage _ _ hm := hm

/-- The tags of a site keep memories alike, also when a day or a page starts. -/
theorem preserves_registry (memory : Memory) (archive : Archive) (c : Config)
    (policy : UnknownTagPolicy) :
    (registry Memory.whole memory archive c policy).Preserves (Memory.Alike archive) where
  respects := respects_registry memory archive c policy
  resets := forall_registry resetsAlike_includeHandler resetsAlike_dateHandler
    (resetsAlike_comicHandler archive c)
    (fun direction => resetsAlike_navHandler direction archive c) memory policy

/-- The registry of a site that has not been used. -/
abbrev newTags (archive : Archive) (c : Config) (policy : UnknownTagPolicy) : Registry Memory :=
  registry Memory.whole .blank archive c policy

/-- What the tags remember stays right, whatever a host does. -/
theorem sound_of_runs {sessions : Nat → Session} {acts : List Act} {answers : List (Option String)}
    {used : Host Memory}
    (h : Host.Runs ⟨newTags archive c policy, sessions⟩ acts answers used) :
    used.registry.memory.Sound archive := by
  have hblank : (newTags archive c policy).memory.Sound archive := by
    rw [memory_registry]
    exact Memory.sound_blank archive
  have hself : Host.Alike (Memory.Alike archive) ⟨newTags archive c policy, sessions⟩
      ⟨newTags archive c policy, sessions⟩ := ⟨rfl, rfl, ⟨rfl, hblank, hblank⟩, rfl⟩
  obtain ⟨_, -, halike⟩ := hself.runs (preserves_registry .blank archive c policy) h
  exact halike.memory.sound

/-- So tags that have been used serve their archive. -/
theorem serves_of_runs {sessions : Nat → Session} {acts : List Act}
    {answers : List (Option String)} {used : Host Memory}
    (h : Host.Runs ⟨newTags archive c policy, sessions⟩ acts answers used)
    (hbound : used.registry.FileBound) : Serves archive c policy ⟨used.registry, hbound⟩ :=
  ⟨h.same_tags.1, h.same_tags.2.trans (policy_registry _ _ _ _ _), sound_of_runs h⟩

/-- **A new day or page makes tags as good as new.** Whatever a host has done with them, in whatever
sessions and with whatever files, from the next day or page on it gets the answers that it would get
with new tags, whatever it does then, further days and pages included. There is an answer in every
case, and no other. -/
theorem answers_after_reset (archive : Archive) (c : Config) (policy : UnknownTagPolicy)
    (sessions : Nat → Session) (history : List Act) :
    ∃ past used, Host.Runs ⟨newTags archive c policy, sessions⟩ history past used ∧
      ∀ tags, tags = used.registry.resetForDay ∨ tags = used.registry.resetForPage →
        ∀ (sessions' : Nat → Session) (later : List Act), ∃ answers after new,
          Host.Runs ⟨tags, sessions'⟩ later answers after ∧
          Host.Runs ⟨newTags archive c policy, sessions'⟩ later answers new ∧
          after.sessions = new.sessions ∧
          (∀ answers' after', Host.Runs ⟨tags, sessions'⟩ later answers' after' →
            answers' = answers) ∧
          ∀ answers' new', Host.Runs ⟨newTags archive c policy, sessions'⟩ later answers' new' →
            answers' = answers := by
  have hbound := fileBound_registry Memory.whole .blank archive c policy
  obtain ⟨past, used, hused⟩ := Host.exists_runs (h := ⟨_, sessions⟩) hbound history
  refine ⟨past, used, hused, fun tags htags sessions' later => ?_⟩
  have hbound' : used.registry.FileBound := by
    rw [Registry.FileBound, hused.same_tags.1]
    exact hbound
  have hserves := serves_of_runs hused hbound'
  -- either way no file is used up, and what is known of the links is right
  have htags' : tags.handlers = (newTags archive c policy).handlers ∧ tags.policy = policy ∧
      tags.memory.used = 0 ∧ tags.memory.Sound archive := by
    rcases htags with rfl | rfl
    · exact ⟨hserves.resetForDay.handlers, hserves.resetForDay.policy, hserves.used_resetForDay,
        hserves.resetForDay.sound⟩
    · exact ⟨hserves.resetForPage.handlers, hserves.resetForPage.policy, hserves.used_resetForPage,
        hserves.resetForPage.sound⟩
  obtain ⟨hhandlers, hpolicy, hzero, hsound⟩ := htags'
  have hblank := memory_registry archive c policy
  have halike : Host.Alike (Memory.Alike archive) ⟨newTags archive c policy, sessions'⟩
      ⟨tags, sessions'⟩ := by
    refine ⟨hhandlers, hpolicy.trans (policy_registry _ _ _ _ _).symm, ?_, rfl⟩
    refine ⟨?_, ?_, hsound⟩
    · rw [hzero, hblank]
      rfl
    · rw [hblank]
      exact Memory.sound_blank archive
  obtain ⟨answers, new, hnew⟩ := Host.exists_runs (h := ⟨_, sessions'⟩) hbound later
  obtain ⟨after, hafter, halike'⟩ := halike.runs (preserves_registry .blank archive c policy) hnew
  exact ⟨answers, after, new, hafter, hnew, halike'.sessions,
    fun _ _ hother => (hother.unique hafter).1, fun _ _ hother => (hother.unique hnew).1⟩

end Webcomic.Site
