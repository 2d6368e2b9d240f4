import Webcomic.Proofs.Site.Memory
import Webcomic.Proofs.Template.Keeping

/-!
# What the tags of a site keep

No tag of a site turns the session to another day. On a day the tags change the memory in two ways
only: one more file of that day is used up, or the day that a link leads to is remembered. So they
keep every property of the memory that these two keep (`Lasting`, `keeps_registry`), such as that
what is remembered of the links is right (`lasting_sound`).
-/

namespace Webcomic.Template

open Calendar

variable {M : Type} {date : Date} {P : M → Prop}

/-- An include turns nothing to another day by itself. -/
theorem keeps_includeHandler : (includeHandler : Handler M).Keeps date P := by
  intro marker m hm
  unfold includeHandler
  dsimp only
  split
  · exact hm
  · intro s _
    exact ⟨hm, fun text m' hm' => hm'⟩

theorem keeps_dateHandler (source : DateSource) : (dateHandler source : Handler M).Keeps date P :=
  fun _ _ hm _ _ => hm

end Webcomic.Template

namespace Webcomic.Site

open Calendar Template

variable {M : Type} {slot : Slot M Memory} {archive : Archive} {date : Date} {P : M → Prop}

/-- What the tags do to the memory on a day leaves a property of it. -/
structure Lasting (slot : Slot M Memory) (archive : Archive) (date : Date) (P : M → Prop) :
    Prop where
  use : ∀ m names, archive.files? date = some names →
    (slot.within Memory.usedSlot).get m < names.length → P m →
    P ((slot.within Memory.usedSlot).set ((slot.within Memory.usedSlot).get m + 1) m)
  learn : ∀ direction m, P m →
    P ((slot.within (Memory.targetSlot direction)).set
      (some ⟨date, direction.day? archive date⟩) m)

theorem lasting_true : Lasting slot archive date fun _ => True :=
  ⟨fun _ _ _ _ _ => trivial, fun _ _ _ => trivial⟩

theorem lasting_sound : Lasting Memory.whole archive date (Memory.Sound archive) where
  use _ _ _ _ hm := hm
  learn direction _ hm := hm.learn direction date

namespace Lasting

variable (h : Lasting slot archive date P)
include h

/-- A strip is counted, which a lasting property survives. -/
theorem keeps_comicHandler (c : Config) :
    (comicHandler (slot.within Memory.usedSlot) archive c).Keeps date P := by
  intro marker m hm s hday
  dsimp only
  rw [hday]
  split
  · exact hm
  next names hnames =>
    rw [Script.Keeps]
    split
    · exact hm
    next file hfile => exact h.use m names hnames (List.getElem?_eq_some_iff.mp hfile).1 hm

/-- A link is remembered for the day that it was worked out for. -/
theorem keeps_navHandler (direction : Direction) (c : Config) :
    (navHandler direction (slot.within (Memory.targetSlot direction)) archive c).Keeps date P := by
  intro marker m hm s hday
  show Script.Keeps date P (linkScript direction _ archive c s.requested marker.params m) m
  rw [hday]
  unfold linkScript
  split
  · exact hm
  · exact h.learn direction m hm

/-- **The tags of a site keep the day**, and what lasts of the memory. -/
theorem keeps_registry (memory : M) (c : Config) (policy : UnknownTagPolicy) :
    (registry slot memory archive c policy).Keeps date P :=
  forall_registry keeps_includeHandler keeps_dateHandler (h.keeps_comicHandler c)
    (fun direction => h.keeps_navHandler direction c) memory policy

end Lasting

/-- Tags that serve an archive keep every day, and what they remember right. -/
theorem Serves.keeps {c : Config} {policy : UnknownTagPolicy} {tags : PageTags Memory}
    (h : Serves archive c policy tags) (date : Date) :
    tags.1.Keeps date (Memory.Sound archive) := by
  intro name handler hmem
  rw [h.handlers] at hmem
  exact lasting_sound.keeps_registry .blank c policy name handler hmem

end Webcomic.Site
