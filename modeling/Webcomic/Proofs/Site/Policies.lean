import Webcomic.Proofs.Site.LinkMemory
import Webcomic.Proofs.Template.Drafts

/-!
# Pages with echoes and pages with reports

The tags of a site pass on what they have had expanded: an include puts the file into the page as it
is, and the others have nothing expanded (`passesOn_registry`). So the policy for unknown tags
changes nothing but the text in the places of such tags (`policy_changes_unknown_tags`).
-/

namespace Webcomic.Template

variable {M : Type}

theorem passesOn_includeHandler : (includeHandler : Handler M).PassesOn := by
  intro m
  unfold includeHandler
  dsimp only
  split
  · exact .reply (.same _)
  · exact .look fun s => .expand fun us text text' h => .reply h

theorem plain_dateHandler (source : DateSource) (m : Marker) :
    ((dateHandler source : Handler M).handle m).Plain :=
  fun _ => trivial

end Webcomic.Template

namespace Webcomic.Site

open Calendar Files Template

variable {M : Type}

theorem passesOn_registry (slot : Slot M Memory) (memory : M) (archive : Archive) (c : Config)
    (policy : UnknownTagPolicy) : (registry slot memory archive c policy).PassesOn :=
  forall_registry passesOn_includeHandler (fun source m => (plain_dateHandler source m).varies)
    (fun m => (plain_comicHandler _ archive c m).varies)
    (fun direction m => (plain_navHandler direction _ archive c m).varies) memory policy

/-- **The policy for unknown tags changes only the text in their places.** Take the tags of a site,
whatever they remember and whatever was reported last, and have a text or a file expanded in any
session, once with echoes and once with reports. Both come to an end, with the same memory and
session, and go through the same steps: the same markers are handed over in the same texts and
files, those without a name come back as they are written, and each unknown tag is echoed and
reported by itself. Both texts are one draft, in which the places of unknown tags are filled in by
the policy. These are tags that have been handed over, in order, and all of them if no file is given
up for a line that is not text. -/
theorem policy_changes_unknown_tags (archive : Archive) (c : Config) (files : FileTree)
    (memory : Memory) (notice notice' : String) (s : Session) (q : Request) :
    let echoing := registry Memory.whole .blank archive c .echo
    let reporting := registry Memory.whole .blank archive c .report
    let depth := files.fileLocations.length + 2
    ∃ (draft : Draft) (d d' : Desk Memory) (passed passed' : List (Moment Memory)),
      expand echoing files depth q ⟨memory, notice, s⟩ = some (draft.under .echo, d) ∧
      expand reporting files depth q ⟨memory, notice', s⟩ = some (draft.under .report, d') ∧
      d'.memory = d.memory ∧ d'.session = d.session ∧
      Trail echoing files ⟨.call q, [], ⟨memory, notice, s⟩⟩ passed
        ⟨.answer (draft.under .echo), [], d⟩ ∧
      Trail reporting files ⟨.call q, [], ⟨memory, notice', s⟩⟩ passed'
        ⟨.answer (draft.under .report), [], d'⟩ ∧
      List.Forall₂ (Moment.Matches echoing reporting files) passed passed' ∧
      draft.unknowns.Sublist (passed.filterMap (·.unknown? echoing)) ∧
      ((∀ a ∈ passed, ¬ a.GivesUp) →
        draft.unknowns = passed.filterMap (·.unknown? echoing)) := by
  intro echoing reporting depth
  have hhandlers : reporting.handlers = echoing.handlers := by
    rw [handlers_registry, handlers_registry]
  have hecho : echoing.policy = .echo := policy_registry _ _ _ _ _
  have hreport : reporting.policy = .report := policy_registry _ _ _ _ _
  have hstart : Moment.Varies [] (⟨.call q, [], ⟨memory, notice, s⟩⟩ : Moment Memory)
      ⟨.call q, [], ⟨memory, notice', s⟩⟩ := ⟨⟨[], [], rfl, .nil, .call q⟩, rfl, rfl⟩
  obtain ⟨text, d, hrun⟩ := exists_expand_of_fileBound
    (fileBound_registry Memory.whole .blank archive c .echo) files q ⟨memory, notice, s⟩
  obtain ⟨passed, htrail⟩ :=
    leads_iff_exists_trail.mp (leads_of_expand echoing files depth q _ text d hrun [])
  obtain ⟨passed', _, us, htrail', hvaries, hall, hsub, heq⟩ := htrail.varies
    (passesOn_registry Memory.whole .blank archive c .echo) hhandlers hecho hreport hstart
  obtain ⟨_, d', rfl, ⟨draft, rfl, rfl, rfl⟩, hm, hs⟩ := Moment.Varies.answer_iff.mp hvaries
  -- the expansion with reports ends within the same depth
  obtain ⟨text', d'', hrun'⟩ := exists_expand_of_fileBound
    (fileBound_registry Memory.whole .blank archive c .report) files q ⟨memory, notice', s⟩
  have hend := (leads_of_expand reporting files depth q _ text' d'' hrun' []).unique htrail'.leads
    rfl rfl
  cases hend
  refine ⟨draft, d, d', passed, passed', hrun, hrun', hm, hs, htrail, htrail', ?_, hsub, heq⟩
  exact hall.imp fun a b ⟨vs, h⟩ => h.matches_of_policies hhandlers hecho hreport

/-- Two unknown tags on one page, echoed with their parameters or reported by their own names. What
was reported last does not show. -/
theorem policy_changes_unknown_tags_two_unknown :
    let echoing := registry Memory.whole .blank threeStrips {} .echo
    let reporting := registry Memory.whole .blank threeStrips {} .report
    let page : Request := .text "***nav_up a*** ***map*** ***"
    let notice := "ERROR: Invalid tag! No handler named MapTag."
    ∃ (draft : Draft) (d d' : Desk Memory),
      expand echoing twoComics 6 page ⟨.blank, notice, .start firstDay none⟩ =
        some (draft.under .echo, d) ∧
      expand reporting twoComics 6 page ⟨.blank, notice, .start firstDay none⟩ =
        some (draft.under .report, d') ∧
      d'.memory = d.memory ∧ d'.session = d.session ∧
      draft.under .echo = "nav_up a map ***" ∧
      draft.under .report = "ERROR: Invalid tag! No handler named NavUpTag. " ++
        "ERROR: Invalid tag! No handler named MapTag. ***" := by
  intro echoing reporting page notice
  obtain ⟨draft, d, d', -, -, hecho, hreport, hmemory, hsession, -⟩ :=
    policy_changes_unknown_tags threeStrips {} twoComics .blank notice notice (.start firstDay none)
      page
  have htext : (expand echoing twoComics 6 page ⟨.blank, notice, .start firstDay none⟩).map
      Prod.fst = some "nav_up a map ***" := by
    decide +kernel
  have htext' : (expand reporting twoComics 6 page ⟨.blank, notice, .start firstDay none⟩).map
      Prod.fst = some ("ERROR: Invalid tag! No handler named NavUpTag. " ++
        "ERROR: Invalid tag! No handler named MapTag. ***") := by
    decide +kernel
  refine ⟨draft, d, d', hecho, hreport, hmemory, hsession, ?_, ?_⟩
  · exact Option.some.inj ((congrArg (Option.map Prod.fst) hecho).symm.trans htext)
  · exact Option.some.inj ((congrArg (Option.map Prod.fst) hreport).symm.trans htext')

end Webcomic.Site
