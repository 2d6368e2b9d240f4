import Webcomic.Proofs.Site.Navigation
import Webcomic.Proofs.Site.Strips
import Webcomic.Proofs.Template.Hosting

/-!
# The days that links remember do not show

The tag of a link remembers the day that it was last asked for and the one it leads to from there
(`Target`). Whatever a host does, in however many sessions about different days, what is remembered
is right (`Links.right`): it is worked out anew for another day, kept when a page starts and
forgotten with the comic day. So every marker of the tag is answered with the link that is worked
out from the archive and the day that its session is about (`link_answers_anew`).

Where a link leads to is told by the order of the days (`Direction.LeadsTo`), also from days that
are not in the archive.
-/

namespace Webcomic.Site

open Calendar Files Template

variable {M : Type} {archive : Archive} {c : Config} {direction : Direction}
  {target : Slot M (Option Target)} {tag : String} {tags : Registry M} {files : FileTree}
  {requested day : Date} {start d d' : Desk M} {turns : List (Turn M)}

/-! ## Where a link leads to -/

/-- A day that lies in a direction from another, as told by the order of the days. Only a day that
is among them has one before it or after it. -/
def Direction.LeadsTo (dates : List Date) (requested day : Date) (direction : Direction) : Prop :=
  day ≠ requested ∧
    match direction with
    | .first => IsLeast {d | d ∈ dates} day
    | .previous => requested ∈ dates ∧ IsGreatest {d | d ∈ dates ∧ d < requested} day
    | .next => requested ∈ dates ∧ IsLeast {d | d ∈ dates ∧ requested < d} day
    | .last => IsGreatest {d | d ∈ dates} day

theorem day?_eq_some_iff :
    direction.day? archive requested = some day ↔
      direction.LeadsTo archive.dates requested day := by
  have hfilter : ∀ found : Option Date,
      found.filter (· ≠ requested) = some day ↔ day ≠ requested ∧ found = some day := by
    intro found
    rw [Option.filter_eq_some_iff, and_comm]
    simp
  cases direction with
  | first => exact (hfilter _).trans (and_congr_right fun _ => Archive.first?_eq_some_iff)
  | previous => exact (hfilter _).trans (and_congr_right fun _ => Archive.prev?_eq_some_iff)
  | next => exact (hfilter _).trans (and_congr_right fun _ => Archive.next?_eq_some_iff)
  | last => exact (hfilter _).trans (and_congr_right fun _ => Archive.last?_eq_some_iff)

/-! ## What is remembered -/

/-- The day that is remembered, if any, is the one that the link leads to. -/
def Direction.Right (archive : Archive) (direction : Direction) (known : Option Target) : Prop :=
  ∀ t, known = some t → t.day = direction.day? archive t.requested

theorem right_none : direction.Right archive none := by
  intro t ht
  cases ht

/-- A tag that writes the links in a direction, and remembers their days in a part of the memory
that no other tag changes. -/
structure Links (archive : Archive) (c : Config) (direction : Direction)
    (target : Slot M (Option Target)) (tag : String) (tags : Registry M) : Prop where
  lawful : ∀ t m, target.get (target.set t m) = t
  reserves : tags.Reserves target tag (navHandler direction target archive c)

namespace Links

theorem of_handlers {tags' : Registry M} (h : Links archive c direction target tag tags)
    (heq : tags'.handlers = tags.handlers) : Links archive c direction target tag tags' :=
  ⟨h.lawful, h.reserves.of_handlers heq⟩

variable (h : Links archive c direction target tag tags)
include h

/-- A marker of the tag is answered with the link from the day of the session, and what is
remembered stays right. -/
theorem answered {m : Marker} (hm : isFor tag m = true)
    (hright : direction.Right archive (target.get d.memory)) (wd : Location) :
    ∃ d', d'.session = d.session ∧ direction.Right archive (target.get d'.memory) ∧
      ∀ answer, reply tags wd answer m d =
        some (link c direction (direction.day? archive d.session.requested) m.params, d') := by
  obtain ⟨name, hname, hhandler⟩ := handler?_of_isFor tags hm
  rw [h.reserves.registered] at hhandler
  simp only [reply, hname, hhandler, navHandler, Script.run_look, Script.run_recollect, linkScript]
  cases hknown : (target.get d.memory).filter (·.requested = d.session.requested) with
  | some known =>
    -- it was worked out for this day before
    obtain ⟨htarget, hrequested⟩ := Option.filter_eq_some_iff.mp hknown
    refine ⟨d, rfl, hright, fun answer => ?_⟩
    dsimp only
    rw [hright known htarget, of_decide_eq_true hrequested, Script.run_reply]
  | none =>
    -- it is worked out now, and takes the place of what was remembered
    let learnt : Target := ⟨d.session.requested, direction.day? archive d.session.requested⟩
    refine ⟨{ d with memory := target.set (some learnt) d.memory }, rfl, ?_, fun answer => rfl⟩
    intro t ht
    rw [h.lawful] at ht
    cases ht
    rfl

/-- What is remembered is right after any turns of the tag. -/
theorem right_of_turns (hturns : Turns tags files target start turns d)
    (hstart : direction.Right archive (target.get start.memory))
    (hfor : ∀ t ∈ turns, isFor tag t.marker = true) :
    direction.Right archive (target.get d.memory) := by
  induction hturns with
  | start => exact hstart
  | aside _ hget ih =>
    rw [hget]
    exact ih hfor
  | turn m stack text depth _ hreply ih =>
    obtain ⟨hbefore, hlast⟩ := List.forall_mem_append.mp hfor
    have hm : isFor tag m = true := hlast _ (List.mem_singleton_self _)
    obtain ⟨d₂, -, hright, hanswer⟩ := h.answered hm (ih hbefore) files.workingDir
    cases hreply.symm.trans (hanswer _)
    exact hright

/-- What is remembered is right whenever a marker of the tag is handed over, and when an expansion
has been answered. -/
theorem right_of_leads {i : Inquiry} {now : Moment M}
    (hstart : direction.Right archive (target.get start.memory))
    (hleads : Leads tags files ⟨i.task, [], start⟩ now)
    (hnow : ∀ script, now.task ≠ .perform script) :
    direction.Right archive (target.get now.desk.memory) := by
  obtain ⟨passed, htrail⟩ := leads_iff_exists_trail.mp hleads
  have hbegin : Taken tags files target start ⟨i.task, [], start⟩ := by
    cases i with
    | expand request => exact .between rfl trivial nofun
    | reply m => exact .between rfl trivial nofun
  -- the markers of the tag have taken turns, and no other tag has changed its part of the memory
  obtain ⟨turns, d', hturns, htaken, hmoments⟩ := htrail.turns h.reserves hbegin
  have hfor : ∀ t ∈ turns, isFor tag t.marker = true := by
    intro t ht
    have hmoment := List.mem_map_of_mem (f := Turn.moment) ht
    rw [hmoments] at hmoment
    exact (List.mem_filter.mp hmoment).2
  cases htaken with
  | between hget =>
    rw [hget]
    exact h.right_of_turns hturns hstart hfor
  | taking => exact absurd rfl (hnow _)

end Links

/-- **What a link remembers is right, whatever a host does.** -/
theorem Links.right {host host' : Host M} {acts : List Act} {answers : List (Option String)}
    (h : Links archive c direction target tag host.registry)
    (hruns : host.Runs acts answers host')
    (hstart : direction.Right archive (target.get host.registry.memory)) :
    Links archive c direction target tag host'.registry ∧
      direction.Right archive (target.get host'.registry.memory) := by
  induction hruns with
  | done host => exact ⟨h, hstart⟩
  | act hdoes _ ih =>
    refine ih (h.of_handlers hdoes.same_tags.1) ?_
    cases hdoes with
    | ask hask =>
      obtain ⟨d, hrun, rfl, -⟩ := Registry.ask_eq_some.mp hask
      have hleads := leads_of_run hrun []
      exact h.right_of_leads hstart hleads nofun
    | begin n s => exact hstart
    | turnTo n date => exact hstart
    | newDay =>
      -- what is forgotten is not wrong
      have hnone : target.get (_ : Host M).registry.resetForDay.memory = none :=
        h.reserves.get_foldl (h.lawful none) (fun _ hspares => hspares.resetForDay) _
      intro t ht
      cases hnone.symm.trans ht
    | newPage =>
      have hkept : target.get (_ : Host M).registry.resetForPage.memory = _ :=
        h.reserves.get_foldl_of_eq (fun _ => rfl) (fun _ hspares => hspares.resetForPage) _
      intro t ht
      exact hstart t (hkept.symm.trans ht)

/-- **The days that links remember do not show.** Begin with a link that remembers nothing. Whatever
a host does with the registry, in whatever sessions, about whatever days and with whatever files,
whenever something is asked for in a session and a marker of the tag is handed over on the way, it
is answered with the link that is worked out anew for the day that the session is about then, and
with nothing else. That link leads to the first or the last day, or to the neighbour of a day of the
archive, unless this is the day itself. It is an anchor around the params of the marker or the label
of the direction; where there is no day it is the params, the ghosted label or the label alone. -/
theorem link_answers_anew (h : Links archive c direction target tag tags)
    (hnew : target.get tags.memory = none) {sessions : Nat → Session} {history : List Act}
    {past : List (Option String)} {host : Host M}
    (hruns : Host.Runs ⟨tags, sessions⟩ history past host) (files : FileTree) (n : Nat)
    (i : Inquiry) {m : Marker} {stack : List (Frame M)}
    (hleads : Leads host.registry files ⟨i.task, [], host.registry.desk (host.sessions n)⟩
      ⟨.replace m, stack, d⟩)
    (hm : isFor tag m = true) :
    let day := direction.day? archive d.session.requested
    let label := (c.nav.of direction).1
    let ghosted := (c.nav.of direction).2
    (∃ text d', d'.session = d.session ∧
      (∀ answer, reply host.registry files.workingDir answer m d = some (text, d')) ∧
      Leads host.registry files ⟨.replace m, stack, d⟩ ⟨.answer text, stack, d'⟩ ∧
      text = link c direction day m.params ∧
      (∀ other, day = some other →
        text = "<a href=\"" ++ c.dailyUrl other ++ "\">" ++ m.params.getD label ++ "</a>") ∧
      (day = none → text = (m.params.or ghosted).getD label)) ∧
    ∀ other, day = some other ↔ direction.LeadsTo archive.dates d.session.requested other := by
  intro day label ghosted
  -- a tag that remembers nothing remembers nothing wrong, and nothing on the way changes that
  have hstart : direction.Right archive (target.get tags.memory) := by
    rw [hnew]
    exact right_none
  obtain ⟨hlinks, hright⟩ := h.right hruns hstart
  have hnow := hlinks.right_of_leads hright hleads nofun
  obtain ⟨d', hsession, -, hanswer⟩ := hlinks.answered hm hnow files.workingDir
  have hrun : (Task.replace m).run host.registry files 0 d =
      some (link c direction day m.params, d') := hanswer _
  have hwrites := link_writes c direction day m.params
  refine ⟨⟨link c direction day m.params, d', hsession, hanswer, leads_of_run hrun stack, rfl,
    fun other hday => ?_, fun hday => ?_⟩, fun other => day?_eq_some_iff⟩
  · rw [hday] at hwrites ⊢
    exact hwrites
  · rw [hday] at hwrites ⊢
    exact hwrites

/-! ## The links of a site -/

theorem plain_navHandler (direction : Direction) (target : Slot M (Option Target))
    (archive : Archive) (c : Config) (m : Marker) :
    ((navHandler direction target archive c).handle m).Plain := by
  intro s memory
  unfold linkScript
  split <;> exact trivial

/-- The strips leave what the links remember. -/
theorem spares_comicHandler (direction : Direction) (archive : Archive) (c : Config) :
    (comicHandler (Memory.whole.within Memory.usedSlot) archive c).Spares
      (Memory.whole.within (Memory.targetSlot direction)) where
  handle marker m s := by
    dsimp only
    split
    · exact trivial
    · rw [Script.Spares]
      split
      · exact trivial
      · exact ⟨rfl, trivial⟩
  resetForDay _ := rfl
  resetForPage _ := rfl

/-- A link leaves what the links in other directions remember. -/
theorem spares_navHandler_of_ne {other : Direction} (hne : direction ≠ other) (archive : Archive)
    (c : Config) :
    (navHandler other (Memory.whole.within (Memory.targetSlot other)) archive c).Spares
      (Memory.whole.within (Memory.targetSlot direction)) where
  handle marker m s := by
    show Script.Spares _ (linkScript other _ archive c s.requested marker.params m) m
    unfold linkScript
    split
    · exact trivial
    · exact ⟨if_neg hne, trivial⟩
  resetForDay _ := if_neg hne
  resetForPage _ := rfl

/-- The tags of a site have a link in each direction, which remembers its own days. -/
theorem links_registry (memory : Memory) (archive : Archive) (c : Config)
    (policy : UnknownTagPolicy) (direction : Direction) :
    Links archive c direction (Memory.whole.within (Memory.targetSlot direction)) direction.tagName
      (registry Memory.whole memory archive c policy) where
  lawful _ _ := if_pos rfl
  reserves := by
    have hserves := serves_ofArchive archive c policy
    refine ⟨?_, plain_navHandler direction _ archive c, ?_⟩
    · have hhandler : _ = some (navEntry Memory.whole archive c direction) :=
        hserves.handler?_nav rfl
      rw [Registry.handler?, hserves.handlers] at hhandler
      rwa [Registry.handler?, handlers_registry, ← handlers_registry Memory.whole .blank]
    · intro name handler hmem hname
      rcases handler_registry hmem with rfl | ⟨source, rfl⟩ | ⟨-, rfl⟩ | ⟨other, rfl, rfl⟩
      · exact spares_includeHandler
      · exact spares_dateHandler source
      · exact spares_comicHandler direction archive c
      · -- the links in the other directions have other names
        have hne : direction ≠ other := by
          rintro rfl
          exact hname rfl
        exact spares_navHandler_of_ne hne archive c

/-- A site with a label of its own for the link to the day after, and a word for where there is
none. -/
def ghostedSite : Config := { nav := { next := "On", nextGhosted := some "(the end)" } }

/-- A link to the day after. -/
def nextMarker : Marker := ⟨"***nav_next***", some "nav_next", none⟩

/-- The same with a text of its own, in another spelling. -/
def moreMarker : Marker := ⟨"***Nav_Next More***", some "Nav_Next", some "More"⟩

/-- Two sessions are about the first day. Once a link has been written in one of them and it has
been turned to the second day, nothing is linked there, but still in the other. -/
theorem link_answers_anew_two_sessions :
    ∃ past host, Host.Runs ⟨registry Memory.whole .blank threeStrips ghostedSite .echo,
          fun _ => .start firstDay none⟩
        [.ask twoComics 0 (.reply nextMarker), .turnTo 0 secondDay] past host ∧
      (∃ d, ∀ answer, reply host.registry [] answer nextMarker
        (host.registry.desk (host.sessions 0)) = some ("(the end)", d)) ∧
      (∃ d, ∀ answer, reply host.registry [] answer moreMarker
        (host.registry.desk (host.sessions 0)) = some ("More", d)) ∧
      (∃ d, ∀ answer, reply host.registry [] answer nextMarker
        (host.registry.desk (host.sessions 1)) =
          some ("<a href=\"about:blankd/20240102.html\">On</a>", d)) ∧
      ∃ d, ∀ answer, reply host.registry [] answer moreMarker
        (host.registry.desk (host.sessions 1)) =
          some ("<a href=\"about:blankd/20240102.html\">More</a>", d) := by
  have hlinks := links_registry .blank threeStrips ghostedSite .echo .next
  have hnext : isFor "nav_next" nextMarker = true := by simp [isFor, nextMarker]
  have hmore : isFor "nav_next" moreMarker = true := by decide +kernel
  have hbound := fileBound_registry Memory.whole .blank threeStrips ghostedSite .echo
  obtain ⟨depth, text, desk, hask⟩ :=
    Registry.exists_ask hbound twoComics (.start firstDay none) (.reply nextMarker)
  -- the first request writes the link, and with it the day that it leads to from the first day
  have hruns := Host.Runs.act (.ask (h := ⟨_, fun _ => .start firstDay none⟩) (n := 0) hask)
    (.act (.turnTo 0 secondDay) (.done _))
  have hnew : (Memory.whole.within (Memory.targetSlot .next)).get
      (registry Memory.whole .blank threeStrips ghostedSite .echo).memory = none := by
    rw [memory_registry]
    rfl
  have hnone : Direction.next.day? threeStrips secondDay = none := by decide +kernel
  have hsecond : Direction.next.day? threeStrips firstDay = some secondDay := by decide +kernel
  have hurl : ghostedSite.dailyUrl secondDay = "about:blankd/20240102.html" := by decide +kernel
  refine ⟨_, _, hruns, ?_, ?_, ?_, ?_⟩
  · obtain ⟨⟨text, d, -, hanswer, -, -, -, hghosted⟩, -⟩ :=
      link_answers_anew hlinks hnew hruns twoComics 0 (.reply nextMarker) .refl hnext
    obtain rfl := hghosted hnone
    exact ⟨d, hanswer⟩
  · obtain ⟨⟨text, d, -, hanswer, -, -, -, hghosted⟩, -⟩ :=
      link_answers_anew hlinks hnew hruns twoComics 0 (.reply moreMarker) .refl hmore
    obtain rfl := hghosted hnone
    exact ⟨d, hanswer⟩
  · obtain ⟨⟨text, d, -, hanswer, -, -, hlinked, -⟩, -⟩ :=
      link_answers_anew hlinks hnew hruns twoComics 1 (.reply nextMarker) .refl hnext
    obtain rfl := hlinked secondDay hsecond
    rw [hurl] at hanswer
    exact ⟨d, hanswer⟩
  · obtain ⟨⟨text, d, -, hanswer, -, -, hlinked, -⟩, -⟩ :=
      link_answers_anew hlinks hnew hruns twoComics 1 (.reply moreMarker) .refl hmore
    obtain rfl := hlinked secondDay hsecond
    rw [hurl] at hanswer
    exact ⟨d, hanswer⟩

end Webcomic.Site
