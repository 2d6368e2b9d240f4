import Webcomic.Proofs.Archive.Neighbours
import Webcomic.Proofs.Site.Independence
import Webcomic.Proofs.Site.Keeping

/-!
# Following the links of a published site

On every page of a run that succeeds, the four tags of the links lead to the ends of the published
days and to the neighbours of the day that the page is about, and nowhere if that is the day itself.
This holds wherever on the page a tag stands, in an include too, and in whatever spelling: at every
moment of a page the session is about its day and the days that are remembered are right (`Kept`),
so the link that is worked out anew takes the place of the tag (`Rendering.links_of_serves`).
`Writes` says what a link is on a page.

Where the links lead is told by the position of the day (`Direction.neighbour`). So who follows them
from one end visits all days up to the other (`walk_next_iff`, `walk_previous_iff`).
-/

namespace Webcomic.Site

open Calendar Files Template Archive

variable {c : Config} {today date : Date} {files after : FileTree} {archive : Archive}
  {policy : UnknownTagPolicy} {tags : PageTags Memory} {dates : List Date} {i : Nat}

/-! ## Where a link leads -/

/-- The day that lies in a direction from the one at a position among some days. There is none in
front of the first and behind the last. -/
def Direction.neighbour (dates : List Date) (i : Nat) : Direction → Option Date
  | .first => if i = 0 then none else dates[0]?
  | .previous => if i = 0 then none else dates[i - 1]?
  | .next => dates[i + 1]?
  | .last => if i + 1 = dates.length then none else dates[dates.length - 1]?

/-- A neighbour is one of the days. -/
theorem mem_of_neighbour {direction : Direction} (h : direction.neighbour dates i = some date) :
    date ∈ dates := by
  cases direction with
  | first => exact List.mem_of_getElem? (Option.ite_none_left_eq_some.mp h).2
  | previous => exact List.mem_of_getElem? (Option.ite_none_left_eq_some.mp h).2
  | next => exact List.mem_of_getElem? h
  | last => exact List.mem_of_getElem? (Option.ite_none_left_eq_some.mp h).2

/-- A day that is found is another one exactly if it has another position. -/
theorem filter_ne_getElem? (hdates : dates.Nodup) (h : dates[i]? = some date) (j : Nat) :
    dates[j]?.filter (· ≠ date) = if j = i then none else dates[j]? := by
  split
  next heq =>
    rw [heq, h]
    simp
  next hne =>
    -- no day stands at two positions
    cases hj : dates[j]? with
    | none => rfl
    | some other =>
      have hother : other ≠ date := by
        rintro rfl
        obtain ⟨hlt, -⟩ := List.getElem?_eq_some_iff.mp hj
        exact hne ((List.getElem?_inj hlt hdates).mp (hj.trans h.symm))
      simpa using hother

/-- **A link leads to a neighbour.** -/
theorem day?_eq_neighbour (h : archive.dates[i]? = some date) (direction : Direction) :
    direction.day? archive date = direction.neighbour archive.dates i := by
  obtain ⟨hi, -⟩ := List.getElem?_eq_some_iff.mp h
  have hfilter := filter_ne_getElem? archive.nodup_dates h
  cases direction with
  | first =>
    show (archive.first?.map Prod.fst).filter (· ≠ date) = if i = 0 then none else _
    rw [first?_eq, hfilter]
    simp only [eq_comm]
  | previous =>
    show ((archive.prev? date).map Prod.fst).filter (· ≠ date) = if i = 0 then none else _
    rw [prev?_eq h]
    split
    · rfl
    · rw [hfilter, if_neg (by omega)]
  | next =>
    show ((archive.next? date).map Prod.fst).filter (· ≠ date) = archive.dates[i + 1]?
    rw [next?_eq h, hfilter, if_neg (by omega)]
  | last =>
    show (archive.last?.map Prod.fst).filter (· ≠ date) =
      if i + 1 = archive.dates.length then none else _
    rw [last?_eq, hfilter]
    -- the last day is the day itself exactly if nothing stands behind it
    have hend : archive.dates.length - 1 = i ↔ i + 1 = archive.dates.length := by omega
    simp only [hend]

/-! ## What a link writes -/

/-- The labels that are configured for a direction: that of a link, and the ghosted one. -/
def NavLabels.of (nav : NavLabels) : Direction → String × Option String
  | .first => (nav.first, nav.firstGhosted)
  | .previous => (nav.previous, nav.previousGhosted)
  | .next => (nav.next, nav.nextGhosted)
  | .last => (nav.last, nav.lastGhosted)

/-- What a link writes. To a day it writes an anchor that leads to the address of its page, around
the params of the marker or else the label. Where there is no day to go to there is no anchor: the
params stand by themselves, or else the ghosted label, or else the label. -/
def Direction.Writes (c : Config) (direction : Direction) (params : Option String) :
    Option Date → String → Prop
  | some date, text => text =
      "<a href=\"" ++ c.dailyUrl date ++ "\">" ++ params.getD (c.nav.of direction).1 ++ "</a>"
  | none, text => text = (params.or (c.nav.of direction).2).getD (c.nav.of direction).1

theorem link_writes (c : Config) (direction : Direction) (day : Option Date)
    (params : Option String) : direction.Writes c params day (link c direction day params) := by
  cases day with
  | some date => cases direction <;> rfl
  | none =>
    cases params with
    | some text => rfl
    | none => cases direction <;> rfl

/-! ## What the tags of the links are answered with -/

namespace Serves

variable (h : Serves archive c policy tags)
include h

/-- The tag of a direction has its handler, in whatever spelling. -/
theorem handler?_nav {name : String} {direction : Direction}
    (hname : canonicalName name = canonicalName direction.tagName) :
    tags.1.handler? name = some (navEntry Memory.whole archive c direction) := by
  have hnames := canonicalName_tags
  simp only [List.map_cons, List.map_nil, List.cons.injEq, and_true] at hnames
  obtain ⟨-, -, -, -, hfirst, hprevious, hnext, hlast⟩ := hnames
  rw [Registry.handler?, hname, h.handlers, handlers_registry]
  cases direction with
  | first => rw [Direction.tagName, hfirst]; rfl
  | previous => rw [Direction.tagName, hprevious]; rfl
  | next => rw [Direction.tagName, hnext]; rfl
  | last => rw [Direction.tagName, hlast]; rfl

/-- A tag of a link is answered with the link from the day of the session. -/
theorem leads_of_nav {m : Marker} {name : String} {direction : Direction} (hm : m.name = some name)
    (hname : canonicalName name = canonicalName direction.tagName) (files : FileTree)
    (stack : List (Frame Memory)) {d : Desk Memory} (hsound : d.memory.Sound archive) :
    ∃ d', Leads tags.1 files ⟨.replace m, stack, d⟩
      ⟨.answer (link c direction (direction.day? archive d.session.requested) m.params), stack,
        d'⟩ := by
  have hreplace : replaceMarker tags.1 m stack d =
      ⟨.perform ((navEntry Memory.whole archive c direction).handle m), stack, d⟩ := by
    rw [replaceMarker, hm]
    dsimp only
    rw [h.handler?_nav hname]
  -- the handler looks at the session and recollects, and comes to the link
  have hbegin : Leads tags.1 files ⟨.replace m, stack, d⟩
      ⟨.perform (linkScript direction (Memory.whole.within (Memory.targetSlot direction)) archive c
        d.session.requested m.params d.memory), stack, d⟩ :=
    Leads.step (congrArg some hreplace) (Leads.step rfl (Leads.step rfl .refl))
  rcases linkScript_of_sound (c := c) hsound direction d.session.requested m.params with
    hknown | ⟨n, hlearnt, -, -⟩
  · refine ⟨d, hbegin.trans ?_⟩
    rw [hknown]
    exact Leads.step rfl .refl
  · refine ⟨{ d with memory := n }, hbegin.trans ?_⟩
    rw [hlearnt]
    exact Leads.step rfl (Leads.step rfl .refl)

end Serves

/-- **The links of a page.** Wherever on the page the tag of a direction stands, and in whatever
spelling, it is answered with a link to the day, or with the label alone. The answer takes the place
of the marker: the text or file that the marker stands in is read on with the answer behind what
stands before it. If that is the template itself, the page has the answer there, unless a line to
come is not text. -/
def Rendering.Links (c : Config) (r : Rendering) (direction : Direction) (day : Option Date) :
    Prop :=
  ∀ (m : Marker) (name : String) (stack : List (Frame Memory)) (d : Desk Memory),
    m.name = some name → canonicalName name = canonicalName direction.tagName →
    Leads r.tags.1 r.files (r.start c) ⟨.replace m, stack, d⟩ →
    direction.Writes c m.params day (link c direction day m.params) ∧
    ∃ d' reading rest, stack = .reading reading :: rest ∧
      Leads r.tags.1 r.files ⟨.replace m, stack, d⟩
        ⟨.answer (link c direction day m.params), stack, d'⟩ ∧
      Leads r.tags.1 r.files ⟨.replace m, stack, d⟩
        ⟨.read (reading.extend (link c direction day m.params)), rest, d'⟩ ∧
      (rest = [] → (∀ e, .error e ∉ reading.rest) →
        ∃ behind, r.text c = reading.done ++ link c direction day m.params ++ behind)

/-- **Tags that serve an archive link each page to the neighbours of its day.** The link is worked
out at the moment at which its tag is handed over, and stands on the page behind what was expanded
before. -/
theorem Rendering.links_of_serves {r : Rendering} (h : Serves archive c policy r.tags)
    (hi : archive.dates[i]? = some r.date) (direction : Direction) :
    r.Links c direction (direction.neighbour archive.dates i) := by
  intro m name stack d hm hname hleads
  have hstart : Kept r.date (Memory.Sound archive) (r.start c) := ⟨rfl, h.sound, nofun⟩
  -- whatever was expanded before the marker, the day and what is known of the links are right
  have hkept := hstart.leads (h.keeps r.date) hleads
  obtain ⟨d', hlink⟩ := h.leads_of_nav hm hname r.files stack hkept.task
  rw [hkept.requested, day?_eq_neighbour hi] at hlink
  obtain ⟨reading, rest, rfl⟩ := waits_of_leads hleads
  have hread := hlink.tail rfl
  refine ⟨link_writes c direction _ m.params, d', reading, rest, rfl, hlink, hread, ?_⟩
  rintro rfl hrest
  exact Rendering.exists_text_eq (hleads.trans hread) hrest

/-! ## Following the links -/

/-- The days that are visited from one on, if each leads to another until one leads nowhere. -/
inductive Walk (step : Date → Option Date) : Date → List Date → Prop where
  | stop {date : Date} : step date = none → Walk step date [date]
  | go {date next : Date} {visited : List Date} :
      step date = some next → Walk step next visited → Walk step date (date :: visited)

/-- There is one way to walk. -/
theorem Walk.unique {step : Date → Option Date} {visited visited' : List Date}
    (h : Walk step date visited) (h' : Walk step date visited') : visited = visited' := by
  induction h generalizing visited' with
  | stop hstop =>
    cases h' with
    | stop => rfl
    | go hgo => exact absurd (hstop.symm.trans hgo) nofun
  | go hgo _ ih =>
    cases h' with
    | stop hstop => exact absurd (hstop.symm.trans hgo) nofun
    | go hgo' hrest =>
      obtain rfl := Option.some.inj (hgo.symm.trans hgo')
      rw [ih hrest]

/-- The day that is reached from another by the link in a direction on its page. -/
def Direction.step (direction : Direction) (dates : List Date) (date : Date) : Option Date :=
  direction.neighbour dates (dates.idxOf date)

section

variable (hdates : dates.Nodup)
include hdates

/-- A step from a day leads to the neighbour of its position, which is the only one it has. -/
theorem step_eq_neighbour (direction : Direction) (h : dates[i]? = some date) :
    direction.step dates date = direction.neighbour dates i := by
  obtain ⟨hi, rfl⟩ := List.getElem?_eq_some_iff.mp h
  rw [Direction.step, hdates.idxOf_getElem]

theorem step_getElem (direction : Direction) (hi : i < dates.length) :
    direction.step dates dates[i] = direction.neighbour dates i :=
  step_eq_neighbour hdates direction (List.getElem?_eq_getElem hi)

/-- From a day on, all days behind it are visited. -/
theorem walk_next (hi : i < dates.length) :
    Walk (Direction.next.step dates) dates[i] (dates.drop i) := by
  -- on the days that are left
  induction hn : dates.length - i generalizing i with
  | zero => omega
  | succ n ih =>
    have hstep := step_getElem hdates .next hi
    rw [List.drop_eq_getElem_cons hi]
    rcases Nat.lt_or_ge (i + 1) dates.length with hlt | hge
    · refine .go ?_ (ih hlt (by omega))
      rw [hstep]
      exact List.getElem?_eq_getElem hlt
    · rw [List.drop_eq_nil_of_le hge]
      refine .stop ?_
      rw [hstep]
      exact List.getElem?_eq_none hge

/-- From a day on, all days in front of it are visited. -/
theorem walk_previous (hi : i < dates.length) :
    Walk (Direction.previous.step dates) dates[i] (dates.take (i + 1)).reverse := by
  induction i with
  | zero =>
    have hone : dates.take 1 = [dates[0]] := by
      rw [List.take_succ_eq_append_getElem hi]
      rfl
    rw [hone]
    exact .stop (step_getElem hdates .previous hi)
  | succ i ih =>
    have hlt : i < dates.length := by omega
    -- the day itself comes first, and then those in front of it
    rw [List.take_succ_eq_append_getElem hi, List.reverse_append]
    refine .go ?_ (ih hlt)
    rw [step_getElem hdates .previous hi]
    exact List.getElem?_eq_getElem hlt

theorem walk_next_iff (h : dates[0]? = some date) (visited : List Date) :
    Walk (Direction.next.step dates) date visited ↔ visited = dates := by
  obtain ⟨hi, rfl⟩ := List.getElem?_eq_some_iff.mp h
  have hwalk := walk_next hdates hi
  rw [List.drop_zero] at hwalk
  exact ⟨fun hvisited => hvisited.unique hwalk, fun heq => heq ▸ hwalk⟩

theorem walk_previous_iff (h : dates[dates.length - 1]? = some date) (visited : List Date) :
    Walk (Direction.previous.step dates) date visited ↔ visited = dates.reverse := by
  obtain ⟨hi, rfl⟩ := List.getElem?_eq_some_iff.mp h
  have hwalk := walk_previous hdates hi
  rw [Nat.sub_add_cancel (by omega), List.take_length] at hwalk
  exact ⟨fun hvisited => hvisited.unique hwalk, fun heq => heq ▸ hwalk⟩

end

/-! ## The published site -/

/-- A run tells of its days in their order. -/
theorem map_date_progressOf (dates : List Date) : (progressOf dates).map (·.date) = dates := by
  have hlength : ((progressOf dates).map (·.date)).length = dates.length := by
    rw [List.length_map, progressOf, List.length_mapIdx]
  refine List.ext_getElem hlength fun n _ _ => ?_
  rw [List.getElem_map]
  simp only [progressOf, List.getElem_mapIdx]

/-- **The links of a published site are a doubly linked walk.** Every published day has its page,
and the front page, if there is one, is about the last day. On every page of the run the tags of the
links lead to the ends of the published days and to the neighbours of the page's day, and nowhere if
there is none; the anchor or the label alone takes the place of the tag on the page
(`Rendering.Links`). All days that are linked are published. So who follows the links to the next
day from the first one visits every published day once, in the order of the calendar, and who
follows those to the previous day from the last one visits them in reverse. -/
theorem published_links {report : Report} {progress : List Progress}
    (h : (publishWithProgress c today).perform files = (.ok (report, progress), after)) :
    let dates := progress.map (·.date)
    (dates ≠ [] ∧ dates.Pairwise (· < ·)) ∧
    (∀ date ∈ dates, ∃ page ∈ pages c today files, page.IsDaily c today date) ∧
    (report.indexWritten = true → ∃ page ∈ pages c today files, page.target = c.indexPath ∧
      page.rendering.template = c.indexTemplatePath ∧
      dates[dates.length - 1]? = some page.rendering.date) ∧
    (∀ page ∈ pages c today files,
      page.rendering.date ∈ dates ∧
      (∃ mid, page.rendering.files.write page.target (page.content c) = .ok mid) ∧
      ∀ i, dates[i]? = some page.rendering.date → ∀ direction : Direction,
        direction.step dates page.rendering.date = direction.neighbour dates i ∧
          page.rendering.Links c direction (direction.neighbour dates i)) ∧
    (∀ i date, ∀ direction : Direction, direction.neighbour dates i = some date → date ∈ dates) ∧
    (∀ date, dates[0]? = some date → ∀ visited,
      Walk (Direction.next.step dates) date visited ↔ visited = dates) ∧
    (∀ date, dates[dates.length - 1]? = some date → ∀ visited,
      Walk (Direction.previous.step dates) date visited ↔ visited = dates.reverse) := by
  obtain ⟨edition, prepared, tags, written, hsteps, -, rfl⟩ := steps_of_publish h
  obtain ⟨names, hlatest⟩ := edition.exists_last?
  have hlast : edition.archive.dates[edition.archive.dates.length - 1]? = some edition.latest := by
    rw [← last?_eq, hlatest]
    rfl
  have hserves := serves_ofArchive edition.archive c .echo
  rw [map_date_progressOf]
  refine ⟨⟨?_, edition.archive.pairwise_dates⟩, ?_, ?_, ?_, fun _ _ _ => mem_of_neighbour,
    fun _ => walk_next_iff edition.archive.nodup_dates,
    fun _ => walk_previous_iff edition.archive.nodup_dates⟩
  · exact List.ne_nil_of_mem (List.mem_of_getElem? hlast)
  · intro date hdate
    obtain ⟨page, hpage, hdaily, -⟩ := exists_dailyPage hserves hsteps.dailies hdate
    exact ⟨page, hsteps.mem_pages_iff.mpr (.inl hpage), hdaily⟩
  · intro hwritten
    exact ⟨_, hsteps.frontPage_mem hwritten, rfl, rfl, hlast⟩
  · intro page hpage
    have hmade := hsteps.made hpage
    obtain ⟨mid, hwrite, -⟩ := hmade.written
    refine ⟨?_, ⟨mid, hwrite⟩, ?_⟩
    · rcases hsteps.mem_pages_iff.mp hpage with hdaily | ⟨-, rfl⟩
      · obtain ⟨-, date, hdate, hday⟩ := hsteps.made_dailyPage hdaily
        rw [hday.day]
        exact hdate
      · exact List.mem_of_getElem? hlast
    · intro i hi direction
      -- the neighbours by their positions, and the tags by the archive that they serve
      constructor
      · exact step_eq_neighbour edition.archive.nodup_dates direction hi
      · exact Rendering.links_of_serves hmade.serves hi direction

/-! A site with two days, one of which is staged, and a word for the place where there is no day to
go back to. -/

def linkedSite : Config := { stagedSite with nav := { previousGhosted := some "(start)" } }

/-- The daily pages have all four links, and the front page has two of them in an include. -/
def linkedComics : FileTree where
  workingDir := []
  nodes :=
    [(["pages"], .directory),
      (["pages", "dailytemplate.html"],
        .file "***nav_first*** ***nav_prev*** ***nav_next Onward*** ***nav_last***".toUTF8),
      (["pages", "index.html"], .file "[***include links.html***]".toUTF8),
      (["pages", "links.html"], .file "***nav_prev*** ***nav_last***".toUTF8),
      (["comics"], .directory),
      (["comics", "20240101.png"], .file "a".toUTF8),
      (["up"], .directory),
      (["up", "20240102.png"], .file "b".toUTF8)]
  distinct := by decide

/-- The links of the two days of `linkedComics`, and the pages they stand on. -/
theorem published_links_two_comics :
    ∃ after, (publishWithProgress linkedSite secondDay).perform linkedComics =
        (.ok (⟨1, 2, true, some secondDay⟩, [⟨firstDay, 1, 2⟩, ⟨secondDay, 2, 2⟩]), after) ∧
      (∃ page ∈ pages linkedSite secondDay linkedComics,
        page.IsDaily linkedSite secondDay firstDay ∧
          page.rendering.Links linkedSite .next (some secondDay) ∧
          page.rendering.Links linkedSite .previous none) ∧
      (∀ visited, Walk (Direction.next.step [firstDay, secondDay]) firstDay visited ↔
        visited = [firstDay, secondDay]) ∧
      (pages linkedSite secondDay linkedComics).map (·.rendering.text linkedSite) =
        ["First (start) <a href=\"about:blankd/20240102.html\">Onward</a> " ++
            "<a href=\"about:blankd/20240102.html\">Last</a>",
          "<a href=\"about:blankd/20240101.html\">First</a> " ++
            "<a href=\"about:blankd/20240101.html\">Previous</a> Onward Last",
          "[<a href=\"about:blankd/20240101.html\">Previous</a> Last]"] := by
  obtain ⟨after, hrun⟩ : ∃ after, (publishWithProgress linkedSite secondDay).perform linkedComics =
      (.ok (⟨1, 2, true, some secondDay⟩, [⟨firstDay, 1, 2⟩, ⟨secondDay, 2, 2⟩]), after) :=
    Change.exists_outcome (by decide +kernel)
  obtain ⟨-, hdaily, -, hpages, -, hnext, -⟩ := published_links hrun
  obtain ⟨page, hpage, hday⟩ := hdaily firstDay List.mem_cons_self
  obtain ⟨-, -, hlinks⟩ := hpages page hpage
  have hfirst := hlinks 0 (congrArg some hday.day.symm)
  exact ⟨after, hrun, ⟨page, hpage, hday, (hfirst .next).2, (hfirst .previous).2⟩,
    hnext firstDay rfl, by decide +kernel⟩

end Webcomic.Site
