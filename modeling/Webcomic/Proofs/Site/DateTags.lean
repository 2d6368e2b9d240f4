import Webcomic.Proofs.Calendar.Format
import Webcomic.Proofs.Site.Keeping
import Webcomic.Proofs.Site.Run
import Webcomic.Proofs.Template.OpenFiles
import Webcomic.Proofs.Template.Turns

/-!
# What the date tags write

A date is written in a format as a whole or not at all, and formats compose (`formatDate_append`):
what stands behind a format that a date can be written in makes no difference to its text.

The tags `date` and `today` put such a text or the error into the place of their marker
(`leads_of_date`). On a page the session is about the day of the page and the day that it is made on
at every moment (`Rendering.day_of_leads`), so these are the days that are written, wherever on the
page a tag stands (`Rendering.showsDay_of_serves`).
-/

namespace Webcomic.Template

open Calendar Files

variable {M : Type} {tags : Registry M} {date : Date} {f g text : String} {m : Marker}
  {source : DateSource}

/-! ## Dates in formats -/

theorem formatDate_eq_ok_iff : formatDate date f = .ok text ↔ date.format? f = some text := by
  unfold formatDate
  cases date.format? f <;> simp

/-- **A date is not written at all if it cannot be written as a whole**, and the error names the
format. -/
theorem formatDate_eq_error_iff {e : Error} :
    formatDate date f = .error e ↔ e = .invalidFormat f ∧ Unwritable f := by
  have hnone : date.format? f = none ↔ Unwritable f := Date.format?_eq_none_iff
  rw [← hnone, formatDate]
  cases date.format? f <;> simp [eq_comm]

theorem shown_invalidFormat (f : String) :
    shown (.error (.invalidFormat f)) = "ERROR: Invalid date format '" ++ f ++ "'" := by
  show "ERROR: " ++ ("Invalid date format '" ++ f ++ "'") = _
  rw [← String.append_assoc, ← String.append_assoc]
  rfl

/-- **Formats compose.** -/
theorem formatDate_append {t : String} (h : formatDate date f = .ok text) :
    formatDate date (f ++ g) = .ok t ↔ ∃ more, formatDate date g = .ok more ∧ t = text ++ more := by
  simp only [formatDate_eq_ok_iff] at h ⊢
  rw [Date.format?_append h, Option.map_eq_some_iff]
  simp only [eq_comm]

theorem dateText_eq (date : Date) (params : Option String) :
    dateText date params = shown (formatDate date (params.getD defaultDateFormat)) := by
  unfold dateText
  cases formatDate date (params.getD defaultDateFormat) <;> rfl

/-! ## The tags -/

/-- The tag that writes a day of the session. -/
def DateSource.tagName : DateSource → String
  | .requested => "date"
  | .today => "today"

/-- A marker of a date tag is answered with the day of the session. -/
theorem leads_of_date (hhandler : tags.handler? source.tagName = some (dateHandler source))
    (hm : isFor source.tagName m = true) (files : FileTree) (stack : List (Frame M)) (d : Desk M) :
    Leads tags files ⟨.replace m, stack, d⟩
      ⟨.answer (shown (formatDate (source.of d.session) (m.params.getD defaultDateFormat))), stack,
        d⟩ := by
  obtain ⟨name, hname, hfound⟩ := handler?_of_isFor tags hm
  have hreplace : replaceMarker tags m stack d =
      ⟨.perform ((dateHandler source).handle m), stack, d⟩ := by
    rw [replaceMarker, hname]
    dsimp only
    rw [hfound, hhandler]
  rw [← dateText_eq]
  exact Leads.step (congrArg some hreplace) (Leads.step rfl (Leads.step rfl .refl))

end Webcomic.Template

namespace Webcomic.Site

open Archive Calendar Files Template

variable {c : Config} {archive : Archive} {policy : UnknownTagPolicy} {tags : PageTags Memory}
  {r : Rendering} {a : Moment Memory}

/-! ## Pages -/

/-- The date tags have their handlers. -/
theorem Serves.handler?_date (h : Serves archive c policy tags) (source : DateSource) :
    tags.1.handler? source.tagName = some (dateHandler source) := by
  have hnames := canonicalName_tags
  simp only [List.map_cons, List.map_nil, List.cons.injEq, and_true] at hnames
  obtain ⟨-, hdate, htoday, -⟩ := hnames
  rw [Registry.handler?, h.handlers, handlers_registry]
  cases source with
  | requested => rw [DateSource.tagName, hdate]; rfl
  | today => rw [DateSource.tagName, htoday]; rfl

/-- At every moment of a page the session is about the days of the page. -/
theorem Rendering.day_of_leads (h : Serves archive c policy r.tags) (source : DateSource)
    (hleads : Leads r.tags.1 r.files (r.start c) a) :
    source.of a.desk.session = source.of (PageTags.session c r.today r.date) := by
  cases source with
  | requested =>
    have hstart : Kept r.date (Memory.Sound archive) (r.start c) := ⟨rfl, h.sound, nofun⟩
    exact (hstart.leads (h.keeps r.date) hleads).requested
  | today => exact ((Tracked.start rfl _).leads hleads).today

/-- Wherever on the page a date tag stands, and in whatever spelling, the day or the error takes the
place of its marker, and the page is read on. -/
def Rendering.ShowsDay (c : Config) (r : Rendering) (source : DateSource) (day : Date) : Prop :=
  ∀ (m : Marker) (stack : List (Frame Memory)) (d : Desk Memory),
    isFor source.tagName m = true →
    Leads r.tags.1 r.files (r.start c) ⟨.replace m, stack, d⟩ →
    ∃ reading rest, stack = .reading reading :: rest ∧
      Leads r.tags.1 r.files ⟨.replace m, stack, d⟩
        ⟨.read (reading.extend (shown (formatDate day (m.params.getD defaultDateFormat)))), rest, d⟩

theorem Rendering.showsDay_of_serves (h : Serves archive c policy r.tags) (source : DateSource) :
    r.ShowsDay c source (source.of (PageTags.session c r.today r.date)) := by
  intro m stack d hm hleads
  obtain ⟨reading, rest, rfl⟩ := waits_of_leads hleads
  have hanswer := leads_of_date (h.handler?_date source) hm r.files (.reading reading :: rest) d
  have hday : source.of d.session = _ := Rendering.day_of_leads h source hleads
  rw [hday] at hanswer
  exact ⟨reading, rest, rfl, hanswer.tail rfl⟩

/-- **Formats of dates compose, and dates are written as a whole or not at all.** If a date is
written in a format, it is written in the format with another one behind it exactly if it is written
in the other one, and the texts stand one behind the other. A date is not written exactly if a
percent sign starts no specifier or a specifier asks for what a date does not have; then the error
names the whole format and nothing else.

The tags `date` and `today` answer every marker of theirs, in whatever registry, with just this text
or error for the days of the session. On a page, of a run or by itself, the text stands in the place
of the marker, and the days are the day of the page and the day that it is made on. -/
theorem date_formats_compose :
    (∀ (date : Date) (f text : String), formatDate date f = .ok text →
      ∀ g t, formatDate date (f ++ g) = .ok t ↔
        ∃ more, formatDate date g = .ok more ∧ t = text ++ more) ∧
    (∀ (date : Date) (f : String) (e : Template.Error),
      formatDate date f = .error e ↔ e = .invalidFormat f ∧ Unwritable f) ∧
    (∀ f, shown (.error (.invalidFormat f)) = "ERROR: Invalid date format '" ++ f ++ "'") ∧
    (∀ (M : Type) (tags : Registry M) (files : FileTree) (source : DateSource) (m : Marker)
      (stack : List (Frame M)) (d : Desk M),
      tags.handler? source.tagName = some (dateHandler source) → isFor source.tagName m = true →
      Leads tags files ⟨.replace m, stack, d⟩
        ⟨.answer (shown (formatDate (source.of d.session) (m.params.getD defaultDateFormat))),
          stack, d⟩) ∧
    (∀ (c : Config) (today : Date) (files : FileTree), ∀ page ∈ pages c today files,
      page.rendering.ShowsDay c .requested page.rendering.date ∧
        page.rendering.ShowsDay c .today today) ∧
    ∀ (c : Config) (archive : Archive) (policy : UnknownTagPolicy) (files : FileTree)
      (template : Path) (today date : Date),
      let r := Rendering.alone c archive policy files template today date
      r.ShowsDay c .requested date ∧ r.ShowsDay c .today today := by
  refine ⟨fun _ _ _ h _ _ => formatDate_append h, fun _ _ _ => formatDate_eq_error_iff,
    shown_invalidFormat, fun _ _ files _ _ stack d hhandler hm =>
      leads_of_date hhandler hm files stack d, ?_, ?_⟩
  · intro c today files page hpage
    obtain ⟨archive, hserves, rfl⟩ := serves_of_mem_pages hpage
    exact ⟨Rendering.showsDay_of_serves hserves .requested,
      Rendering.showsDay_of_serves hserves .today⟩
  · intro c archive policy files template today date r
    have hserves := (Rendering.serves_alone c archive policy files template today date).1
    exact ⟨Rendering.showsDay_of_serves hserves .requested,
      Rendering.showsDay_of_serves hserves .today⟩

/-- A page with both tags, and a format that asks for the hour. -/
def datedPage : FileTree where
  workingDir := []
  nodes := [(["page"], .file "***date %d/%m*** ***Today*** ***date %d/%H***".toUTF8)]
  distinct := by decide

/-- The formats of `datedPage`, and its markers as they are answered on a page. -/
theorem date_formats_compose_dated_page :
    let day : Date := ⟨2024, 3, 5, by decide⟩
    let today : Date := ⟨2024, 3, 6, by decide⟩
    let r := Rendering.alone {} .empty .echo datedPage "page" today day
    let d := r.tags.1.desk (PageTags.session {} today day)
    let m : Marker := ⟨"***date %d/%H***", some "date", some "%d/%H"⟩
    formatDate day "%d/" = .ok "05/" ∧
      (∀ t, formatDate day ("%d/" ++ "%m") = .ok t ↔ t = "05/03") ∧
      formatDate day ("%d/" ++ "%H") = .error (.invalidFormat "%d/%H") ∧
      r.tags.1.handler? DateSource.requested.tagName = some (dateHandler .requested) ∧
      isFor DateSource.requested.tagName m = true ∧
      Leads r.tags.1 datedPage ⟨.replace m, [], d⟩
        ⟨.answer "ERROR: Invalid date format '%d/%H'", [], d⟩ ∧
      r.ShowsDay {} .requested day ∧ r.ShowsDay {} .today today ∧
      r.text {} = "05/03 2024-03-06 ERROR: Invalid date format '%d/%H'" := by
  intro day today r d m
  obtain ⟨hcompose, -, hshown, htags, -, halone⟩ := date_formats_compose
  have hhead : formatDate day "%d/" = .ok "05/" := by decide +kernel
  have hmonth : formatDate day "%m" = .ok "03" := by decide +kernel
  have hhour : formatDate day "%d/%H" = .error (.invalidFormat "%d/%H") := by decide +kernel
  have hserves := (Rendering.serves_alone {} .empty .echo datedPage "page" today day).1
  have hhandler := hserves.handler?_date .requested
  have hm : isFor DateSource.requested.tagName m = true := by decide +kernel
  have hanswer := htags Memory r.tags.1 datedPage .requested m [] d hhandler hm
  have hday : formatDate (DateSource.requested.of d.session) (m.params.getD defaultDateFormat) =
      .error (.invalidFormat "%d/%H") := hhour
  rw [hday, hshown] at hanswer
  obtain ⟨hdate, htoday⟩ := halone {} .empty .echo datedPage "page" today day
  refine ⟨hhead, fun t => ?_, hhour, hhandler, hm, hanswer, hdate, htoday, by decide +kernel⟩
  rw [hcompose day _ _ hhead, hmonth]
  simp

end Webcomic.Site
