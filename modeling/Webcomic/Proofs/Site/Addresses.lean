import Webcomic.Proofs.Files.Components
import Webcomic.Proofs.Site.Navigation

/-!
# Addresses and files of daily pages

The address of a daily page is a text: the address of the site, the directory of the daily pages and
the name of the file, one behind the other. The file is a path: the name, seen from the directory,
seen from the site. What stands behind the address of the site leads to the file exactly if the
directory is empty or ends in a slash (`dailyUrl_leads_to_page_iff`). With another directory the
links of the published site lead past the pages, though these are written.
-/

namespace Webcomic.Site

open Calendar Files Template Text

variable {c : Config} {date : Date}

/-- The address of a daily page, seen from the address of the site. -/
def Config.dailyAddress (c : Config) (date : Date) : Path :=
  c.dailyDir ++ c.dailyFileName date

theorem dailyUrl_eq (c : Config) (date : Date) :
    c.dailyUrl date = c.url ++ c.dailyAddress date := by
  simp only [Config.dailyUrl, Config.dailyAddress, Config.dailyFileName, String.append_assoc]

/-- The address of a daily page, seen from the directory of the site, is the file of the page, name
by name. -/
def Config.LeadsToPage (c : Config) (date : Date) (file : Path) : Prop :=
  ((c.directory .site).join (c.dailyAddress date)).sameText file = true

/-- A datestamp begins with a digit or a sign. -/
theorem exists_stamp_eq_cons (date : Date) :
    ∃ first rest, date.stamp.toList = first :: rest ∧ first ≠ '/' ∧ first ≠ '.' := by
  by_cases hyear : 0 ≤ date.year ∧ date.year ≤ 9999
  · have hdigits := Date.isDigit_of_mem_stamp hyear.1 hyear.2
    have hne : date.stamp.toList ≠ [] := by
      intro hnil
      have hread := Date.ofStamp?_stamp hyear.1 hyear.2
      rw [Date.ofStamp?, hnil] at hread
      cases hread
    obtain ⟨first, rest, hcons⟩ := List.exists_cons_of_ne_nil hne
    have hfirst := hdigits first (hcons ▸ List.mem_cons_self)
    refine ⟨first, rest, hcons, ?_, ?_⟩
    · rintro rfl
      exact absurd hfirst (by decide)
    · rintro rfl
      exact absurd hfirst (by decide)
  · -- a year of more than four digits, or before the year 0, has a sign
    have hsign : ∃ mark, sign true date.year = [mark] ∧ mark ≠ '/' ∧ mark ≠ '.' := by
      unfold sign
      split
      · exact ⟨'-', rfl, by decide, by decide⟩
      · exact ⟨'+', rfl, by decide, by decide⟩
    obtain ⟨mark, hmark, hslash, hdot⟩ := hsign
    obtain ⟨rest, hrest⟩ : ∃ rest, yearText .zero date.year = mark :: rest := by
      simp [yearText, if_neg hyear, padded, hmark]
    rw [Date.stamp, String.toList_append, String.toList_append, String.toList_ofList, hrest]
    exact ⟨mark, _, rfl, hslash, hdot⟩

theorem exists_dailyFileName_eq_cons (c : Config) (date : Date) :
    ∃ first rest, (c.dailyFileName date).toList = first :: rest ∧ first ≠ '/' ∧ first ≠ '.' := by
  obtain ⟨first, rest, hstamp, hslash, hdot⟩ := exists_stamp_eq_cons date
  rw [Config.dailyFileName, String.toList_append, hstamp, List.cons_append]
  exact ⟨first, _, rfl, hslash, hdot⟩

theorem leadsToPage_iff (hdir : c.dailyDir.isAbsolute = false) (date : Date) :
    c.LeadsToPage date (c.dailyPath date) ↔ c.dailyDir = "" ∨ c.dailyDir.endsInSlash = true := by
  obtain ⟨first, rest, hname, hslash, hdot⟩ := exists_dailyFileName_eq_cons c date
  exact Path.sameText_join_append_iff (c.directory .site) hdir hname hslash hdot

/-! ## The links of a published site -/

/-- **The address of a daily page leads to its file** exactly if the directory of the daily pages is
empty or ends in a slash; then both are one text, whatever the date. So exactly then the links of a
published site lead to the pages of their days, all of which are written. -/
theorem dailyUrl_leads_to_page_iff (hdir : c.dailyDir.isAbsolute = false) :
    (∀ date, c.dailyUrl date = c.url ++ c.dailyAddress date ∧
      (c.LeadsToPage date (c.dailyPath date) ↔ c.dailyDir = "" ∨ c.dailyDir.endsInSlash = true) ∧
      (c.dailyDir = "" ∨ c.dailyDir.endsInSlash = true →
        (c.directory .site).join (c.dailyAddress date) = c.dailyPath date)) ∧
    ∀ today files report progress after,
      (publishWithProgress c today).perform files = (.ok (report, progress), after) →
      ∀ page ∈ pages c today files, ∀ i,
        (progress.map (·.date))[i]? = some page.rendering.date →
        ∀ (direction : Direction) (day : Date),
          direction.neighbour (progress.map (·.date)) i = some day →
          page.rendering.Links c direction (some day) ∧
          (∀ params, link c direction (some day) params = "<a href=\"" ++
            (c.url ++ c.dailyAddress day) ++ "\">" ++ params.getD (direction.label c.nav) ++
              "</a>") ∧
          ∃ target ∈ pages c today files, target.IsDaily c today day ∧
            (∃ mid, target.rendering.files.write target.target (target.content c) = .ok mid) ∧
            (c.LeadsToPage day target.target ↔
              c.dailyDir = "" ∨ c.dailyDir.endsInSlash = true) := by
  refine ⟨fun date => ⟨dailyUrl_eq c date, leadsToPage_iff hdir date, ?_⟩, ?_⟩
  · intro hends
    obtain ⟨first, rest, hname, hslash, -⟩ := exists_dailyFileName_eq_cons c date
    -- the name of a daily page begins with its stamp, and so with no slash
    have hrel : Path.isAbsolute (c.dailyFileName date) = false := by
      simpa [Path.isAbsolute, hname] using hslash
    exact Path.join_append hdir hrel hends
  · intro today files report progress after h page hpage i hi direction day hday
    obtain ⟨edition, prepared, tags, written, hsteps, -, rfl⟩ := steps_of_publish h
    rw [map_date_progressOf] at hi hday
    obtain ⟨target, htarget, hdaily, -⟩ := exists_dailyPage
      (serves_ofArchive edition.archive c .echo) hsteps.dailies (mem_of_neighbour hday)
    have hmem := hsteps.mem_pages_iff.mpr (.inl htarget)
    obtain ⟨mid, hwrite, -⟩ := (hsteps.made hmem).written
    refine ⟨?_, ?_, target, hmem, hdaily, ⟨mid, hwrite⟩, ?_⟩
    · rw [← hday]
      exact Rendering.links_of_serves (hsteps.made hpage).serves hi direction
    · intro params
      rw [link, dailyUrl_eq]
    · rw [hdaily.target]
      exact leadsToPage_iff hdir day

/-- A site that keeps its daily pages in a directory written without a slash. -/
def bareSite : Config := { stagedSite with dailyDir := "d" }

/-- The link of the first day of `twoComics` leads past the page of the second. -/
theorem dailyUrl_leads_to_page_iff_bare :
    ∃ after, bareSite.dailyDir.isAbsolute = false ∧
      (publishWithProgress bareSite secondDay).perform twoComics =
        (.ok (⟨1, 2, true, some secondDay⟩, [⟨firstDay, 1, 2⟩, ⟨secondDay, 2, 2⟩]), after) ∧
      (∃ page ∈ pages bareSite secondDay twoComics, page.rendering.date = firstDay ∧
        page.rendering.Links bareSite .next (some secondDay)) ∧
      link bareSite .next (some secondDay) none = "<a href=\"about:blankd20240102.html\">Next</a>" ∧
      ∃ target ∈ pages bareSite secondDay twoComics,
        target.target = "./public_html/d/20240102.html" ∧
        ¬ bareSite.LeadsToPage secondDay target.target := by
  obtain ⟨after, hrun⟩ : ∃ after, (publishWithProgress bareSite secondDay).perform twoComics =
      (.ok (⟨1, 2, true, some secondDay⟩, [⟨firstDay, 1, 2⟩, ⟨secondDay, 2, 2⟩]), after) :=
    Change.exists_outcome (by decide +kernel)
  have hdir : bareSite.dailyDir.isAbsolute = false := by decide +kernel
  obtain ⟨edition, prepared, tags, written, hsteps, -, hprogress⟩ := steps_of_publish hrun
  have hdates : edition.archive.dates = [firstDay, secondDay] := by
    have hmap := map_date_progressOf edition.archive.dates
    rw [← hprogress] at hmap
    exact hmap.symm
  obtain ⟨page, hpage, hdaily, -⟩ := exists_dailyPage
    (serves_ofArchive edition.archive bareSite .echo) hsteps.dailies
    (hdates ▸ List.mem_cons_self : firstDay ∈ edition.archive.dates)
  have hmem := hsteps.mem_pages_iff.mpr (.inl hpage)
  obtain ⟨-, hlinks⟩ := dailyUrl_leads_to_page_iff hdir
  obtain ⟨hnext, hlink, target, htarget, hday, -, hleads⟩ := hlinks secondDay twoComics _ _ after
    hrun page hmem 0 (congrArg some hdaily.day.symm) .next secondDay rfl
  refine ⟨after, hdir, hrun, ⟨page, hmem, hdaily.day, hnext⟩, ?_, target, htarget, ?_, ?_⟩
  · rw [hlink none]
    decide +kernel
  · rw [hday.target]
    decide +kernel
  · rw [hleads]
    decide +kernel

end Webcomic.Site
