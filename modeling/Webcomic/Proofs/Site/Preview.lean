import Webcomic.Proofs.Site.Preparation
import Webcomic.Proofs.Site.Rendering
import Webcomic.Proofs.Template.Untouched

/-!
# Previews of templates

A page by itself is asked for by the path of its template. A relative path is looked up in the
directory of templates, but only if it is no file as it is written: what stands in the working
directory comes first. So files that the page has nothing to do with can take its place.

- `Aside`: the locations that a preview of a template has nothing to do with.
- `renderFile_of_templatePath`: the template in the directory of templates gives one page on all
  trees that differ in such files.
- `exists_shadow`: a file in the working directory gives any page there.
- `relative_preview_stable_iff`: the page of a relative path is that of the directory of templates
  on all these trees exactly if no file can be written where the path leads from the working
  directory.
-/

namespace Webcomic.Site

open Archive Calendar Files Marker Template Text

variable {c : Config} {t t' : FileTree} {template path : Path} {date? : Option Date} {today : Date}
  {policy : UnknownTagPolicy} {archive : Archive} {X : Location → Prop}

/-! ## Templates without markers -/

/-- A template without markers is its own page. -/
theorem Rendering.text_of_read {r : Rendering} {text : String}
    (hread : r.files.read r.template = .ok text.toUTF8)
    (hplain : ∀ line ∈ lines text, (Line.ofText line).cuts = []) : r.text c = text := by
  obtain ⟨d, hleads, -⟩ := r.leads_text c
  obtain ⟨d', passed, htrail, -⟩ : ∃ d', LeadsQuietly r.tags.1 r.files (r.start c)
      ⟨.answer text, [], d'⟩ :=
    leadsQuietly_file [] List.not_mem_nil hread hplain
  have hend := hleads.unique htrail.leads rfl rfl
  injection hend with htask
  injection htask

/-! ## The archive and the template of a preview -/

/-- The live archive of a tree can be read, or there is none. -/
theorem exists_liveArchive (c : Config) (t : FileTree) (today : Date) :
    ∃ archive, liveArchive c t today = .ok archive := by
  cases hdirectory : t.isDirectory (c.directory .comics) with
  | false => exact ⟨_, by rw [liveArchive, hdirectory]; rfl⟩
  | true =>
    obtain ⟨loc, hresolve⟩ := FileTree.exists_resolve_of_isDirectory hdirectory
    exact ⟨_, liveArchive_of_resolve hresolve⟩

/-- Files outside of the comics directory do not show in the live archive. -/
theorem liveArchive_eq_of_differInFiles (h : t.DifferInFiles X t')
    (hX : ∀ loc, X loc → ¬ (c.directory .comics).locate t.workingDir <+: loc) :
    liveArchive c t' today = liveArchive c t today := by
  cases hdirectory : t.isDirectory (c.directory .comics) with
  | true =>
    obtain ⟨loc, hresolve⟩ := FileTree.exists_resolve_of_isDirectory hdirectory
    refine liveArchive_congr h.keeps hresolve fun name _ _ _ => ?_
    have hcomic : ¬ X (loc ++ [name]) := by
      rw [FileTree.eq_locate_of_resolve hresolve]
      exact fun hX' => hX _ hX' (List.prefix_append _ _)
    rw [h.node _ hcomic]
  | false =>
    -- files aside make no directory of what was none
    have hdirectory' : t'.isDirectory (c.directory .comics) = false := by
      refine Bool.eq_false_iff.mpr fun htrue => ?_
      obtain ⟨loc, hresolve⟩ := FileTree.exists_resolve_of_isDirectory htrue
      rw [FileTree.isDirectory, h.symm.keeps.resolve_directory hresolve] at hdirectory
      cases hdirectory
    rw [liveArchive, liveArchive, hdirectory, hdirectory']
    rfl

/-- A path that is a file as it is written is taken as it is. -/
theorem templatePath_of_isFile (h : t.isFile template = true) :
    templatePath c t template = template := by
  rw [templatePath, h]
  simp

/-- A relative path that is no file as it is written is looked up in the directory of templates. -/
theorem templatePath_of_not_isFile (hrel : template.isAbsolute = false)
    (h : t.isFile template = false) :
    templatePath c t template = (c.directory .templates).join template := by
  rw [templatePath, h, hrel]
  rfl

/-! ## Previews -/

/-- The rendering of a preview: the day is the one that is asked for, or the latest that is live. -/
def preview (c : Config) (t : FileTree) (path : Path) (date? : Option Date) (today : Date)
    (policy : UnknownTagPolicy) (archive : Archive) : Rendering :=
  .alone c archive policy t path today ((date?.or (archive.last?.map Prod.fst)).getD today)

/-- A location outside of the comics directory that is looked at for no path that the preview of a
template looks up. -/
structure Aside (c : Config) (t : FileTree) (path : Path) (date? : Option Date) (today : Date)
    (policy : UnknownTagPolicy) (loc : Location) : Prop where
  comics : ¬ (c.directory .comics).locate t.workingDir <+: loc
  looks : ∀ archive, liveArchive c t today = .ok archive → ∀ looked,
    (preview c t path date? today policy archive).LooksUp c looked →
    loc ∉ looked.lookups t.workingDir

theorem renderFile_of_isFile (hpath : templatePath c t template = path)
    (hfile : t.isFile path = true) (harchive : liveArchive c t today = .ok archive) :
    renderFile c t template date? today policy =
      .ok ((preview c t path date? today policy archive).text c) := by
  rw [renderFile_eq, hpath, if_pos hfile, harchive]
  rfl

/-- The template itself is no file aside. -/
theorem isFile_of_differInFiles (h : t.DifferInFiles (Aside c t path date? today policy) t') :
    t'.isFile path = t.isFile path := by
  obtain ⟨archive, harchive⟩ := exists_liveArchive c t today
  have hlooked := (preview c t path date? today policy archive).looksUp_template c
  exact h.isFile fun loc hloc haside => haside.looks archive harchive path hlooked hloc

/-- **A template gives one page on all trees that differ in files aside**, by whatever path it is
asked for. -/
theorem renderFile_of_templatePath (h : t.DifferInFiles (Aside c t path date? today policy) t')
    (hfile : t.isFile path = true) (harchive : liveArchive c t today = .ok archive)
    (hpath : templatePath c t' template = path) :
    renderFile c t' template date? today policy =
      .ok ((preview c t path date? today policy archive).text c) := by
  have hfile' : t'.isFile path = true := (isFile_of_differInFiles h).trans hfile
  have harchive' : liveArchive c t' today = .ok archive := by
    rw [liveArchive_eq_of_differInFiles h fun _ => Aside.comics, harchive]
  rw [renderFile_of_isFile hpath hfile' harchive']
  exact congrArg Except.ok (Rendering.text_alone_eq h.toAgreeOff
    fun looked hlooked loc hloc haside => haside.looks archive harchive looked hlooked hloc)

/-- **A file in the working directory takes the place of a template.** Where a file aside can be
written, it makes any text without markers the page. -/
theorem exists_shadow {loc : Location} (hwrite : t.writeTarget template = .ok loc) (hX : X loc)
    {text : String} (hplain : ∀ line ∈ lines text, (Line.ofText line).cuts = []) :
    ∃ t', t.DifferInFiles X t' ∧ renderFile c t' template date? today policy = .ok text := by
  -- the text is written in the working directory, where the path is tried first
  have hset : t.write template text.toUTF8 = .ok (t.set loc (.file text.toUTF8)) := by
    rw [FileTree.write, hwrite]
    rfl
  have hloc := (FileTree.namesEntry_of_writeTarget hwrite).1.eq_locate
  refine ⟨_, FileTree.differInFiles_of_write hset (hloc ▸ hX), ?_⟩
  have hfile := FileTree.isFile_of_write hset
  obtain ⟨archive, harchive⟩ := exists_liveArchive c (t.set loc (.file text.toUTF8)) today
  rw [renderFile_of_isFile (templatePath_of_isFile hfile) hfile harchive]
  refine congrArg Except.ok (Rendering.text_of_read ?_ hplain)
  exact FileTree.read_of_write hset (.refl _) (FileTree.node?_of_write hset)

/-- **When the page of a relative path does not depend on the working directory.** Let a relative
path name a template in the directory of templates. On all trees that differ in files outside of the
comics directory that the template does not look up, the template gives one page, and its relative
path gives that page if it is no file as it is written. If the place that the path names from the
working directory is one of these, the path gives that page on all these trees if and only if no
file can be written there. -/
theorem relative_preview_stable_iff (c : Config) (t : FileTree) (template : Path)
    (date? : Option Date) (today : Date) (policy : UnknownTagPolicy)
    (hrel : template.isAbsolute = false)
    (hfile : t.isFile ((c.directory .templates).join template) = true) :
    let path := (c.directory .templates).join template
    let aside := Aside c t path date? today policy
    ∃ page,
      (∀ t', t.DifferInFiles aside t' → renderFile c t' path date? today policy = .ok page ∧
        (t'.isFile template = false → renderFile c t' template date? today policy = .ok page)) ∧
      (aside (template.locate t.workingDir) →
        ((∀ t', t.DifferInFiles aside t' →
            renderFile c t' template date? today policy = .ok page) ↔
          ∀ loc, t.writeTarget template ≠ .ok loc)) := by
  intro path aside
  obtain ⟨archive, harchive⟩ := exists_liveArchive c t today
  have hunshadowed : ∀ t', t.DifferInFiles aside t' → t'.isFile template = false →
      renderFile c t' template date? today policy =
        .ok ((preview c t path date? today policy archive).text c) :=
    fun t' h hmissing =>
      renderFile_of_templatePath h hfile harchive (templatePath_of_not_isFile hrel hmissing)
  refine ⟨(preview c t path date? today policy archive).text c, ?_, fun haside => ⟨?_, ?_⟩⟩
  · intro t' h
    have hfile' : t'.isFile path = true := (isFile_of_differInFiles h).trans hfile
    exact ⟨renderFile_of_templatePath h hfile harchive (templatePath_of_isFile hfile'),
      hunshadowed t' h⟩
  · -- two files in the working directory would give two pages
    intro hstable loc hwrite
    have hshadow := (FileTree.namesEntry_of_writeTarget hwrite).1.eq_locate ▸ haside
    obtain ⟨t₁, h₁, htext₁⟩ : ∃ t₁, t.DifferInFiles aside t₁ ∧
        renderFile c t₁ template date? today policy = .ok "" :=
      exists_shadow hwrite hshadow (by decide +kernel)
    obtain ⟨t₂, h₂, htext₂⟩ : ∃ t₂, t.DifferInFiles aside t₂ ∧
        renderFile c t₂ template date? today policy = .ok "a" :=
      exists_shadow hwrite hshadow (by decide +kernel)
    have hempty := htext₁.symm.trans (hstable t₁ h₁)
    have hletter := htext₂.symm.trans (hstable t₂ h₂)
    exact absurd (Except.ok.inj (hempty.trans hletter.symm)) (by decide)
  · -- nothing can be written where the path names, and so nothing is there
    intro hnone t' h
    refine hunshadowed t' h (Bool.eq_false_iff.mpr fun hshadow => ?_)
    obtain ⟨loc, hwrite⟩ := FileTree.exists_writeTarget_of_isFile hshadow
    exact hnone loc (h.writeTarget_eq_ok_iff.mp hwrite)

/-- A site with a template at the top of its directory of templates and one in a directory below. -/
def previewSite : FileTree where
  workingDir := []
  nodes :=
    [(["pages"], .directory),
      (["pages", "index.html"], .file "Comic of ***date***".toUTF8),
      (["pages", "old"], .directory),
      (["pages", "old", "index.html"], .file "***include index.html***!".toUTF8),
      (["comics"], .directory),
      (["comics", "20240101.png"], .file "a".toUTF8)]
  distinct := by decide

/-- A file `index.html` can be written next to the directory of templates, and takes the place of
the template. No file `old/index.html` can, since there is no directory for it. -/
theorem relative_preview_stable_iff_preview_site :
    let c : Config := {}
    let t := previewSite
    let day : Date := ⟨2024, 1, 1, by decide⟩
    let today : Date := ⟨2024, 1, 2, by decide⟩
    let path := (c.directory .templates).join "index.html"
    let pathOld := (c.directory .templates).join "old/index.html"
    (Path.isAbsolute "index.html" = false ∧ t.isFile path = true ∧
      Aside c t path (some day) today .echo (Path.locate [] "index.html") ∧
      renderFile c t "index.html" (some day) today .echo = .ok "Comic of 2024-01-01" ∧
      ∃ t', t.DifferInFiles (Aside c t path (some day) today .echo) t' ∧
        renderFile c t' "index.html" (some day) today .echo ≠ .ok "Comic of 2024-01-01") ∧
    Path.isAbsolute "old/index.html" = false ∧ t.isFile pathOld = true ∧
      Aside c t pathOld (some day) today .echo (Path.locate [] "old/index.html") ∧
      ∀ t', t.DifferInFiles (Aside c t pathOld (some day) today .echo) t' →
        renderFile c t' "old/index.html" (some day) today .echo = .ok "Comic of 2024-01-01!" := by
  intro c t day today path pathOld
  have hrel : Path.isAbsolute "index.html" = false := by decide
  have hrelOld : Path.isAbsolute "old/index.html" = false := by decide
  have hfile : t.isFile path = true := by decide +kernel
  have hfileOld : t.isFile pathOld = true := by decide +kernel
  have hlookedUp : ∀ archive ∈ (liveArchive c t today).toOption,
      (∃ paths ∈ (preview c t path (some day) today .echo archive).lookedUp c 50,
        ∀ looked ∈ paths, Path.locate [] "index.html" ∉ Path.lookups [] looked) ∧
      ∃ paths ∈ (preview c t pathOld (some day) today .echo archive).lookedUp c 50,
        ∀ looked ∈ paths, Path.locate [] "old/index.html" ∉ Path.lookups [] looked := by
    decide +kernel
  have haside : Aside c t path (some day) today .echo (Path.locate [] "index.html") := by
    refine ⟨by decide +kernel, fun archive harchive looked hlooked => ?_⟩
    obtain ⟨⟨paths, hpaths, hnot⟩, -⟩ := hlookedUp archive (by rw [harchive]; rfl)
    exact hnot looked (hlooked.mem_lookedUp hpaths)
  have hasideOld : Aside c t pathOld (some day) today .echo (Path.locate [] "old/index.html") := by
    refine ⟨by decide +kernel, fun archive harchive looked hlooked => ?_⟩
    obtain ⟨-, paths, hpaths, hnot⟩ := hlookedUp archive (by rw [harchive]; rfl)
    exact hnot looked (hlooked.mem_lookedUp hpaths)
  have htext : renderFile c t "index.html" (some day) today .echo = .ok "Comic of 2024-01-01" := by
    decide +kernel
  have htextOld : renderFile c t "old/index.html" (some day) today .echo =
      .ok "Comic of 2024-01-01!" := by
    decide +kernel
  obtain ⟨page, hpage, hstable⟩ :=
    relative_preview_stable_iff c t "index.html" (some day) today .echo hrel hfile
  obtain ⟨pageOld, hpageOld, hstableOld⟩ :=
    relative_preview_stable_iff c t "old/index.html" (some day) today .echo hrelOld hfileOld
  obtain rfl := Except.ok.inj (((hpage t (.refl _ t)).2 (by decide +kernel)).symm.trans htext)
  obtain rfl :=
    Except.ok.inj (((hpageOld t (.refl _ t)).2 (by decide +kernel)).symm.trans htextOld)
  refine ⟨⟨hrel, hfile, haside, htext, ?_⟩, hrelOld, hfileOld, hasideOld, ?_⟩
  · have hwrite : t.writeTarget "index.html" = .ok (Path.locate [] "index.html") := by
      decide +kernel
    have hnot := mt (hstable haside).mp fun hnone => hnone _ hwrite
    simpa using hnot
  · refine (hstableOld hasideOld).mpr fun loc hloc => ?_
    have hfault : t.writeTarget "old/index.html" = .error .notFound := by decide +kernel
    rw [hfault] at hloc
    cases hloc

end Webcomic.Site
