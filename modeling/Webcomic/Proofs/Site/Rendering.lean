import Webcomic.Proofs.Files.Lookup
import Webcomic.Proofs.Site.Memory

/-!
# Renderings

A **rendering** is the expansion of a template for a comic day, with the tags and the tree as they
are at that moment. `Rendering.text_eq` says what its text depends on: the template, the days, the
archive that the tags serve, the number of files used up, and what the files that are looked up
read. So the tags can have served other pages before, and the tree can hold anything else.
-/

namespace Webcomic.Site

open Calendar Files Template

/-- The expansion of a template for a comic day. -/
structure Rendering where
  tags : PageTags Memory
  files : FileTree
  template : Path
  today : Date
  date : Date

namespace Rendering

variable {c : Config} {r r' : Rendering} {archive : Archive} {policy : UnknownTagPolicy}

/-- The page. -/
def text (r : Rendering) (c : Config) : String :=
  (r.tags.page c r.files r.template r.today r.date).1

/-- The tags after the page. -/
def tagsAfter (r : Rendering) (c : Config) : PageTags Memory :=
  (r.tags.page c r.files r.template r.today r.date).2

/-- The moment at which the template is asked for. -/
def start (r : Rendering) (c : Config) : Moment Memory :=
  ⟨.call (.file r.template), [], r.tags.1.desk (PageTags.session c r.today r.date)⟩

/-- A template or an include is looked up while the page is made. -/
def LooksUp (r : Rendering) (c : Config) (path : Path) : Prop :=
  (r.start c).Loads r.tags.1 r.files path

/-- The template is looked up itself. -/
theorem looksUp_template (r : Rendering) (c : Config) : r.LooksUp c r.template := by
  let d := r.tags.1.desk (PageTags.session c r.today r.date)
  refine ⟨[], d.enter r.files.workingDir r.template, .single ?_⟩
  exact congrArg some (Request.go_of_not_open [] List.not_mem_nil)

/-- The files that are looked up, in order, if the page is made within a number of steps. -/
def lookedUp (r : Rendering) (c : Config) (steps : Nat) : Option (List Path) :=
  (r.start c).loaded r.tags.1 r.files steps

theorem LooksUp.mem_lookedUp {path : Path} {steps : Nat} {paths : List Path}
    (h : r.LooksUp c path) (hpaths : paths ∈ r.lookedUp c steps) : path ∈ paths :=
  h.mem_loaded hpaths

/-- The moments of a rendering lead to its page. -/
theorem leads_text (r : Rendering) (c : Config) :
    ∃ d, Leads r.tags.1 r.files (r.start c) ⟨.answer (r.text c), [], d⟩ ∧
      (r.tagsAfter c).1 = r.tags.1.leaving d := by
  let s := PageTags.session c r.today r.date
  have hexpand : r.tags.1.expand r.files (Registry.levels r.files) (.file r.template) s =
      some (r.tags.1.expandFile r.tags.2 r.files r.template s) :=
    (Option.some_get (Registry.isSome_expand_file r.tags.2 r.files r.template s)).symm
  obtain ⟨⟨text, d⟩, hrun, hresult⟩ := Option.map_eq_some_iff.mp hexpand
  have htext : r.text c = text := (congrArg Prod.fst hresult).symm
  refine ⟨d, ?_, (congrArg (fun result => result.2.1) hresult).symm⟩
  rw [htext]
  exact leads_of_expand r.tags.1 r.files _ _ _ _ _ hrun []

/-- What has been expanded of the template is how the page begins, unless a line to come is not
text. -/
theorem exists_text_eq {reading : Template.Reading} {d : Desk Memory}
    (hleads : Leads r.tags.1 r.files (r.start c) ⟨.read reading, [], d⟩)
    (hrest : ∀ e, .error e ∉ reading.rest) : ∃ behind, r.text c = reading.done ++ behind := by
  obtain ⟨d', hend, -⟩ := r.leads_text c
  exact exists_of_leads_read hrest (hleads.to_end hend rfl)

/-- Renderings of one template for one day, with tags that serve one archive, begin alike. -/
theorem start_alike (h : Serves archive c policy r.tags) (h' : Serves archive c policy r'.tags)
    (hused : r.tags.1.memory.used = r'.tags.1.memory.used) (htemplate : r'.template = r.template)
    (htoday : r'.today = r.today) (hdate : r'.date = r.date) :
    (r.start c).Alike (Memory.Alike archive) (r'.start c) := by
  refine ⟨?_, .nil, ?_⟩
  · rw [start, start, htemplate]
    exact .same nofun ⟨hused, h.sound, h'.sound⟩
  · show PageTags.session c r'.today r'.date = PageTags.session c r.today r.date
    rw [htoday, hdate]

/-- **What a page depends on.** -/
theorem text_eq (h : Serves archive c policy r.tags) (h' : Serves archive c policy r'.tags)
    (hused : r.tags.1.memory.used = r'.tags.1.memory.used) (htemplate : r'.template = r.template)
    (htoday : r'.today = r.today) (hdate : r'.date = r.date)
    (hwd : r'.files.workingDir = r.files.workingDir)
    (hread : ∀ path, r.LooksUp c path → r'.files.read path = r.files.read path) :
    r'.text c = r.text c := by
  obtain ⟨d, hleads, -⟩ := r.leads_text c
  obtain ⟨d', hleads', -⟩ := r'.leads_text c
  obtain ⟨d'', hmatched, -⟩ :=
    (start_alike h h' hused htemplate htoday hdate).answer h.respects
      (h'.handlers.trans h.handlers.symm) (h'.policy.trans h.policy.symm) hwd
      (fun path stack d hload => hread path ⟨stack, d, hload⟩) hleads
  have hend := hleads'.unique hmatched rfl rfl
  injection hend with htask
  injection htask

/-- The text is the same in trees that hold the same where something is looked up. -/
theorem text_eq_of_agreeOff {X : Location → Prop} (h : Serves archive c policy r.tags)
    (h' : Serves archive c policy r'.tags) (hused : r.tags.1.memory.used = r'.tags.1.memory.used)
    (htemplate : r'.template = r.template) (htoday : r'.today = r.today) (hdate : r'.date = r.date)
    (hagree : r.files.AgreeOff X r'.files)
    (hlooks : ∀ path, r.LooksUp c path → path.Avoids r.files.workingDir X) :
    r'.text c = r.text c :=
  text_eq h h' hused htemplate htoday hdate hagree.workingDir
    fun path hpath => hagree.read (hlooks path hpath)

/-- The tags go on to serve the archive. -/
theorem serves_tagsAfter (h : Serves archive c policy r.tags) :
    Serves archive c policy (r.tagsAfter c) := by
  obtain ⟨d, hleads, hafter⟩ := r.leads_text c
  obtain ⟨d', hmatched, hmemory⟩ :=
    (start_alike h h rfl rfl rfl rfl).answer h.respects rfl rfl rfl (fun _ _ _ _ => rfl) hleads
  refine ⟨?_, ?_, ?_⟩
  · rw [hafter]
    exact h.handlers
  · rw [hafter]
    exact h.policy
  · rw [hafter]
    exact hmemory.sound

/-- A rendering by itself, with tags that have made no page. -/
def alone (c : Config) (archive : Archive) (policy : UnknownTagPolicy) (files : FileTree)
    (template : Path) (today date : Date) : Rendering :=
  ⟨PageTags.ofArchive Memory.whole .blank archive c policy, files, template, today, date⟩

/-- New tags serve their archive, and have used up no file. -/
theorem serves_alone (c : Config) (archive : Archive) (policy : UnknownTagPolicy)
    (files : FileTree) (template : Path) (today date : Date) :
    let tags := (alone c archive policy files template today date).tags
    Serves archive c policy tags ∧ tags.1.memory.used = 0 :=
  ⟨serves_ofArchive archive c policy, congrArg Memory.used (memory_registry archive c policy)⟩

/-- By itself a template gives the same page in trees that hold the same where something is looked
up. -/
theorem text_alone_eq {files files' : FileTree} {X : Location → Prop} {template : Path}
    {today date : Date} (hagree : files.AgreeOff X files')
    (hlooks : ∀ path, (alone c archive policy files template today date).LooksUp c path →
      path.Avoids files.workingDir X) :
    (alone c archive policy files' template today date).text c =
      (alone c archive policy files template today date).text c := by
  obtain ⟨hserves, hused⟩ := serves_alone c archive policy files template today date
  obtain ⟨hserves', hused'⟩ := serves_alone c archive policy files' template today date
  exact text_eq_of_agreeOff hserves hserves' (hused.trans hused'.symm) rfl rfl rfl hagree hlooks

end Rendering

/-- A page by itself is rendered for the day that is asked for, or the latest that is live. -/
theorem renderFile_eq (c : Config) (files : FileTree) (template : Path) (date? : Option Date)
    (today : Date) (policy : UnknownTagPolicy) :
    renderFile c files template date? today policy =
      if files.isFile (templatePath c files template) then
        (liveArchive c files today).map fun archive =>
          (Rendering.alone c archive policy files (templatePath c files template) today
            ((date?.or (archive.last?.map Prod.fst)).getD today)).text c
      else .error (.templateMissing (templatePath c files template)) := by
  unfold renderFile
  dsimp only
  split
  · cases liveArchive c files today <;> rfl
  · rfl

end Webcomic.Site
