import Webcomic.Proofs.Site.Independence
import Webcomic.Proofs.Site.Lockstep

/-!
# Comics of the future do not show

Two trees that differ only in comics that are dated after today (`DifferLater`) are published alike
as of today, and each page by itself is the same on both.

A run goes in step on both trees (`inStep_publish`): the directories list different entries, but the
same files are due, so the same are moved, and the same comics are live, so the same pages are made
from the same archive. No step looks at a hidden location, so each has the same outcome on both
trees, and none changes a hidden location.

A run that fails tells of the pages before the one that could not be written, so these are counted
as well (`inStep_writeDailies`, `told_eq`). `future_comics_hidden` is both statements.
-/

namespace Webcomic.Site

open Calendar Files Template Archive

variable {c : Config} {today date latest : Date} {archive : Archive} {tags tags' : PageTags Memory}
  {a b t t' : FileTree} {X : Location → Prop} {dates : List Date} {page : Page}
  {entries : List (String × Node)} {upload comics : Path} {names : List String}

/-! ## Pages -/

/-- A page whose file and whose templates avoid some locations. -/
def Page.Avoids (c : Config) (X : Location → Prop) (page : Page) : Prop :=
  page.target.Avoids page.rendering.files.workingDir X ∧
    ∀ path, page.rendering.LooksUp c path → path.Avoids page.rendering.files.workingDir X

/-- A daily page is written in both trees or in none. -/
theorem write_dailyPage (h : FileTree.Twins X a b t t') (hserve : BothServe archive c tags tags')
    (hpage : (dailyPage c today tags t date).Avoids c X) :
    (∃ s s',
      t.write (c.dailyPath date) ((dailyPage c today tags t date).content c) = .ok s ∧
      t'.write (c.dailyPath date) ((dailyPage c today tags' t' date).content c) = .ok s' ∧
      FileTree.Twins X a b s s') ∨
    ∃ fault,
      t.write (c.dailyPath date) ((dailyPage c today tags t date).content c) = .error fault ∧
      t'.write (c.dailyPath date) ((dailyPage c today tags' t' date).content c) = .error fault := by
  rw [content_dailyPage_eq hserve h.agree hpage.2]
  exact h.write hpage.1 _

/-- Daily pages are written in step, and as many of them. -/
theorem inStep_writeDailies (h : FileTree.Twins X a b t t')
    (hserve : BothServe archive c tags tags')
    (hpages : ∀ page ∈ dailyPages c today tags t dates, page.Avoids c X) :
    Change.InStep (FileTree.Twins X a b) (BothServe archive c)
        ((writeDailies c today tags dates).perform t)
        ((writeDailies c today tags' dates).perform t') ∧
      (dailyPages c today tags t dates).countP (Page.isWritten c) =
        (dailyPages c today tags' t' dates).countP (Page.isWritten c) := by
  induction dates generalizing tags tags' t t' with
  | nil => exact ⟨.pure hserve h, rfl⟩
  | cons date dates ih =>
    have hpage : (dailyPage c today tags t date).Avoids c X := by
      refine hpages _ ?_
      unfold dailyPages
      exact List.mem_cons_self
    rw [writeDailies, writeDailies, List.foldlM_cons, List.foldlM_cons, Change.perform_bind,
      Change.perform_bind, perform_writeDaily, perform_writeDaily]
    -- the pages have one content, so both are written or neither is
    rcases write_dailyPage h hserve hpage with ⟨s, s', hs, hs', hT⟩ | ⟨fault, hf, hf'⟩
    · rw [dailyPages_cons hs] at hpages
      obtain ⟨hrest, hcount⟩ := ih hT (bothServe_dailyPage hserve today date _ _)
        fun page hmem => hpages page (List.mem_cons_of_mem _ hmem)
      rw [hs, hs', dailyPages_cons hs, dailyPages_cons hs', List.countP_cons, List.countP_cons,
        isWritten_dailyPage hs, isWritten_dailyPage hs', hcount]
      exact ⟨hrest, rfl⟩
    · rw [hf, hf', dailyPages_cons_of_error hf, dailyPages_cons_of_error hf',
        List.countP_singleton, List.countP_singleton, isWritten_dailyPage hf,
        isWritten_dailyPage hf']
      exact ⟨.error _ h, rfl⟩

/-- The front page is written in step. -/
theorem inStep_writeIndex (h : FileTree.Twins X a b t t') (hserve : BothServe archive c tags tags')
    (htemplate : c.indexTemplatePath.Avoids t.workingDir X)
    (hpage : t.isFile c.indexTemplatePath = true →
      (frontPage c today tags t latest).Avoids c X) :
    Change.InStep (FileTree.Twins X a b) Eq ((writeIndex c today tags latest).perform t)
      ((writeIndex c today tags' latest).perform t') := by
  rw [perform_writeIndex, perform_writeIndex, h.agree.isFile htemplate]
  split
  next hfile =>
    rw [content_frontPage_eq hserve h.agree (hpage hfile).2]
    rcases h.write (hpage hfile).1 ((frontPage c today tags t latest).content c) with
      ⟨s, s', hs, hs', hT⟩ | ⟨fault, hf, hf'⟩
    · have hs : t.write c.indexPath _ = .ok s := hs
      have hs' : t'.write c.indexPath _ = .ok s' := hs'
      rw [hs, hs']
      exact .ok rfl hT
    · have hf : t.write c.indexPath _ = .error fault := hf
      have hf' : t'.write c.indexPath _ = .error fault := hf'
      rw [hf, hf']
      exact .error _ h
  · exact .ok rfl h

/-! ## Trees that differ in the future -/

/-- Two trees that differ only in entries of the comics and upload directories that are dated after
a day. What else the trees hold is the same and listed in the same order. -/
structure DifferLater (c : Config) (today : Date) (hidden : Location → Bool) (a b : FileTree) :
    Prop where
  workingDir : b.workingDir = a.workingDir
  entries : ∀ dir, (b.discard hidden).entries dir = (a.discard hidden).entries dir
  later : ∀ loc, hidden loc = true → ∃ name date,
    (loc = (c.directory .comics).locate a.workingDir ++ [name] ∨
      loc = (c.directory .upload).locate a.workingDir ++ [name]) ∧
    dateOfName? name = some date ∧ today < date
  named : a.Named

/-- The directories that a run makes and the templates that it asks for avoid some locations. -/
structure Config.Avoids (c : Config) (wd : Location) (X : Location → Prop) : Prop where
  comics : (c.directory .comics).Avoids wd X
  upload : (c.directory .upload).Avoids wd X
  daily : (c.directory .daily).Avoids wd X
  dailyTemplate : c.dailyTemplatePath.Avoids wd X
  indexTemplate : c.indexTemplatePath.Avoids wd X

namespace DifferLater

variable {hidden : Location → Bool} (h : DifferLater c today hidden a b)
include h

theorem agreeOff : a.AgreeOff (hidden · = true) b := by
  refine ⟨h.workingDir, fun loc hloc => ?_⟩
  cases hlast : loc.getLast? with
  | none =>
    obtain rfl := List.getLast?_eq_none_iff.mp hlast
    rfl
  | some name =>
    obtain ⟨dir, rfl⟩ := List.getLast?_eq_some_iff.mp hlast
    -- a location that is not hidden is seen in the listing of its directory
    have hlisted : ∀ t : FileTree, ∀ node,
        (name, node) ∈ (t.discard hidden).entries dir ↔ t.node? (dir ++ [name]) = some node := by
      intro t node
      rw [FileTree.entries_discard, List.mem_filter, FileTree.mem_entries]
      simp [hloc]
    refine Option.ext fun node => ?_
    rw [← hlisted, ← hlisted, h.entries]

/-- An entry that is dated no later is not hidden. -/
theorem not_hidden {dir : Location} {name : String} (hdate : dateOfName? name = some date)
    (hlive : date ≤ today) : ¬ hidden (dir ++ [name]) = true := by
  intro hhidden
  obtain ⟨name', date', hloc, hdate', hlater⟩ := h.later _ hhidden
  have hname : name = name' := by
    rcases hloc with hloc | hloc
    · exact List.singleton_inj.mp (List.append_inj' hloc rfl).2
    · exact List.singleton_inj.mp (List.append_inj' hloc rfl).2
  subst hname
  rw [hdate] at hdate'
  obtain rfl := Option.some.inj hdate'
  exact absurd hlive hlater.not_ge

/-- The same files are due. -/
theorem staged_eq : staged c today b = staged c today a := by
  have hdue : ∀ t : FileTree, ∀ dir,
      dueFiles today ((t.discard hidden).entries dir) = dueFiles today (t.entries dir) := by
    intro t dir
    rw [FileTree.entries_discard]
    refine dueFiles_filter fun entry hentry date hdate => ?_
    rw [Bool.not_eq_false'] at hentry
    exact not_le.mp fun hlive => h.not_hidden hdate hlive hentry
  rw [staged, staged, ← hdue b, ← hdue a, h.workingDir, h.entries]

/-- Neither the place of a due file nor its new one is hidden. -/
theorem avoids_join {base : Path} {wd : Location} {name : String} (hname : name ∈ staged c today a)
    (hbase : base.Avoids wd (hidden · = true)) : (base.join name).Avoids wd (hidden · = true) := by
  obtain ⟨⟨content, hnode⟩, date, hdate, hlive⟩ := mem_staged.mp hname
  intro loc hloc
  rw [Path.lookups_join (h.named _ _ _ hnode), List.mem_append, List.mem_singleton] at hloc
  rcases hloc with hloc | rfl
  · exact hbase loc hloc
  · exact h.not_hidden hdate hlive

/-- The live comics of a directory are the same. -/
theorem upTo_ofEntries_eq (hagree : t.AgreeOff (hidden · = true) t') (dir : Location) :
    (ofEntries (t'.entries dir)).upTo today = (ofEntries (t.entries dir)).upTo today := by
  refine upTo_ofEntries_congr (t'.nodup_entries _) (t.nodup_entries _) ?_
  intro name date hdate hlive
  simp only [FileTree.mem_entries, hagree.node _ (h.not_hidden hdate hlive)]

/-- The live archives of both trees are read, and the same, or neither is. -/
theorem read_archive (hagree : t.AgreeOff (hidden · = true) t') {dir : Path}
    (hdir : dir.Avoids t.workingDir (hidden · = true)) :
    (∃ archive archive', Archive.read t dir = .ok archive ∧ Archive.read t' dir = .ok archive' ∧
      archive'.upTo today = archive.upTo today) ∨
    ∃ fault, Archive.read t dir = .error fault ∧ Archive.read t' dir = .error fault := by
  rcases hagree.list hdir with ⟨hok, hok'⟩ | ⟨fault, hf, hf'⟩
  · rw [Archive.read, Archive.read, hok, hok']
    exact .inl ⟨_, _, rfl, rfl, h.upTo_ofEntries_eq hagree _⟩
  · rw [Archive.read, Archive.read, hf, hf']
    exact .inr ⟨fault, rfl, rfl⟩

theorem liveArchive_eq (hc : c.Avoids a.workingDir (hidden · = true)) :
    liveArchive c b today = liveArchive c a today := by
  unfold liveArchive
  dsimp only
  rw [h.agreeOff.isDirectory hc.comics]
  rcases h.read_archive h.agreeOff hc.comics with ⟨archive, archive', hok, hok', hlive⟩ |
    ⟨fault, hf, hf'⟩
  · rw [hok, hok']
    split
    · exact congrArg Except.ok hlive
    · rfl
  · rw [hf, hf']

end DifferLater

/-! ## Preparation -/

/-- Files are moved in step. -/
theorem inStep_moveFiles (h : FileTree.Twins X a b t t')
    (hnames : ∀ name ∈ names, (upload.join name).Avoids t.workingDir X ∧
      (comics.join name).Avoids t.workingDir X) :
    Change.InStep (FileTree.Twins X a b) Eq
      ((names.forM (moveFile upload comics)).perform t)
      ((names.forM (moveFile upload comics)).perform t') := by
  induction names generalizing t t' with
  | nil => exact .pure rfl h
  | cons name names ih =>
    obtain ⟨hsource, htarget⟩ := hnames name List.mem_cons_self
    have hmove : Change.InStep (FileTree.Twins X a b) Eq ((moveFile upload comics name).perform t)
        ((moveFile upload comics name).perform t') := by
      refine .step h ?_
      rcases h.move hsource htarget with ⟨s, s', hs, hs', hT⟩ | ⟨fault, hf, hf'⟩
      · rw [hs, hs']
        exact .inl ⟨s, s', rfl, rfl, hT⟩
      · rw [hf, hf']
        exact .inr ⟨_, rfl, rfl⟩
    refine hmove.bind fun _ _ s s' _ _ _ hT => ih hT ?_
    rw [hT.left.workingDir, ← h.left.workingDir]
    exact fun name' hname' => hnames name' (List.mem_cons_of_mem _ hname')

section

variable {hidden : Location → Bool} (h : DifferLater c today hidden a b)
  (hc : c.Avoids a.workingDir (hidden · = true))
include h hc

/-- Due files are promoted in step. -/
theorem inStep_promote :
    Change.InStep (FileTree.Twins (hidden · = true) a b) Eq
      ((promote (c.directory .upload) (c.directory .comics) today).perform a)
      ((promote (c.directory .upload) (c.directory .comics) today).perform b) := by
  have htwins := FileTree.Twins.refl h.agreeOff
  rw [promote_eq, Change.perform_bind, Change.perform_bind, Change.perform_get, Change.perform_get]
  dsimp only
  rw [h.agreeOff.same hc.upload hc.comics]
  split
  · exact .pure rfl htwins
  refine (Change.InStep.makeDirectories htwins hc.comics).bind fun _ _ t t' hmake hmake' _ hT => ?_
  have hgrown := FileTree.grown_makeDirectories a (c.directory .comics)
  have hgrown' := FileTree.grown_makeDirectories b (c.directory .comics)
  rw [(Change.makeDirectories_eq_ok hmake).1] at hgrown
  rw [(Change.makeDirectories_eq_ok hmake').1] at hgrown'
  have hwd := hgrown.workingDir
  -- the listings can differ, but the same files are due in both
  have hlist : Change.InStep (FileTree.Twins (hidden · = true) a b)
      (fun listing listing' => dueFiles today listing = staged c today a ∧
        dueFiles today listing' = staged c today a)
      ((Change.look (·.list (c.directory .upload))).perform t)
      ((Change.look (·.list (c.directory .upload))).perform t') := by
    refine .look hT ?_
    rcases hT.agree.list (hwd ▸ hc.upload) with ⟨hok, hok'⟩ | hfault
    · refine .inl ⟨_, _, hok, hok', ?_, ?_⟩
      · exact staged_of_grown hgrown
      · rw [← hT.agree.workingDir]
        exact (staged_of_grown hgrown').trans h.staged_eq
    · exact .inr hfault
  refine hlist.bind fun listing listing' s s' _ _ hdue hT' => ?_
  rw [hdue.1, hdue.2]
  let move := moveFile (c.directory .upload) (c.directory .comics)
  have hmoves : Change.InStep (FileTree.Twins (hidden · = true) a b) Eq
      (((staged c today a).forM move).perform s) (((staged c today a).forM move).perform s') := by
    refine inStep_moveFiles hT' fun name hname => ?_
    rw [hT'.left.workingDir]
    exact ⟨h.avoids_join hname hc.upload, h.avoids_join hname hc.comics⟩
  exact hmoves.bind fun _ _ _ _ _ _ _ hT => .pure rfl hT

/-- A run is prepared in step. -/
theorem inStep_prepare :
    Change.InStep (FileTree.Twins (hidden · = true) a b) Eq ((prepare c today).perform a)
      ((prepare c today).perform b) := by
  have htwins := FileTree.Twins.refl h.agreeOff
  rw [prepare, Change.perform_bind, Change.perform_bind, Change.perform_get, Change.perform_get]
  dsimp only
  rw [h.agreeOff.isFile hc.dailyTemplate]
  split
  · exact .throw _ htwins
  refine (inStep_promote h hc).bind fun n n' t t' _ _ hn hT => ?_
  -- archives may differ in what is dated later, which is cut off at once
  have hread : Change.InStep (FileTree.Twins (hidden · = true) a b)
      (fun archive archive' : Archive => archive'.upTo today = archive.upTo today)
      ((Change.look (Archive.read · (c.directory .comics))).perform t)
      ((Change.look (Archive.read · (c.directory .comics))).perform t') := by
    refine .look hT (h.read_archive hT.agree ?_)
    rw [hT.left.workingDir]
    exact hc.comics
  refine hread.bind fun archive archive' s s' _ _ harchive hT' => ?_
  rw [harchive, hn]
  split
  · exact .throw _ hT'
  · refine (Change.InStep.makeDirectories hT' ?_).bind fun _ _ _ _ _ _ _ hT => .pure rfl hT
    rw [hT'.left.workingDir]
    exact hc.daily

end

/-! ## Publishing -/

section

variable {hidden : Location → Bool} (h : DifferLater c today hidden a b)
  (hc : c.Avoids a.workingDir (hidden · = true))
include h hc

/-- A run goes in step. -/
theorem inStep_publish (hpages : ∀ page ∈ pages c today a, page.Avoids c (hidden · = true)) :
    Change.InStep (FileTree.Twins (hidden · = true) a b) Eq
      ((publishWithProgress c today).perform a) ((publishWithProgress c today).perform b) := by
  rw [publishWithProgress_eq]
  refine (inStep_prepare h hc).bind fun edition _ t t' hprepare _ heq hT => ?_
  subst heq
  rw [pages_of_prepare hprepare] at hpages
  have hdaily : ∀ page ∈ dailyPages c today (firstTags c edition.archive) t edition.archive.dates,
      page.Avoids c (hidden · = true) :=
    fun page hpage => hpages page (List.mem_append_left _ hpage)
  have hdailies := inStep_writeDailies hT (bothServe_firstTags c edition.archive) hdaily
  refine hdailies.1.bind fun tags tags' s s' hwritten _ hserve' hT' => ?_
  -- from here on the front page is the only page to come
  rw [editionPages_eq hwritten] at hpages
  refine (inStep_writeIndex hT' hserve' ?_ fun hfile => ?_).bind
    fun indexWritten _ _ _ _ _ heq hT'' => ?_
  · rw [hT'.left.workingDir]
    exact hc.indexTemplate
  · refine hpages _ (List.mem_append_right _ ?_)
    rw [frontPage?, if_pos hfile]
    exact List.mem_cons_self
  · subst heq
    exact .pure rfl hT''

theorem told_eq (hpages : ∀ page ∈ pages c today a, page.Avoids c (hidden · = true)) :
    told c today b = told c today a := by
  have hprepare := inStep_prepare h hc
  generalize hp : (prepare c today).perform a = outcome at hprepare
  generalize hq : (prepare c today).perform b = outcome' at hprepare
  cases hprepare with
  | error e hT => rw [told_of_prepare_error hp, told_of_prepare_error hq]
  | @ok edition _ t t' heq hT =>
    subst heq
    rw [pages_of_prepare hp] at hpages
    have hdaily : ∀ page ∈ dailyPages c today (firstTags c edition.archive) t edition.archive.dates,
        page.Avoids c (hidden · = true) :=
      fun page hpage => hpages page (List.mem_append_left _ hpage)
    have hdailies := inStep_writeDailies hT (bothServe_firstTags c edition.archive) hdaily
    rw [told_of_prepare hp, told_of_prepare hq, hdailies.2]

/-- A page by itself is the same. -/
theorem renderFile_eq_of_differLater (template : Path) (date? : Option Date)
    (policy : UnknownTagPolicy) (hwritten : template.Avoids a.workingDir (hidden · = true))
    (htemplate : (templatePath c a template).Avoids a.workingDir (hidden · = true))
    (hlooks : ∀ archive, liveArchive c a today = .ok archive → ∀ path,
      (Rendering.alone c archive policy a (templatePath c a template) today
        ((date?.or (archive.last?.map Prod.fst)).getD today)).LooksUp c path →
      path.Avoids a.workingDir (hidden · = true)) :
    renderFile c b template date? today policy = renderFile c a template date? today policy := by
  have hpath : templatePath c b template = templatePath c a template := by
    rw [templatePath, templatePath, h.agreeOff.isFile hwritten]
  rw [renderFile_eq, renderFile_eq, hpath, h.agreeOff.isFile htemplate, h.liveArchive_eq hc]
  cases harchive : liveArchive c a today with
  | error e => simp only [Except.map]
  | ok archive =>
    have htext := Rendering.text_alone_eq h.agreeOff (hlooks archive harchive)
    simp only [Except.map, htext]

end

/-- **Comics of the future do not show**, neither in what a run does nor in a page by itself. Two
trees that differ only in comics of the comics and upload directories that are dated after a day are
published alike as of that day: with the same report or the same error, telling the same progress
and writing the same pages, and the hidden comics stay where they are. And each template gives the
same page or the same error on both, for every day and whatever is done about unknown tags. What is
looked up on the way must not be hidden itself. -/
theorem future_comics_hidden {hidden : Location → Bool} (h : DifferLater c today hidden a b)
    (hc : c.Avoids a.workingDir (hidden · = true)) :
    ((∀ page ∈ pages c today a, page.Avoids c (hidden · = true)) →
      ((publishWithProgress c today).perform b).1 = ((publishWithProgress c today).perform a).1 ∧
      told c today b = told c today a ∧
      ((publishWithProgress c today).perform a).2.AgreeOff (hidden · = true)
        ((publishWithProgress c today).perform b).2 ∧
      ∀ loc, hidden loc = true →
        ((publishWithProgress c today).perform a).2.node? loc = a.node? loc ∧
        ((publishWithProgress c today).perform b).2.node? loc = b.node? loc) ∧
    ∀ (template : Path) (date? : Option Date) (policy : UnknownTagPolicy),
      template.Avoids a.workingDir (hidden · = true) →
      (templatePath c a template).Avoids a.workingDir (hidden · = true) →
      (∀ archive, liveArchive c a today = .ok archive → ∀ path,
        (Rendering.alone c archive policy a (templatePath c a template) today
          ((date?.or (archive.last?.map Prod.fst)).getD today)).LooksUp c path →
        path.Avoids a.workingDir (hidden · = true)) →
      renderFile c b template date? today policy = renderFile c a template date? today policy := by
  constructor
  · intro hpages
    obtain ⟨houtcome, hT⟩ := (inStep_publish h hc hpages).eq_outcome
    refine ⟨houtcome, told_eq h hc hpages, hT.agree, fun loc hloc => ⟨?_, ?_⟩⟩
    · exact hT.left.node loc (not_not_intro hloc)
    · exact hT.right.node loc (not_not_intro hloc)
  · exact fun template date? policy => renderFile_eq_of_differLater h hc template date? policy

/-! The site of `twoComics`, with a comic of the next day staged and a later one live already. -/

def thirdDay : Date := ⟨2024, 1, 3, by decide⟩

def fourComics : FileTree where
  workingDir := []
  nodes :=
    twoComics.nodes ++
      [(["up", "20240103.png"], .file "c".toUTF8), (["comics", "20240104.png"], .file "d".toUTF8)]
  distinct := by decide

/-- The comics that only `fourComics` holds. -/
def laterComics (loc : Location) : Bool :=
  loc = ["up", "20240103.png"] ∨ loc = ["comics", "20240104.png"]

/-- The comics of the third and fourth day do not show on the second, not even on the page of the
third day. -/
theorem future_comics_hidden_four_comics :
    DifferLater stagedSite secondDay laterComics twoComics fourComics ∧
    stagedSite.Avoids [] (laterComics · = true) ∧
    (∀ page ∈ pages stagedSite secondDay twoComics,
      page.Avoids stagedSite (laterComics · = true)) ∧
    (((publishWithProgress stagedSite secondDay).perform fourComics).1 =
        ((publishWithProgress stagedSite secondDay).perform twoComics).1 ∧
      told stagedSite secondDay fourComics = told stagedSite secondDay twoComics ∧
      ((publishWithProgress stagedSite secondDay).perform twoComics).2.AgreeOff
        (laterComics · = true) ((publishWithProgress stagedSite secondDay).perform fourComics).2 ∧
      ∀ loc, laterComics loc = true →
        ((publishWithProgress stagedSite secondDay).perform twoComics).2.node? loc =
          twoComics.node? loc ∧
        ((publishWithProgress stagedSite secondDay).perform fourComics).2.node? loc =
          fourComics.node? loc) ∧
    Path.Avoids [] (laterComics · = true) "index.html" ∧
    (templatePath stagedSite twoComics "index.html").Avoids [] (laterComics · = true) ∧
    (∀ archive, liveArchive stagedSite twoComics secondDay = .ok archive → ∀ path,
      (Rendering.alone stagedSite archive .echo twoComics
        (templatePath stagedSite twoComics "index.html") secondDay thirdDay).LooksUp stagedSite
          path → path.Avoids [] (laterComics · = true)) ∧
    renderFile stagedSite fourComics "index.html" (some thirdDay) secondDay .echo =
      renderFile stagedSite twoComics "index.html" (some thirdDay) secondDay .echo := by
  have hdiscard : fourComics.discard laterComics = twoComics.discard laterComics := by
    decide +kernel
  have hdiffer : DifferLater stagedSite secondDay laterComics twoComics fourComics := by
    refine ⟨rfl, fun dir => by rw [hdiscard], ?_, by decide +kernel⟩
    intro loc hloc
    rcases of_decide_eq_true hloc with rfl | rfl
    · exact ⟨"20240103.png", thirdDay, .inr (by decide +kernel), by decide +kernel, by decide⟩
    · exact ⟨"20240104.png", ⟨2024, 1, 4, by decide⟩, .inl (by decide +kernel), by decide +kernel,
        by decide⟩
  have hc : stagedSite.Avoids [] (laterComics · = true) :=
    ⟨by decide +kernel, by decide +kernel, by decide +kernel, by decide +kernel, by decide +kernel⟩
  have hpages : ∀ page ∈ pages stagedSite secondDay twoComics,
      page.Avoids stagedSite (laterComics · = true) := by
    have hlookedUp : ∀ page ∈ pages stagedSite secondDay twoComics,
        page.target.Avoids page.rendering.files.workingDir (laterComics · = true) ∧
          ∃ paths ∈ page.rendering.lookedUp stagedSite 50, ∀ path ∈ paths,
            path.Avoids page.rendering.files.workingDir (laterComics · = true) := by
      decide +kernel
    intro page hpage
    obtain ⟨htarget, paths, hpaths, havoids⟩ := hlookedUp page hpage
    exact ⟨htarget, fun path hpath => havoids path (hpath.mem_lookedUp hpaths)⟩
  have htemplate : Path.Avoids [] (laterComics · = true) "index.html" := by decide +kernel
  have hpath : (templatePath stagedSite twoComics "index.html").Avoids []
      (laterComics · = true) := by
    decide +kernel
  have hlooks : ∀ archive, liveArchive stagedSite twoComics secondDay = .ok archive → ∀ path,
      (Rendering.alone stagedSite archive .echo twoComics
        (templatePath stagedSite twoComics "index.html") secondDay thirdDay).LooksUp stagedSite
          path → path.Avoids [] (laterComics · = true) := by
    have hlookedUp : ∀ archive ∈ (liveArchive stagedSite twoComics secondDay).toOption,
        ∃ paths ∈ (Rendering.alone stagedSite archive .echo twoComics
          (templatePath stagedSite twoComics "index.html") secondDay thirdDay).lookedUp
            stagedSite 50,
          ∀ path ∈ paths, path.Avoids [] (laterComics · = true) := by
      decide +kernel
    intro archive harchive path hlooked
    obtain ⟨paths, hpaths, havoids⟩ := hlookedUp archive (by rw [harchive]; rfl)
    exact havoids path (hlooked.mem_lookedUp hpaths)
  obtain ⟨hrun, hrender⟩ := future_comics_hidden hdiffer hc
  exact ⟨hdiffer, hc, hpages, hrun hpages, htemplate, hpath, hlooks,
    hrender "index.html" (some thirdDay) .echo htemplate hpath hlooks⟩

end Webcomic.Site
