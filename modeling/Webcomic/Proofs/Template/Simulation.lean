import Mathlib.Data.List.Forall2
import Webcomic.Proofs.Template.Agreement

/-!
# Expansions that give the same

Two expansions can differ in what their handlers remember and in what the trees hold that no one
reads, and still give the same text. What is remembered is compared by a relation `R`; a handler
**respects** it if, from memories that `R` relates, it asks for the same, replies the same and
leaves memories that `R` relates. It need not remember in the same steps: a link that was worked out
before is not worked out again. So the moments of one expansion are matched with those of the other
up to steps in which a handler recollects or remembers (`Script.Alike`).

`Moment.Alike.leads` matches every moment of one expansion with one of the other, as long as the
files that the first loads read the same in both trees. So the same files are loaded, and the same
text is the answer.
-/

namespace Webcomic.Template

open Calendar Files

variable {M : Type} {R : M → M → Prop} {tags tags' : Registry M} {files files' : FileTree}

/-! ## Alike scripts -/

/-- Two scripts, each with its memory, ask for the same and reply the same, whatever they are
answered. -/
inductive Script.Alike (R : M → M → Prop) : Script M → M → Script M → M → Prop where
  | reply {text : String} {m m' : M} : R m m' → Alike R (.reply text) m (.reply text) m'
  | look {next next' : Session → Script M} {m m' : M} :
      (∀ s, Alike R (next s) m (next' s) m') → Alike R (.look next) m (.look next') m'
  | isOpen {path : Path} {next next' : Bool → Script M} {m m' : M} :
      (∀ b, Alike R (next b) m (next' b) m') → Alike R (.isOpen path next) m (.isOpen path next') m'
  | turnTo {date : Date} {next next' : Script M} {m m' : M} :
      Alike R next m next' m' → Alike R (.turnTo date next) m (.turnTo date next') m'
  | expand {request : Request} {next next' : String → Script M} {m m' : M} : R m m' →
      (∀ text n n', R n n' → Alike R (next text) n (next' text) n') →
      Alike R (.expand request next) m (.expand request next') m'
  | recollectLeft {next : M → Script M} {script : Script M} {m m' : M} :
      Alike R (next m) m script m' → Alike R (.recollect next) m script m'
  | recollectRight {next : M → Script M} {script : Script M} {m m' : M} :
      Alike R script m (next m') m' → Alike R script m (.recollect next) m'
  | rememberLeft {next script : Script M} {m m' n : M} :
      Alike R next n script m' → Alike R (.remember n next) m script m'
  | rememberRight {next script : Script M} {m m' n : M} :
      Alike R script m next n → Alike R script m (.remember n next) m'

/-- A handler that does the same from memories that are related, and leaves them so. -/
def Handler.Respects (R : M → M → Prop) (h : Handler M) : Prop :=
  ∀ marker m m', R m m' → Script.Alike R (h.handle marker) m (h.handle marker) m'

/-- A registry of such handlers. -/
def Registry.Respects (R : M → M → Prop) (r : Registry M) : Prop :=
  ∀ name handler, (name, handler) ∈ r.handlers → handler.Respects R

/-! ## Alike moments -/

/-- The same text or file waits for a reply, or alike handlers wait for what they asked for. -/
inductive Frame.Alike (R : M → M → Prop) : Frame M → Frame M → Prop where
  | reading (r : Reading) : Alike R (.reading r) (.reading r)
  | script {next next' : String → Script M} :
      (∀ text n n', R n n' → Script.Alike R (next text) n (next' text) n') →
      Alike R (.script next) (.script next')

/-- The same is done next, from memories that are related. Of scripts only what they come to is
compared. -/
inductive Task.Alike (R : M → M → Prop) : Task M → M → Task M → M → Prop where
  | same {task : Task M} {m m' : M} : (∀ script, task ≠ .perform script) → R m m' →
      Alike R task m task m'
  | perform {script script' : Script M} {m m' : M} : Script.Alike R script m script' m' →
      Alike R (.perform script) m (.perform script') m'

/-- Two moments at which the same is done next in the same session, and the same waits for it. -/
structure Moment.Alike (R : M → M → Prop) (a b : Moment M) : Prop where
  task : Task.Alike R a.task a.desk.memory b.task b.desk.memory
  stack : List.Forall₂ (Frame.Alike R) a.stack b.stack
  session : b.desk.session = a.desk.session

namespace Moment.Alike

variable {a a' b : Moment M} {stack stack' : List (Frame M)} {d d' : Desk M}

/-- A moment that is followed by a matching one has gone on with it. -/
theorem exists_step {b' : Moment M} (hb : b.next? tags' files' = some b') (h : Alike R a' b') :
    ∃ b', Leads tags' files' b b' ∧ Alike R a' b' :=
  ⟨b', .single hb, h⟩

/-! ## Every step is matched -/

theorem go_call {q : Request} {wd : Location} (hm : R d.memory d'.memory)
    (hs : List.Forall₂ (Frame.Alike R) stack stack') (hd : d'.session = d.session) :
    Alike R (q.go wd stack d) (q.go wd stack' d') := by
  cases q with
  | text t => exact ⟨.same nofun hm, hs, hd⟩
  | file path =>
    by_cases hopen : path.locate wd ∈ d.session.openFiles
    · rw [Request.go_of_open stack hopen, Request.go_of_open stack' (hd ▸ hopen)]
      exact ⟨.same nofun hm, hs, hd⟩
    · rw [Request.go_of_not_open stack hopen, Request.go_of_not_open stack' (hd ▸ hopen)]
      exact ⟨.same nofun hm, hs, congrArg (Session.opening · (path.locate wd)) hd⟩

/-- Leaving a call keeps desks alike. -/
theorem session_leave (wd : Location) (source : Request) (hd : d'.session = d.session) :
    (d'.leave wd source).session = (d.leave wd source).session := by
  cases source with
  | text t => exact hd
  | file path => exact congrArg (Session.closing · (path.locate wd)) hd

theorem memory_leave (wd : Location) (source : Request) (d : Desk M) :
    (d.leave wd source).memory = d.memory := by
  cases source <;> rfl

theorem go_load {path : Path} (hwd : files'.workingDir = files.workingDir)
    (hread : files'.read path = files.read path) (hm : R d.memory d'.memory)
    (hs : List.Forall₂ (Frame.Alike R) stack stack') (hd : d'.session = d.session) :
    Alike R (loadFile files path stack d) (loadFile files' path stack' d') := by
  unfold loadFile
  rw [hread, hwd]
  split
  · exact ⟨.same nofun hm, hs, session_leave _ (.file path) hd⟩
  · exact ⟨.same nofun hm, hs, hd⟩

theorem go_read {r : Reading} {wd : Location} (hm : R d.memory d'.memory)
    (hs : List.Forall₂ (Frame.Alike R) stack stack') (hd : d'.session = d.session) :
    Alike R (r.go wd stack d) (r.go wd stack' d') := by
  have hm' : R (d.leave wd r.source).memory (d'.leave wd r.source).memory := by
    rw [memory_leave, memory_leave]
    exact hm
  unfold Reading.go
  split
  · exact ⟨.same nofun hm, .cons (.reading _) hs, hd⟩
  · exact ⟨.same nofun hm', hs, session_leave _ _ hd⟩
  · exact ⟨.same nofun hm, hs, hd⟩
  · exact ⟨.same nofun hm', hs, session_leave _ _ hd⟩

theorem go_replace {m : Marker} (htags : tags.Respects R)
    (hhandlers : tags'.handlers = tags.handlers) (hpolicy : tags'.policy = tags.policy)
    (hm : R d.memory d'.memory) (hs : List.Forall₂ (Frame.Alike R) stack stack')
    (hd : d'.session = d.session) :
    Alike R (replaceMarker tags m stack d) (replaceMarker tags' m stack' d') := by
  unfold replaceMarker Registry.handler?
  rw [hhandlers, hpolicy]
  split
  · exact ⟨.same nofun hm, hs, hd⟩
  · split
    next hhandler =>
      exact ⟨.perform (htags _ _ (Keyed.mem_of_get? hhandler) m _ _ hm), hs, hd⟩
    · split
      · exact ⟨.same nofun hm, hs, hd⟩
      · exact ⟨.same nofun hm, hs, hd⟩

/-- A step of a script is matched by as many steps of the other as it takes, none included. -/
theorem go_perform {script script' : Script M} (hwd : files'.workingDir = files.workingDir)
    (h : Script.Alike R script d.memory script' d'.memory)
    (hs : List.Forall₂ (Frame.Alike R) stack stack') (hd : d'.session = d.session) :
    ∃ b', Leads tags' files' ⟨.perform script', stack', d'⟩ b' ∧
      Alike R (script.go files.workingDir stack d) b' := by
  generalize hm : d.memory = m at h
  generalize hm' : d'.memory = m' at h
  -- on how the scripts are matched; the other one can first go on alone
  induction h generalizing d d' with
  | reply hR =>
    subst hm hm'
    exact exists_step rfl ⟨.same nofun hR, hs, hd⟩
  | @look next next' _ _ hnext _ =>
    subst hm hm'
    exact exists_step rfl ⟨.perform (hd ▸ hnext d.session), hs, hd⟩
  | @isOpen path next next' _ _ hnext _ =>
    subst hm hm'
    refine exists_step rfl ⟨.perform ?_, hs, hd⟩
    rw [hd, hwd]
    exact hnext _
  | @turnTo date _ _ _ _ hnext _ =>
    subst hm hm'
    have hsession := congrArg (fun s : Session => { s with requested := date }) hd
    exact exists_step rfl ⟨.perform hnext, hs, hsession⟩
  | expand hR hnext _ =>
    subst hm hm'
    exact exists_step rfl ⟨.same nofun hR, .cons (.script hnext) hs, hd⟩
  | recollectLeft hnext _ =>
    subst hm hm'
    exact ⟨_, .refl, .perform hnext, hs, hd⟩
  | recollectRight _ ih =>
    subst hm hm'
    obtain ⟨b', hb', halike⟩ := ih hd rfl rfl
    exact ⟨b', .head rfl hb', halike⟩
  | rememberLeft hnext _ =>
    subst hm hm'
    exact ⟨_, .refl, .perform hnext, hs, hd⟩
  | @rememberRight next _ _ _ n _ ih =>
    subst hm
    have hsession : ({ d' with memory := n } : Desk M).session = d.session := hd
    obtain ⟨b', hb', halike⟩ := ih hsession rfl rfl
    exact ⟨b', .head rfl hb', halike⟩

/-- **Every step of one expansion is matched by steps of the other**, if the file that is loaded
reads the same in both trees. -/
theorem next (htags : tags.Respects R) (hhandlers : tags'.handlers = tags.handlers)
    (hpolicy : tags'.policy = tags.policy) (hwd : files'.workingDir = files.workingDir)
    (h : Alike R a b) (hread : ∀ path, a.task = .load path → files'.read path = files.read path)
    (ha : a.next? tags files = some a') : ∃ b', Leads tags' files' b b' ∧ Alike R a' b' := by
  obtain ⟨task, stack, d⟩ := a
  obtain ⟨task', stack', d'⟩ := b
  obtain ⟨htask, hs, hd⟩ := h
  dsimp only at htask hs hd
  -- a script may take the other side any number of steps, everything else takes one
  cases htask with
  | perform hscript =>
    cases ha
    exact go_perform hwd hscript hs hd
  | same hne hm =>
    cases task with
    | call q =>
      cases ha
      exact exists_step rfl (hwd ▸ go_call hm hs hd)
    | load path =>
      cases ha
      exact exists_step rfl (go_load hwd (hread path rfl) hm hs hd)
    | read r =>
      cases ha
      exact exists_step rfl (hwd ▸ go_read hm hs hd)
    | replace m =>
      cases ha
      exact exists_step rfl (go_replace htags hhandlers hpolicy hm hs hd)
    | perform script => exact absurd rfl (hne script)
    | report e =>
      cases ha
      exact exists_step rfl ⟨.same nofun hm, hs, hd⟩
    | answer text =>
      cases hs with
      | nil => cases ha
      | cons hframe hs =>
        cases ha
        cases hframe with
        | reading r => exact exists_step rfl ⟨.same nofun hm, hs, hd⟩
        | script hnext => exact exists_step rfl ⟨.perform (hnext text _ _ hm), hs, hd⟩

/-- **Every moment of one expansion is matched by one of the other**, if the files that are loaded
read the same in both trees. -/
theorem leads (htags : tags.Respects R) (hhandlers : tags'.handlers = tags.handlers)
    (hpolicy : tags'.policy = tags.policy) (hwd : files'.workingDir = files.workingDir)
    (h : Alike R a b)
    (hread : ∀ path stack d, Leads tags files a ⟨.load path, stack, d⟩ →
      files'.read path = files.read path)
    (ha : Leads tags files a a') : ∃ b', Leads tags' files' b b' ∧ Alike R a' b' := by
  induction ha with
  | refl => exact ⟨b, .refl, h⟩
  | @tail a₁ a₂ ha₁ hstep ih =>
    obtain ⟨b₁, hb₁, halike⟩ := ih
    have hload : ∀ path, a₁.task = .load path → files'.read path = files.read path := by
      intro path htask
      obtain ⟨task, stack, d⟩ := a₁
      cases htask
      exact hread path stack d ha₁
    obtain ⟨b₂, hb₂, halike⟩ := halike.next htags hhandlers hpolicy hwd hload hstep
    exact ⟨b₂, hb₁.trans hb₂, halike⟩

/-- **Alike expansions are answered with the same text**, in the same session, and leave memories
that are related. -/
theorem answer (htags : tags.Respects R) (hhandlers : tags'.handlers = tags.handlers)
    (hpolicy : tags'.policy = tags.policy) (hwd : files'.workingDir = files.workingDir)
    (h : Alike R a b)
    (hread : ∀ path stack d, Leads tags files a ⟨.load path, stack, d⟩ →
      files'.read path = files.read path)
    {text : String} (ha : Leads tags files a ⟨.answer text, [], d⟩) :
    ∃ d', Leads tags' files' b ⟨.answer text, [], d'⟩ ∧ R d.memory d'.memory := by
  obtain ⟨⟨task, stack, d'⟩, hb, htask, hs, -⟩ :=
    h.leads htags hhandlers hpolicy hwd hread ha
  cases hs
  cases htask with
  | same _ hm => exact ⟨d', hb, hm⟩

end Moment.Alike

/-! ## The files that are loaded -/

/-- A file is loaded at some moment of an expansion. -/
def Moment.Loads (tags : Registry M) (files : FileTree) (a : Moment M) (path : Path) : Prop :=
  ∃ stack d, Leads tags files a ⟨.load path, stack, d⟩

/-- Whatever an expansion goes through leads to its end. -/
theorem Leads.to_end {a b e : Moment M} (h : Leads tags files a b) (h' : Leads tags files a e)
    (he : e.next? tags files = none) : Leads tags files b e := by
  have hdet : Relator.RightUnique fun x y : Moment M => x.next? tags files = some y :=
    fun x y z hy hz => Option.some.inj (hy.symm.trans hz)
  rcases Relation.ReflTransGen.total_of_right_unique hdet h h' with hbe | heb
  · exact hbe
  · -- nothing comes after the end
    rcases Relation.ReflTransGen.cases_head heb with rfl | ⟨c, hc, -⟩
    · exact .refl
    · rw [he] at hc
      cases hc

/-- An expansion has one end. -/
theorem Leads.unique {a b b' : Moment M} (h : Leads tags files a b) (h' : Leads tags files a b')
    (hb : b.next? tags files = none) (hb' : b'.next? tags files = none) : b = b' := by
  rcases Relation.ReflTransGen.cases_head (h.to_end h' hb') with heq | ⟨c, hc, -⟩
  · exact heq
  · rw [hb] at hc
    cases hc

/-- The files that are loaded in an expansion, in order, if it ends within a number of steps. -/
def Moment.loaded (tags : Registry M) (files : FileTree) : Nat → Moment M → Option (List Path)
  | 0, _ => none
  | n + 1, a =>
    match a.next? tags files with
    | none => some []
    | some b =>
      match a.task with
      | .load path => (b.loaded tags files n).map (path :: ·)
      | _ => b.loaded tags files n

/-- What is loaded is in the list. -/
theorem Moment.Loads.mem_loaded {n : Nat} {a : Moment M} {path : Path} {paths : List Path}
    (h : a.Loads tags files path) (hn : a.loaded tags files n = some paths) : path ∈ paths := by
  obtain ⟨stack, d, hleads⟩ := h
  induction n generalizing a paths with
  | zero => cases hn
  | succ n ih =>
    unfold Moment.loaded at hn
    rcases Relation.ReflTransGen.cases_head hleads with rfl | ⟨b, hb, hrest⟩
    · -- it is loaded now
      change Option.map (path :: ·) _ = some paths at hn
      obtain ⟨rest, -, rfl⟩ := Option.map_eq_some_iff.mp hn
      exact List.mem_cons_self
    · -- it is loaded later, and what is loaded now stands before it
      rw [hb] at hn
      dsimp only at hn
      split at hn
      · obtain ⟨rest, hpaths, rfl⟩ := Option.map_eq_some_iff.mp hn
        exact List.mem_cons_of_mem _ (ih hpaths hrest)
      · exact ih hn hrest

end Webcomic.Template
