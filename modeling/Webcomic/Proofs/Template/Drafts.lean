import Webcomic.Proofs.Marker.Captures
import Webcomic.Proofs.Template.Simulation
import Webcomic.Proofs.Template.Turns

/-!
# What the policy for unknown tags changes

Two registries with the same handlers echo the markers of unknown tags and report them. An expansion
with the one goes step by step like an expansion with the other: the same markers are handed over in
the same texts and files, and their handlers find the same (`Moment.handover?`). What is written
differs only where an unknown tag has stood, so both texts are **drafts** of which those places are
left open, filled in by the policy (`Draft.under`).

- `Variants`: two texts with the same draft. A handler passes them on if it puts what it has had
  expanded into its reply as it is, once and in order (`Handler.PassesOn`).
- `Moment.Varies`: moments of the two expansions, with the unknown tags that stand in all that has
  been written so far. Such moments are followed by such moments (`Moment.Varies.next`).
- `Trail.varies`: along an expansion every unknown tag that is handed over gets its place in the
  draft, in order. Only a file that is given up loses those of its lines before.
-/

namespace Webcomic

/-- Every marker of a line has a text. -/
theorem text_ne_empty_of_mem_cuts {line : String} {cut : String × Marker}
    (h : cut ∈ (Line.ofText line).cuts) : cut.2.text ≠ "" := by
  obtain ⟨text, name, params, hreads⟩ := Marker.exists_reads_of_mem_cuts h
  intro hempty
  have hlist := congrArg String.toList (hreads.text_eq.symm.trans hempty)
  rw [String.toList_ofList] at hlist
  exact List.cons_ne_nil _ _ hlist

namespace Template

open Files

variable {M : Type} {tags tags' : Registry M} {files : FileTree}

/-! ## Drafts -/

/-- A marker of a tag without a handler. -/
structure Unknown where
  name : String
  params : Option String
deriving DecidableEq, Repr

/-- What a policy puts in its place: the name with the parameters, or a report on that name. -/
def Unknown.under : UnknownTagPolicy → Unknown → String
  | .echo, ⟨name, none⟩ => name
  | .echo, ⟨name, some params⟩ => name ++ " " ++ params
  | .report, ⟨name, _⟩ =>
    "ERROR: Invalid tag! No handler named " ++ canonicalName name ++ "."

theorem Unknown.under_report (tag : Unknown) :
    tag.under .report = noHandler (canonicalName tag.name) := rfl

/-- A part of a page that is the same under every policy, or one that the policy fills in. -/
inductive Piece where
  | text (text : String)
  | unknown (tag : Unknown)

namespace Piece

def under (policy : UnknownTagPolicy) : Piece → String
  | .text t => t
  | .unknown tag => tag.under policy

def unknown? : Piece → Option Unknown
  | .text _ => none
  | .unknown tag => some tag

end Piece

/-- A page on which the places of unknown tags are left open. -/
abbrev Draft := List Piece

namespace Draft

/-- The page that a policy makes of a draft. -/
def under (policy : UnknownTagPolicy) : Draft → String
  | [] => ""
  | piece :: rest => piece.under policy ++ under policy rest

/-- The unknown tags of a draft, in order. -/
def unknowns (draft : Draft) : List Unknown :=
  draft.filterMap Piece.unknown?

/-- Drafts are written one behind the other. -/
theorem under_append (policy : UnknownTagPolicy) (draft draft' : Draft) :
    under policy (draft ++ draft') = under policy draft ++ under policy draft' := by
  induction draft with
  | nil => exact String.empty_append.symm
  | cons piece rest ih => rw [List.cons_append, under, under, ih, String.append_assoc]

end Draft

/-- Two texts that have one draft, the first where unknown tags are echoed and the second where they
are reported. -/
def Variants (unknowns : List Unknown) (text text' : String) : Prop :=
  ∃ draft : Draft, draft.unknowns = unknowns ∧ draft.under .echo = text ∧
    draft.under .report = text'

namespace Variants

variable {us vs : List Unknown} {t t' u u' : String}

theorem same (t : String) : Variants [] t t := by
  have hunder : ∀ policy, Draft.under policy [.text t] = t := fun _ => String.append_empty
  exact ⟨[.text t], rfl, hunder _, hunder _⟩

/-- The echo of an unknown tag and the report of it are variants, with that tag. -/
theorem unknown (tag : Unknown) : Variants [tag] (tag.under .echo) (tag.under .report) :=
  ⟨[.unknown tag], rfl, String.append_empty, String.append_empty⟩

theorem append (h : Variants us t t') (h' : Variants vs u u') :
    Variants (us ++ vs) (t ++ u) (t' ++ u') := by
  obtain ⟨draft, rfl, rfl, rfl⟩ := h
  obtain ⟨draft', rfl, rfl, rfl⟩ := h'
  exact ⟨draft ++ draft', List.filterMap_append, Draft.under_append _ _ _,
    Draft.under_append _ _ _⟩

theorem append_same (h : Variants us t t') (u : String) : Variants us (t ++ u) (t' ++ u) := by
  have happend := h.append (same u)
  rwa [List.append_nil] at happend

end Variants

/-! ## Handlers that pass on what they have had expanded -/

/-- Two scripts that do the same. They are answered with variants, and reply with variants that have
every unknown tag of the answers once and in order, behind some that have been given to them. -/
inductive Script.Varies : List Unknown → Script M → Script M → Prop where
  | reply {us : List Unknown} {text text' : String} : Variants us text text' →
      Varies us (.reply text) (.reply text')
  | look {us : List Unknown} {next next' : Session → Script M} :
      (∀ s, Varies us (next s) (next' s)) → Varies us (.look next) (.look next')
  | isOpen {us : List Unknown} {path : Path} {next next' : Bool → Script M} :
      (∀ b, Varies us (next b) (next' b)) → Varies us (.isOpen path next) (.isOpen path next')
  | turnTo {us : List Unknown} {date : Calendar.Date} {next next' : Script M} :
      Varies us next next' → Varies us (.turnTo date next) (.turnTo date next')
  | recollect {us : List Unknown} {next next' : M → Script M} :
      (∀ m, Varies us (next m) (next' m)) → Varies us (.recollect next) (.recollect next')
  | remember {us : List Unknown} {m : M} {next next' : Script M} :
      Varies us next next' → Varies us (.remember m next) (.remember m next')
  | expand {us : List Unknown} {q : Request} {next next' : String → Script M} :
      (∀ vs text text', Variants vs text text' → Varies (us ++ vs) (next text) (next' text')) →
      Varies us (.expand q next) (.expand q next')

/-- A handler that puts all it has had expanded into its reply, once and in order, and does nothing
else with it. -/
def Handler.PassesOn (h : Handler M) : Prop :=
  ∀ m, Script.Varies [] (h.handle m) (h.handle m)

/-- A registry of such handlers. -/
def Registry.PassesOn (r : Registry M) : Prop :=
  ∀ name h, (name, h) ∈ r.handlers → h.PassesOn

/-- A script that has nothing expanded has nothing to pass on. -/
theorem Script.Plain.varies {script : Script M} (h : script.Plain) :
    Script.Varies [] script script := by
  induction script with
  | reply text => exact .reply (.same text)
  | look next ih => exact .look fun s => ih s (h s)
  | isOpen path next ih => exact .isOpen fun b => ih b (h b)
  | turnTo date next ih => exact .turnTo (ih h)
  | recollect next ih => exact .recollect fun m => ih m (h m)
  | remember m next ih => exact .remember (ih h)
  | expand request next ih => exact absurd h id

/-! ## Markers without a handler -/

/-- The unknown tag that is handed over. -/
def Moment.unknown? (tags : Registry M) (a : Moment M) : Option Unknown :=
  match a.task with
  | .replace ⟨_, some name, params⟩ => if tags.hasHandler name then none else some ⟨name, params⟩
  | _ => none

theorem Moment.unknown?_eq_some_iff {a : Moment M} {tag : Unknown} :
    a.unknown? tags = some tag ↔
      ∃ text, a.task = .replace ⟨text, some tag.name, tag.params⟩ ∧
        tags.handler? tag.name = none := by
  obtain ⟨task, stack, d⟩ := a
  constructor
  · intro h
    unfold Moment.unknown? at h
    split at h
    next text name params htask =>
      split at h
      · cases h
      next hnone =>
        cases h
        exact ⟨text, htask, by simpa [Registry.hasHandler] using hnone⟩
    · cases h
  · rintro ⟨text, htask, hnone⟩
    cases htask
    simp [Moment.unknown?, Registry.hasHandler, hnone]

section

variable {m : Marker} {tag : Unknown}

/-- A marker without a name is put back as it is written. -/
theorem replaceMarker_of_nameless (tags : Registry M) (hname : m.name = none) (htext : m.text ≠ "")
    (stack : List (Frame M)) (d : Desk M) :
    replaceMarker tags m stack d = ⟨.answer m.text, stack, d⟩ := by
  simp [replaceMarker, hname, Marker.echo, htext]

variable (hnone : tags.handler? tag.name = none)
include hnone

/-- Under the first policy the marker of an unknown tag is put back. -/
theorem replaceMarker_of_echo (hpolicy : tags.policy = .echo) (text : String)
    (stack : List (Frame M)) (d : Desk M) :
    replaceMarker tags ⟨text, some tag.name, tag.params⟩ stack d =
      ⟨.answer (tag.under .echo), stack, d⟩ := by
  obtain ⟨name, params⟩ := tag
  simp only [replaceMarker, hnone, hpolicy]
  cases params <;> rfl

/-- The report is about the tag itself, whatever was reported before. -/
theorem replaceMarker_of_report (hpolicy : tags.policy = .report) (text : String)
    (stack : List (Frame M)) (d : Desk M) :
    replaceMarker tags ⟨text, some tag.name, tag.params⟩ stack d =
      ⟨.answer (tag.under .report), stack, { d with notice := tag.under .report }⟩ := by
  simp only [replaceMarker, hnone, hpolicy, Unknown.under_report]

end

/-! ## Moments that vary -/

/-- Two readings that have come to the same point, and differ in what they have written. -/
structure Reading.Varies (us : List Unknown) (r r' : Reading) : Prop where
  same : r' = { r with done := r'.done }
  done : Variants us r.done r'.done
  worded : ∀ cut ∈ r.cuts, cut.2.text ≠ ""

namespace Reading

variable {us vs : List Unknown} {r r' : Reading}

theorem varies_start (source : Request) (rest : List (Except Error String)) :
    (start source rest).Varies [] (start source rest) :=
  ⟨rfl, .same "", nofun⟩

theorem Varies.extend (h : r.Varies us r') {text text' : String} (ht : Variants vs text text') :
    (r.extend text).Varies (us ++ vs) (r'.extend text') := by
  refine ⟨?_, h.done.append ht, h.worded⟩
  rw [h.same]
  rfl

theorem Varies.pass (h : r.Varies us r') {cut : String × Marker} {cuts : List (String × Marker)}
    (hcuts : r.cuts = cut :: cuts) : (r.pass cut.1 cuts).Varies us (r'.pass cut.1 cuts) := by
  refine ⟨?_, h.done.append_same _, fun c hc => h.worded c (hcuts ▸ List.mem_cons_of_mem _ hc)⟩
  rw [h.same]
  rfl

theorem Varies.nextLine (h : r.Varies us r') (line : String) (rest : List (Except Error String)) :
    (r.nextLine line rest).Varies us (r'.nextLine line rest) := by
  have htail : r'.tail = r.tail := by rw [h.same]
  refine ⟨?_, ?_, fun cut => text_ne_empty_of_mem_cuts⟩
  · rw [h.same]
    rfl
  · show Variants us (r.done ++ r.tail) (r'.done ++ r'.tail)
    rw [htail]
    exact h.done.append_same _

end Reading

/-- What waits in both expansions, innermost first, and the unknown tags in it, outermost first. -/
inductive Waiting : List Unknown → List (Frame M) → List (Frame M) → Prop where
  | nil : Waiting [] [] []
  | reading {us vs : List Unknown} {r r' : Reading} {stack stack' : List (Frame M)} :
      Waiting vs stack stack' → r.Varies us r' →
      Waiting (vs ++ us) (.reading r :: stack) (.reading r' :: stack')
  | script {us vs : List Unknown} {next next' : String → Script M}
      {stack stack' : List (Frame M)} : Waiting vs stack stack' →
      (∀ ws text text', Variants ws text text' →
        Script.Varies (us ++ ws) (next text) (next' text')) →
      Waiting (vs ++ us) (.script next :: stack) (.script next' :: stack')

/-- The same is done next in both expansions, but for what has been written. -/
inductive Task.Varies : List Unknown → Task M → Task M → Prop where
  | call (q : Request) : Varies [] (.call q) (.call q)
  | load (path : Path) : Varies [] (.load path) (.load path)
  | read {us : List Unknown} {r r' : Reading} : r.Varies us r' → Varies us (.read r) (.read r')
  | replace {m : Marker} : m.text ≠ "" → Varies [] (.replace m) (.replace m)
  | perform {us : List Unknown} {script script' : Script M} : Script.Varies us script script' →
      Varies us (.perform script) (.perform script')
  | report (e : Error) : Varies [] (.report e) (.report e)
  | answer {us : List Unknown} {text text' : String} : Variants us text text' →
      Varies us (.answer text) (.answer text')

/-- Two moments that differ only in what has been written, with the unknown tags in that. -/
structure Moment.Varies (us : List Unknown) (a b : Moment M) : Prop where
  written : ∃ vs ws, vs ++ ws = us ∧ Waiting vs a.stack b.stack ∧ Task.Varies ws a.task b.task
  memory : b.desk.memory = a.desk.memory
  session : b.desk.session = a.desk.session

/-- A file is given up at a line that is not text. -/
def Moment.GivesUp (a : Moment M) : Prop :=
  ∃ r e rest, a.task = .read r ∧ r.cuts = [] ∧ r.rest = .error e :: rest

namespace Moment.Varies

variable {us vs ws : List Unknown} {a a' b : Moment M} {stack stack' : List (Frame M)}
  {d d' : Desk M}

/-- The last moments of both expansions have texts that are one draft, and leave one memory and one
session. -/
theorem answer_iff {text : String} :
    Varies us ⟨.answer text, [], d⟩ b ↔
      ∃ text' e, b = ⟨.answer text', [], e⟩ ∧ Variants us text text' ∧ e.memory = d.memory ∧
        e.session = d.session := by
  constructor
  · rintro ⟨⟨vs, ws, rfl, hstack, htask⟩, hm, hs⟩
    obtain ⟨task, stack, e⟩ := b
    cases hstack
    cases htask with
    | answer h => exact ⟨_, e, rfl, h, hm, hs⟩
  · rintro ⟨text', e, rfl, h, hm, hs⟩
    exact ⟨⟨[], us, rfl, .nil, .answer h⟩, hm, hs⟩

/-! ### Every step is taken in both expansions -/

section Steps

variable (hw : Waiting vs stack stack') (hm : d'.memory = d.memory) (hs : d'.session = d.session)
include hw hm hs

/-- A call is let in on both sides or on neither, since the same files are open. -/
theorem go_call (q : Request) (wd : Location) :
    Varies vs (q.go wd stack d) (q.go wd stack' d') := by
  have hnil := List.append_nil vs
  cases q with
  | text t =>
    exact ⟨⟨vs, [], hnil, hw, .read (Reading.varies_start _ _)⟩, hm, hs⟩
  | file path =>
    by_cases hopen : path.locate wd ∈ d.session.openFiles
    · rw [Request.go_of_open stack hopen, Request.go_of_open stack' (hs ▸ hopen)]
      exact ⟨⟨vs, [], hnil, hw, .report _⟩, hm, hs⟩
    · rw [Request.go_of_not_open stack hopen, Request.go_of_not_open stack' (hs ▸ hopen)]
      exact ⟨⟨vs, [], hnil, hw, .load _⟩, hm, congrArg (Session.opening · (path.locate wd)) hs⟩

/-- A call is left in both expansions. -/
theorem leave {task task' : Task M} (wd : Location) (source : Request)
    (htask : task.Varies us task') :
    Varies (vs ++ us) ⟨task, stack, d.leave wd source⟩ ⟨task', stack', d'.leave wd source⟩ := by
  refine ⟨⟨vs, us, rfl, hw, htask⟩, ?_, Moment.Alike.session_leave wd source hs⟩
  rw [Moment.Alike.memory_leave, Moment.Alike.memory_leave]
  exact hm

/-- A file is read or given up on both sides. -/
theorem go_load (path : Path) :
    Varies vs (loadFile files path stack d) (loadFile files path stack' d') := by
  have hnil := List.append_nil vs
  unfold loadFile
  split
  next fault _ =>
    have hleave := leave hw hm hs files.workingDir (.file path) (.report (.read path fault))
    rwa [hnil] at hleave
  · exact ⟨⟨vs, [], hnil, hw, .read (Reading.varies_start _ _)⟩, hm, hs⟩

/-- A reading goes on. If it is given up, what it has written is lost. -/
theorem go_read {r r' : Reading} (wd : Location) (hr : r.Varies us r') :
    ∃ ws, Varies ws (r.go wd stack d) (r'.go wd stack' d') ∧
      (ws = vs ++ us ∨ Moment.GivesUp ⟨.read r, stack, d⟩ ∧ ws = vs) := by
  obtain ⟨source, done, cuts, tail, rest⟩ := r
  obtain ⟨source', done', cuts', tail', rest'⟩ := r'
  cases hr.same
  cases cuts with
  | cons cut cuts =>
    -- the reading waits for a marker
    have hcut := hr.worded cut List.mem_cons_self
    exact ⟨_, ⟨⟨vs ++ us, [], List.append_nil _, .reading hw (hr.pass rfl), .replace hcut⟩, hm, hs⟩,
      .inl rfl⟩
  | nil =>
    cases rest with
    | nil => exact ⟨_, leave hw hm hs wd source (.answer (hr.done.append_same tail)), .inl rfl⟩
    | cons line rest =>
      cases line with
      | ok line =>
        exact ⟨_, ⟨⟨vs, us, rfl, hw, .read (hr.nextLine line rest)⟩, hm, hs⟩, .inl rfl⟩
      | error e =>
        have hleave := leave hw hm hs wd source (.report e)
        exact ⟨_, hleave, .inr ⟨⟨_, e, rest, rfl, rfl, rfl⟩, List.append_nil _⟩⟩

/-- A marker without a name is put back as it is written, and that of an unknown tag leaves a place
in the draft. -/
theorem go_replace (hpass : tags.PassesOn) (hhandlers : tags'.handlers = tags.handlers)
    (hecho : tags.policy = .echo) (hreport : tags'.policy = .report) {m : Marker}
    (htext : m.text ≠ "") :
    Varies (vs ++ (Moment.unknown? tags ⟨.replace m, stack, d⟩).toList)
      (replaceMarker tags m stack d) (replaceMarker tags' m stack' d') := by
  obtain ⟨text, name, params⟩ := m
  cases name with
  | none =>
    rw [replaceMarker_of_nameless tags rfl htext, replaceMarker_of_nameless tags' rfl htext]
    exact ⟨⟨vs, [], rfl, hw, .answer (.same _)⟩, hm, hs⟩
  | some name =>
    have hsame : tags'.handler? name = tags.handler? name := by
      rw [Registry.handler?, hhandlers, Registry.handler?]
    cases hhandler : tags.handler? name with
    | some handler =>
      have hvaries := hpass _ _ (Keyed.mem_of_get? hhandler) ⟨text, some name, params⟩
      simp only [replaceMarker, hsame, hhandler, Moment.unknown?, Registry.hasHandler]
      exact ⟨⟨vs, [], rfl, hw, .perform hvaries⟩, hm, hs⟩
    | none =>
      -- no handler in either registry: one writes the echo and the other the report
      let tag : Unknown := ⟨name, params⟩
      have hnone : tags.handler? tag.name = none := hhandler
      have hnone' : tags'.handler? tag.name = none := hsame.trans hhandler
      have hecho' := replaceMarker_of_echo hnone hecho text stack d
      have hreport' := replaceMarker_of_report hnone' hreport text stack' d'
      have hunknown : Moment.unknown? tags ⟨.replace ⟨text, some name, params⟩, stack, d⟩ =
          some tag := Moment.unknown?_eq_some_iff.mpr ⟨text, rfl, hhandler⟩
      rw [hecho', hreport', hunknown]
      exact ⟨⟨vs, [tag], rfl, hw, .answer (.unknown tag)⟩, hm, hs⟩

/-- Scripts that vary ask for the same things. -/
theorem go_perform {script script' : Script M} (wd : Location)
    (h : Script.Varies us script script') :
    Varies (vs ++ us) (script.go wd stack d) (script'.go wd stack' d') := by
  cases h with
  | reply h => exact ⟨⟨vs, us, rfl, hw, .answer h⟩, hm, hs⟩
  | @look _ next next' h => exact ⟨⟨vs, us, rfl, hw, .perform (hs ▸ h d.session)⟩, hm, hs⟩
  | @isOpen _ path next next' h =>
    refine ⟨⟨vs, us, rfl, hw, .perform ?_⟩, hm, hs⟩
    rw [hs]
    exact h _
  | @turnTo _ date _ _ h =>
    have hsession := congrArg (fun s : Session => { s with requested := date }) hs
    exact ⟨⟨vs, us, rfl, hw, .perform h⟩, hm, hsession⟩
  | @recollect _ next next' h => exact ⟨⟨vs, us, rfl, hw, .perform (hm ▸ h d.memory)⟩, hm, hs⟩
  | remember h => exact ⟨⟨vs, us, rfl, hw, .perform h⟩, rfl, hs⟩
  | expand h => exact ⟨⟨vs ++ us, [], List.append_nil _, .script hw h, .call _⟩, hm, hs⟩

end Steps

/-- **Each step of the expansion with echoes is one of the expansion with reports.** What has been
written then has the unknown tags that it had, and the one that has been handed over, unless a file
is given up. -/
theorem next (hpass : tags.PassesOn) (hhandlers : tags'.handlers = tags.handlers)
    (hecho : tags.policy = .echo) (hreport : tags'.policy = .report) (h : Varies us a b)
    (ha : a.next? tags files = some a') :
    ∃ ws b', b.next? tags' files = some b' ∧ Varies ws a' b' ∧
      (ws = us ++ (a.unknown? tags).toList ∨
        a.GivesUp ∧ ws.Sublist (us ++ (a.unknown? tags).toList)) := by
  obtain ⟨task, stack, d⟩ := a
  obtain ⟨task', stack', d'⟩ := b
  obtain ⟨⟨vs, us, rfl, hw, htask⟩, hm, hs⟩ := h
  dsimp only at hw htask hm hs
  have hnil := List.append_nil (vs ++ us)
  cases htask with
  | call q =>
    cases ha
    exact ⟨vs, _, rfl, go_call hw hm hs q _, .inl (by simp [Moment.unknown?])⟩
  | load path =>
    cases ha
    exact ⟨vs, _, rfl, go_load hw hm hs path, .inl (by simp [Moment.unknown?])⟩
  | read hr =>
    cases ha
    obtain ⟨ws, hvaries, hws⟩ := go_read hw hm hs files.workingDir hr
    refine ⟨ws, _, rfl, hvaries, ?_⟩
    -- a file that is given up takes the unknown tags with it that it has written
    rcases hws with rfl | ⟨hgives, rfl⟩
    · exact .inl hnil.symm
    · refine .inr ⟨hgives, ?_⟩
      rw [List.append_assoc]
      exact List.sublist_append_left _ _
  | replace htext =>
    cases ha
    rw [List.append_nil]
    exact ⟨_, _, rfl, go_replace hw hm hs hpass hhandlers hecho hreport htext, .inl rfl⟩
  | perform hscript =>
    cases ha
    exact ⟨_, _, rfl, go_perform hw hm hs files.workingDir hscript, .inl hnil.symm⟩
  | report e =>
    cases ha
    exact ⟨_, _, rfl, ⟨⟨vs, [], rfl, hw, .answer (.same _)⟩, hm, hs⟩, .inl hnil.symm⟩
  | answer htext =>
    cases hw with
    | nil => cases ha
    | @reading us' vs' r r' _ _ hw hr =>
      cases ha
      exact ⟨_, _, rfl, ⟨⟨vs', us' ++ us, rfl, hw, .read (hr.extend htext)⟩, hm, hs⟩,
        .inl (by simp [Moment.unknown?])⟩
    | @script us' vs' next next' _ _ hw hscript =>
      cases ha
      exact ⟨_, _, rfl, ⟨⟨vs', us' ++ us, rfl, hw, .perform (hscript us _ _ htext)⟩, hm, hs⟩,
        .inl (by simp [Moment.unknown?])⟩

end Moment.Varies

/-! ## Along an expansion -/

/-- Going on with both expansions, the unknown tags in what has been written are those that have
been handed over, in order. Some are missing only if a file has been given up. -/
theorem Trail.varies (hpass : tags.PassesOn) (hhandlers : tags'.handlers = tags.handlers)
    (hecho : tags.policy = .echo) (hreport : tags'.policy = .report) {a a' b : Moment M}
    (h : Moment.Varies [] a b) {passed : List (Moment M)} (htrail : Trail tags files a passed a') :
    ∃ passed' b' us, Trail tags' files b passed' b' ∧ Moment.Varies us a' b' ∧
      List.Forall₂ (fun x y => ∃ vs, Moment.Varies vs x y) passed passed' ∧
      us.Sublist (passed.filterMap (·.unknown? tags)) ∧
      ((∀ x ∈ passed, ¬ x.GivesUp) → us = passed.filterMap (·.unknown? tags)) := by
  induction htrail with
  | here => exact ⟨[], b, [], .here, h, .nil, .slnil, fun _ => rfl⟩
  | @on passed x _ _ hstep ih =>
    obtain ⟨passed', y, us, htrail', hvaries, hall, hsub, heq⟩ := ih
    obtain ⟨ws, b', hb', hvaries', hws⟩ := hvaries.next hpass hhandlers hecho hreport hstep
    have hmore : (passed ++ [x]).filterMap (·.unknown? tags) =
        passed.filterMap (·.unknown? tags) ++ (x.unknown? tags).toList := by
      rw [List.filterMap_append]
      cases hx : x.unknown? tags <;> simp [hx]
    have hsub' := hsub.append (List.Sublist.refl (x.unknown? tags).toList)
    rw [hmore]
    refine ⟨_, b', ws, htrail'.on hb', hvaries', ?_, ?_, fun hnone => ?_⟩
    · exact List.rel_append hall (.cons ⟨us, hvaries⟩ .nil)
    · -- what the last step has lost was among what could be lost
      rcases hws with rfl | ⟨-, hlost⟩
      · exact hsub'
      · exact hlost.trans hsub'
    · obtain ⟨hbefore, hlast⟩ := List.forall_mem_append.mp hnone
      rcases hws with rfl | ⟨hgives, -⟩
      · rw [heq hbefore]
      · exact absurd hgives (hlast x (List.mem_singleton_self x))

/-! ## Handing over -/

/-- A marker that is handed over: the texts and files that it stands in, innermost first, and what
its handler finds. -/
structure Handover (M : Type) where
  marker : Marker
  around : List Request
  memory : M
  session : Session

/-- The text or file that waits. -/
def Frame.source? : Frame M → Option Request
  | .reading r => some r.source
  | .script _ => none

/-- What is handed over at a moment. -/
def Moment.handover? (a : Moment M) : Option (Handover M) :=
  match a.task with
  | .replace m => some ⟨m, a.stack.filterMap Frame.source?, a.desk.memory, a.desk.session⟩
  | _ => none

theorem Waiting.sources_eq {us : List Unknown} {stack stack' : List (Frame M)}
    (h : Waiting us stack stack') :
    stack'.filterMap Frame.source? = stack.filterMap Frame.source? := by
  induction h with
  | nil => rfl
  | @reading _ _ r r' _ _ _ hr ih =>
    have hsource : r'.source = r.source := by rw [hr.same]
    simp only [List.filterMap_cons, Frame.source?, hsource, ih]
  | script _ _ ih => simpa only [List.filterMap_cons, Frame.source?] using ih

/-- Two moments of which each or none hands over a marker, and then it is the same one in the same
place, and finds the same. If it has no name, it comes back as it is written. If its tag is unknown,
each policy puts in its place what belongs to that tag. -/
structure Moment.Matches (tags tags' : Registry M) (files : FileTree) (a b : Moment M) : Prop where
  handover : b.handover? = a.handover?
  nameless : ∀ m, a.task = .replace m → m.name = none →
    a.next? tags files = some ⟨.answer m.text, a.stack, a.desk⟩ ∧
      b.next? tags' files = some ⟨.answer m.text, b.stack, b.desk⟩
  unknown : ∀ tag, a.unknown? tags = some tag →
    a.next? tags files = some ⟨.answer (tag.under .echo), a.stack, a.desk⟩ ∧
      ∃ notice, b.next? tags' files =
        some ⟨.answer (tag.under .report), b.stack, { b.desk with notice }⟩

namespace Moment.Varies

variable {us : List Unknown} {a b : Moment M}

/-- Both sides hand over the same marker, on behalf of the same files, with the same memory and
session. -/
theorem handover_eq (h : Varies us a b) : b.handover? = a.handover? := by
  obtain ⟨task, stack, d⟩ := a
  obtain ⟨task', stack', d'⟩ := b
  obtain ⟨⟨vs, ws, rfl, hw, htask⟩, hm, hs⟩ := h
  dsimp only at hw htask hm hs
  cases htask with
  | replace _ => simp only [Moment.handover?, hw.sources_eq, hm, hs]
  | _ => rfl

/-- A marker that is handed over is the same one, and has a text. -/
theorem replace {m : Marker} {task : Task M} {stack stack' : List (Frame M)} {d d' : Desk M}
    (h : Varies us ⟨.replace m, stack, d⟩ ⟨task, stack', d'⟩) :
    task = .replace m ∧ m.text ≠ "" := by
  obtain ⟨⟨vs, ws, rfl, -, htask⟩, -, -⟩ := h
  cases htask with
  | replace htext => exact ⟨rfl, htext⟩

/-- **The markers of both expansions match.** -/
theorem matches_of_policies (h : Varies us a b) (hhandlers : tags'.handlers = tags.handlers)
    (hecho : tags.policy = .echo) (hreport : tags'.policy = .report) :
    a.Matches tags tags' files b := by
  obtain ⟨task, stack, d⟩ := a
  obtain ⟨task', stack', d'⟩ := b
  refine ⟨h.handover_eq, ?_, ?_⟩
  · rintro m rfl hname
    obtain ⟨rfl, htext⟩ := h.replace
    exact ⟨congrArg some (replaceMarker_of_nameless tags hname htext stack d),
      congrArg some (replaceMarker_of_nameless tags' hname htext stack' d')⟩
  · intro tag hunknown
    obtain ⟨text, rfl, hnone⟩ := Moment.unknown?_eq_some_iff.mp hunknown
    obtain ⟨rfl, -⟩ := h.replace
    have hnone' : tags'.handler? tag.name = none := by
      rw [Registry.handler?, hhandlers]
      exact hnone
    exact ⟨congrArg some (replaceMarker_of_echo hnone hecho text stack d), tag.under .report,
      congrArg some (replaceMarker_of_report hnone' hreport text stack' d')⟩

end Moment.Varies

end Template

end Webcomic
