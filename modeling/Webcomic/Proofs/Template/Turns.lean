import Mathlib.Data.List.Induction
import Webcomic.Proofs.Template.Agreement

/-!
# The turns of one tag

Markers reach their handlers one after another, and those of included files in between. What a tag
that remembers something writes depends on the turns it had before, and on nothing else if the part
of the memory that it works on is left alone by all other handlers.

- `Trail`: the moments that are gone through from one moment to another. Those that hand over a
  marker of a tag are told by `Moment.isFor`, in whatever file and spelling the marker stands.
- `Registry.Reserves`: a part of the memory is left alone by all handlers but one
  (`Script.Spares`), which has nothing expanded (`Script.Plain`).
- `Turns`: markers that are replied to one after another. In between anything can be done that
  leaves a part of the memory alone.
- `Trail.turns`: along every trail the markers of a tag that has such a part take turns.
-/

namespace Webcomic.Template

open Files

variable {M A : Type} {tags : Registry M} {files : FileTree} {slot : Slot M A}
  {stack : List (Frame M)} {d d' : Desk M} {a b : Moment M} {tag : String}

/-! ## Trails -/

/-- The moments that are gone through from one on, on the way to another. -/
inductive Trail (tags : Registry M) (files : FileTree) (a : Moment M) :
    List (Moment M) → Moment M → Prop where
  | here : Trail tags files a [] a
  | on {passed : List (Moment M)} {b c : Moment M} : Trail tags files a passed b →
      b.next? tags files = some c → Trail tags files a (passed ++ [b]) c

/-- A trail is the way that one moment leads to another, with the moments on it. -/
theorem leads_iff_exists_trail :
    Leads tags files a b ↔ ∃ passed, Trail tags files a passed b := by
  constructor
  · intro h
    induction h with
    | refl => exact ⟨[], .here⟩
    | tail _ hstep ih =>
      obtain ⟨passed, htrail⟩ := ih
      exact ⟨_, htrail.on hstep⟩
  · rintro ⟨passed, h⟩
    induction h with
    | here => exact .refl
    | on _ hstep ih => exact ih.tail hstep

theorem Trail.leads {passed : List (Moment M)} (h : Trail tags files a passed b) :
    Leads tags files a b :=
  leads_iff_exists_trail.mpr ⟨passed, h⟩

theorem Trail.leads_of_mem {passed : List (Moment M)} (h : Trail tags files a passed b)
    {x : Moment M} (hx : x ∈ passed) : Leads tags files a x := by
  induction h with
  | here => cases hx
  | on htrail _ ih =>
    rcases List.mem_append.mp hx with hbefore | hlast
    · exact ih hbefore
    · obtain rfl := List.mem_singleton.mp hlast
      exact htrail.leads

/-- Whether a marker is one of a tag, in whatever spelling. -/
def isFor (tag : String) (m : Marker) : Bool :=
  m.name.any (canonicalName · = canonicalName tag)

/-- Whether a marker of a tag is handed over. -/
def Moment.isFor (tag : String) (a : Moment M) : Bool :=
  match a.task with
  | .replace m => Template.isFor tag m
  | _ => false

/-- A marker of a tag has the handler of the tag, in every spelling. -/
theorem handler?_of_isFor (tags : Registry M) {m : Marker} (h : isFor tag m = true) :
    ∃ name, m.name = some name ∧ tags.handler? name = tags.handler? tag := by
  obtain ⟨name, hname, hcanonical⟩ := (Option.any_eq_true _ _).mp h
  refine ⟨name, hname, ?_⟩
  rw [Registry.handler?, of_decide_eq_true hcanonical, Registry.handler?]

/-! ## Scripts that have nothing expanded -/

section

variable {wd : Location} {answer : Request → Run M String}

@[simp] theorem Script.run_reply (text : String) (d : Desk M) :
    (Script.reply text).run wd answer d = some (text, d) := rfl

@[simp] theorem Script.run_look (next : Session → Script M) (d : Desk M) :
    (Script.look next).run wd answer d = (next d.session).run wd answer d := rfl

@[simp] theorem Script.run_recollect (next : M → Script M) (d : Desk M) :
    (Script.recollect next).run wd answer d = (next d.memory).run wd answer d := rfl

@[simp] theorem Script.run_remember (memory : M) (next : Script M) (d : Desk M) :
    (Script.remember memory next).run wd answer d = next.run wd answer { d with memory } := rfl

end

/-- A script that has nothing expanded, whatever it is answered. -/
def Script.Plain : Script M → Prop
  | .reply _ => True
  | .look next => ∀ s, (next s).Plain
  | .isOpen _ next => ∀ b, (next b).Plain
  | .turnTo _ next => next.Plain
  | .recollect next => ∀ m, (next m).Plain
  | .remember _ next => next.Plain
  | .expand _ _ => False

/-- Such a script comes to an end. -/
theorem Script.Plain.exists_run {script : Script M} (h : script.Plain) (wd : Location)
    (answer : Request → Run M String) (d : Desk M) :
    ∃ text d', script.run wd answer d = some (text, d') := by
  induction script generalizing d with
  | reply text => exact ⟨text, d, rfl⟩
  | look next ih => exact ih _ (h _) d
  | isOpen path next ih => exact ih _ (h _) d
  | turnTo date next ih => exact ih h _
  | recollect next ih => exact ih _ (h _) d
  | remember memory next ih => exact ih h _
  | expand request next ih => exact absurd h id

/-! ## Leaving a part of the memory alone -/

/-- From a memory on, a script leaves a part of it alone, whatever it is answered and whatever is
expanded in between. -/
def Script.Spares (slot : Slot M A) : Script M → M → Prop
  | .reply _, _ => True
  | .look next, m => ∀ s, (next s).Spares slot m
  | .isOpen _ next, m => ∀ answer, (next answer).Spares slot m
  | .turnTo _ next, m => next.Spares slot m
  | .recollect next, m => (next m).Spares slot m
  | .remember m' next, m => slot.get m' = slot.get m ∧ next.Spares slot m'
  | .expand _ next, _ => ∀ text m', (next text).Spares slot m'

/-- A handler that leaves a part of the memory alone. -/
structure Handler.Spares (slot : Slot M A) (h : Handler M) : Prop where
  handle : ∀ marker m, (h.handle marker).Spares slot m
  resetForDay : ∀ m, slot.get (h.resetForDay m) = slot.get m
  resetForPage : ∀ m, slot.get (h.resetForPage m) = slot.get m

/-- A registry in which a part of the memory belongs to one tag. -/
structure Registry.Reserves (r : Registry M) (slot : Slot M A) (tag : String)
    (handler : Handler M) : Prop where
  registered : r.handler? tag = some handler
  plain : ∀ marker, (handler.handle marker).Plain
  others : ∀ name h, (name, h) ∈ r.handlers → name ≠ canonicalName tag → h.Spares slot

/-- A registry that has been used in any way, when a comic day or a page starts. -/
inductive Registry.Renewed (r : Registry M) : Registry M → Prop where
  | forDay (prior : Desk M) : r.Renewed (r.leaving prior).resetForDay
  | forPage (prior : Desk M) : r.Renewed (r.leaving prior).resetForPage

/-- It has the handlers that it had. -/
theorem Registry.Renewed.handlers {r : Registry M} (h : r.Renewed tags) :
    tags.handlers = r.handlers := by
  cases h with
  | forDay => rfl
  | forPage => rfl

namespace Registry.Reserves

variable {r : Registry M} {handler : Handler M} (hr : r.Reserves slot tag handler)
include hr

/-- The handler of a registry that is not the tag's leaves the part alone. -/
theorem eq_or_spares {entry : String × Handler M} (h : entry ∈ r.handlers) :
    entry.2 = handler ∨ entry.2.Spares slot := by
  by_cases hname : entry.1 = canonicalName tag
  · have hget := Keyed.get?_of_mem r.distinct h
    rw [hname] at hget
    exact .inl (Option.some.inj (hget.symm.trans hr.registered))
  · exact .inr (hr.others _ _ h hname)

/-- A marker of the tag is replied to, whatever can be expanded. -/
theorem exists_reply {m : Marker} (hm : isFor tag m = true) (wd : Location)
    (answer : Request → Run M String) (d : Desk M) :
    ∃ text d', reply r wd answer m d = some (text, d') := by
  obtain ⟨name, hname, hhandler⟩ := handler?_of_isFor r hm
  rw [hr.registered] at hhandler
  simp only [reply, hname, hhandler]
  exact (hr.plain m).exists_run wd answer d

/-- Once all handlers have reset what they remember, the part is what the tag makes of it. -/
theorem get_foldl {reset : Handler M → M → M} {value : A}
    (hhandler : ∀ m, slot.get (reset handler m) = value)
    (hothers : ∀ h : Handler M, h.Spares slot → ∀ m, slot.get (reset h m) = slot.get m) (m : M) :
    slot.get (r.handlers.foldl (fun m entry => reset entry.2 m) m) = value := by
  obtain ⟨before, after, hsplit⟩ := List.append_of_mem (Keyed.mem_of_get? hr.registered)
  have hafter : ∀ m, slot.get m = value → ∀ entry ∈ after,
      slot.get (reset entry.2 m) = value := by
    intro m hm entry hentry
    have hmem : entry ∈ r.handlers := by
      rw [hsplit]
      exact List.mem_append_right _ (List.mem_cons_of_mem _ hentry)
    rcases hr.eq_or_spares hmem with heq | hspares
    · rw [heq, hhandler]
    · rw [hothers _ hspares, hm]
  -- the handlers behind the tag's find the value and leave it
  rw [hsplit, List.foldl_append, List.foldl_cons]
  exact List.foldlRecOn (motive := fun m => slot.get m = value) after _ (hhandler _) hafter

/-- A reset that the tag does not take part in leaves the part alone. -/
theorem get_foldl_of_eq {reset : Handler M → M → M}
    (hhandler : ∀ m, slot.get (reset handler m) = slot.get m)
    (hothers : ∀ h : Handler M, h.Spares slot → ∀ m, slot.get (reset h m) = slot.get m) (m : M) :
    slot.get (r.handlers.foldl (fun m entry => reset entry.2 m) m) = slot.get m := by
  refine List.foldlRecOn (motive := fun n => slot.get n = slot.get m) r.handlers _ rfl ?_
  intro n hn entry hentry
  rcases hr.eq_or_spares hentry with heq | hspares
  · rw [heq, hhandler, hn]
  · rw [hothers _ hspares, hn]

/-- Whatever a registry has been used for, a reset makes the part what the tag makes of it. -/
theorem get_renewed (h : r.Renewed tags) {value : A}
    (hday : ∀ m, slot.get (handler.resetForDay m) = value)
    (hpage : ∀ m, slot.get (handler.resetForPage m) = value) : slot.get tags.memory = value := by
  cases h with
  | forDay prior => exact hr.get_foldl hday (fun _ hspares => hspares.resetForDay) prior.memory
  | forPage prior => exact hr.get_foldl hpage (fun _ hspares => hspares.resetForPage) prior.memory

/-- The part belongs to the tag, whatever else the registry remembers. -/
theorem of_handlers (h : tags.handlers = r.handlers) : tags.Reserves slot tag handler where
  registered := by
    rw [Registry.handler?, h]
    exact hr.registered
  plain := hr.plain
  others := by
    rw [h]
    exact hr.others

theorem renewed (h : r.Renewed tags) : tags.Reserves slot tag handler :=
  hr.of_handlers h.handlers

end Registry.Reserves

/-! ## Turns -/

/-- A marker that has been replied to: what waited for the reply, the desk that the handler found,
and the text. -/
structure Turn (M : Type) where
  marker : Marker
  stack : List (Frame M)
  desk : Desk M
  text : String

/-- The moment at which the marker is handed over. -/
def Turn.moment (t : Turn M) : Moment M :=
  ⟨.replace t.marker, t.stack, t.desk⟩

/-- The day that the turn is about. -/
def Turn.date (t : Turn M) : Calendar.Date :=
  t.desk.session.requested

/-- Markers that are replied to one after another. In between the session and the memory can become
any others, as long as a part of the memory stays as it is. -/
inductive Turns (tags : Registry M) (files : FileTree) (slot : Slot M A) (d : Desk M) :
    List (Turn M) → Desk M → Prop where
  | start : Turns tags files slot d [] d
  | aside {turns : List (Turn M)} {d₁ d₂ : Desk M} : Turns tags files slot d turns d₁ →
      slot.get d₂.memory = slot.get d₁.memory → Turns tags files slot d turns d₂
  | turn {turns : List (Turn M)} {d₁ d₂ : Desk M} (m : Marker) (stack : List (Frame M))
      (text : String) (depth : Nat) : Turns tags files slot d turns d₁ →
      reply tags files.workingDir (expand tags files depth) m d₁ = some (text, d₂) →
      Turns tags files slot d (turns ++ [⟨m, stack, d₁, text⟩]) d₂

/-- The moments of every turn lead to its text. -/
theorem Turns.leads {turns : List (Turn M)} (h : Turns tags files slot d turns d') {t : Turn M}
    (ht : t ∈ turns) : ∃ d'', Leads tags files t.moment ⟨.answer t.text, t.stack, d''⟩ := by
  induction h with
  | start => cases ht
  | aside _ _ ih => exact ih ht
  | @turn _ d₁ d₂ m stack text depth _ hreply ih =>
    rcases List.mem_append.mp ht with hbefore | hlast
    · exact ih hbefore
    · obtain rfl := List.mem_singleton.mp hlast
      have hrun : (Task.replace m).run tags files depth d₁ = some (text, d₂) := hreply
      exact ⟨d₂, leads_of_run hrun stack⟩

/-- Whatever days the session is turned to, there are turns about these days. -/
theorem exists_turns {handler : Handler M} (hr : tags.Reserves slot tag handler)
    {m : Marker} (hm : isFor tag m = true) (files : FileTree) (d : Desk M)
    (dates : List Calendar.Date) :
    ∃ turns d', Turns tags files slot d turns d' ∧ turns.map Turn.date = dates ∧
      ∀ t ∈ turns, t.marker = m := by
  -- on the last day: the session is turned to it once the others have had their turns
  induction dates using List.reverseRecOn with
  | nil => exact ⟨[], d, .start, rfl, fun t ht => absurd ht List.not_mem_nil⟩
  | append_singleton dates date ih =>
    obtain ⟨turns, d₁, hturns, hdates, hmarkers⟩ := ih
    let turned := d₁.withSession { d₁.session with requested := date }
    obtain ⟨text, d₂, hreply⟩ :=
      hr.exists_reply hm files.workingDir (expand tags files 0) turned
    have hturned : Turns tags files slot d turns turned := hturns.aside rfl
    refine ⟨_, d₂, hturned.turn m [] text 0 hreply, ?_, ?_⟩
    · rw [List.map_append, hdates]
      rfl
    · intro t ht
      rcases List.mem_append.mp ht with hbefore | hlast
      · exact hmarkers t hbefore
      · rw [List.mem_singleton.mp hlast]

/-! ## Along a trail -/

/-- What is done next leaves a part of the memory alone. -/
def Task.Spares (slot : Slot M A) : Task M → M → Prop
  | .perform script, m => script.Spares slot m
  | _, _ => True

/-- What waits leaves a part of the memory alone. -/
def Frame.Spares (slot : Slot M A) : Frame M → Prop
  | .reading _ => True
  | .script next => ∀ text m, (next text).Spares slot m

/-- A moment at which the turns so far leave a desk: no turn is being taken and the part of the
memory is the one of that desk, or the last turn is being taken and comes to that desk. -/
inductive Taken (tags : Registry M) (files : FileTree) (slot : Slot M A) (d' : Desk M) :
    Moment M → Prop where
  | between {task : Task M} {stack : List (Frame M)} {d : Desk M} :
      slot.get d.memory = slot.get d'.memory → task.Spares slot d.memory →
      (∀ frame ∈ stack, frame.Spares slot) → Taken tags files slot d' ⟨task, stack, d⟩
  | taking {script : Script M} {stack : List (Frame M)} {d : Desk M} {text : String} :
      script.Plain → script.run files.workingDir (expand tags files 0) d = some (text, d') →
      (∀ frame ∈ stack, frame.Spares slot) → Taken tags files slot d' ⟨.perform script, stack, d⟩

namespace Taken

section Steps

variable (hget : slot.get d.memory = slot.get d'.memory)
  (hstack : ∀ frame ∈ stack, frame.Spares slot)
include hget hstack

theorem go_call (q : Request) (wd : Location) : Taken tags files slot d' (q.go wd stack d) := by
  cases q with
  | text t => exact .between hget trivial hstack
  | file path =>
    by_cases hopen : path.locate wd ∈ d.session.openFiles
    · rw [Request.go_of_open stack hopen]
      exact .between hget trivial hstack
    · rw [Request.go_of_not_open stack hopen]
      exact .between hget trivial hstack

/-- Closing a file leaves the memory alone. -/
theorem leave {source : Request} (wd : Location) {task : Task M}
    (htask : ∀ m, task.Spares slot m) :
    Taken tags files slot d' ⟨task, stack, d.leave wd source⟩ := by
  cases source with
  | text t => exact .between hget (htask _) hstack
  | file path => exact .between hget (htask _) hstack

theorem go_load (path : Path) : Taken tags files slot d' (loadFile files path stack d) := by
  unfold loadFile
  split
  · exact leave hget hstack _ fun _ => trivial
  · exact .between hget trivial hstack

theorem go_read (r : Reading) (wd : Location) : Taken tags files slot d' (r.go wd stack d) := by
  unfold Reading.go
  split
  · exact .between hget trivial (List.forall_mem_cons.mpr ⟨trivial, hstack⟩)
  · exact leave hget hstack _ fun _ => trivial
  · exact .between hget trivial hstack
  · exact leave hget hstack _ fun _ => trivial

/-- A marker of another tag is handed over. -/
theorem go_replace {handler : Handler M} (hr : tags.Reserves slot tag handler) {m : Marker}
    (hm : isFor tag m = false) : Taken tags files slot d' (replaceMarker tags m stack d) := by
  unfold replaceMarker
  split
  · exact .between hget trivial hstack
  next name hname =>
    have hother : canonicalName name ≠ canonicalName tag := by
      simpa [isFor, hname] using hm
    split
    next other hhandler =>
      have hspares := hr.others _ _ (Keyed.mem_of_get? hhandler) hother
      exact .between hget (hspares.handle m d.memory) hstack
    · split
      · exact .between hget trivial hstack
      · exact .between hget trivial hstack

theorem go_spares {script : Script M} (wd : Location) (hscript : script.Spares slot d.memory) :
    Taken tags files slot d' (script.go wd stack d) := by
  cases script with
  | reply text => exact .between hget trivial hstack
  | look next => exact .between hget (hscript _) hstack
  | isOpen path next => exact .between hget (hscript _) hstack
  | turnTo date next => exact .between hget hscript hstack
  | recollect next => exact .between hget hscript hstack
  | remember m next => exact .between (hscript.1.trans hget) hscript.2 hstack
  | expand request next =>
    exact .between hget trivial (List.forall_mem_cons.mpr ⟨hscript, hstack⟩)

theorem go_answer {text : String} {frame : Frame M} (hframe : frame.Spares slot) :
    Taken tags files slot d' ⟨frame.resume text, stack, d⟩ := by
  cases frame with
  | reading r => exact .between hget trivial hstack
  | script next => exact .between hget (hframe text _) hstack

end Steps

/-- The turn that is being taken goes on, and ends on its desk. -/
theorem go_plain {script : Script M} {text : String} (hplain : script.Plain)
    (hrun : script.run files.workingDir (expand tags files 0) d = some (text, d'))
    (hstack : ∀ frame ∈ stack, frame.Spares slot) :
    Taken tags files slot d' (script.go files.workingDir stack d) := by
  cases script with
  | reply t =>
    obtain ⟨-, rfl⟩ := Run.pure_eq_some.mp hrun
    exact .between rfl trivial hstack
  | look next => exact .taking (hplain _) hrun hstack
  | isOpen path next => exact .taking (hplain _) hrun hstack
  | turnTo date next => exact .taking hplain hrun hstack
  | recollect next => exact .taking (hplain _) hrun hstack
  | remember m next => exact .taking hplain hrun hstack
  | expand request next => exact absurd hplain id

variable {handler : Handler M}

/-- Each moment that does not hand over a marker of the tag leaves the turns as they are. -/
theorem next (hr : tags.Reserves slot tag handler) (h : Taken tags files slot d' a)
    (ha : a.isFor tag = false) (hab : a.next? tags files = some b) :
    Taken tags files slot d' b := by
  cases h with
  | taking hplain hrun hstack =>
    cases hab
    exact go_plain hplain hrun hstack
  | @between task stack d hget htask hstack =>
    cases task with
    | call q =>
      cases hab
      exact go_call hget hstack q _
    | load path =>
      cases hab
      exact go_load hget hstack path
    | read r =>
      cases hab
      exact go_read hget hstack r _
    | replace m =>
      cases hab
      exact go_replace hget hstack hr ha
    | perform script =>
      cases hab
      exact go_spares hget hstack _ htask
    | report e =>
      cases hab
      exact .between hget trivial hstack
    | answer text =>
      cases stack with
      | nil => cases hab
      | cons frame stack =>
        cases hab
        obtain ⟨hframe, hstack⟩ := List.forall_mem_cons.mp hstack
        exact go_answer hget hstack hframe

/-- A marker of the tag is handed over: its turn begins. -/
theorem begin (hr : tags.Reserves slot tag handler) (h : Taken tags files slot d' a)
    (ha : a.isFor tag = true) (hab : a.next? tags files = some b) :
    ∃ m stack text d'', a = ⟨.replace m, stack, a.desk⟩ ∧
      slot.get a.desk.memory = slot.get d'.memory ∧
      reply tags files.workingDir (expand tags files 0) m a.desk = some (text, d'') ∧
      Taken tags files slot d'' b := by
  -- a handler of the tag asks for nothing, so that no marker is handed over during a turn
  cases h with
  | taking hplain hrun hstack => cases ha
  | @between task stack d hget htask hstack =>
    cases task with
    | replace m =>
      obtain ⟨text, d'', hreply⟩ :=
        hr.exists_reply ha files.workingDir (expand tags files 0) d
      refine ⟨m, stack, text, d'', rfl, hget, hreply, ?_⟩
      obtain ⟨name, hname, hhandler⟩ := handler?_of_isFor tags ha
      rw [hr.registered] at hhandler
      simp only [reply, Moment.next?, replaceMarker, hname, hhandler, Option.some.injEq]
        at hreply hab
      rw [← hab]
      exact .taking (hr.plain m) hreply hstack
    | _ => cases ha

end Taken

/-- **Along every trail the markers of a tag take turns**, in the order in which they are handed
over, whatever the other tags do in between. -/
theorem Trail.turns {handler : Handler M} (hr : tags.Reserves slot tag handler)
    (ha : Taken tags files slot a.desk a) {passed : List (Moment M)}
    (h : Trail tags files a passed b) :
    ∃ turns d', Turns tags files slot a.desk turns d' ∧ Taken tags files slot d' b ∧
      turns.map Turn.moment = passed.filter (·.isFor tag) := by
  induction h with
  | here => exact ⟨[], a.desk, .start, ha, rfl⟩
  | @on passed b c _ hstep ih =>
    obtain ⟨turns, d', hturns, htaken, hmoments⟩ := ih
    -- the last moment hands over a marker of the tag, which is a turn, or it does not
    cases hfor : b.isFor tag with
    | false =>
      refine ⟨turns, d', hturns, htaken.next hr hfor hstep, ?_⟩
      rw [List.filter_append, List.filter_cons_of_neg (by simp [hfor]), hmoments, List.filter_nil,
        List.append_nil]
    | true =>
      obtain ⟨m, stack, text, d'', hb, hget, hreply, hnext⟩ := htaken.begin hr hfor hstep
      refine ⟨_, d'', (hturns.aside hget).turn m stack text 0 hreply, hnext, ?_⟩
      rw [List.filter_append, List.filter_cons_of_pos hfor, List.filter_nil, List.map_append,
        hmoments, hb]
      rfl

end Webcomic.Template
