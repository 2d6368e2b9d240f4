import Webcomic.Proofs.Template.Agreement

/-!
# What handlers keep

A handler can turn the session to another comic day and put anything into the memory. A script
**keeps** a day and a property of the memory if it does neither harm: in a session about that day it
never turns to another one, and whenever it ends or has something expanded, the memory has the
property. What it asks for can change the memory meanwhile, but to one with the property again
(`Script.Keeps`).

If all handlers of a registry are of that kind, the day and the property hold at every moment of an
expansion that begins with them (`Kept`). Each moment hands them on (`Kept.next`), and so do all
moments that follow (`Kept.leads`).
-/

namespace Webcomic.Template

open Calendar Files

variable {M : Type} {tags : Registry M} {files : FileTree} {date : Date} {P : M → Prop}
  {a b : Moment M} {stack : List (Frame M)} {d : Desk M}

/-! ## Scripts and handlers -/

/-- In a session about a day, a script leaves that day, and a memory with a property, whatever it is
answered. What is expanded in between has to do the same. -/
def Script.Keeps (date : Date) (P : M → Prop) : Script M → M → Prop
  | .reply _, m => P m
  | .look next, m => ∀ s : Session, s.requested = date → (next s).Keeps date P m
  | .isOpen _ next, m => ∀ answer, (next answer).Keeps date P m
  | .turnTo day next, m => day = date ∧ next.Keeps date P m
  | .recollect next, m => (next m).Keeps date P m
  | .remember m next, _ => next.Keeps date P m
  | .expand _ next, m => P m ∧ ∀ text m', P m' → (next text).Keeps date P m'

/-- A handler that keeps the day, and the property of the memory if it finds it. -/
def Handler.Keeps (date : Date) (P : M → Prop) (h : Handler M) : Prop :=
  ∀ marker m, P m → (h.handle marker).Keeps date P m

/-- A registry of such handlers. -/
def Registry.Keeps (date : Date) (P : M → Prop) (r : Registry M) : Prop :=
  ∀ name handler, (name, handler) ∈ r.handlers → handler.Keeps date P

/-! ## Moments -/

/-- What is done next keeps the day and the property. -/
def Task.Keeps (date : Date) (P : M → Prop) : Task M → M → Prop
  | .perform script, m => script.Keeps date P m
  | _, m => P m

/-- What waits keeps them, if what it waits for does. -/
def Frame.Keeps (date : Date) (P : M → Prop) : Frame M → Prop
  | .reading _ => True
  | .script next => ∀ text m, P m → (next text).Keeps date P m

/-- What holds at every moment of an expansion that keeps a day and a property of the memory. -/
structure Kept (date : Date) (P : M → Prop) (a : Moment M) : Prop where
  requested : a.desk.session.requested = date
  task : a.task.Keeps date P a.desk.memory
  stack : ∀ frame ∈ a.stack, frame.Keeps date P

namespace Kept

/-! ## Every moment hands it on -/

section Steps

variable (hday : d.session.requested = date) (hmemory : P d.memory)
  (hstack : ∀ frame ∈ stack, frame.Keeps date P)
include hday hmemory hstack

theorem go_call {q : Request} (wd : Location) : Kept date P (q.go wd stack d) := by
  cases q with
  | text t => exact ⟨hday, hmemory, hstack⟩
  | file path =>
    by_cases hopen : path.locate wd ∈ d.session.openFiles
    · rw [Request.go_of_open stack hopen]
      exact ⟨hday, hmemory, hstack⟩
    · rw [Request.go_of_not_open stack hopen]
      exact ⟨hday, hmemory, hstack⟩

/-- Leaving a call changes neither the day nor the memory. -/
theorem leave {source : Request} (wd : Location) {task : Task M}
    (htask : ∀ m, P m → task.Keeps date P m) : Kept date P ⟨task, stack, d.leave wd source⟩ := by
  cases source with
  | text t => exact ⟨hday, htask _ hmemory, hstack⟩
  | file path => exact ⟨hday, htask _ hmemory, hstack⟩

theorem go_load {path : Path} : Kept date P (loadFile files path stack d) := by
  unfold loadFile
  split
  · exact leave hday hmemory hstack _ fun _ hm => hm
  · exact ⟨hday, hmemory, hstack⟩

theorem go_read {r : Reading} (wd : Location) : Kept date P (r.go wd stack d) := by
  unfold Reading.go
  split
  · -- the reading waits now, for a marker that is about to be handed to its handler
    exact ⟨hday, hmemory, List.forall_mem_cons.mpr ⟨trivial, hstack⟩⟩
  · exact leave hday hmemory hstack _ fun _ hm => hm
  · exact ⟨hday, hmemory, hstack⟩
  · exact leave hday hmemory hstack _ fun _ hm => hm

theorem go_replace {m : Marker} (htags : tags.Keeps date P) :
    Kept date P (replaceMarker tags m stack d) := by
  unfold replaceMarker
  split
  · exact ⟨hday, hmemory, hstack⟩
  · split
    next hhandler =>
      exact ⟨hday, htags _ _ (Keyed.mem_of_get? hhandler) m _ hmemory, hstack⟩
    · split
      · exact ⟨hday, hmemory, hstack⟩
      · exact ⟨hday, hmemory, hstack⟩

end Steps

theorem go_perform {script : Script M} (wd : Location) (hday : d.session.requested = date)
    (hscript : script.Keeps date P d.memory) (hstack : ∀ frame ∈ stack, frame.Keeps date P) :
    Kept date P (script.go wd stack d) := by
  cases script with
  | reply text => exact ⟨hday, hscript, hstack⟩
  | look next => exact ⟨hday, hscript _ hday, hstack⟩
  | isOpen path next => exact ⟨hday, hscript _, hstack⟩
  | turnTo day next => exact ⟨hscript.1, hscript.2, hstack⟩
  | recollect next => exact ⟨hday, hscript, hstack⟩
  | remember m next => exact ⟨hday, hscript, hstack⟩
  | expand request next =>
    -- the rest of the script waits, for an answer that comes with some other memory
    exact ⟨hday, hscript.1, List.forall_mem_cons.mpr ⟨hscript.2, hstack⟩⟩

theorem go_answer {text : String} {frame : Frame M} (hday : d.session.requested = date)
    (hmemory : P d.memory) (hwaiting : ∀ f ∈ frame :: stack, f.Keeps date P) :
    Kept date P ⟨frame.resume text, stack, d⟩ := by
  obtain ⟨hframe, hstack⟩ := List.forall_mem_cons.mp hwaiting
  cases frame with
  | reading r => exact ⟨hday, hmemory, hstack⟩
  | script next => exact ⟨hday, hframe text _ hmemory, hstack⟩

/-- **Each moment hands the day and the property on to the next.** -/
theorem next (htags : tags.Keeps date P) (h : Kept date P a) (hab : a.next? tags files = some b) :
    Kept date P b := by
  obtain ⟨task, stack, d⟩ := a
  obtain ⟨hday, htask, hstack⟩ := h
  -- only a script reaches the day and the memory; any other task finds the memory as it is
  cases task with
  | call q =>
    cases hab
    exact go_call hday htask hstack _
  | load path =>
    cases hab
    exact go_load hday htask hstack
  | read r =>
    cases hab
    exact go_read hday htask hstack _
  | replace m =>
    cases hab
    exact go_replace hday htask hstack htags
  | perform script =>
    cases hab
    exact go_perform _ hday htask hstack
  | report e =>
    cases hab
    exact ⟨hday, htask, hstack⟩
  | answer text =>
    cases stack with
    | nil => cases hab
    | cons frame stack =>
      cases hab
      exact go_answer hday htask hstack

/-- **What every handler keeps is kept at every moment.** -/
theorem leads (htags : tags.Keeps date P) (h : Kept date P a) (hab : Leads tags files a b) :
    Kept date P b := by
  induction hab with
  | refl => exact h
  | tail _ hstep ih => exact ih.next htags hstep

end Kept

/-! ## Calls that come to an end -/

/-- **A call leaves the day and the property as it found them.** -/
theorem kept_of_expand {depth : Nat} {q : Request} {d' : Desk M} {text : String}
    (htags : tags.Keeps date P) (hday : d.session.requested = date) (hmemory : P d.memory)
    (h : expand tags files depth q d = some (text, d')) :
    d'.session.requested = date ∧ P d'.memory := by
  have hstart : Kept date P ⟨.call q, [], d⟩ := ⟨hday, hmemory, nofun⟩
  have hend := hstart.leads htags (leads_of_expand tags files depth q d text d' h [])
  exact ⟨hend.requested, hend.task⟩

end Webcomic.Template
