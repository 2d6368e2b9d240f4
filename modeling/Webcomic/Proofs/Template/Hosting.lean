import Mathlib.Logic.Function.Basic
import Webcomic.Proofs.Template.Simulation
import Webcomic.Template.Depth

/-!
# Using one registry for many sessions

A host keeps a registry and any number of sessions. In any order it begins a session anew, turns one
to another day, has a text, a file or a single marker expanded in one, and lets a comic day or a
page start (`Act`). The files can be others each time.

- `Host.Does`, `Host.Runs`: what acts are answered with, and the host after them. There is one
  answer (`Host.Runs.unique`), and with handlers that have only files expanded there is one in every
  case (`Host.exists_runs`).
- `Host.Alike`: two hosts with the same sessions and handlers, whose registries remember what is
  related. If the handlers respect the relation, also when a day or a page starts, whatever the
  hosts go on to do is answered alike (`Host.Alike.runs`).
-/

namespace Webcomic.Template

open Calendar Files

variable {M : Type} {R : M → M → Prop} {r r' r'' : Registry M} {files : FileTree}
  {s s' s'' : Session} {i : Inquiry} {depth depth' : Nat} {text text' : String}

/-! ## Inquiries -/

/-- What a registry is asked for in a session. -/
inductive Inquiry where
  | expand (request : Request)
  | reply (m : Marker)

/-- What is done first. -/
def Inquiry.task : Inquiry → Task M
  | .expand request => .call request
  | .reply m => .replace m

namespace Registry

/-- The answer to an inquiry, and the registry and the session after it. -/
def ask (r : Registry M) (files : FileTree) (depth : Nat) (s : Session) :
    Inquiry → Option (String × Registry M × Session)
  | .expand request => r.expand files depth request s
  | .reply m => r.dispatch files depth m s

/-- An inquiry is answered by a run of its task, which leaves its memory to the registry and its
session to the host. -/
theorem ask_eq_some :
    r.ask files depth s i = some (text, r', s') ↔
      ∃ d, i.task.run r files depth (r.desk s) = some (text, d) ∧ r.leaving d = r' ∧
        d.session = s' := by
  have hperform : ∀ run : Run M String, r.perform s run = some (text, r', s') ↔
      ∃ d, run (r.desk s) = some (text, d) ∧ r.leaving d = r' ∧ d.session = s' := by
    intro run
    constructor
    · intro h
      obtain ⟨⟨_, d⟩, hrun, heq⟩ := Option.map_eq_some_iff.mp h
      cases heq
      exact ⟨d, hrun, rfl, rfl⟩
    · rintro ⟨d, hrun, rfl, rfl⟩
      exact Option.map_eq_some_iff.mpr ⟨(text, d), hrun, rfl⟩
  cases i with
  | expand request => exact hperform _
  | reply m => exact hperform _

/-- An inquiry has one answer, at whatever depth it has one. -/
theorem ask_unique (h : r.ask files depth s i = some (text, r', s'))
    (h' : r.ask files depth' s i = some (text', r'', s'')) :
    text = text' ∧ r' = r'' ∧ s' = s'' := by
  obtain ⟨d, hrun, rfl, rfl⟩ := ask_eq_some.mp h
  obtain ⟨d', hrun', rfl, rfl⟩ := ask_eq_some.mp h'
  have hend := (leads_of_run hrun []).unique (leads_of_run hrun' []) rfl rfl
  cases hend
  exact ⟨rfl, rfl, rfl⟩

/-- Handlers that have only files expanded answer every inquiry. -/
theorem exists_ask (hr : r.FileBound) (files : FileTree) (s : Session) (i : Inquiry) :
    ∃ depth text d, r.ask files depth s i = some (text, r.leaving d, d.session) := by
  -- there is a level for each file that is not open yet
  have hbound : unopened files s.openFiles < levels files :=
    Nat.lt_succ_of_le (unopened_le files _)
  cases i with
  | expand request =>
    cases request with
    | text t =>
      obtain ⟨text, d, hrun, -⟩ := settles_expand_text hr hbound t (r.desk s) rfl
      exact ⟨levels files + 1, text, d, ask_eq_some.mpr ⟨d, hrun, rfl, rfl⟩⟩
    | file path =>
      obtain ⟨text, d, hrun, -⟩ := settles_expand_file hr hbound path (r.desk s) rfl
      exact ⟨levels files, text, d, ask_eq_some.mpr ⟨d, hrun, rfl, rfl⟩⟩
  | reply m =>
    obtain ⟨text, d, hrun, -⟩ :=
      settles_reply hr (settles_expand_file hr hbound) m (r.desk s) rfl
    exact ⟨levels files, text, d, ask_eq_some.mpr ⟨d, hrun, rfl, rfl⟩⟩

end Registry

/-! ## Hosts -/

/-- A registry and the sessions that it is used in. -/
structure Host (M : Type) where
  registry : Registry M
  sessions : Nat → Session

/-- What a host does. -/
inductive Act where
  /-- Asks for something in a session, with the files as they are then. -/
  | ask (files : FileTree) (session : Nat) (inquiry : Inquiry)
  /-- Begins a session anew. -/
  | begin (session : Nat) (s : Session)
  /-- Turns a session to another comic day. -/
  | turnTo (session : Nat) (date : Date)
  | newDay
  | newPage

namespace Host

variable {h h₁ h₂ k : Host M} {act : Act} {answer answer' : Option String} {acts : List Act}
  {answers answers' : List (Option String)}

/-- What an act is answered with, and the host after it. -/
inductive Does (h : Host M) : Act → Option String → Host M → Prop where
  | ask {files : FileTree} {n : Nat} {i : Inquiry} {depth : Nat} {text : String}
      {r : Registry M} {s : Session} :
      h.registry.ask files depth (h.sessions n) i = some (text, r, s) →
      Does h (.ask files n i) (some text) ⟨r, Function.update h.sessions n s⟩
  | begin (n : Nat) (s : Session) :
      Does h (.begin n s) none ⟨h.registry, Function.update h.sessions n s⟩
  | turnTo (n : Nat) (date : Date) :
      Does h (.turnTo n date) none
        ⟨h.registry, Function.update h.sessions n { h.sessions n with requested := date }⟩
  | newDay : Does h .newDay none ⟨h.registry.resetForDay, h.sessions⟩
  | newPage : Does h .newPage none ⟨h.registry.resetForPage, h.sessions⟩

/-- What acts are answered with, one after another, and the host after them. -/
inductive Runs : Host M → List Act → List (Option String) → Host M → Prop where
  | done (h : Host M) : Runs h [] [] h
  | act {h h₁ h₂ : Host M} {act : Act} {answer : Option String} {acts : List Act}
      {answers : List (Option String)} :
      h.Does act answer h₁ → Runs h₁ acts answers h₂ → Runs h (act :: acts) (answer :: answers) h₂

/-- An act is answered in one way. -/
theorem Does.unique (hdoes : h.Does act answer h₁) (hdoes' : h.Does act answer' h₂) :
    answer = answer' ∧ h₁ = h₂ := by
  cases hdoes with
  | ask hask =>
    cases hdoes' with
    | ask hask' =>
      obtain ⟨rfl, rfl, rfl⟩ := Registry.ask_unique hask hask'
      exact ⟨rfl, rfl⟩
  | begin n s =>
    cases hdoes'
    exact ⟨rfl, rfl⟩
  | turnTo n date =>
    cases hdoes'
    exact ⟨rfl, rfl⟩
  | newDay =>
    cases hdoes'
    exact ⟨rfl, rfl⟩
  | newPage =>
    cases hdoes'
    exact ⟨rfl, rfl⟩

/-- **Acts are answered in one way.** -/
theorem Runs.unique (hruns : h.Runs acts answers h₁) (hruns' : h.Runs acts answers' h₂) :
    answers = answers' ∧ h₁ = h₂ := by
  induction hruns generalizing answers' with
  | done h =>
    cases hruns'
    exact ⟨rfl, rfl⟩
  | act hdoes _ ih =>
    cases hruns' with
    | act hdoes' hrest' =>
      obtain ⟨rfl, rfl⟩ := hdoes.unique hdoes'
      obtain ⟨rfl, rfl⟩ := ih hrest'
      exact ⟨rfl, rfl⟩

/-- No act changes the handlers or the policy. -/
theorem Does.same_tags (hdoes : h.Does act answer h₁) :
    h₁.registry.handlers = h.registry.handlers ∧ h₁.registry.policy = h.registry.policy := by
  cases hdoes with
  | ask hask =>
    obtain ⟨d, -, rfl, -⟩ := Registry.ask_eq_some.mp hask
    exact ⟨rfl, rfl⟩
  | _ => exact ⟨rfl, rfl⟩

/-- Whatever a host does, its tags stay the same. -/
theorem Runs.same_tags (hruns : h.Runs acts answers h₁) :
    h₁.registry.handlers = h.registry.handlers ∧ h₁.registry.policy = h.registry.policy := by
  induction hruns with
  | done h => exact ⟨rfl, rfl⟩
  | act hdoes _ ih =>
    exact ⟨ih.1.trans hdoes.same_tags.1, ih.2.trans hdoes.same_tags.2⟩

/-- Handlers that have only files expanded answer whatever a host does. -/
theorem exists_does (hr : h.registry.FileBound) (act : Act) :
    ∃ answer h₁, h.Does act answer h₁ := by
  cases act with
  | ask files n i =>
    obtain ⟨depth, text, d, hask⟩ := Registry.exists_ask hr files (h.sessions n) i
    exact ⟨_, _, .ask hask⟩
  | begin n s => exact ⟨_, _, .begin n s⟩
  | turnTo n date => exact ⟨_, _, .turnTo n date⟩
  | newDay => exact ⟨_, _, .newDay⟩
  | newPage => exact ⟨_, _, .newPage⟩

/-- Handlers that have only files expanded answer whatever acts there are. -/
theorem exists_runs (hr : h.registry.FileBound) (acts : List Act) :
    ∃ answers h₁, h.Runs acts answers h₁ := by
  induction acts generalizing h with
  | nil => exact ⟨[], h, .done h⟩
  | cons act acts ih =>
    obtain ⟨answer, h₁, hdoes⟩ := exists_does hr act
    have hr₁ : h₁.registry.FileBound := by
      rw [Registry.FileBound, hdoes.same_tags.1]
      exact hr
    obtain ⟨answers, h₂, hruns⟩ := ih hr₁
    exact ⟨_, h₂, .act hdoes hruns⟩

/-! ## Hosts that are answered alike -/

/-- Two hosts with the same sessions and the same tags, which remember what is related. -/
structure Alike (R : M → M → Prop) (h k : Host M) : Prop where
  handlers : k.registry.handlers = h.registry.handlers
  policy : k.registry.policy = h.registry.policy
  memory : R h.registry.memory k.registry.memory
  sessions : k.sessions = h.sessions

end Host

/-- When a day or a page starts, memories that are related are reset to such memories. -/
structure Handler.ResetsAlike (R : M → M → Prop) (h : Handler M) : Prop where
  forDay : ∀ m m', R m m' → R (h.resetForDay m) (h.resetForDay m')
  forPage : ∀ m m', R m m' → R (h.resetForPage m) (h.resetForPage m')

/-- A registry of handlers that respect a relation, also when a day or a page starts. -/
structure Registry.Preserves (R : M → M → Prop) (r : Registry M) : Prop where
  respects : r.Respects R
  resets : ∀ name handler, (name, handler) ∈ r.handlers → handler.ResetsAlike R

namespace Registry.Preserves

/-- It does not depend on what is remembered. -/
theorem of_handlers (hr : r.Preserves R) (h : r'.handlers = r.handlers) : r'.Preserves R := by
  constructor
  · rw [Registry.Respects, h]
    exact hr.respects
  · rw [h]
    exact hr.resets

/-- Memories stay related while one handler after another resets them. -/
theorem related_foldl {handlers : List (String × Handler M)} {reset : Handler M → M → M}
    (hreset : ∀ name handler, (name, handler) ∈ handlers →
      ∀ m m', R m m' → R (reset handler m) (reset handler m')) {m m' : M} (hm : R m m') :
    R (handlers.foldl (fun m entry => reset entry.2 m) m)
      (handlers.foldl (fun m entry => reset entry.2 m) m') := by
  induction handlers generalizing m m' with
  | nil => exact hm
  | cons entry handlers ih =>
    refine ih (fun name handler hmem => hreset name handler (List.mem_cons_of_mem _ hmem)) ?_
    exact hreset entry.1 entry.2 List.mem_cons_self m m' hm

section

variable (hr : r.Preserves R) (hhandlers : r'.handlers = r.handlers) (hm : R r.memory r'.memory)
include hr hhandlers hm

theorem resetForDay : R r.resetForDay.memory r'.resetForDay.memory := by
  have hfold := related_foldl (fun name handler hmem => (hr.resets name handler hmem).forDay) hm
  have hreset : r'.resetForDay.memory =
      r.handlers.foldl (fun m entry => entry.2.resetForDay m) r'.memory := by
    rw [← hhandlers]
    rfl
  rw [hreset]
  exact hfold

theorem resetForPage : R r.resetForPage.memory r'.resetForPage.memory := by
  have hfold := related_foldl (fun name handler hmem => (hr.resets name handler hmem).forPage) hm
  have hreset : r'.resetForPage.memory =
      r.handlers.foldl (fun m entry => entry.2.resetForPage m) r'.memory := by
    rw [← hhandlers]
    rfl
  rw [hreset]
  exact hfold

end

end Registry.Preserves

/-- Expansions that begin alike have the same answer in the same session, and leave memories that
are related. -/
theorem Moment.Alike.run_eq (hr : r.Respects R) (hhandlers : r'.handlers = r.handlers)
    (hpolicy : r'.policy = r.policy) {task : Task M} (htask : ∀ script, task ≠ .perform script)
    {d e d' : Desk M} (hmemory : R d.memory e.memory) (hsession : e.session = d.session)
    (hrun : task.run r files depth d = some (text, d')) :
    ∃ depth e', task.run r' files depth e = some (text, e') ∧ R d'.memory e'.memory ∧
      e'.session = d'.session := by
  have hstart : Moment.Alike R ⟨task, [], d⟩ ⟨task, [], e⟩ :=
    ⟨.same htask hmemory, .nil, hsession⟩
  obtain ⟨⟨task', stack, e'⟩, hleads, htask', hstack, hsession'⟩ :=
    hstart.leads hr hhandlers hpolicy rfl (fun _ _ _ _ => rfl) (leads_of_run hrun [])
  cases hstack
  cases htask' with
  | same _ hm =>
    obtain ⟨depth', hrun'⟩ := leads_answer_iff.mp hleads
    exact ⟨depth', e', hrun', hm, hsession'⟩

namespace Host.Alike

variable {h h₁ k : Host M} {act : Act} {answer : Option String} {acts : List Act}
  {answers : List (Option String)}

/-- **Whatever alike hosts do is answered alike**, and they stay alike. -/
theorem does (halike : Alike R h k) (hr : h.registry.Preserves R) (hdoes : h.Does act answer h₁) :
    ∃ k₁, k.Does act answer k₁ ∧ Alike R h₁ k₁ := by
  obtain ⟨hhandlers, hpolicy, hmemory, hsessions⟩ := halike
  cases hdoes with
  | @ask files n i depth text _ _ hask =>
    obtain ⟨d, hrun, rfl, rfl⟩ := Registry.ask_eq_some.mp hask
    -- an inquiry never begins in the middle of a handler
    have htask : ∀ script, (i.task : Task M) ≠ .perform script := by
      cases i <;> exact nofun
    have hsession : (k.registry.desk (k.sessions n)).session = h.sessions n := congrFun hsessions n
    obtain ⟨depth', e, hrun', hm, hs⟩ :=
      Moment.Alike.run_eq hr.respects hhandlers hpolicy htask hmemory hsession hrun
    refine ⟨_, .ask (Registry.ask_eq_some.mpr ⟨e, hrun', rfl, rfl⟩), hhandlers, hpolicy, hm, ?_⟩
    rw [hsessions, hs]
  | begin n s =>
    exact ⟨_, .begin n s, hhandlers, hpolicy, hmemory, congrArg (Function.update · n s) hsessions⟩
  | turnTo n date =>
    refine ⟨_, .turnTo n date, hhandlers, hpolicy, hmemory, ?_⟩
    rw [hsessions]
  | newDay =>
    exact ⟨_, .newDay, hhandlers, hpolicy, hr.resetForDay hhandlers hmemory, hsessions⟩
  | newPage =>
    exact ⟨_, .newPage, hhandlers, hpolicy, hr.resetForPage hhandlers hmemory, hsessions⟩

/-- What alike hosts do, act after act, is answered alike. -/
theorem runs (halike : Alike R h k) (hr : h.registry.Preserves R)
    (hruns : h.Runs acts answers h₁) : ∃ k₁, k.Runs acts answers k₁ ∧ Alike R h₁ k₁ := by
  induction hruns generalizing k with
  | done h => exact ⟨k, .done k, halike⟩
  | act hdoes _ ih =>
    obtain ⟨k₁, hdoes', halike₁⟩ := halike.does hr hdoes
    obtain ⟨k₂, hruns', halike₂⟩ := ih halike₁ (hr.of_handlers hdoes.same_tags.1)
    exact ⟨k₂, .act hdoes' hruns', halike₂⟩

end Host.Alike

end Webcomic.Template
