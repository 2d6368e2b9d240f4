import Webcomic.Site.Publish

/-!
# Performing changes

What a change comes to, step by step: `Change.perform` of each way to build one. A change that
succeeds has gone through all its steps (`Change.bind_eq_ok`).

`Telling.perform` is told in the same way for changes that tell how far they have come. What is told
is put behind what has been told before, and stays when a later step fails.
-/

namespace Webcomic.Site.Change

open Files

variable {α β : Type} {files files' : FileTree}

@[simp] theorem perform_get (files : FileTree) :
    (get : Change FileTree).perform files = (.ok files, files) := rfl

theorem perform_bind (x : Change α) (f : α → Change β) (files : FileTree) :
    (x >>= f).perform files =
      match x.perform files with
      | (.ok a, files') => (f a).perform files'
      | (.error e, files') => (.error e, files') := by
  unfold perform
  rw [ExceptT.run_bind, StateT.run_bind]
  show (match x.run.run files with | (result, files') => _) = _
  rcases x.run.run files with ⟨_ | _, _⟩ <;> rfl

theorem perform_look (f : FileTree → Except Fault α) (files : FileTree) :
    (look f).perform files = ((f files).mapError .files, files) := by
  rw [look, perform_bind, perform_get]
  dsimp only
  cases f files <;> rfl

theorem perform_step (f : FileTree → Except Error FileTree) (files : FileTree) :
    (step f).perform files =
      match f files with
      | .ok files' => (.ok (), files')
      | .error e => (.error e, files) := by
  rw [step, perform_bind, perform_get]
  dsimp only
  cases f files <;> rfl

theorem perform_makeDirectories (p : Path) (files : FileTree) :
    (makeDirectories p).perform files =
      (match (files.makeDirectories p).2 with
        | none => .ok ()
        | some fault => .error (.files fault), (files.makeDirectories p).1) := by
  rw [makeDirectories, perform_bind, perform_get]
  dsimp only
  rcases files.makeDirectories p with ⟨_, _ | _⟩ <;> rfl

theorem perform_write (p : Path) (text : String) (files : FileTree) :
    (write p text).perform files =
      match files.write p text.toUTF8 with
      | .ok files' => (.ok (), files')
      | .error fault => (.error (.files fault), files) := by
  rw [write, perform_step]
  cases files.write p text.toUTF8 <;> rfl

/-- What comes of a change is followed by some tree. -/
theorem exists_outcome {outcome : Except Error α × FileTree} {result : Except Error α}
    (h : outcome.1 = result) : ∃ after, outcome = (result, after) :=
  ⟨outcome.2, Prod.ext h rfl⟩

/-- **A change that succeeds has gone through all its steps.** -/
theorem bind_eq_ok {x : Change α} {f : α → Change β} {b : β} :
    (x >>= f).perform files = (.ok b, files') ↔
      ∃ a mid, x.perform files = (.ok a, mid) ∧ (f a).perform mid = (.ok b, files') := by
  rw [perform_bind]
  constructor
  · intro h
    split at h
    next a mid hx => exact ⟨a, mid, hx, h⟩
    · cases h
  · rintro ⟨a, mid, hx, h⟩
    rw [hx]
    exact h

/-- A change in two steps ends with the first if that fails, and with the second otherwise. -/
theorem bind_eq {x : Change α} {f : α → Change β} {result : Except Error β}
    (h : (x >>= f).perform files = (result, files')) :
    (∃ e, x.perform files = (.error e, files') ∧ result = .error e) ∨
      ∃ a mid, x.perform files = (.ok a, mid) ∧ (f a).perform mid = (result, files') := by
  rw [perform_bind] at h
  split at h
  next a mid hx => exact .inr ⟨a, mid, hx, h⟩
  next e mid hx =>
    cases h
    exact .inl ⟨e, hx, rfl⟩

/-- A look at the files changes nothing and fails only with a fault. -/
theorem look_eq_error {f : FileTree → Except Fault α} {e : Error}
    (h : (look f).perform files = (.error e, files')) :
    files' = files ∧ ∃ fault, e = .files fault := by
  rw [perform_look] at h
  obtain ⟨hresult, rfl⟩ := Prod.mk.inj h
  refine ⟨rfl, ?_⟩
  cases hf : f files with
  | error fault =>
    rw [hf] at hresult
    cases hresult
    exact ⟨fault, rfl⟩
  | ok a =>
    rw [hf] at hresult
    cases hresult

theorem look_eq_ok {f : FileTree → Except Fault α} {a : α}
    (h : (look f).perform files = (.ok a, files')) : f files = .ok a ∧ files = files' := by
  rw [perform_look] at h
  obtain ⟨hresult, rfl⟩ := Prod.mk.inj h
  refine ⟨?_, rfl⟩
  cases hf : f files with
  | error fault =>
    rw [hf] at hresult
    cases hresult
  | ok b =>
    rw [hf] at hresult
    cases hresult
    rfl

theorem makeDirectories_eq_ok {p : Path}
    (h : (makeDirectories p).perform files = (.ok (), files')) :
    (files.makeDirectories p).1 = files' ∧ (files.makeDirectories p).2 = none := by
  rw [perform_makeDirectories] at h
  injection h with hresult hfiles
  refine ⟨hfiles, ?_⟩
  split at hresult
  · assumption
  · cases hresult

/-- Directories that were made stay if another one cannot be made. -/
theorem makeDirectories_eq_error {p : Path} {e : Error}
    (h : (makeDirectories p).perform files = (.error e, files')) :
    (files.makeDirectories p).1 = files' ∧ ∃ fault, e = .files fault := by
  rw [perform_makeDirectories] at h
  obtain ⟨hresult, hfiles⟩ := Prod.mk.inj h
  refine ⟨hfiles, ?_⟩
  split at hresult
  · cases hresult
  next fault _ =>
    cases hresult
    exact ⟨fault, rfl⟩

end Webcomic.Site.Change

namespace Webcomic.Site.Telling

open Files

variable {α β : Type}

theorem perform_pure (a : α) (told : List Progress) (files : FileTree) :
    (pure a : Telling α).perform told files = ((.ok a, told), files) := rfl

/-- What the first step has told stays told if it fails, and goes before what the others tell. -/
theorem perform_bind (x : Telling α) (f : α → Telling β) (told : List Progress)
    (files : FileTree) :
    (x >>= f).perform told files =
      match x.perform told files with
      | ((.ok a, told'), files') => (f a).perform told' files'
      | ((.error e, told'), files') => ((.error e, told'), files') := by
  unfold perform
  rw [ExceptT.run_bind, StateT.run_bind, StateT.run_bind]
  show (match (x.run.run told).run files with | ((result, told'), files') => _) = _
  rcases (x.run.run told).run files with ⟨⟨_ | _, _⟩, _⟩ <;> rfl

/-- A change of the files is what it is without telling. -/
theorem perform_silent (x : Change α) (told : List Progress) (files : FileTree) :
    (silent x).perform told files = (((x.perform files).1, told), (x.perform files).2) := rfl

theorem perform_tell (progress : Progress) (told : List Progress) (files : FileTree) :
    (tell progress).perform told files = ((.ok (), told ++ [progress]), files) := rfl

/-- What is told by a change that fails is not recorded. -/
theorem perform_recorded (x : Telling α) (files : FileTree) :
    x.recorded.perform files =
      ((x.perform [] files).1.1.map (·, (x.perform [] files).1.2), (x.perform [] files).2) := rfl

end Webcomic.Site.Telling
