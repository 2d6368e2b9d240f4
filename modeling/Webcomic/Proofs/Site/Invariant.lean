import Webcomic.Proofs.Site.Run

/-!
# What a run keeps

A run changes the files by writing one, making a directory or moving one, and in no other way. So
what each of these keeps, a run keeps (`Change.preserves_publish`), however far it comes: also a run
that fails leaves the directories where they are, and the tree of a file system is still one.
-/

namespace Webcomic.Files.FileTree

variable {P : FileTree → Prop} {t t' : FileTree}

/-- What holds of a tree goes on to hold whatever is written, made or moved. -/
structure Stable (P : FileTree → Prop) : Prop where
  write : ∀ {t t' : FileTree} {p : Path} {content : ByteArray},
    P t → t.write p content = .ok t' → P t'
  makeDirectory : ∀ {t t' : FileTree} {p : Path}, P t → t.makeDirectory p = .ok t' → P t'
  move : ∀ {t t' : FileTree} {source target : Path}, P t → t.move source target = .ok t' → P t'

/-- It holds whichever of the directories can be made. -/
theorem Stable.makeDirectoriesUpTo (h : Stable P) (ht : P t) (p : Path) (depth : Nat) :
    P (t.makeDirectoriesUpTo p depth).1 := by
  induction depth generalizing p with
  | zero => exact ht
  | succ depth ih =>
    unfold FileTree.makeDirectoriesUpTo
    split
    · exact ht
    split
    next hmake => exact h.makeDirectory ht hmake
    · split
      · exact ht
      next parent hparent =>
        have hway := ih parent
        split
        next hrest =>
          rw [hrest] at hway
          exact hway
        next hrest =>
          rw [hrest] at hway
          split
          next hmake => exact h.makeDirectory hway hmake
          · exact hway
    · exact ht

/-- The directories of a tree are kept. -/
theorem stable_keeps (files : FileTree) : Stable files.Keeps where
  write h hwrite := h.trans (filled_of_write hwrite).keeps
  makeDirectory h hmake := h.trans (set_of_makeDirectory hmake).1.keeps
  move h hmove := h.trans (Site.keeps_of_move hmove).1

/-- The tree of a file system stays one. -/
theorem stable_named : Stable Named where
  write h hwrite := by
    obtain ⟨htarget, rfl⟩ := set_of_write hwrite
    exact h.set (namesEntry_of_writeTarget htarget).1 _
  makeDirectory {t _ p} h hmake := by
    unfold FileTree.makeDirectory at hmake
    cases htarget : t.directoryTarget p with
    | error fault =>
      rw [htarget] at hmake
      cases hmake
    | ok loc =>
      rw [htarget] at hmake
      cases hmake
      exact h.set (namesEntry_of_directoryTarget htarget).1 _
  move h hmove := by
    obtain ⟨content, -, htarget, rfl⟩ := exists_of_move hmove
    split
    · exact h
    · exact (h.discard _).set (namesEntry_of_moveTarget htarget).1 _

end Webcomic.Files.FileTree

namespace Webcomic.Site

open Calendar Files Template

variable {P : FileTree → Prop} {α β : Type} {c : Config} {today : Date}

namespace Change

/-- What holds of the files before a change holds after it, also if it fails. -/
def Preserves (P : FileTree → Prop) (x : Change α) : Prop :=
  ∀ files, P files → P (x.perform files).2

theorem preserves_pure (a : α) : Preserves P (pure a) := fun _ h => h

theorem preserves_throw (e : Error) : Preserves P (throw e : Change α) := fun _ h => h

theorem preserves_get : Preserves P (get : Change FileTree) := fun _ h => h

/-- Changes that keep a property keep it one after the other. -/
theorem Preserves.bind {x : Change α} {f : α → Change β} (hx : Preserves P x)
    (hf : ∀ a, Preserves P (f a)) : Preserves P (x >>= f) := by
  intro files hfiles
  have hmid := hx files hfiles
  rw [perform_bind]
  split
  next heq =>
    rw [heq] at hmid
    exact hf _ _ hmid
  next heq =>
    rw [heq] at hmid
    exact hmid

theorem preserves_look (f : FileTree → Except Fault α) : Preserves P (look f) := by
  intro files hfiles
  rw [perform_look]
  exact hfiles

theorem preserves_step {f : FileTree → Except Error FileTree}
    (hf : ∀ t t', P t → f t = .ok t' → P t') : Preserves P (step f) := by
  intro files hfiles
  rw [perform_step]
  split
  next hstep => exact hf _ _ hfiles hstep
  · exact hfiles

theorem preserves_forM {names : List α} {f : α → Change Unit} (hf : ∀ a, Preserves P (f a)) :
    Preserves P (names.forM f) := by
  induction names with
  | nil => exact preserves_pure ()
  | cons name names ih => exact (hf name).bind fun _ => ih

theorem preserves_foldlM {dates : List β} {f : α → β → Change α}
    (hf : ∀ a b, Preserves P (f a b)) (a : α) : Preserves P (dates.foldlM f a) := by
  induction dates generalizing a with
  | nil => exact preserves_pure a
  | cons date dates ih => exact (hf a date).bind ih

variable (h : FileTree.Stable P)
include h

theorem preserves_makeDirectories (p : Path) : Preserves P (makeDirectories p) := by
  intro files hfiles
  rw [perform_makeDirectories]
  exact h.makeDirectoriesUpTo hfiles p _

theorem preserves_write (p : Path) (text : String) : Preserves P (write p text) := by
  refine preserves_step fun t t' ht hwrite => ?_
  cases hresult : t.write p text.toUTF8 with
  | error fault =>
    rw [hresult] at hwrite
    cases hwrite
  | ok after =>
    rw [hresult] at hwrite
    cases hwrite
    exact h.write ht hresult

/-- A move that fails leaves the tree as it was. -/
theorem preserves_moveFile (source target : Path) (name : String) :
    Preserves P (moveFile source target name) := by
  intro files hfiles
  generalize hmoved : (moveFile source target name).perform files = outcome
  obtain ⟨result, after⟩ := outcome
  cases result with
  | ok done => exact h.move hfiles (move_of_moveFile hmoved)
  | error e =>
    rw [moveFile, perform_step] at hmoved
    split at hmoved
    · cases hmoved
    · cases hmoved
      exact hfiles

/-- A promotion makes directories and moves files, and does nothing else to the tree. -/
theorem preserves_promote (upload comics : Path) : Preserves P (promote upload comics today) := by
  rw [promote_eq]
  refine preserves_get.bind fun files => ?_
  split
  · exact preserves_pure 0
  · refine (preserves_makeDirectories h comics).bind fun _ => ?_
    refine (preserves_look _).bind fun listing => ?_
    exact (preserves_forM (preserves_moveFile h upload comics)).bind fun _ => preserves_pure _

/-- A preparation promotes and makes directories. What it reads changes nothing. -/
theorem preserves_prepare : Preserves P (prepare c today) := by
  refine preserves_get.bind fun files => ?_
  split
  · exact preserves_throw _
  refine (preserves_promote h _ _).bind fun n => (preserves_look _).bind fun archive => ?_
  dsimp only
  split
  · exact preserves_throw _
  · exact (preserves_makeDirectories h _).bind fun _ => preserves_pure _

/-- Daily pages are written, and nothing else is done to the tree. -/
theorem preserves_writeDailies (tags : PageTags Memory) (dates : List Date) :
    Preserves P (writeDailies c today tags dates) := by
  refine preserves_foldlM (fun tags date => ?_) tags
  exact preserves_get.bind fun files => (preserves_write h _ _).bind fun _ => preserves_pure _

theorem preserves_writeIndex (tags : PageTags Memory) (date : Date) :
    Preserves P (writeIndex c today tags date) := by
  refine preserves_get.bind fun files => ?_
  split
  · exact (preserves_write h _ _).bind fun _ => preserves_pure _
  · exact preserves_pure _

/-- **What is stable is kept by a run**, whether it succeeds or fails. -/
theorem preserves_publish : Preserves P (publishWithProgress c today) := by
  rw [publishWithProgress_eq]
  refine (preserves_prepare h).bind fun edition => ?_
  refine (preserves_writeDailies h _ _).bind fun tags => ?_
  exact (preserves_writeIndex h _ _).bind fun front => preserves_pure _

end Change

/-- **No run takes a directory away**, whether it succeeds or fails. -/
theorem keeps_publish (c : Config) (today : Date) (files : FileTree) :
    files.Keeps ((publishWithProgress c today).perform files).2 :=
  Change.preserves_publish (FileTree.stable_keeps files) files (.refl files)

/-- The tree of a file system is one after a run. -/
theorem named_publish {files : FileTree} (h : files.Named) (c : Config) (today : Date) :
    ((publishWithProgress c today).perform files).2.Named :=
  Change.preserves_publish FileTree.stable_named files h

end Webcomic.Site
