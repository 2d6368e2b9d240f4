import Webcomic.Proofs.Files.Change
import Webcomic.Proofs.Site.Change

/-!
# One change on two trees

Two trees that differ only at hidden locations are changed alike by everything that looks at no
hidden location. `Twins X a b t t'` says what holds of two trees on the way: they differ at hidden
locations only, and there each holds what it held in the beginning. Each kind of change keeps twins
twins and has the same outcome on both (`InStep`), and so has what is built from such changes
(`InStep.bind`).
-/

namespace Webcomic.Files.FileTree

/-- Two trees, changed from `a` and `b`, that differ only at locations of `X`, where nothing was
changed. -/
structure Twins (X : Location → Prop) (a b t t' : FileTree) : Prop where
  agree : t.AgreeOff X t'
  left : a.AgreeOff (¬ X ·) t
  right : b.AgreeOff (¬ X ·) t'

namespace Twins

variable {X : Location → Prop} {a b t t' s s' : FileTree} {p source target : Path} {loc : Location}
  {content : ByteArray}

theorem refl (h : a.AgreeOff X b) : Twins X a b a b :=
  ⟨h, .refl _ _, .refl _ _⟩

/-- What changes at no hidden location, and alike, keeps twins. -/
theorem change (h : Twins X a b t t') {Y : Location → Prop} (hs : t.AgreeOff Y s)
    (hs' : t'.AgreeOff Y s') (hY : ∀ loc, Y loc → ¬ X loc)
    (hsame : ∀ loc, Y loc → s'.node? loc = s.node? loc) : Twins X a b s s' where
  agree := by
    refine ⟨hs'.workingDir.trans (h.agree.workingDir.trans hs.workingDir.symm), fun loc hX => ?_⟩
    by_cases hloc : Y loc
    · exact hsame loc hloc
    · rw [hs.node loc hloc, hs'.node loc hloc, h.agree.node loc hX]
  left := h.left.trans (hs.mono hY)
  right := h.right.trans (hs'.mono hY)

/-- A file is written to both or to none. -/
theorem write (h : Twins X a b t t') (hp : p.Avoids t.workingDir X) (content : ByteArray) :
    (∃ s s', t.write p content = .ok s ∧ t'.write p content = .ok s' ∧ Twins X a b s s') ∨
      ∃ fault, t.write p content = .error fault ∧ t'.write p content = .error fault := by
  rw [FileTree.write, FileTree.write, h.agree.writeTarget hp]
  cases htarget : t.writeTarget p with
  | error fault => exact .inr ⟨fault, rfl, rfl⟩
  | ok loc =>
    have hentry := (namesEntry_of_writeTarget htarget).1
    refine .inl ⟨_, _, rfl, rfl, h.change (agreeOff_set hentry.ne_nil) (agreeOff_set hentry.ne_nil)
      ?_ ?_⟩
    · rintro _ rfl
      exact hp _ hentry.mem_lookups
    · rintro _ rfl
      rw [node?_set_self hentry.ne_nil, node?_set_self hentry.ne_nil]

/-- The same directories are made in both. -/
theorem makeDirectories (h : Twins X a b t t') (hp : p.Avoids t.workingDir X) :
    (t'.makeDirectories p).2 = (t.makeDirectories p).2 ∧
      Twins X a b (t.makeDirectories p).1 (t'.makeDirectories p).1 := by
  obtain ⟨hfault, hagree⟩ := h.agree.makeDirectories hp
  have hleft := (grown_makeDirectories t p).agreeOff
  have hright := (grown_makeDirectories t' p).agreeOff
  rw [h.agree.workingDir] at hright
  exact ⟨hfault, hagree, h.left.trans (hleft.mono hp), h.right.trans (hright.mono hp)⟩

/-- A file is moved in both or in none. -/
theorem move (h : Twins X a b t t') (hsource : source.Avoids t.workingDir X)
    (htarget : target.Avoids t.workingDir X) :
    (∃ s s', t.move source target = .ok s ∧ t'.move source target = .ok s' ∧ Twins X a b s s') ∨
      ∃ fault, t.move source target = .error fault ∧ t'.move source target = .error fault := by
  unfold FileTree.move
  rw [h.agree.resolve hsource, h.agree.moveTarget htarget]
  split
  next fault _ => exact .inr ⟨fault, rfl, rfl⟩
  · exact .inr ⟨_, rfl, rfl⟩
  next old content hresolve =>
    cases hnew : t.moveTarget target with
    | error fault => exact .inr ⟨fault, rfl, rfl⟩
    | ok new =>
      refine .inl ⟨_, _, rfl, rfl, ?_⟩
      dsimp only
      split
      · exact h
      next hne =>
        have hentry := (namesEntry_of_moveTarget hnew).1
        have hold := node?_of_resolve_file hresolve
        -- either tree changes where the file goes and where it came from, and nowhere else
        have hchanged : ∀ r : FileTree, r.AgreeOff (fun loc => loc = new ∨ loc = old)
            ((r.discard (· = old)).set new (.file content)) := by
          refine fun r => ⟨rfl, fun loc hloc => ?_⟩
          rw [not_or] at hloc
          by_cases hroot : loc = []
          · rw [hroot]
            rfl
          · rw [node?_of_move hentry.ne_nil hroot, if_neg hloc.1, if_neg hloc.2]
        refine h.change (hchanged t) (hchanged t') ?_ ?_
        · rintro loc (rfl | rfl)
          · exact htarget _ hentry.mem_lookups
          · exact hsource _ (mem_lookups_of_resolve_file hresolve)
        · intro loc hloc
          have hroot : loc ≠ [] := by
            rcases hloc with rfl | rfl
            · exact hentry.ne_nil
            · exact ne_nil_of_file hold
          rw [node?_of_move hentry.ne_nil hroot, node?_of_move hentry.ne_nil hroot]
          rcases hloc with rfl | rfl
          · simp
          · simp [Ne.symm hne]

end Twins

end Webcomic.Files.FileTree

namespace Webcomic.Site.Change

open Files

variable {α β γ δ : Type} {T : FileTree → FileTree → Prop} {R : α → β → Prop} {S : γ → δ → Prop}
  {t t' : FileTree}

/-- Two outcomes, both good with related results or both bad with the same error, and related
trees. -/
inductive InStep (T : FileTree → FileTree → Prop) (R : α → β → Prop) :
    Except Error α × FileTree → Except Error β × FileTree → Prop where
  | ok {a : α} {b : β} {t t' : FileTree} : R a b → T t t' → InStep T R (.ok a, t) (.ok b, t')
  | error {t t' : FileTree} (e : Error) : T t t' → InStep T R (.error e, t) (.error e, t')

namespace InStep

theorem pure {a : α} {b : β} (hab : R a b) (h : T t t') :
    InStep T R ((Pure.pure a : Change α).perform t) ((Pure.pure b : Change β).perform t') :=
  .ok hab h

theorem throw (e : Error) (h : T t t') :
    InStep T R ((throw e : Change α).perform t) ((MonadExcept.throw e : Change β).perform t') :=
  .error e h

/-- **What is built from changes in step is in step.** -/
theorem bind {x : Change α} {y : Change β} {f : α → Change γ} {g : β → Change δ}
    (hx : InStep T R (x.perform t) (y.perform t'))
    (hf : ∀ a b s s', x.perform t = (.ok a, s) → y.perform t' = (.ok b, s') → R a b → T s s' →
      InStep T S ((f a).perform s) ((g b).perform s')) :
    InStep T S ((x >>= f).perform t) ((y >>= g).perform t') := by
  rw [perform_bind, perform_bind]
  generalize x.perform t = p at hx hf
  generalize y.perform t' = q at hx hf
  cases hx with
  | ok hab hT => exact hf _ _ _ _ rfl rfl hab hT
  | error e hT => exact .error e hT

/-- A look that sees the same. -/
theorem look {f : FileTree → Except Fault α} {g : FileTree → Except Fault β} (h : T t t')
    (hfg : (∃ a b, f t = .ok a ∧ g t' = .ok b ∧ R a b) ∨
      ∃ fault, f t = .error fault ∧ g t' = .error fault) :
    InStep T R ((Change.look f).perform t) ((Change.look g).perform t') := by
  rw [perform_look, perform_look]
  rcases hfg with ⟨a, b, ha, hb, hab⟩ | ⟨fault, hf, hg⟩
  · rw [ha, hb]
    exact .ok hab h
  · rw [hf, hg]
    exact .error _ h

/-- A step that is taken in both trees or in none. -/
theorem step {f g : FileTree → Except Error FileTree} (h : T t t')
    (hfg : (∃ s s', f t = .ok s ∧ g t' = .ok s' ∧ T s s') ∨ ∃ e, f t = .error e ∧ g t' = .error e) :
    InStep T Eq ((Change.step f).perform t) ((Change.step g).perform t') := by
  rw [perform_step, perform_step]
  rcases hfg with ⟨s, s', hs, hs', hT⟩ | ⟨e, hf, hg⟩
  · rw [hs, hs']
    exact .ok rfl hT
  · rw [hf, hg]
    exact .error e h

/-- Changes in step come to the same. -/
theorem eq_outcome {outcome outcome' : Except Error α × FileTree}
    (h : InStep T Eq outcome outcome') :
    outcome'.1 = outcome.1 ∧ T outcome.2 outcome'.2 := by
  cases h with
  | ok heq hT => exact ⟨congrArg Except.ok heq.symm, hT⟩
  | error e hT => exact ⟨rfl, hT⟩

variable {X : Location → Prop} {a b : FileTree}

theorem makeDirectories {p : Path} (h : FileTree.Twins X a b t t')
    (hp : p.Avoids t.workingDir X) :
    InStep (FileTree.Twins X a b) Eq ((Change.makeDirectories p).perform t)
      ((Change.makeDirectories p).perform t') := by
  rw [perform_makeDirectories, perform_makeDirectories]
  obtain ⟨hfault, hT⟩ := h.makeDirectories hp
  rw [hfault]
  cases (t.makeDirectories p).2 with
  | none => exact .ok rfl hT
  | some fault => exact .error _ hT

end InStep

end Webcomic.Site.Change
