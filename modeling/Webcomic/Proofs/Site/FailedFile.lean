import Webcomic.Proofs.Site.Keeping
import Webcomic.Proofs.Template.Contents
import Webcomic.Proofs.Template.Nesting

/-!
# What a file leaves behind that an error takes the place of

On a site a file can fail in three ways: it is open already, it cannot be read, or it is not text.
The session comes out of each of them as it was (`failed_file_keeps_session`). So does what the tags
remember, unless the lines in front of the first one that is not text have markers: these have been
replaced by then, and what their tags did stays done. What is left of such a file is what the text
in front of that line leaves (`Text.legible`), and none of it shows on the page.
-/

namespace Webcomic.Site

open Calendar Files Template Text

variable {M : Type} {slot : Slot M Memory} {memory : M} {archive : Archive} {c : Config}
  {policy : UnknownTagPolicy} {files : FileTree} {path : Path} {d : Desk M}

/-- A call on a site leaves the session as it found it. -/
theorem session_of_expand {depth : Nat} {q : Request} {text : String} {d' : Desk M}
    (h : expand (registry slot memory archive c policy) files depth q d = some (text, d')) :
    d'.session = d.session := by
  -- the tags of a site do not turn it to another day, and all calls restore the rest of it
  have hrestored := restored_of_expand h
  have hkeeps : (registry slot memory archive c policy).Keeps d.session.requested fun _ => True :=
    lasting_true.keeps_registry memory c policy
  have hday := (kept_of_expand hkeeps rfl trivial h).1
  obtain ⟨hopen, htoday, hroot⟩ := hrestored
  obtain ⟨memory', notice, ⟨today, requested, includeRoot, openFiles⟩⟩ := d'
  dsimp only at hopen htoday hroot hday
  rw [hopen, htoday, hroot, hday]

/-- A file that is entered and left at once has changed nothing. -/
theorem leave_enter {wd : Location} (h : path.locate wd ∉ d.session.openFiles) :
    (d.enter wd path).leave wd (.file path) = d := by
  rw [leave_eq_reopen h ⟨rfl, rfl, rfl⟩]
  rfl

theorem expand_file_of_fault {tags : Registry M} {fault : Fault}
    (hclosed : path.locate files.workingDir ∉ d.session.openFiles)
    (hread : files.read path = .error fault) (depth : Nat) :
    expand tags files (depth + 1) (.file path) d = some ((Error.read path fault).inline, d) := by
  show serve tags files (expand tags files depth) (.file path) d = _
  rw [serve_file_of_not_open hclosed, loadRun, hread]
  show some (_, (d.enter files.workingDir path).leave files.workingDir (.file path)) = _
  rw [leave_enter hclosed]

/-- **What a file leaves behind on a site if an error takes its place.** A file that is open already
or cannot be read leaves everything as it was. A file that is not text leaves the session as it was,
and the rest as the text in front of the first line that is not text does. So it has no effect
exactly if that text has none, as when there is no such line in front. -/
theorem failed_file_keeps_session (slot : Slot M Memory) (memory : M) (archive : Archive)
    (c : Config) (policy : UnknownTagPolicy) (files : FileTree) (path : Path) (d : Desk M) :
    let run := expand (registry slot memory archive c policy) files
      (files.fileLocations.length + 2)
    (path.locate files.workingDir ∈ d.session.openFiles →
      run (.file path) d = some ((Error.includeLoop path).inline, d)) ∧
    (path.locate files.workingDir ∉ d.session.openFiles →
      (∀ fault, files.read path = .error fault →
        run (.file path) d = some ((Error.read path fault).inline, d)) ∧
      ∀ content, files.read path = .ok content → String.fromUTF8? content = none →
        ∃ text d', run (.text (legible content)) (d.enter files.workingDir path) =
            some (text, d') ∧
          run (.file path) d =
            some ((Error.notText path).inline, d'.withSession d.session) ∧
          (d'.withSession d.session = d ↔ d'.memory = d.memory ∧ d'.notice = d.notice) ∧
          (legible content = "" → d'.withSession d.session = d)) := by
  dsimp only
  refine ⟨fun hopen => serve_file_of_open hopen, fun hclosed => ⟨?_, ?_⟩⟩
  · intro fault hread
    exact expand_file_of_fault hclosed hread _
  · intro content hread htext
    have hbound := fileBound_registry slot memory archive c policy
    obtain ⟨text, d', hlegible⟩ := exists_expand_of_fileBound hbound files
      (.text (legible content)) (d.enter files.workingDir path)
    have hsession := session_of_expand hlegible
    -- but for the file that is open, the session is the one that the call began in
    have hleave : d'.leave files.workingDir (.file path) = d'.withSession d.session := by
      rw [leave_eq_reopen hclosed (restored_of_expand hlegible), Desk.reopen, hsession]
      rfl
    refine ⟨text, d', hlegible, ?_, ?_, ?_⟩
    · rw [← hleave]
      refine (serve_file_of_not_text hclosed hread htext).trans ?_
      exact congrArg (Option.map _) hlegible
    · constructor
      · intro heq
        have hmemory : (d'.withSession d.session).memory = d.memory := by rw [heq]
        have hnotice : (d'.withSession d.session).notice = d.notice := by rw [heq]
        exact ⟨hmemory, hnotice⟩
      · rintro ⟨hmemory, hnotice⟩
        show Desk.mk d'.memory d'.notice d.session = d
        rw [hmemory, hnotice]
    · intro hnone
      -- no line is expanded
      rw [hnone] at hlegible
      obtain ⟨-, rfl⟩ := Run.pure_eq_some.mp hlegible
      rw [← hleave, leave_enter hclosed]

/-! An include that is not text from its second line on, on a day with one comic. -/

def comicDay : Date := ⟨2024, 3, 9, by decide⟩

def oneComic : Archive :=
  .ofFiles [(comicDay, "20240309.png")]

def brokenInclude : FileTree where
  workingDir := []
  nodes := [(["broken"], .file ("***comic***\n".toUTF8 ++ ⟨#[0xff, 0x0a]⟩))]
  distinct := by decide

/-- The tags of the day. -/
def oneComicTags : Registry Memory :=
  registry Memory.whole .blank oneComic {} .echo

/-- The desk before the first page of the day. -/
def oneComicDesk : Desk Memory :=
  oneComicTags.desk (.start comicDay none)

/-- The include uses up the comic, which is on no page then. -/
theorem failed_file_keeps_session_broken_include :
    Path.locate [] "broken" ∉ oneComicDesk.session.openFiles ∧
      brokenInclude.read "broken" = .ok ("***comic***\n".toUTF8 ++ ⟨#[0xff, 0x0a]⟩) ∧
      String.fromUTF8? ("***comic***\n".toUTF8 ++ ⟨#[0xff, 0x0a]⟩) = none ∧
      (∃ d', expand oneComicTags brokenInclude 3 (.file "broken") oneComicDesk =
          some ((Error.notText "broken").inline, d') ∧
        d'.session = oneComicDesk.session ∧ oneComicDesk.memory.used = 0 ∧ d'.memory.used = 1) ∧
      (expand oneComicTags brokenInclude 3 (.text "***include broken******comic***")
        oneComicDesk).map Prod.fst = some (Error.notText "broken").inline := by
  have hclosed : Path.locate [] "broken" ∉ oneComicDesk.session.openFiles := by decide +kernel
  have hread : brokenInclude.read "broken" =
      .ok ("***comic***\n".toUTF8 ++ ⟨#[0xff, 0x0a]⟩) := by rfl
  have htext : String.fromUTF8? ("***comic***\n".toUTF8 ++ ⟨#[0xff, 0x0a]⟩) = none := by
    decide +kernel
  refine ⟨hclosed, hread, htext, ?_, by decide +kernel⟩
  obtain ⟨text, d', -, hfile, -⟩ :=
    ((failed_file_keeps_session Memory.whole .blank oneComic {} .echo brokenInclude "broken"
      oneComicDesk).2 hclosed).2 _ hread htext
  have hrun : expand oneComicTags brokenInclude 3 (.file "broken") oneComicDesk =
      some ((Error.notText "broken").inline, d'.withSession oneComicDesk.session) := hfile
  have hused : (expand oneComicTags brokenInclude 3 (.file "broken") oneComicDesk).map
      (·.2.memory.used) = some 1 := by
    decide +kernel
  rw [hrun] at hused
  exact ⟨_, hrun, rfl, by decide +kernel, Option.some.inj hused⟩

end Webcomic.Site
