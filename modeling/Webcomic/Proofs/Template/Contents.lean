import Webcomic.Proofs.Template.OpenFiles
import Webcomic.Proofs.Text.Lines
import Webcomic.Template.Builtin

/-!
# A file is expanded like the text it holds

A file is cut into lines of bytes, and each line is read as text when its turn comes; a text is cut
into lines as a whole. Both give the same, in the session in which the file is open
(`expand_file_eq_expand_text`): the same text, and the same state of the handlers and the session.

A file that is not text has a first line that is not. The lines in front of it are expanded like the
text that they are (`Text.legible`); what they come to is dropped, and the error stands in the place
of the whole file. What their markers did stays done.
-/

namespace Webcomic.Template

open Files Text

variable {M : Type} {tags : Registry M} {files : FileTree} {respond : Marker → Run M String}
  {answer : Request → Run M String} {path : Path} {content : ByteArray} {d : Desk M}

/-! ## The lines of a file -/

/-- The lines of a file that is text. -/
theorem fileLines_of_text {t : String} (h : String.fromUTF8? content = some t) :
    fileLines path content = (lines t).map .ok := by
  rw [fileLines, ← toUTF8_of_fromUTF8? h, rawLines_toUTF8, List.map_map]
  refine List.map_congr_left fun line _ => ?_
  show fileLine path line.toUTF8 = .ok line
  rw [fileLine, fromUTF8?_toUTF8]

/-- The lines of a file that is not: behind those that are text comes the error. -/
theorem exists_fileLines_of_not_text (path : Path) (h : String.fromUTF8? content = none) :
    ∃ rest, fileLines path content =
      (lines (legible content)).map .ok ++ .error (.notText path) :: rest := by
  obtain ⟨bytes, rest, hraw, hbytes⟩ := exists_of_fromUTF8?_eq_none h
  refine ⟨rest.map (fileLine path), ?_⟩
  rw [fileLines, hraw, List.map_append, List.map_cons, List.map_map]
  congr 1
  · refine List.map_congr_left fun line _ => ?_
    show fileLine path line.toUTF8 = .ok line
    rw [fileLine, fromUTF8?_toUTF8]
  · rw [fileLine, hbytes]

theorem expandRows_error (respond : Marker → Run M String) (ls : List String) (e : Error)
    (rest : List (Except Error String)) :
    expandRows respond (ls.map .ok ++ .error e :: rest) = (do
      let _ ← expandLines respond ls
      pure (.error e)) := by
  induction ls with
  | nil => simp only [List.map_nil, List.nil_append, expandRows, expandLines, pure_bind]
  | cons line ls ih =>
    simp only [List.map_cons, List.cons_append, expandRows, expandLines, ih, bind_assoc, pure_bind,
      Except.map]

/-- A reading of lines that are all text. -/
theorem finish_start_ok (wd : Location) (source : Request) (ls : List String) :
    (Reading.start source (ls.map .ok)).finish wd respond d =
      Option.map (fun p => (p.1, p.2.leave wd source)) (expandLines respond ls d) := by
  simp only [Reading.finish, Reading.run_start, expandRows_ok, bind_assoc, pure_bind]
  show (expandLines respond ls d >>= fun p => some (p.1, p.2.leave wd source)) = _
  cases expandLines respond ls d <;> rfl

/-- A reading that comes to a line that is not. -/
theorem finish_start_error (wd : Location) (source : Request) (ls : List String) (e : Error)
    (rest : List (Except Error String)) :
    (Reading.start source (ls.map .ok ++ .error e :: rest)).finish wd respond d =
      Option.map (fun p => (e.inline, p.2.leave wd source)) (expandLines respond ls d) := by
  simp only [Reading.finish, Reading.run_start, expandRows_error, bind_assoc, pure_bind]
  show (expandLines respond ls d >>= fun p => some (e.inline, p.2.leave wd source)) = _
  cases expandLines respond ls d <;> rfl

/-! ## Calls of files and texts -/

section

variable (hclosed : path.locate files.workingDir ∉ d.session.openFiles)
  (hread : files.read path = .ok content)
include hclosed hread

theorem serve_file_of_text {t : String} (h : String.fromUTF8? content = some t) :
    serve tags files answer (.file path) d =
      Option.map (fun p => (p.1, p.2.leave files.workingDir (.file path)))
        (serve tags files answer (.text t) (d.enter files.workingDir path)) := by
  rw [serve_file_of_not_open hclosed, loadRun, hread]
  dsimp only
  rw [fileLines_of_text h, finish_start_ok]
  rfl

theorem serve_file_of_not_text (h : String.fromUTF8? content = none) :
    serve tags files answer (.file path) d =
      Option.map (fun p => ((Error.notText path).inline, p.2.leave files.workingDir (.file path)))
        (serve tags files answer (.text (legible content)) (d.enter files.workingDir path)) := by
  obtain ⟨rest, hlines⟩ := exists_fileLines_of_not_text path h
  rw [serve_file_of_not_open hclosed, loadRun, hread]
  dsimp only
  rw [hlines, finish_start_error]
  rfl

end

/-- The desk with the files open that were open before. -/
def Desk.reopen (d : Desk M) (opened : List Location) : Desk M :=
  d.withSession { d.session with openFiles := opened }

/-- A file that is left is the only one that has been opened since it was entered. -/
theorem leave_eq_reopen {wd : Location} (hclosed : path.locate wd ∉ d.session.openFiles)
    {d' : Desk M} (h : (d.enter wd path).session.Restored d'.session) :
    d'.leave wd (.file path) = d'.reopen d.session.openFiles := by
  have hopen : d'.session.openFiles = path.locate wd :: d.session.openFiles :=
    h.openFiles.trans (Session.openFiles_opening hclosed)
  have hclose : (d'.session.closing (path.locate wd)).openFiles = d.session.openFiles :=
    Session.openFiles_closing hopen hclosed
  show d'.withSession (d'.session.closing (path.locate wd)) = d'.withSession _
  rw [← hclose]
  rfl

/-- **A file is expanded like the text it holds.** A file that is not open yet and can be read comes
to what its text comes to in the session in which it is open, and leaves the state of the handlers
and the session as the text does, except that the file is not open any more. The one has a result
exactly if the other has. A file that is not text comes to the error that names it, on whichever
line the bytes are that are not text: the lines in front of it are expanded, and what they come to
does not show. -/
theorem expand_file_eq_expand_text (tags : Registry M) (files : FileTree) (depth : Nat)
    (path : Path) (content : ByteArray) (d : Desk M)
    (hclosed : path.locate files.workingDir ∉ d.session.openFiles)
    (hread : files.read path = .ok content) :
    (∀ t, String.fromUTF8? content = some t →
      expand tags files depth (.file path) d =
        Option.map (fun p => (p.1, p.2.reopen d.session.openFiles))
          (expand tags files depth (.text t) (d.enter files.workingDir path))) ∧
    (String.fromUTF8? content = none →
      expand tags files depth (.file path) d =
        Option.map (fun p => ((Error.notText path).inline, p.2.reopen d.session.openFiles))
          (expand tags files depth (.text (legible content)) (d.enter files.workingDir path))) := by
  cases depth with
  | zero => exact ⟨fun _ _ => rfl, fun _ => rfl⟩
  | succ depth =>
    have hleave : ∀ (t out : String) (d' : Desk M),
        serve tags files (expand tags files depth) (.text t) (d.enter files.workingDir path) =
          some (out, d') →
        d'.leave files.workingDir (.file path) = d'.reopen d.session.openFiles := by
      intro t out d' hrun
      have hrun' : expand tags files (depth + 1) (.text t) (d.enter files.workingDir path) =
          some (out, d') := hrun
      exact leave_eq_reopen hclosed (restored_of_expand hrun')
    constructor
    · intro t htext
      show serve tags files (expand tags files depth) (.file path) d = _
      rw [serve_file_of_text hclosed hread htext]
      refine Option.map_congr fun p hp => ?_
      rw [hleave t p.1 p.2 hp]
    · intro htext
      show serve tags files (expand tags files depth) (.file path) d = _
      rw [serve_file_of_not_text hclosed hread htext]
      refine Option.map_congr fun p hp => ?_
      rw [hleave _ p.1 p.2 hp]

/-! A text with both line endings that stops inside a line, and a file that is not text behind its
first line. -/

def twoTemplates : FileTree where
  workingDir := []
  nodes :=
    [(["good"], .file "é\r\n***date***\n***date".toUTF8),
      (["bad"], .file ("***date***\n".toUTF8 ++ ⟨#[0xff, 0x0a]⟩))]
  distinct := by decide

/-- A registry of the tags of every site at the beginning of a session. -/
def newDesk : Desk Unit :=
  (Registry.withBuiltins .echo ()).desk (.start ⟨2024, 2, 29, by decide⟩ none)

/-- The two files of `twoTemplates`. -/
theorem expand_file_eq_expand_text_two_templates :
    Path.locate [] "good" ∉ newDesk.session.openFiles ∧
      twoTemplates.read "good" = .ok "é\r\n***date***\n***date".toUTF8 ∧
      String.fromUTF8? "é\r\n***date***\n***date".toUTF8 = some "é\r\n***date***\n***date" ∧
      (expand (.withBuiltins .echo ()) twoTemplates 2 (.file "good") newDesk).map Prod.fst =
        some "é\r\n2024-02-29\n***date" ∧
      Path.locate [] "bad" ∉ newDesk.session.openFiles ∧
      twoTemplates.read "bad" = .ok ("***date***\n".toUTF8 ++ ⟨#[0xff, 0x0a]⟩) ∧
      String.fromUTF8? ("***date***\n".toUTF8 ++ ⟨#[0xff, 0x0a]⟩) = none ∧
      (expand (.withBuiltins .echo ()) twoTemplates 2 (.file "bad") newDesk).map Prod.fst =
        some "ERROR: File bad is not valid UTF-8 text" := by
  have hgood : Path.locate [] "good" ∉ newDesk.session.openFiles := by decide +kernel
  have hbad : Path.locate [] "bad" ∉ newDesk.session.openFiles := by decide +kernel
  have hread : twoTemplates.read "good" = .ok "é\r\n***date***\n***date".toUTF8 := by rfl
  have hread' : twoTemplates.read "bad" = .ok ("***date***\n".toUTF8 ++ ⟨#[0xff, 0x0a]⟩) := by rfl
  have htext := fromUTF8?_toUTF8 "é\r\n***date***\n***date"
  have htext' : String.fromUTF8? ("***date***\n".toUTF8 ++ ⟨#[0xff, 0x0a]⟩) = none := by
    decide +kernel
  refine ⟨hgood, hread, htext, ?_, hbad, hread', htext', ?_⟩
  · rw [(expand_file_eq_expand_text _ twoTemplates 2 "good" _ newDesk hgood hread).1 _ htext]
    decide +kernel
  · rw [(expand_file_eq_expand_text _ twoTemplates 2 "bad" _ newDesk hbad hread').2 htext']
    decide +kernel

end Webcomic.Template
