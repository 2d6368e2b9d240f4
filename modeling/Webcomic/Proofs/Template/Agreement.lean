import Webcomic.Proofs.Template.Machine

/-!
# The moments of a call lead to its result

`expand` and the moments of `Webcomic.Proofs.Template.Machine` describe one and the same expansion.

- `leads_of_expand`: if a call has a result at some depth, its moments lead to that answer, whatever
  waits for it. Induction on the depth, and below it on the text that is read.
- `meaning_of_leads`: every moment *means* a run of `expand` (`Moment.meaning`), and no less than
  the moment after it, so a result that is reached is a result of the first moment.
- `leads_answer_iff`: both together, for every task.
-/

namespace Webcomic.Template

open Files Text

variable {M : Type} {α β : Type}

/-! ## Runs that have a result -/

/-- A run of two parts has a result if both have one, the second from the desk of the first. -/
theorem Run.bind_eq_some {x : Run M α} {f : α → Run M β} {d d'' : Desk M} {b : β} :
    (x >>= f) d = some (b, d'') ↔ ∃ a d', x d = some (a, d') ∧ f a d' = some (b, d'') := by
  show (x d >>= fun p => f p.1 p.2) = some (b, d'') ↔ _
  cases x d with
  | none => simp
  | some p =>
    obtain ⟨a₀, d₀⟩ := p
    constructor
    · intro h
      exact ⟨a₀, d₀, rfl, h⟩
    · rintro ⟨a, d', heq, h⟩
      cases heq
      exact h

theorem Run.pure_eq_some {a a' : α} {d d' : Desk M} :
    (pure a : Run M α) d = some (a', d') ↔ a = a' ∧ d = d' := by
  show some (a, d) = some (a', d') ↔ _
  rw [Option.some.injEq, Prod.mk.injEq]

/-! ## Readings, run to their end

A text and the content of a file are read in one way, so that the rest of a reading can be run from
every point of it. -/

/-- Lines with their markers replaced, up to the first one that is not text. -/
def expandRows (respond : Marker → Run M String) :
    List (Except Error String) → Run M (Except Error String)
  | [] => pure (.ok "")
  | .error e :: _ => pure (.error e)
  | .ok line :: rest => do
    let text ← expandLine respond line
    let more ← expandRows respond rest
    pure (more.map (text ++ ·))

/-- What a reading comes to from where it is. -/
def Reading.run (respond : Marker → Run M String) (r : Reading) : Run M (Except Error String) := do
  let text ← expandCuts respond r.cuts
  let more ← expandRows respond r.rest
  pure (more.map (r.done ++ text ++ r.tail ++ ·))

/-- What a reading is answered with, and the desk that its call leaves. -/
def Reading.finish (wd : Location) (respond : Marker → Run M String) (r : Reading) :
    Run M String := do
  let result ← r.run respond
  modify (Desk.leave wd r.source)
  pure (shown result)

variable {tags : Registry M} {files : FileTree} {answer : Request → Run M String}
  {respond : Marker → Run M String}

/-- The lines of a text cannot fail. -/
theorem expandRows_ok (respond : Marker → Run M String) (ls : List String) :
    expandRows respond (ls.map .ok) = (do pure (.ok (← expandLines respond ls))) := by
  induction ls with
  | nil => rfl
  | cons line rest ih =>
    simp only [List.map_cons, expandRows, expandLines, ih, bind_assoc, pure_bind, Except.map]

/-- The lines of a file that are read as text one by one. -/
theorem expandRows_fileLine (respond : Marker → Run M String) (path : Path) (ls : List ByteArray) :
    expandRows respond (ls.map (fileLine path)) = (do
      match ← expandRawLines respond ls with
      | some text => pure (.ok text)
      | none => pure (.error (.notText path))) := by
  induction ls with
  | nil => rfl
  | cons bytes rest ih =>
    cases hutf : String.fromUTF8? bytes with
    | none => simp only [List.map_cons, fileLine, hutf, expandRows, expandRawLines, pure_bind]
    | some line =>
      simp only [List.map_cons, fileLine, hutf, expandRows, expandRawLines, bind_assoc, pure_bind]
      congr 1
      funext text
      rw [ih, bind_assoc]
      congr 1
      funext more
      cases more <;> rfl

/-- What a file that can be read comes to is what its lines come to. -/
theorem expandContent_of_read {path : Path} {content : ByteArray}
    (h : files.read path = .ok content) :
    expandContent files respond path = expandRows respond (fileLines path content) := by
  unfold expandContent
  rw [h]
  exact (expandRows_fileLine respond path (rawLines content)).symm

namespace Reading

/-- A reading that has not begun comes to all its lines. -/
theorem run_start (source : Request) (rest : List (Except Error String)) :
    (start source rest).run respond = expandRows respond rest := by
  have hmap : ∀ more : Except Error String, more.map ("" ++ "" ++ "" ++ ·) = more := by
    intro more
    cases more <;> simp [Except.map]
  simp only [run, start, expandCuts, pure_bind, hmap, bind_pure]

/-- A reading at a marker asks for the reply and goes on behind it. -/
theorem run_cut {r : Reading} {gap : String} {m : Marker} {cuts : List (String × Marker)}
    (hcuts : r.cuts = (gap, m) :: cuts) :
    r.run respond = (do ((r.pass gap cuts).extend (← respond m)).run respond) := by
  simp only [run, hcuts, expandCuts, pass, extend, bind_assoc, pure_bind, String.append_assoc]

theorem finish_cut {wd : Location} {r : Reading} {gap : String} {m : Marker}
    {cuts : List (String × Marker)} (hcuts : r.cuts = (gap, m) :: cuts) :
    r.finish wd respond = (do ((r.pass gap cuts).extend (← respond m)).finish wd respond) := by
  simp only [finish, run_cut hcuts, bind_assoc]
  rfl

theorem run_end {r : Reading} (hcuts : r.cuts = []) (hrest : r.rest = []) :
    r.run respond = pure (.ok (r.done ++ r.tail)) := by
  simp only [run, hcuts, hrest, expandCuts, expandRows, pure_bind, Except.map, String.append_empty]

/-- A reading at the end of a line comes to what it comes to at the start of the next one. -/
theorem run_line {r : Reading} {line : String} {rest : List (Except Error String)}
    (hcuts : r.cuts = []) (hrest : r.rest = .ok line :: rest) :
    r.run respond = (r.nextLine line rest).run respond := by
  simp only [run, nextLine, hcuts, hrest, expandCuts, expandRows, expandLine, bind_assoc, pure_bind,
    String.append_empty]
  congr 1
  funext text
  congr 1
  funext more
  cases more <;> simp [Except.map, String.append_assoc]

/-- A line that is not text takes the place of everything before it. -/
theorem run_error {r : Reading} {e : Error} {rest : List (Except Error String)}
    (hcuts : r.cuts = []) (hrest : r.rest = .error e :: rest) :
    r.run respond = pure (.error e) := by
  simp only [run, hcuts, hrest, expandCuts, expandRows, pure_bind, Except.map]

section Moments

variable {wd : Location} {r : Reading} {rest : List (Except Error String)}
  (stack : List (Frame M)) (d : Desk M)

/-- The four points that a reading can be at: a marker, the end of its last line, the end of any
other line, and a line that is not text. -/
theorem go_cut {gap : String} {m : Marker} {cuts : List (String × Marker)}
    (hcuts : r.cuts = (gap, m) :: cuts) :
    r.go wd stack d = ⟨.replace m, .reading (r.pass gap cuts) :: stack, d⟩ := by
  rw [go, hcuts]

theorem go_end (hcuts : r.cuts = []) (hrest : r.rest = []) :
    r.go wd stack d = ⟨.answer (r.done ++ r.tail), stack, d.leave wd r.source⟩ := by
  rw [go, hcuts, hrest]

theorem go_line {line : String} (hcuts : r.cuts = []) (hrest : r.rest = .ok line :: rest) :
    r.go wd stack d = ⟨.read (r.nextLine line rest), stack, d⟩ := by
  rw [go, hcuts, hrest]

theorem go_error {e : Error} (hcuts : r.cuts = []) (hrest : r.rest = .error e :: rest) :
    r.go wd stack d = ⟨.report e, stack, d.leave wd r.source⟩ := by
  rw [go, hcuts, hrest]

end Moments

end Reading

/-! ## Calls, case by case -/

/-- A text is served by reading its lines to their end, and leaves the open files as they are. -/
theorem serve_text (t : String) :
    serve tags files answer (.text t) =
      (Reading.start (.text t) ((lines t).map .ok)).finish files.workingDir
        (reply tags files.workingDir answer) := by
  have hleave : (modify (Desk.leave files.workingDir (.text t)) : Run M PUnit) = pure ⟨⟩ := rfl
  show expandLines _ _ = _
  simp only [Reading.finish, Reading.run_start, expandRows_ok, bind_assoc, pure_bind]
  show _ = (do
    let text ← expandLines _ _
    modify (Desk.leave files.workingDir (.text t))
    pure text)
  simp only [hleave, pure_bind, bind_pure]

/-- What a file comes to once its call has been let in. -/
def loadRun (files : FileTree) (respond : Marker → Run M String) (path : Path) : Run M String :=
  match files.read path with
  | .error fault => do
    modify (Desk.leave files.workingDir (.file path))
    pure (Error.read path fault).inline
  | .ok content =>
    (Reading.start (.file path) (fileLines path content)).finish files.workingDir respond

/-- A file that is open already is served with the error, and the desk is left alone. -/
theorem serve_file_of_open {path : Path} {d : Desk M}
    (h : path.locate files.workingDir ∈ d.session.openFiles) :
    serve tags files answer (.file path) d = some ((Error.includeLoop path).inline, d) := by
  show (if _ then _ else _ : Run M String) d = _
  rw [if_pos h]
  rfl

/-- A file that is not open is opened first, and served on the desk where it is open. -/
theorem serve_file_of_not_open {path : Path} {d : Desk M}
    (h : path.locate files.workingDir ∉ d.session.openFiles) :
    serve tags files answer (.file path) d =
      loadRun files (reply tags files.workingDir answer) path
        (d.enter files.workingDir path) := by
  show (if _ then _ else _ : Run M String) d = _
  rw [if_neg h]
  unfold loadRun
  cases hread : files.read path with
  | error fault =>
    simp only [expandContent, hread]
    rfl
  | ok content =>
    simp only [expandContent_of_read hread, Reading.finish, Reading.run_start]
    rfl

/-! ## From a result to the moments -/

/-- The moments of every request lead to what `answer` gives for it. -/
def Followed (tags : Registry M) (files : FileTree) (answer : Request → Run M String) : Prop :=
  ∀ request d text d', answer request d = some (text, d') →
    ∀ stack, Leads tags files ⟨.call request, stack, d⟩ ⟨.answer text, stack, d'⟩

/-- One more moment in front. -/
theorem Leads.step {a b c : Moment M} (h : a.next? tags files = some b)
    (hbc : Leads tags files b c) : Leads tags files a c :=
  .head h hbc

/-- The moments of a script lead to its reply. Only the calls of a script take more than one moment,
and those are followed by assumption. -/
theorem leads_of_script (hanswer : Followed tags files answer) (script : Script M) {d d' : Desk M}
    {text : String} (h : script.run files.workingDir answer d = some (text, d'))
    (stack : List (Frame M)) :
    Leads tags files ⟨.perform script, stack, d⟩ ⟨.answer text, stack, d'⟩ := by
  induction script generalizing d with
  | reply t =>
    obtain ⟨rfl, rfl⟩ := Run.pure_eq_some.1 h
    exact Leads.step rfl .refl
  | look next ih => exact Leads.step rfl (ih _ h)
  | isOpen path next ih => exact Leads.step rfl (ih _ h)
  | turnTo date next ih => exact Leads.step rfl (ih h)
  | recollect next ih => exact Leads.step rfl (ih _ h)
  | remember memory next ih => exact Leads.step rfl (ih h)
  | expand request next ih =>
    obtain ⟨t, d₁, hcall, hnext⟩ := Run.bind_eq_some.1 h
    -- the call is made with the handler waiting, which goes on with the answer
    refine Leads.step rfl ((hanswer request d t d₁ hcall (.script next :: stack)).trans ?_)
    exact Leads.step rfl (ih t hnext)

/-- The moments of a marker lead to its reply, whether it has a handler or the policy decides. -/
theorem leads_of_reply (hanswer : Followed tags files answer) (m : Marker) {d d' : Desk M}
    {text : String} (h : reply tags files.workingDir answer m d = some (text, d'))
    (stack : List (Frame M)) :
    Leads tags files ⟨.replace m, stack, d⟩ ⟨.answer text, stack, d'⟩ := by
  refine Leads.step rfl ?_
  cases hname : m.name with
  | none =>
    simp only [reply, replaceMarker, hname] at h ⊢
    obtain ⟨rfl, rfl⟩ := Run.pure_eq_some.1 h
    exact .refl
  | some name =>
    cases hhandler : tags.handler? name with
    | some handler =>
      simp only [reply, replaceMarker, hname, hhandler] at h ⊢
      exact leads_of_script hanswer _ h stack
    | none =>
      cases hpolicy : tags.policy with
      | echo =>
        simp only [reply, replaceMarker, hname, hhandler, hpolicy] at h ⊢
        obtain ⟨rfl, rfl⟩ := Run.pure_eq_some.1 h
        exact .refl
      | report =>
        simp only [reply, replaceMarker, hname, hhandler, hpolicy] at h ⊢
        obtain ⟨rfl, rfl⟩ := Run.pure_eq_some.1 h
        exact .refl

/-- A reading leads to the end of its current line. -/
theorem leads_of_cuts (hanswer : Followed tags files answer) (r : Reading) {d d' : Desk M}
    {text : String}
    (h : r.finish files.workingDir (reply tags files.workingDir answer) d = some (text, d'))
    (stack : List (Frame M)) :
    ∃ (r₁ : Reading) (d₁ : Desk M), r₁.cuts = [] ∧ r₁.rest = r.rest ∧
      Leads tags files ⟨.read r, stack, d⟩ ⟨.read r₁, stack, d₁⟩ ∧
      r₁.finish files.workingDir (reply tags files.workingDir answer) d₁ = some (text, d') := by
  generalize hcuts : r.cuts = cuts
  induction cuts generalizing r d with
  | nil => exact ⟨r, d, hcuts, rfl, .refl, h⟩
  | cons cut cuts ih =>
    obtain ⟨gap, m⟩ := cut
    rw [Reading.finish_cut hcuts] at h
    obtain ⟨t, d₁, hreply, hrest⟩ := Run.bind_eq_some.1 h
    obtain ⟨r₂, d₂, hcuts₂, hrest₂, hleads, hfin⟩ :=
      ih ((r.pass gap cuts).extend t) hrest rfl
    refine ⟨r₂, d₂, hcuts₂, hrest₂,
      Leads.step (congrArg some (Reading.go_cut stack d hcuts)) ?_, hfin⟩
    -- the reply is asked for with the reading waiting, which goes on with it
    exact (leads_of_reply hanswer m hreply _).trans (Leads.step rfl hleads)

/-- The moments of a reading lead to its answer, by induction on the lines to come. -/
theorem leads_of_reading (hanswer : Followed tags files answer) (r : Reading) {d d' : Desk M}
    {text : String}
    (h : r.finish files.workingDir (reply tags files.workingDir answer) d = some (text, d'))
    (stack : List (Frame M)) :
    Leads tags files ⟨.read r, stack, d⟩ ⟨.answer text, stack, d'⟩ := by
  generalize hrest : r.rest = rest
  induction rest generalizing r d with
  | nil =>
    obtain ⟨r₁, d₁, hcuts₁, hrest₁, hleads, hfin⟩ := leads_of_cuts hanswer r h stack
    rw [hrest] at hrest₁
    rw [Reading.finish, Reading.run_end hcuts₁ hrest₁, pure_bind] at hfin
    cases hfin
    exact hleads.trans
      (Leads.step (congrArg some (Reading.go_end stack d₁ hcuts₁ hrest₁)) .refl)
  | cons row rest ih =>
    obtain ⟨r₁, d₁, hcuts₁, hrest₁, hleads, hfin⟩ := leads_of_cuts hanswer r h stack
    rw [hrest] at hrest₁
    refine hleads.trans ?_
    cases row with
    | ok line =>
      rw [Reading.finish, Reading.run_line hcuts₁ hrest₁] at hfin
      exact Leads.step (congrArg some (Reading.go_line stack d₁ hcuts₁ hrest₁)) (ih _ hfin rfl)
    | error e =>
      rw [Reading.finish, Reading.run_error hcuts₁ hrest₁, pure_bind] at hfin
      cases hfin
      exact Leads.step (congrArg some (Reading.go_error stack d₁ hcuts₁ hrest₁))
        (Leads.step rfl .refl)

/-- The moments of a file that has been let in lead to its answer, also if it cannot be opened. -/
theorem leads_of_loadRun (hanswer : Followed tags files answer) (path : Path) {d d' : Desk M}
    {text : String}
    (h : loadRun files (reply tags files.workingDir answer) path d = some (text, d'))
    (stack : List (Frame M)) :
    Leads tags files ⟨.load path, stack, d⟩ ⟨.answer text, stack, d'⟩ := by
  refine Leads.step rfl ?_
  cases hread : files.read path with
  | error fault =>
    simp only [loadRun, loadFile, hread] at h ⊢
    cases h
    exact Leads.step rfl .refl
  | ok content =>
    simp only [loadRun, loadFile, hread] at h ⊢
    exact leads_of_reading hanswer _ h stack

/-- What holds of the calls that are made holds of the call that makes them. -/
theorem followed_serve (hanswer : Followed tags files answer) :
    Followed tags files (serve tags files answer) := by
  rintro (t | path) d text d' h stack
  · rw [serve_text] at h
    exact Leads.step rfl (leads_of_reading hanswer _ h stack)
  · refine Leads.step rfl ?_
    by_cases hopen : path.locate files.workingDir ∈ d.session.openFiles
    · rw [serve_file_of_open hopen] at h
      cases h
      rw [Request.go_of_open stack hopen]
      exact Leads.step rfl .refl
    · rw [serve_file_of_not_open hopen] at h
      rw [Request.go_of_not_open stack hopen]
      exact leads_of_loadRun hanswer path h stack

/-- **The moments of a call lead to its result**, whatever waits for it. -/
theorem leads_of_expand (tags : Registry M) (files : FileTree) (depth : Nat) :
    Followed tags files (expand tags files depth) := by
  induction depth with
  | zero =>
    intro request d text d' h
    cases h
  | succ depth ih => exact followed_serve ih

/-! ## More depth keeps a result -/

/-- Every result of one run is a result of the other. -/
def Run.Below (x y : Run M α) : Prop :=
  ∀ d a d', x d = some (a, d') → y d = some (a, d')

namespace Run.Below

theorem refl (x : Run M α) : Run.Below x x := fun _ _ _ h => h

/-- Parts below one another make wholes below one another. -/
theorem bind {x y : Run M α} {f g : α → Run M β} (hxy : Run.Below x y)
    (hfg : ∀ a, Run.Below (f a) (g a)) : Run.Below (x >>= f) (y >>= g) := by
  intro d b d'' h
  obtain ⟨a, d', hx, hf⟩ := Run.bind_eq_some.1 h
  exact Run.bind_eq_some.2 ⟨a, d', hxy d a d' hx, hfg a d' b d'' hf⟩

variable {answer' : Request → Run M String} {respond' : Marker → Run M String}

/-- A script asks for nothing but calls, so it has every result that better answered calls allow. -/
theorem script (h : ∀ q, Run.Below (answer q) (answer' q)) (wd : Location) (s : Script M) :
    Run.Below (s.run wd answer) (s.run wd answer') := by
  induction s with
  | reply text => exact refl _
  | look next ih => exact bind (refl _) fun _ => ih _
  | isOpen path next ih => exact bind (refl _) fun _ => ih _
  | turnTo date next ih => exact bind (refl _) fun _ => ih
  | recollect next ih => exact bind (refl _) fun _ => ih _
  | remember memory next ih => exact bind (refl _) fun _ => ih
  | expand request next ih => exact bind (h request) ih

theorem reply (h : ∀ q, Run.Below (answer q) (answer' q)) (wd : Location) (m : Marker) :
    Run.Below (Template.reply tags wd answer m) (Template.reply tags wd answer' m) := by
  unfold Template.reply
  split
  · exact refl _
  · split
    · exact script h wd _
    · exact refl _

/-- The markers of a line only ask for replies, so that better replies keep its result. -/
theorem cuts (h : ∀ m, Run.Below (respond m) (respond' m)) (cs : List (String × Marker)) :
    Run.Below (expandCuts respond cs) (expandCuts respond' cs) := by
  induction cs with
  | nil => exact refl _
  | cons cut cs ih => exact bind (h _) fun _ => bind ih fun _ => refl _

/-- The lines of a reading, up to the first that is not text, have every result that better replies
allow. -/
theorem rows (h : ∀ m, Run.Below (respond m) (respond' m))
    (ls : List (Except Error String)) :
    Run.Below (expandRows respond ls) (expandRows respond' ls) := by
  induction ls with
  | nil => exact refl _
  | cons row ls ih =>
    cases row with
    | error e => exact refl _
    | ok line =>
      exact bind (bind (cuts h _) fun _ => refl _) fun _ => bind ih fun _ => refl _

theorem finish (h : ∀ m, Run.Below (respond m) (respond' m)) (wd : Location) (r : Reading) :
    Run.Below (r.finish wd respond) (r.finish wd respond') :=
  bind (bind (cuts h _) fun _ => bind (rows h _) fun _ => refl _) fun _ => refl _

theorem loadRun (h : ∀ m, Run.Below (respond m) (respond' m)) (path : Path) :
    Run.Below (Template.loadRun files respond path) (Template.loadRun files respond' path) := by
  unfold Template.loadRun
  split
  · exact refl _
  · exact finish h _ _

/-- Calls answered below one another are served below one another, so that `expand` grows with its
depth. -/
theorem serve (h : ∀ q, Run.Below (answer q) (answer' q)) (q : Request) :
    Run.Below (Template.serve tags files answer q) (Template.serve tags files answer' q) := by
  intro d a d' hres
  cases q with
  | text t =>
    rw [serve_text] at hres ⊢
    exact finish (reply h _) _ _ d a d' hres
  | file path =>
    by_cases hopen : path.locate files.workingDir ∈ d.session.openFiles
    · rw [serve_file_of_open hopen] at hres ⊢
      exact hres
    · rw [serve_file_of_not_open hopen] at hres ⊢
      exact loadRun (reply h _) path _ a d' hres

end Run.Below

/-- **More depth keeps a result.** -/
theorem expand_below_succ (tags : Registry M) (files : FileTree) (depth : Nat) (q : Request) :
    Run.Below (expand tags files depth q) (expand tags files (depth + 1) q) := by
  induction depth generalizing q with
  | zero =>
    intro d a d' h
    cases h
  | succ depth ih => exact Run.Below.serve ih q

/-! ## From the moments to a result -/

/-- The run of what a task leads to, where calls can nest to a depth. -/
def Task.run (tags : Registry M) (files : FileTree) (depth : Nat) : Task M → Run M String
  | .call request => expand tags files depth request
  | .load path => loadRun files (reply tags files.workingDir (expand tags files depth)) path
  | .read r => r.finish files.workingDir (reply tags files.workingDir (expand tags files depth))
  | .replace m => reply tags files.workingDir (expand tags files depth) m
  | .perform script => script.run files.workingDir (expand tags files depth)
  | .report e => pure e.inline
  | .answer text => pure text

/-- The run of what waits for a text, once the text is there. -/
def resumeAll (tags : Registry M) (files : FileTree) (depth : Nat) :
    List (Frame M) → String → Run M String
  | [], text => pure text
  | frame :: stack, text => do
    resumeAll tags files depth stack (← (frame.resume text).run tags files depth)

/-- What a moment comes to, where calls can nest to a depth. -/
def Moment.meaning (tags : Registry M) (files : FileTree) (depth : Nat) (m : Moment M) :
    Option (String × Desk M) :=
  (m.task.run tags files depth >>= resumeAll tags files depth m.stack) m.desk

/-- Whatever is to be done, more depth keeps its result. -/
theorem task_below_succ (tags : Registry M) (files : FileTree) (depth : Nat) (task : Task M) :
    Run.Below (task.run tags files depth) (task.run tags files (depth + 1)) := by
  have hexpand := expand_below_succ tags files depth
  cases task with
  | call request => exact hexpand request
  | load path => exact Run.Below.loadRun (Run.Below.reply hexpand _) path
  | read r => exact Run.Below.finish (Run.Below.reply hexpand _) _ r
  | replace m => exact Run.Below.reply hexpand _ m
  | perform script => exact Run.Below.script hexpand _ script
  | report e => exact Run.Below.refl _
  | answer text => exact Run.Below.refl _

/-- More depth keeps what the waiting texts, files and handlers make of an answer. -/
theorem resumeAll_below_succ (tags : Registry M) (files : FileTree) (depth : Nat)
    (stack : List (Frame M)) (text : String) :
    Run.Below (resumeAll tags files depth stack text)
      (resumeAll tags files (depth + 1) stack text) := by
  induction stack generalizing text with
  | nil => exact Run.Below.refl _
  | cons frame stack ih => exact Run.Below.bind (task_below_succ tags files depth _) ih

/-- More depth keeps what a moment means. -/
theorem meaning_below_succ {depth : Nat} {m : Moment M} {x : String × Desk M}
    (h : m.meaning tags files depth = some x) : m.meaning tags files (depth + 1) = some x :=
  Run.Below.bind (task_below_succ tags files depth m.task)
    (resumeAll_below_succ tags files depth m.stack) m.desk x.1 x.2 h

section

variable {depth : Nat} {stack : List (Frame M)} {d : Desk M}

/-- A call that has been made means what `serve` gives for it, which is where depth is taken up. -/
theorem meaning_call (q : Request) :
    (q.go files.workingDir stack d).meaning tags files depth =
      (serve tags files (expand tags files depth) q >>= resumeAll tags files depth stack) d := by
  cases q with
  | text t =>
    rw [serve_text]
    rfl
  | file path =>
    show _ = (serve tags files (expand tags files depth) (.file path) d >>= fun p =>
      resumeAll tags files depth stack p.1 p.2)
    by_cases hopen : path.locate files.workingDir ∈ d.session.openFiles
    · rw [serve_file_of_open hopen, Request.go_of_open stack hopen]
      rfl
    · rw [serve_file_of_not_open hopen, Request.go_of_not_open stack hopen]
      rfl

/-- Opening a file does not change what is meant. -/
theorem meaning_load (path : Path) :
    (loadFile files path stack d).meaning tags files depth =
      (⟨.load path, stack, d⟩ : Moment M).meaning tags files depth := by
  cases hread : files.read path with
  | error fault =>
    simp only [loadFile, Moment.meaning, Task.run, loadRun, hread]
    rfl
  | ok content => simp only [loadFile, Moment.meaning, Task.run, loadRun, hread]

/-- Reading on does not change what is meant, at any of the four points. -/
theorem meaning_read (r : Reading) :
    (r.go files.workingDir stack d).meaning tags files depth =
      (⟨.read r, stack, d⟩ : Moment M).meaning tags files depth := by
  cases hcuts : r.cuts with
  | cons cut cuts =>
    obtain ⟨gap, m⟩ := cut
    simp only [Reading.go_cut stack d hcuts, Moment.meaning, Task.run, Reading.finish_cut hcuts,
      bind_assoc]
    rfl
  | nil =>
    cases hrest : r.rest with
    | nil =>
      simp only [Reading.go_end stack d hcuts hrest, Moment.meaning, Task.run, Reading.finish,
        Reading.run_end hcuts hrest, bind_assoc, pure_bind]
      rfl
    | cons row rest =>
      cases row with
      | ok line =>
        simp only [Reading.go_line stack d hcuts hrest, Moment.meaning, Task.run, Reading.finish,
          Reading.run_line hcuts hrest]
        rfl
      | error e =>
        simp only [Reading.go_error stack d hcuts hrest, Moment.meaning, Task.run, Reading.finish,
          Reading.run_error hcuts hrest, bind_assoc, pure_bind]
        rfl

theorem meaning_replace (m : Marker) :
    (replaceMarker tags m stack d).meaning tags files depth =
      (⟨.replace m, stack, d⟩ : Moment M).meaning tags files depth := by
  cases hname : m.name with
  | none => simp only [replaceMarker, Moment.meaning, Task.run, reply, hname]
  | some name =>
    cases hhandler : tags.handler? name with
    | some handler =>
      simp only [replaceMarker, Moment.meaning, Task.run, reply, hname, hhandler]
    | none =>
      cases hpolicy : tags.policy with
      | echo => simp only [replaceMarker, Moment.meaning, Task.run, reply, hname, hhandler, hpolicy]
      | report =>
        simp only [replaceMarker, Moment.meaning, Task.run, reply, hname, hhandler, hpolicy]
        rfl

/-- Nor does a request of a script. A call waits for its answer on the stack, where the script's own
run waits for it. -/
theorem meaning_perform (script : Script M) :
    (script.go files.workingDir stack d).meaning tags files depth =
      (⟨.perform script, stack, d⟩ : Moment M).meaning tags files depth := by
  cases script with
  | expand request next =>
    simp only [Script.go, Moment.meaning, Task.run, Script.run, bind_assoc]
    rfl
  | _ => rfl

end

/-- A moment means no less than the one after it. Only a call takes up depth. -/
theorem meaning_of_next {a b : Moment M} {depth : Nat} {x : String × Desk M}
    (hab : a.next? tags files = some b) (hb : b.meaning tags files depth = some x) :
    a.meaning tags files (depth + 1) = some x := by
  obtain ⟨task, stack, d⟩ := a
  cases task with
  | call q =>
    cases hab
    rw [meaning_call] at hb
    exact Run.Below.bind (Run.Below.refl _) (resumeAll_below_succ tags files depth stack) d _ _ hb
  | load path =>
    cases hab
    rw [meaning_load] at hb
    exact meaning_below_succ hb
  | read r =>
    cases hab
    rw [meaning_read] at hb
    exact meaning_below_succ hb
  | replace m =>
    cases hab
    rw [meaning_replace] at hb
    exact meaning_below_succ hb
  | perform script =>
    cases hab
    rw [meaning_perform] at hb
    exact meaning_below_succ hb
  | report e =>
    cases hab
    exact meaning_below_succ hb
  | answer text =>
    cases stack with
    | nil => cases hab
    | cons frame stack =>
      cases hab
      exact meaning_below_succ hb

/-- What a moment means at some depth, all moments before it mean at some depth. -/
theorem meaning_of_leads {a b : Moment M} {x : String × Desk M} (hab : Leads tags files a b)
    (hb : ∃ depth, b.meaning tags files depth = some x) :
    ∃ depth, a.meaning tags files depth = some x := by
  induction hab using Relation.ReflTransGen.head_induction_on with
  | refl => exact hb
  | head hstep _ ih =>
    obtain ⟨depth, hdepth⟩ := ih
    exact ⟨depth + 1, meaning_of_next hstep hdepth⟩

/-- A task that has a result at some depth leads to it, whatever waits for the task. -/
theorem leads_of_run {task : Task M} {depth : Nat} {d d' : Desk M} {text : String}
    (h : task.run tags files depth d = some (text, d')) (stack : List (Frame M)) :
    Leads tags files ⟨task, stack, d⟩ ⟨.answer text, stack, d'⟩ := by
  have hfollowed := leads_of_expand tags files depth
  cases task with
  | call q => exact hfollowed q d text d' h stack
  | load path => exact leads_of_loadRun hfollowed path h stack
  | read r => exact leads_of_reading hfollowed r h stack
  | replace m => exact leads_of_reply hfollowed m h stack
  | perform script => exact leads_of_script hfollowed script h stack
  | report e =>
    obtain ⟨rfl, rfl⟩ := Run.pure_eq_some.1 h
    exact Leads.step rfl .refl
  | answer t =>
    obtain ⟨rfl, rfl⟩ := Run.pure_eq_some.1 h
    exact .refl

/-- **The moments of a task lead to an answer exactly when its run has that result**, at some
depth. -/
theorem leads_answer_iff {task : Task M} {d d' : Desk M} {text : String} :
    Leads tags files ⟨task, [], d⟩ ⟨.answer text, [], d'⟩ ↔
      ∃ depth, task.run tags files depth d = some (text, d') := by
  constructor
  · intro h
    obtain ⟨depth, hdepth⟩ := meaning_of_leads (x := (text, d')) h ⟨0, rfl⟩
    obtain ⟨t, d₁, hrun, hpure⟩ := Run.bind_eq_some.1 hdepth
    obtain ⟨rfl, rfl⟩ := Run.pure_eq_some.1 hpure
    exact ⟨depth, hrun⟩
  · rintro ⟨depth, h⟩
    exact leads_of_run h []

/-! ## What has been expanded stays -/

/-- Lines that are all text are expanded to a text. -/
theorem exists_of_expandRows {ls : List (Except Error String)} {d d' : Desk M}
    {result : Except Error String} (hls : ∀ e, .error e ∉ ls)
    (h : expandRows respond ls d = some (result, d')) : ∃ text, result = .ok text := by
  induction ls generalizing d d' result with
  | nil =>
    obtain ⟨rfl, -⟩ := Run.pure_eq_some.1 h
    exact ⟨"", rfl⟩
  | cons row ls ih =>
    cases row with
    | error e => exact absurd List.mem_cons_self (hls e)
    | ok line =>
      obtain ⟨text, d₁, -, hmore⟩ := Run.bind_eq_some.1 h
      obtain ⟨more, d₂, hrest, hpure⟩ := Run.bind_eq_some.1 hmore
      obtain ⟨text', rfl⟩ := ih (fun e he => hls e (List.mem_cons_of_mem _ he)) hrest
      obtain ⟨rfl, -⟩ := Run.pure_eq_some.1 hpure
      exact ⟨_, rfl⟩

/-- **The answer begins with what has been expanded**, unless a line to come is not text. -/
theorem exists_of_leads_read {r : Reading} {d d' : Desk M} {text : String}
    (hrest : ∀ e, .error e ∉ r.rest)
    (h : Leads tags files ⟨.read r, [], d⟩ ⟨.answer text, [], d'⟩) :
    ∃ behind, text = r.done ++ behind := by
  obtain ⟨depth, hfinish⟩ := leads_answer_iff.mp h
  obtain ⟨result, d₁, hrun, hshown⟩ := Run.bind_eq_some.1 hfinish
  obtain ⟨cuts, d₂, -, hrows⟩ := Run.bind_eq_some.1 hrun
  obtain ⟨more, d₃, hmore, hresult⟩ := Run.bind_eq_some.1 hrows
  obtain ⟨more, rfl⟩ := exists_of_expandRows hrest hmore
  obtain ⟨rfl, -⟩ := Run.pure_eq_some.1 hresult
  obtain ⟨_, d₄, -, htext⟩ := Run.bind_eq_some.1 hshown
  obtain ⟨rfl, -⟩ := Run.pure_eq_some.1 htext
  refine ⟨cuts ++ r.tail ++ more, ?_⟩
  show r.done ++ cuts ++ r.tail ++ more = _
  simp only [String.append_assoc]

end Webcomic.Template
