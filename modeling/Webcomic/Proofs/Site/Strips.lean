import Webcomic.Proofs.Site.Keeping
import Webcomic.Proofs.Site.Independence
import Webcomic.Proofs.Template.Nesting
import Webcomic.Proofs.Template.Turns

/-!
# The strips of a page

The files that the markers of the strips have used up are counted for the page, whatever day each of
them belongs to (`Shows.counted`).

- If the session is turned to another day between two markers, the strips of that day are taken up
  where those of the day before have ended. So some are skipped, unless all markers are about one
  day (`no_strip_skipped_iff`).
- A page of a site stays on its day. The strips of the day stand on it in their order, each once,
  and behind them nothing, however the markers are spread over included files (`strips_in_order`).
-/

namespace Webcomic.Template

variable {M A : Type} {slot : Slot M A}

theorem spares_includeHandler : (includeHandler : Handler M).Spares slot where
  handle marker m := by
    unfold includeHandler
    dsimp only
    split
    · exact trivial
    · exact fun _ _ _ => trivial
  resetForDay _ := rfl
  resetForPage _ := rfl

theorem spares_dateHandler (source : DateSource) :
    (dateHandler source : Handler M).Spares slot where
  handle _ _ _ := trivial
  resetForDay _ := rfl
  resetForPage _ := rfl

end Webcomic.Template

namespace Webcomic.Site

open Calendar Files Template

variable {M : Type} {archive : Archive} {c : Config} {used : Slot M Nat} {tags : Registry M}
  {files : FileTree} {date : Date} {names : List String} {params : Option String}
  {turns : List (Turn M)} {start d d' : Desk M} {n k : Nat}

/-! ## The strips of a day -/

/-- The strip of a day at a position, and nothing behind the last one. -/
def strip (c : Config) (date : Date) (names : List String) (n : Nat) (params : Option String) :
    String :=
  match names[n]? with
  | some file => image c date file params
  | none => ""

/-- What a marker is answered with on a day, if so many strips count as used up. -/
def stripOn (archive : Archive) (c : Config) (date : Date) (n : Nat) (params : Option String) :
    String :=
  match archive.files? date with
  | some names => strip c date names n params
  | none => noComic date

theorem stripOn_of_some (h : archive.files? date = some names) :
    stripOn archive c date n params = strip c date names n params := by
  rw [stripOn, h]

theorem image_ne_empty (c : Config) (date : Date) (file : String) (params : Option String) :
    image c date file params ≠ "" := by
  intro h
  have hlist := congrArg String.toList h
  simp [image] at hlist

/-- An image tells which file it shows. -/
theorem image_inj {file file' : String}
    (h : image c date file params = image c date file' params) : file = file' := by
  simpa [image, Config.comicUrl, String.append_assoc, String.append_left_inj,
    String.append_right_inj] using h

/-- Nothing is written exactly when all files have been used. -/
theorem strip_eq_empty_iff : strip c date names n params = "" ↔ names.length ≤ n := by
  rw [strip, ← List.getElem?_eq_none_iff]
  split
  next file hfile => simp [hfile, image_ne_empty]
  next hnone => simp [hnone]

/-- Once all files have been used, further markers change nothing. -/
theorem strip_min (k : Nat) :
    strip c date names (min k names.length) params = strip c date names k params := by
  rcases Nat.le_total k names.length with hle | hge
  · rw [Nat.min_eq_left hle]
  · rw [Nat.min_eq_right hge, strip_eq_empty_iff.mpr (Nat.le_refl _), strip_eq_empty_iff.mpr hge]

/-- Different positions have different strips. -/
theorem strip_inj (hnames : names.Nodup) (hn : n < names.length)
    (h : strip c date names n params = strip c date names k params) : n = k := by
  have hk : k < names.length := by
    by_contra hge
    have hempty := h.trans (strip_eq_empty_iff.mpr (Nat.le_of_not_lt hge))
    exact absurd (strip_eq_empty_iff.mp hempty) (Nat.not_le_of_lt hn)
  rw [strip, strip, List.getElem?_eq_getElem hn, List.getElem?_eq_getElem hk] at h
  exact (List.Nodup.getElem_inj_iff hnames).mp (image_inj h)

/-! ## The markers of the strips -/

/-- Tags that write the strips of an archive, and count them in a part of the memory that no other
tag changes. -/
structure Shows (archive : Archive) (c : Config) (used : Slot M Nat) (tags : Registry M) :
    Prop where
  lawful : ∀ n m, used.get (used.set n m) = n
  reserves : tags.Reserves used "comic" (comicHandler used archive c)

/-- Whether a turn has written a strip. -/
def wroteStrip (archive : Archive) (t : Turn M) : Bool :=
  archive.contains t.date && t.text != ""

/-- The days of the strips that have been written, in their order. -/
def writtenDays (archive : Archive) (turns : List (Turn M)) : List Date :=
  (turns.filter (wroteStrip archive)).map Turn.date

theorem writtenDays_concat (turns : List (Turn M)) (t : Turn M) :
    writtenDays archive (turns ++ [t]) =
      writtenDays archive turns ++ if wroteStrip archive t then [t.date] else [] := by
  rw [writtenDays, writtenDays, List.filter_append, List.map_append]
  cases h : wroteStrip archive t with
  | true => rw [List.filter_cons_of_pos h]; rfl
  | false => rw [List.filter_cons_of_neg (by simp [h])]; rfl

theorem mem_writtenDays_iff {date : Date} : date ∈ writtenDays archive turns ↔
    ∃ t ∈ turns, wroteStrip archive t = true ∧ t.date = date := by
  simp [writtenDays, and_assoc]

/-- A turn that wrote a strip counts for all turns after it. -/
theorem mem_writtenDays_take {t : Turn M} (ht : turns[n]? = some t)
    (hwrote : wroteStrip archive t = true) (hlt : n < k) :
    t.date ∈ writtenDays archive (turns.take k) := by
  refine mem_writtenDays_iff.mpr ⟨t, List.mem_of_getElem? (i := n) ?_, hwrote, rfl⟩
  rw [List.getElem?_take_of_lt hlt, ht]

namespace Shows

variable (h : Shows archive c used tags)
include h

/-- A marker of the strips is answered with the next strip, which is used up from then on. -/
theorem answered {m : Marker} (hm : isFor "comic" m = true) {wd : Location}
    {answer : Request → Run M String} {text : String}
    (hreply : reply tags wd answer m d = some (text, d')) (stack : List (Frame M)) :
    text = stripOn archive c d.session.requested (used.get d.memory) m.params ∧
      used.get d'.memory =
        used.get d.memory + if wroteStrip archive ⟨m, stack, d, text⟩ then 1 else 0 := by
  obtain ⟨name, hname, hhandler⟩ := handler?_of_isFor tags hm
  rw [h.reserves.registered] at hhandler
  simp only [reply, hname, hhandler, comicHandler, Script.run_look] at hreply
  cases hfiles : archive.files? d.session.requested with
  | none =>
    simp only [hfiles, Script.run_reply, Option.some.injEq, Prod.mk.injEq] at hreply
    obtain ⟨rfl, rfl⟩ := hreply
    simp [stripOn, hfiles, wroteStrip, Archive.contains, Turn.date]
  | some names =>
    simp only [hfiles, Script.run_recollect] at hreply
    -- a strip is counted when it is written, and not when all have been used
    cases hfile : names[used.get d.memory]? with
    | none =>
      simp only [hfile, Script.run_reply, Option.some.injEq, Prod.mk.injEq] at hreply
      obtain ⟨rfl, rfl⟩ := hreply
      simp [stripOn, strip, hfiles, hfile, wroteStrip]
    | some file =>
      simp only [hfile, Script.run_remember, Script.run_reply, Option.some.injEq, Prod.mk.injEq]
        at hreply
      obtain ⟨rfl, rfl⟩ := hreply
      simp [stripOn, strip, hfiles, hfile, wroteStrip, Archive.contains, Turn.date, image_ne_empty,
        h.lawful]

/-- **The strips are counted for the page**, whatever day each of them belongs to. -/
theorem counted (hturns : Turns tags files used start turns d')
    (hstart : used.get start.memory = 0) (hcomic : ∀ t ∈ turns, isFor "comic" t.marker = true) :
    used.get d'.memory = (writtenDays archive turns).length ∧
      ∀ k t, turns[k]? = some t →
        t.text = stripOn archive c t.date (writtenDays archive (turns.take k)).length
          t.marker.params := by
  induction hturns with
  | start => exact ⟨hstart, fun k t ht => by simp at ht⟩
  | aside _ hget ih =>
    obtain ⟨hused, htexts⟩ := ih hcomic
    exact ⟨hget.trans hused, htexts⟩
  | @turn turns d₁ d₂ m stack text depth _ hreply ih =>
    obtain ⟨hbefore, hlast⟩ := List.forall_mem_append.mp hcomic
    obtain ⟨hused, htexts⟩ := ih hbefore
    have hm : isFor "comic" m = true := hlast _ (List.mem_singleton_self _)
    obtain ⟨htext, hnext⟩ := h.answered hm hreply stack
    constructor
    · rw [hnext, hused, writtenDays_concat, List.length_append]
      split <;> rfl
    · intro k t ht
      -- an earlier turn is one of the induction hypothesis, and the last is answered by the count
      -- so far
      rcases Nat.lt_trichotomy k turns.length with hlt | rfl | hgt
      · rw [List.getElem?_append_left hlt] at ht
        rw [List.take_append_of_le_length (Nat.le_of_lt hlt)]
        exact htexts k t ht
      · rw [List.getElem?_concat_length] at ht
        cases ht
        rw [List.take_left, ← hused]
        exact htext
      · rw [List.getElem?_eq_none (by simp; omega)] at ht
        cases ht

end Shows

/-- A new day or page begins with the first strip. -/
theorem Shows.used_eq_zero {r : Registry M} (h : Shows archive c used r) (hnew : r.Renewed tags) :
    used.get tags.memory = 0 :=
  h.reserves.get_renewed hnew (h.lawful 0) (h.lawful 0)

theorem Shows.renewed {r : Registry M} (h : Shows archive c used r) (hnew : r.Renewed tags) :
    Shows archive c used tags :=
  ⟨h.lawful, h.reserves.renewed hnew⟩

/-! ## The tags of a site -/

theorem plain_comicHandler (used : Slot M Nat) (archive : Archive) (c : Config) (m : Marker) :
    ((comicHandler used archive c).handle m).Plain := by
  intro s
  dsimp only
  split
  · exact trivial
  · intro memory
    dsimp only
    split <;> exact trivial

theorem spares_navHandler (direction : Direction) (archive : Archive) (c : Config) :
    (navHandler direction (Memory.whole.within (Memory.targetSlot direction)) archive c).Spares
      (Memory.whole.within Memory.usedSlot) where
  handle marker m s := by
    show Script.Spares _ (linkScript direction _ archive c s.requested marker.params m) m
    unfold linkScript
    split
    · exact trivial
    · exact ⟨rfl, trivial⟩
  resetForDay _ := rfl
  resetForPage _ := rfl

/-- The tags of a site write the strips of its archive, counted where no other tag counts. -/
theorem shows_registry (memory : Memory) (archive : Archive) (c : Config)
    (policy : UnknownTagPolicy) :
    Shows archive c (Memory.whole.within Memory.usedSlot)
      (registry Memory.whole memory archive c policy) where
  lawful _ _ := rfl
  reserves := by
    have hnames := canonicalName_tags
    simp only [List.map_cons, List.map_nil, List.cons.injEq, and_true] at hnames
    obtain ⟨-, -, -, hcomic, -⟩ := hnames
    refine ⟨?_, plain_comicHandler _ archive c, ?_⟩
    · rw [Registry.handler?, hcomic, handlers_registry]
      rfl
    · intro name handler hmem hname
      rcases handler_registry hmem with rfl | ⟨source, rfl⟩ | ⟨rfl, -⟩ | ⟨direction, -, rfl⟩
      · exact spares_includeHandler
      · exact spares_dateHandler source
      · exact absurd rfl hname
      · exact spares_navHandler direction archive c

/-! ## Pages that turn to other days -/

/-- Each marker writes the first strip of its day that has not been written, and nothing if all have
been. -/
def NoneSkipped (archive : Archive) (c : Config) (turns : List (Turn M)) : Prop :=
  ∀ k t names, turns[k]? = some t → archive.files? t.date = some names →
    t.text = strip c t.date names ((writtenDays archive (turns.take k)).count t.date)
      t.marker.params

/-- All markers on days with strips are about one day. -/
def OneDay (archive : Archive) (turns : List (Turn M)) : Prop :=
  ∀ t ∈ turns, ∀ t' ∈ turns, archive.contains t.date = true → archive.contains t'.date = true →
    t.date = t'.date

/-- If none is skipped, a strip is written of every day that has strips and is asked for. -/
theorem mem_writtenDays_of_contains (hnone : NoneSkipped archive c turns) {t : Turn M}
    (ht : t ∈ turns) (hcontains : archive.contains t.date = true) :
    t.date ∈ writtenDays archive turns := by
  obtain ⟨names, hnames⟩ := Option.isSome_iff_exists.mp hcontains
  obtain ⟨k, hk⟩ := List.getElem?_of_mem ht
  by_cases htext : t.text = ""
  · -- all strips of the day have been written, and there is one
    have hown := hnone k t names hk hnames
    rw [htext] at hown
    have hle := strip_eq_empty_iff.mp hown.symm
    have hpos : 0 < names.length :=
      List.length_pos_iff.mpr (archive.inhabited _ (Archive.files?_eq_some_iff.mp hnames))
    obtain ⟨u, hu, hwrote, hdate⟩ :=
      mem_writtenDays_iff.mp (List.count_pos_iff.mp (hpos.trans_le hle))
    exact mem_writtenDays_iff.mpr ⟨u, List.mem_of_mem_take hu, hwrote, hdate⟩
  · exact mem_writtenDays_iff.mpr ⟨t, ht, by simp [wroteStrip, hcontains, htext], rfl⟩

section

variable (h : Shows archive c used tags) (hturns : Turns tags files used start turns d')
  (hstart : used.get start.memory = 0) (hcomic : ∀ t ∈ turns, isFor "comic" t.marker = true)
include h hturns hstart hcomic

/-- On one day the count of all strips is the count of its own. -/
theorem noneSkipped_of_oneDay (hday : OneDay archive turns) : NoneSkipped archive c turns := by
  intro k t names ht hnames
  have hall : ∀ day ∈ writtenDays archive (turns.take k), t.date = day := by
    intro day hmem
    obtain ⟨t', ht', hwrote, rfl⟩ := mem_writtenDays_iff.mp hmem
    exact hday t (List.mem_of_getElem? ht) t' (List.mem_of_mem_take ht')
      (by rw [Archive.contains, hnames]; rfl) (Bool.and_elim_left hwrote)
  rw [(h.counted hturns hstart hcomic).2 k t ht, stripOn_of_some hnames,
    List.count_eq_length.mpr hall]

/-- If none is skipped, a marker that writes a strip finds only strips of its own day before it. -/
theorem eq_of_mem_writtenDays_take (hnone : NoneSkipped archive c turns) {t : Turn M}
    (ht : turns[k]? = some t) (hwrote : wroteStrip archive t = true)
    (hdistinct : ∀ names, archive.files? t.date = some names → names.Nodup) {day : Date}
    (hday : day ∈ writtenDays archive (turns.take k)) : t.date = day := by
  obtain ⟨hcontains, htext⟩ := Bool.and_eq_true_iff.mp hwrote
  obtain ⟨names, hnames⟩ := Option.isSome_iff_exists.mp hcontains
  have htotal := (h.counted hturns hstart hcomic).2 k t ht
  rw [stripOn_of_some hnames] at htotal
  have hlt : (writtenDays archive (turns.take k)).length < names.length := by
    by_contra hge
    rw [strip_eq_empty_iff.mpr (Nat.le_of_not_lt hge)] at htotal
    simp [htotal] at htext
  have hown := hnone k t names ht hnames
  -- one strip at two counts, of all strips and of those of the day: the counts are the same
  have heq := strip_inj (hdistinct names hnames) hlt (htotal.symm.trans hown)
  exact List.count_eq_length.mp heq.symm day hday

/-- If none is skipped, no two markers that found a strip were about different days. -/
theorem oneDay_of_noneSkipped
    (hdistinct : ∀ t ∈ turns, ∀ names, archive.files? t.date = some names → names.Nodup)
    (hnone : NoneSkipped archive c turns) : OneDay archive turns := by
  -- two turns that wrote, in their order
  have hbefore : ∀ (i j : Nat) (t t' : Turn M), turns[i]? = some t → turns[j]? = some t' → i < j →
      wroteStrip archive t = true → wroteStrip archive t' = true → t'.date = t.date := by
    intro i j t t' hi hj hlt hwrote hwrote'
    exact eq_of_mem_writtenDays_take h hturns hstart hcomic hnone hj hwrote'
      (hdistinct t' (List.mem_of_getElem? hj)) (mem_writtenDays_take hi hwrote hlt)
  have hwritten : ∀ day ∈ writtenDays archive turns, ∀ day' ∈ writtenDays archive turns,
      day = day' := by
    intro day hday day' hday'
    obtain ⟨t, ht, hwrote, rfl⟩ := mem_writtenDays_iff.mp hday
    obtain ⟨t', ht', hwrote', rfl⟩ := mem_writtenDays_iff.mp hday'
    obtain ⟨i, hi⟩ := List.getElem?_of_mem ht
    obtain ⟨j, hj⟩ := List.getElem?_of_mem ht'
    rcases Nat.lt_trichotomy i j with hlt | rfl | hgt
    · exact (hbefore i j t t' hi hj hlt hwrote hwrote').symm
    · rw [Option.some.inj (hi.symm.trans hj)]
    · exact hbefore j i t' t hj hi hgt hwrote' hwrote
  intro t ht t' ht' hcontains hcontains'
  exact hwritten _ (mem_writtenDays_of_contains hnone ht hcontains) _
    (mem_writtenDays_of_contains hnone ht' hcontains')

end

/-- **The strips are counted for the page, not for the day.** After a reset, whatever is done
between the markers, each of them writes the strip of its day at the position that is the number of
strips written so far, of whatever days these are. So no strip is skipped if all markers on days
with strips are about one day. If the files of a day have different names, that is the only way:
once the session turns from one such day to another, a strip is skipped. -/
theorem no_strip_skipped_iff {r : Registry M} (h : Shows archive c used r) (hnew : r.Renewed tags)
    {s : Session} (hturns : Turns tags files used (tags.desk s) turns d')
    (hcomic : ∀ t ∈ turns, isFor "comic" t.marker = true) :
    (∀ k t, turns[k]? = some t →
      t.text = stripOn archive c t.date (writtenDays archive (turns.take k)).length
        t.marker.params) ∧
    (OneDay archive turns → NoneSkipped archive c turns) ∧
    ((∀ t ∈ turns, ∀ names, archive.files? t.date = some names → names.Nodup) →
      NoneSkipped archive c turns → OneDay archive turns) := by
  have htags := h.renewed hnew
  have hstart : used.get (tags.desk s).memory = 0 := h.used_eq_zero hnew
  exact ⟨(htags.counted hturns hstart hcomic).2, noneSkipped_of_oneDay htags hturns hstart hcomic,
    oneDay_of_noneSkipped htags hturns hstart hcomic⟩

/-- Two strips of one day and one of the next. -/
def threeStrips : Archive :=
  .ofFiles [(firstDay, "a.png"), (firstDay, "b.png"), (secondDay, "c.png")]

/-- The tags for these strips when a comic day starts, after five files have been used up. -/
def renewedTags : Registry Memory :=
  ((registry Memory.whole .blank threeStrips {} .echo).leaving
    ⟨Memory.usedSlot.set 5 .blank, "", .start firstDay none⟩).resetForDay

theorem renewed_renewedTags :
    (registry Memory.whole .blank threeStrips {} .echo).Renewed renewedTags :=
  .forDay _

/-- Between two markers the session is turned from one of the days to the other, and a strip is
skipped. -/
theorem no_strip_skipped_iff_two_days :
    ∃ turns d', Turns renewedTags twoComics (Memory.whole.within Memory.usedSlot)
        (renewedTags.desk (.start firstDay none)) turns d' ∧
      (∀ t ∈ turns, t.marker = ⟨"***comic***", some "comic", none⟩) ∧
      turns.map Turn.date = [firstDay, secondDay] ∧
      ¬ NoneSkipped threeStrips {} turns := by
  have hregistry := shows_registry .blank threeStrips {} .echo
  have hm : isFor "comic" ⟨"***comic***", some "comic", none⟩ = true := by simp [isFor]
  obtain ⟨turns, d', hturns, hdates, hmarkers⟩ :=
    exists_turns (hregistry.renewed renewed_renewedTags).reserves hm twoComics
      (renewedTags.desk (.start firstDay none)) [firstDay, secondDay]
  refine ⟨turns, d', hturns, hmarkers, hdates, fun hnone => ?_⟩
  have hcomic : ∀ t ∈ turns, isFor "comic" t.marker = true := by
    intro t ht
    rw [hmarkers t ht]
    exact hm
  have hdistinct : ∀ t ∈ turns, ∀ names, threeStrips.files? t.date = some names →
      names.Nodup := by
    intro t _ names hnames
    have hdays : ∀ day ∈ threeStrips.days, day.2.Nodup := by decide
    exact hdays _ (Archive.files?_eq_some_iff.mp hnames)
  obtain ⟨-, -, hone⟩ := no_strip_skipped_iff hregistry renewed_renewedTags hturns hcomic
  have hday := hone hdistinct hnone
  have hmem : ∀ date ∈ [firstDay, secondDay], ∃ t ∈ turns, t.date = date := by
    rw [← hdates]
    exact fun date => List.mem_map.mp
  obtain ⟨t, ht, hfirst⟩ := hmem firstDay (by simp)
  obtain ⟨t', ht', hsecond⟩ := hmem secondDay (by simp)
  have heq := hday t ht t' ht'
  rw [hfirst, hsecond] at heq
  exact absurd (heq (by decide) (by decide)) (by decide)

/-! ## Pages about one day -/

/-- On one day as many strips are written as there are markers, until there are no more. -/
theorem length_writtenDays_take (hnames : archive.files? date = some names)
    (hdate : ∀ t ∈ turns, t.date = date)
    (htexts : ∀ k t, turns[k]? = some t →
      t.text = stripOn archive c t.date (writtenDays archive (turns.take k)).length t.marker.params)
    (hk : k ≤ turns.length) : (writtenDays archive (turns.take k)).length = min k names.length := by
  induction k with
  | zero => rfl
  | succ k ih =>
    have hk' : k < turns.length := hk
    have htext := htexts k _ (List.getElem?_eq_getElem hk')
    rw [ih (Nat.le_of_lt hk'), hdate _ (List.getElem_mem hk'), stripOn_of_some hnames] at htext
    -- the marker finds as many strips written as there are markers before it
    have hwrote : wroteStrip archive turns[k] = true ↔ k < names.length := by
      rw [wroteStrip, hdate _ (List.getElem_mem hk'), htext]
      simp [Archive.contains, hnames, strip_eq_empty_iff]
    rw [List.take_succ_eq_append_getElem hk', writtenDays_concat, List.length_append,
      ih (Nat.le_of_lt hk')]
    split
    next h =>
      have := hwrote.mp h
      simp only [List.length_singleton]
      omega
    next h =>
      have := mt hwrote.mpr h
      simp only [List.length_nil]
      omega

/-- Along a trail about one day the markers of the strips are answered with the strips of the day,
in the order in which they are handed over. -/
theorem Shows.leads_of_trail (h : Shows archive c used tags)
    (hnames : archive.files? date = some names) (hstart : used.get start.memory = 0) {q : Request}
    {passed : List (Moment M)} {now : Moment M}
    (htrail : Trail tags files ⟨.call q, [], start⟩ passed now)
    (hday : ∀ a ∈ passed, a.desk.session.requested = date) {m : Marker} {stack : List (Frame M)}
    (hk : (passed.filter (·.isFor "comic"))[k]? = some ⟨.replace m, stack, d⟩) :
    ∃ d', Leads tags files ⟨.replace m, stack, d⟩
      ⟨.answer (strip c date names k m.params), stack, d'⟩ := by
  -- the turns of the tag are the moments at which its markers are handed over
  have hbegin : Taken tags files used start ⟨.call q, [], start⟩ := .between rfl trivial nofun
  obtain ⟨turns, d', hturns, -, hmoments⟩ := htrail.turns h.reserves hbegin
  have hmem : ∀ t ∈ turns, t.moment ∈ passed ∧ isFor "comic" t.marker = true := by
    intro t ht
    have hmoment := List.mem_map_of_mem (f := Turn.moment) ht
    rw [hmoments] at hmoment
    exact List.mem_filter.mp hmoment
  have hdates : ∀ t ∈ turns, t.date = date := fun t ht => hday _ (hmem t ht).1
  have htexts := (h.counted hturns hstart fun t ht => (hmem t ht).2).2
  rw [← hmoments, List.getElem?_map] at hk
  obtain ⟨t, ht, hmoment⟩ := Option.map_eq_some_iff.mp hk
  cases hmoment
  have hle := Nat.le_of_lt (List.getElem?_eq_some_iff.mp ht).1
  have htext := htexts k t ht
  rw [length_writtenDays_take hnames hdates htexts hle, hdates t (List.mem_of_getElem? ht),
    stripOn_of_some hnames, strip_min] at htext
  rw [← htext]
  exact hturns.leads (List.mem_of_getElem? ht)

/-- **On a page for one day every strip appears once and in order.** Whatever the tags have been
used for before, after a reset every text or file that is expanded in a session about a day comes to
an end, and the session is about that day at every moment and in the end. In the order in which they
are handed over, in whatever file and spelling they stand, the markers of the strips are answered
with the strips of the day, one after another, and with nothing when there are no more. -/
theorem strips_in_order (hnames : archive.files? date = some names) (c : Config)
    (policy : UnknownTagPolicy) {tags : Registry Memory}
    (hnew : (registry Memory.whole .blank archive c policy).Renewed tags) (files : FileTree)
    (today : Date) (root : Option Path) (q : Request) :
    let start : Moment Memory :=
      ⟨.call q, [], tags.desk { Session.start today root with requested := date }⟩
    (∃ text desk, Leads tags files start ⟨.answer text, [], desk⟩ ∧
      expand tags files (files.fileLocations.length + 2) q start.desk = some (text, desk) ∧
      desk.session.requested = date) ∧
    ∀ passed now, Trail tags files start passed now →
      (∀ a ∈ passed, a.desk.session.requested = date) ∧ now.desk.session.requested = date ∧
      ∀ k m stack desk, (passed.filter (·.isFor "comic"))[k]? = some ⟨.replace m, stack, desk⟩ →
        ∃ desk', Leads tags files ⟨.replace m, stack, desk⟩
          ⟨.answer (strip c date names k m.params), stack, desk'⟩ := by
  intro start
  have hregistry := shows_registry .blank archive c policy
  have hbound : tags.FileBound := by
    rw [Registry.FileBound, hnew.handlers]
    exact fileBound_registry Memory.whole .blank archive c policy
  -- no tag of a site turns a session to another day
  have hkeeps : tags.Keeps date fun _ => True := by
    have hlasting : Lasting Memory.whole archive date fun _ => True := lasting_true
    rw [Registry.Keeps, hnew.handlers]
    exact hlasting.keeps_registry .blank c policy
  have hkept : Kept date (fun _ => True) start := ⟨rfl, trivial, nofun⟩
  constructor
  · obtain ⟨text, desk, hrun⟩ := exists_expand_of_fileBound hbound files q start.desk
    have hleads := leads_of_expand tags files _ q _ text desk hrun []
    exact ⟨text, desk, hleads, hrun, (hkept.leads hkeeps hleads).requested⟩
  intro passed now htrail
  have hday : ∀ a ∈ passed, a.desk.session.requested = date := fun a ha =>
    (hkept.leads hkeeps (htrail.leads_of_mem ha)).requested
  refine ⟨hday, (hkept.leads hkeeps htrail.leads).requested, fun k m stack desk hk => ?_⟩
  exact (hregistry.renewed hnew).leads_of_trail hnames (hregistry.used_eq_zero hnew) htrail hday hk

/-- A template with a marker in front of an included file and one behind it. -/
def nestedTemplates : FileTree where
  workingDir := []
  nodes :=
    [(["day.html"], .file "***comic***\n***include rest.html***\n***COMIC***\n".toUTF8),
      (["rest.html"], .file "***Comic wide***".toUTF8)]
  distinct := by decide

/-- The second strip stands in the included file, so the last marker writes nothing. -/
theorem strips_in_order_nested_templates :
    let start : Moment Memory := ⟨.call (.file "day.html"), [],
      renewedTags.desk { Session.start secondDay none with requested := firstDay }⟩
    (∃ text desk, Leads renewedTags nestedTemplates start ⟨.answer text, [], desk⟩ ∧
      text = "<img src=\"about:blankcomics/a.png\" alt=\"Comic for January 1, 2024\">\n" ++
        "<img src=\"about:blankcomics/b.png\" alt=\"Comic for January 1, 2024\" class=\"wide\">" ++
        "\n\n" ∧
      desk.session.requested = firstDay) ∧
    ∀ passed now, Trail renewedTags nestedTemplates start passed now →
      ∀ m stack desk, (passed.filter (·.isFor "comic"))[2]? = some ⟨.replace m, stack, desk⟩ →
        ∃ desk', Leads renewedTags nestedTemplates ⟨.replace m, stack, desk⟩
          ⟨.answer "", stack, desk'⟩ := by
  intro start
  have hfirst : threeStrips.files? firstDay = some ["a.png", "b.png"] := by decide
  obtain ⟨⟨text, desk, hleads, hrun, hday⟩, htrail⟩ := strips_in_order hfirst {} .echo
    renewed_renewedTags nestedTemplates secondDay none (.file "day.html")
  have htext : (expand renewedTags nestedTemplates 4 (.file "day.html") start.desk).map Prod.fst =
      some ("<img src=\"about:blankcomics/a.png\" alt=\"Comic for January 1, 2024\">\n" ++
        "<img src=\"about:blankcomics/b.png\" alt=\"Comic for January 1, 2024\" class=\"wide\">" ++
        "\n\n") := by decide +kernel
  refine ⟨⟨text, desk, hleads, ?_, hday⟩, fun passed now h m stack desk hm => ?_⟩
  · have hmap := congrArg (Option.map Prod.fst) hrun
    exact Option.some.inj (hmap.symm.trans htext)
  · obtain ⟨-, -, hstrips⟩ := htrail passed now h
    exact hstrips 2 m stack desk hm

end Webcomic.Site
