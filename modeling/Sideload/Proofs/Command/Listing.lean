import Sideload.Proofs.Command.Answer
import Sideload.Proofs.Shelf.Rewrite

/-!
The table of installed modules keeps its columns. Modes and sources always begin under their headings. So does the
time, unless the note that an artifact is gone pushes it to the right: the note is put behind a source that was cut
to fit without it.
-/

namespace Sideload

namespace Listing

/-! ### Places in a line -/

/-- A cell begins at a place of a line: right there, after a blank. -/
def BeginsAt (cell : List Char) (place : Nat) (row : List Char) : Prop :=
  ∃ before after, row = before ++ ' ' :: cell ++ after ∧ before.length + 1 = place

variable {cell row before full shown : List Char} {place limit : Nat} {d : Disk} {e : Entry} {r : Row}

theorem BeginsAt.head (h : BeginsAt cell place row) (hne : cell ≠ []) : row[place]? = cell.head? := by
  obtain ⟨before, after, rfl, rfl⟩ := h
  obtain ⟨c, cs, rfl⟩ := List.exists_cons_of_ne_nil hne
  rw [List.append_assoc, List.getElem?_append_right (Nat.le_succ _),
    show before.length.succ - before.length = 1 by omega]
  rfl

/-- A filled cell begins where the text before it and a blank end. -/
theorem beginsAt_fill (before cell : List Char) (width : Nat) (after : List Char) :
    BeginsAt cell (before.length + 1) (before ++ ' ' :: (fill width cell ++ after)) :=
  ⟨before, List.replicate (width - cell.length) ' ' ++ after, by simp [fill], rfl⟩

theorem length_fill_of_le {width : Nat} (h : cell.length ≤ width) : (fill width cell).length = width := by
  rw [length_fill, Nat.max_eq_left h]

/-- A cell that is shorter than its column is followed by a blank. -/
theorem exists_fill_of_lt {width : Nat} (h : cell.length < width) :
    ∃ n, fill width cell = cell ++ ' ' :: List.replicate n ' ' :=
  ⟨width - cell.length - 1, by rw [fill, ← List.replicate_succ, Nat.sub_add_cancel (by omega)]⟩

/-! ### What is shown of a text -/

/-- The text, or a part of it that it begins with and an ellipsis. -/
inductive ShowsStart (full : List Char) : List Char → Prop
  | whole : ShowsStart full full
  | cut {start : List Char} (h : start <+: full) (hne : start ≠ full) : ShowsStart full (start ++ ellipsis)

/-- The text, or an ellipsis and a part of it that it ends with. -/
inductive ShowsEnd (full : List Char) : List Char → Prop
  | whole : ShowsEnd full full
  | cut {rest : List Char} (h : rest <:+ full) (hne : rest ≠ full) : ShowsEnd full (ellipsis ++ rest)

theorem cutEnd_shows (hlimit : ellipsis.length ≤ limit) (full : List Char) : ShowsStart full (cutEnd limit full) := by
  unfold cutEnd
  split
  · exact .whole
  · next hlong =>
      refine .cut (List.take_prefix _ _) fun heq => hlong ?_
      have hlength := congrArg List.length heq
      rw [List.length_take] at hlength
      omega

theorem cutStart_shows (hlimit : ellipsis.length ≤ limit) (full : List Char) : ShowsEnd full (cutStart limit full) := by
  unfold cutStart
  split
  · exact .whole
  · next hlong =>
      refine .cut (List.drop_suffix _ _) fun heq => ?_
      have hlength := congrArg List.length heq
      have hdots : ellipsis.length = 3 := rfl
      rw [List.length_drop] at hlength
      omega

theorem length_cutStart_of_lt (h : limit < full.length) (hlimit : ellipsis.length ≤ limit) :
    (cutStart limit full).length = limit := by
  rw [cutStart, if_neg (by omega), List.length_append, List.length_drop]
  omega

/-! ### Columns -/

def modeColumn : Nat := nameWidth + 1

def sourceColumn : Nat := modeColumn + modeWidth + 1

def installedColumn : Nat := sourceColumn + sourceWidth + 1

namespace Row

/-- The name and the mode fit their columns. -/
structure Fits (r : Row) : Prop where
  name : r.name.length ≤ nameWidth
  mode : r.mode.length ≤ modeWidth

variable (h : r.Fits)
include h

theorem mode_beginsAt : BeginsAt r.mode modeColumn r.text := by
  have hmode := beginsAt_fill (fill nameWidth r.name) r.mode modeWidth
    (' ' :: (fill sourceWidth r.source ++ ' ' :: fill installedWidth r.installed))
  rw [length_fill_of_le h.name] at hmode
  simpa [text, modeColumn] using hmode

theorem source_beginsAt : BeginsAt r.source sourceColumn r.text := by
  have hsource := beginsAt_fill (fill nameWidth r.name ++ ' ' :: fill modeWidth r.mode) r.source
    sourceWidth (' ' :: fill installedWidth r.installed)
  rw [List.length_append, List.length_cons, length_fill_of_le h.name, length_fill_of_le h.mode] at hsource
  rw [show sourceColumn = nameWidth + (modeWidth + 1) + 1 from rfl]
  simpa [text] using hsource

/-- The time begins at its column, or as much farther to the right as the source is too long. -/
theorem installed_beginsAt :
    BeginsAt r.installed (installedColumn + (r.source.length - sourceWidth)) r.text := by
  have hinstalled := beginsAt_fill
    (fill nameWidth r.name ++ ' ' :: fill modeWidth r.mode ++ ' ' :: fill sourceWidth r.source) r.installed
    installedWidth []
  simp only [List.length_append, List.length_cons, length_fill_of_le h.name, length_fill_of_le h.mode,
    length_fill] at hinstalled
  have hplace : installedColumn + (r.source.length - sourceWidth) =
      nameWidth + (modeWidth + 1) + (max sourceWidth r.source.length + 1) + 1 := by
    unfold installedColumn sourceColumn modeColumn
    omega
  rw [hplace]
  simpa [text] using hinstalled

end Row

namespace Row

/-- The name and the mode of an entry fit their columns. -/
theorem fits_ofEntry (d : Disk) (e : Entry) : (ofEntry d e).Fits where
  name := (length_cutEnd_le nameLimit (by decide) _).trans (by decide)
  mode := by
    show e.mode.label.toList.length ≤ modeWidth
    cases e.mode <;> decide

theorem source_ofEntry (d : Disk) (e : Entry) : (ofEntry d e).source =
    cutStart sourceLimit e.source.display.toList ++ if d.occupied e.artifact = true then [] else missingNote := by
  rw [ofEntry]
  split <;> simp

/-- The source fits its column, unless the note makes it too long. -/
theorem source_fits_iff : (ofEntry d e).source.length ≤ sourceWidth ↔
    d.occupied e.artifact = true ∨ e.source.display.length + missingNote.length ≤ sourceWidth := by
  have hcut := length_cutStart_le sourceLimit (by decide) e.source.display.toList
  have hnote : missingNote.length = 10 := rfl
  rw [source_ofEntry, List.length_append, ← String.length_toList]
  unfold sourceLimit sourceWidth at *
  by_cases hthere : d.occupied e.artifact = true
  · simp only [hthere, if_true, List.length_nil, true_or, iff_true]
    omega
  · simp only [hthere, if_false, false_or, Bool.false_eq_true]
    by_cases hlong : 43 < e.source.display.toList.length
    · rw [length_cutStart_of_lt hlong (by decide)]
      omega
    · rw [cutStart, if_pos (by omega)]

end Row

/-! ### Times under their heading -/

/-- A time begins with a digit or a sign. -/
theorem tableText_eq_cons (m : Moment) : ∃ c rest, m.tableText = c :: rest ∧ (c.isDigit = true ∨ c ∈ momentChars) := by
  unfold Moment.tableText Moment.dateText
  cases hyear : Moment.yearText m.date.year with
  | nil => exact ⟨'-', _, rfl, .inr (by decide)⟩
  | cons c rest => exact ⟨c, _, rfl, Moment.mem_yearText (hyear ▸ List.mem_cons_self)⟩

/-- The note and the blank behind it hold nothing that a time begins with. -/
theorem of_mem_missingNote {c : Char} (h : c ∈ missingNote ++ [' ']) : c.isDigit = false ∧ c ∉ momentChars := by
  have hall : (missingNote ++ [' ']).all fun c => c.isDigit = false ∧ c ∉ momentChars := rfl
  exact of_decide_eq_true (List.all_eq_true.1 hall c h)

/-- Where the source is too long, the note is in the place of the time. -/
theorem mem_missingNote_of_long (hlong : sourceWidth < (Row.ofEntry d e).source.length) :
    ∃ c ∈ missingNote ++ [' '], (Row.ofEntry d e).text[installedColumn]? = some c := by
  have hfits := Row.fits_ofEntry d e
  have hmissing : ¬ d.occupied e.artifact = true := fun hthere =>
    absurd (Row.source_fits_iff.2 (.inl hthere)) (by omega)
  have hsource := Row.source_ofEntry d e
  rw [if_neg hmissing] at hsource
  have hcut := length_cutStart_le sourceLimit (by decide) e.source.display.toList
  generalize cutStart sourceLimit e.source.display.toList = cut at hsource hcut
  have hlength : (Row.ofEntry d e).source.length = cut.length + 10 := by
    rw [hsource, List.length_append]
    rfl
  have hfilled : fill sourceWidth (Row.ofEntry d e).source = cut ++ missingNote := by
    rw [fill, Nat.sub_eq_zero_of_le hlong.le, List.replicate_zero, List.append_nil, hsource]
  have htext : (Row.ofEntry d e).text = (fill nameWidth (Row.ofEntry d e).name ++ ' ' ::
      fill modeWidth (Row.ofEntry d e).mode ++ ' ' :: cut) ++ ((missingNote ++ [' ']) ++
        fill installedWidth (Row.ofEntry d e).installed) := by
    rw [Row.text, hfilled]
    simp
  have hbefore : (fill nameWidth (Row.ofEntry d e).name ++ ' ' :: fill modeWidth (Row.ofEntry d e).mode ++
      ' ' :: cut).length = sourceColumn + cut.length := by
    simp only [List.length_append, List.length_cons, length_fill_of_le hfits.name, length_fill_of_le hfits.mode]
    unfold sourceColumn modeColumn
    omega
  unfold sourceLimit at hcut
  unfold sourceWidth at hlong
  have hplace : installedColumn - (sourceColumn + cut.length) < (missingNote ++ [' ']).length := by
    unfold installedColumn sourceWidth
    rw [show (missingNote ++ [' ']).length = 11 from rfl]
    omega
  refine ⟨(missingNote ++ [' '])[installedColumn - (sourceColumn + cut.length)], List.getElem_mem _, ?_⟩
  rw [htext, List.getElem?_append_right (by rw [hbefore]; unfold installedColumn sourceWidth; omega), hbefore,
    List.getElem?_append_left hplace, List.getElem?_eq_getElem hplace]

/-- The time is under its heading just when the source fits its column. -/
theorem installed_beginsAt_iff : BeginsAt e.installedAt.tableText installedColumn (Row.ofEntry d e).text ↔
    d.occupied e.artifact = true ∨ e.source.display.length + missingNote.length ≤ sourceWidth := by
  rw [← Row.source_fits_iff]
  constructor
  · intro h
    by_contra hlong
    obtain ⟨c, hc, hat⟩ := mem_missingNote_of_long (Nat.lt_of_not_le hlong)
    obtain ⟨c', rest, htime, hc'⟩ := tableText_eq_cons e.installedAt
    have hhead := h.head (by simp [htime])
    rw [hat, htime, List.head?_cons] at hhead
    obtain rfl := Option.some.inj hhead
    obtain ⟨hdigit, hsign⟩ := of_mem_missingNote hc
    rcases hc' with hc' | hc'
    · rw [hdigit] at hc'
      cases hc'
    · exact hsign hc'
  · intro hfits
    have h := Row.installed_beginsAt (Row.fits_ofEntry d e)
    rwa [Nat.sub_eq_zero_of_le hfits] at h

/-! ### The table -/

/-- How an entry is shown in a line of the table. -/
structure Presents (d : Disk) (e : Entry) (row : List Char) : Prop where
  name : ∃ shown, ShowsStart e.name.toList shown ∧ shown ++ [' '] <+: row
  mode : BeginsAt e.mode.label.toList modeColumn row
  /-- A note says that the artifact is gone. -/
  source : ∃ shown, ShowsEnd e.source.display.toList shown ∧
    BeginsAt (shown ++ if d.occupied e.artifact = true then [] else missingNote) sourceColumn row
  /-- The time begins under its heading, or farther to the right. -/
  installed : ∃ place, installedColumn ≤ place ∧ BeginsAt e.installedAt.tableText place row
  aligned : BeginsAt e.installedAt.tableText installedColumn row ↔
    d.occupied e.artifact = true ∨ e.source.display.length + missingNote.length ≤ sourceWidth

theorem presents (d : Disk) (e : Entry) : Presents d e (Row.ofEntry d e).text := by
  have hfits := Row.fits_ofEntry d e
  refine ⟨⟨cutEnd nameLimit e.name.toList, cutEnd_shows (by decide) _, ?_⟩, Row.mode_beginsAt hfits,
    ⟨cutStart sourceLimit e.source.display.toList, cutStart_shows (by decide) _, ?_⟩,
    ⟨_, Nat.le_add_right .., Row.installed_beginsAt hfits⟩, installed_beginsAt_iff⟩
  · have hshort : (cutEnd nameLimit e.name.toList).length < nameWidth :=
      (length_cutEnd_le _ (by decide) _).trans_lt (by decide)
    obtain ⟨n, hfill⟩ := exists_fill_of_lt hshort
    show cutEnd nameLimit e.name.toList ++ [' '] <+: fill nameWidth (cutEnd nameLimit e.name.toList) ++ _ ++ _ ++ _
    rw [hfill]
    simp
  · rw [← Row.source_ofEntry]
    exact Row.source_beginsAt hfits

/-- Lines as they are printed. -/
def printed (lines : List (List Char)) : String := String.ofList (lines.flatMap fun l => l ++ ['\n'])

theorem table_eq (d : Disk) (es : List Entry) : table d es = printed ([title.toList, [], header.text, rule] ++
    (es.map fun e => (Row.ofEntry d e).text) ++ [[], s!"Total: {es.length} module(s)".toList]) := by
  rw [← String.toList_inj]
  simp [table, printed, toString]

/-- The table keeps its columns but for one case. Where a registry with entries can be read, a header is printed and
below it a line for each entry, in order. In each of these lines the name is the first thing, and the mode and the
source begin under their headings; names and sources are shown whole, or cut with an ellipsis at the end or at the
start. The time is under its heading just when the artifact is there, or the source leaves room for the note that
it is gone. -/
theorem list_keeps_columns (shelf : Shelf) (env : Environment) (config : InstallConfig) (w : World) (r : Registry)
    (hread : Registry.read w.disk shelf.registryPath = .ok r) (hne : r.entries ≠ []) :
    BeginsAt "MODE".toList modeColumn header.text ∧ BeginsAt "SOURCE".toList sourceColumn header.text ∧
    BeginsAt "INSTALLED".toList installedColumn header.text ∧
    ∃ rows, ((Command.run shelf env config (.list false)).run w).1 =
        .ok (printed ([title.toList, [], header.text, rule] ++ rows ++
          [[], s!"Total: {r.entries.length} module(s)".toList])) ∧
      List.Forall₂ (Presents w.disk) r.entries rows := by
  have hfits : header.Fits := ⟨by decide, by decide⟩
  have hsource : header.source.length - sourceWidth = 0 := rfl
  refine ⟨Row.mode_beginsAt hfits, Row.source_beginsAt hfits, ?_, r.entries.map fun e => (Row.ofEntry w.disk e).text,
    ?_, List.forall₂_map_right_iff.2 (List.forall₂_same.2 fun e _ => presents w.disk e)⟩
  · have hinstalled := Row.installed_beginsAt hfits
    rwa [hsource] at hinstalled
  · show ((Command.runList shelf false).run w).1 = _
    rw [Command.run_runList, hread, ← table_eq]
    simp [Except.map, text, hne]

/-- The line of a module whose artifact is gone. -/
def goneLine (source : String) : String := s!"m|{source}|copy|/site/m.py|2024-05-06T00:00:00Z"

def goneWorld (source : String) : World := .holding [
  (Glyph.ofString "home", .dir [(Glyph.ofString "registry.txt", .file (goneLine source).toUTF8 false)])]

def goneEntry (source : String) : Entry := ⟨"m", .ofString source, .copy, .ofString "/site/m.py", sampleMoment⟩

def goneRegistry (source : String) : Registry := .ofList [goneEntry source]

theorem read_goneWorld (source : String)
    (hlines : (Registry.lines (goneLine source)).filter (fun l => !Registry.isSkipped l) = [goneLine source])
    (hsplit : splitAt fieldBar (goneLine source).toList =
      ["m".toList, source.toList, "copy".toList, "/site/m.py".toList, "2024-05-06T00:00:00Z".toList])
    (habsolute : (Path.ofString source).isAbsolute = true) :
    Registry.read (goneWorld source).disk (.ofString "/home/registry.txt") = .ok (goneRegistry source) := by
  have hline : Entry.ofLine (goneLine source) = .ok (goneEntry source) :=
    Entry.ofLine_of_fields "m" source "copy" "/site/m.py" "2024-05-06T00:00:00Z" hsplit (by decide) habsolute
      (by decide) (by decide) (by cbv)
  have hsee : (goneWorld source).disk.see (.ofString "/home/registry.txt") true =
      .ok (.file (goneLine source).toUTF8 false) := by cbv
  exact Registry.read_of_line hsee hlines hline

def shortSource : String := "/src/m.py"

theorem list_keeps_columns_goneWorld :
    Registry.read (goneWorld shortSource).disk (.ofString "/home/registry.txt") = .ok (goneRegistry shortSource) ∧
    (goneRegistry shortSource).entries ≠ [] ∧
    ∃ rows, ((Command.run ⟨.ofString "/home/registry.txt"⟩ default default (.list false)).run
        (goneWorld shortSource)).1 = .ok (printed ([title.toList, [], header.text, rule] ++ rows ++
          [[], s!"Total: {(goneRegistry shortSource).entries.length} module(s)".toList])) ∧
      List.Forall₂ (Presents (goneWorld shortSource).disk) (goneRegistry shortSource).entries rows :=
  have hread := read_goneWorld shortSource (by cbv) (by cbv) (by decide)
  have hne : (goneRegistry shortSource).entries ≠ [] := by decide
  ⟨hread, hne, (list_keeps_columns ⟨.ofString "/home/registry.txt"⟩ default default _ _ hread hne).2.2.2⟩

/-- A source of which there is room for the whole, but not with the note behind it. -/
def longSource : String := "/src/a_module_with_a_long_name_of_its_own.py"

set_option maxRecDepth 2000 in
/-- Where the artifact is gone the time need not be under its heading. -/
theorem not_list_keeps_columns :
    Registry.read (goneWorld longSource).disk (.ofString "/home/registry.txt") = .ok (goneRegistry longSource) ∧
    (goneEntry longSource).installedAt.date.year = 2024 ∧
    ((Command.run ⟨.ofString "/home/registry.txt"⟩ default default (.list false)).run (goneWorld longSource)).1 =
      .ok (printed [title.toList, [], header.text, rule,
        (Row.ofEntry (goneWorld longSource).disk (goneEntry longSource)).text, [], "Total: 1 module(s)".toList]) ∧
    BeginsAt "INSTALLED".toList installedColumn header.text ∧
    ¬ BeginsAt "2024-05-06 00:00:00 UTC".toList installedColumn
        (Row.ofEntry (goneWorld longSource).disk (goneEntry longSource)).text := by
  have hread := read_goneWorld longSource (by cbv) (by cbv) (by decide)
  refine ⟨hread, rfl, ?_, Row.installed_beginsAt (r := header) ⟨by decide, by decide⟩, ?_⟩
  · show ((Command.runList _ false).run _).1 = _
    rw [Command.run_runList, hread]
    exact congrArg Except.ok (table_eq _ _)
  · have htime : (goneEntry longSource).installedAt.tableText = "2024-05-06 00:00:00 UTC".toList := by cbv
    have hgone : (goneWorld longSource).disk.occupied (goneEntry longSource).artifact = false := by cbv
    rw [← htime, installed_beginsAt_iff, hgone]
    decide

end Listing

end Sideload
