import Sideload.Proofs.Command.Listing
import Sideload.Proofs.Json.RoundTrip
import Sideload.Proofs.Time.Relaxed

/-!
Entries as JSON. What the commands print as JSON is read back as the entries that the registry has, and as
those that their lines stand for, though mode and time are read in another way there.
-/

namespace Sideload

variable {e e' : Entry} {es : List Entry} {l : String}

namespace Entry

/-- Both paths are text. -/
structure IsText (e : Entry) : Prop where
  source : ∃ s, e.source = .ofString s
  artifact : ∃ s, e.artifact = .ofString s

/-- The entry of a JSON text. -/
def ofJson? (s : String) : Option Entry := (Json.ofText? s).bind ofData?

/-- The entries of the list in a JSON text. -/
def listOfJson? (s : String) : Option (List Entry) := do (← (← Json.ofText? s).items?).mapM ofData?

/-! ### Entries as values -/

/-- The record of an entry has a form in JSON, and the entry is read from it. -/
theorem IsText.toData? (h : e.IsText) : ∃ d, e.toData? = some d ∧ Json.Plain d ∧ ofData? d = some e := by
  obtain ⟨name, source, mode, artifact, installedAt⟩ := e
  obtain ⟨⟨source, rfl⟩, ⟨artifact, rfl⟩⟩ := h
  refine ⟨.record [("name", .string name), ("source_path", .string source), ("mode", .string mode.label),
    ("install_path", .string artifact), ("installed_at", .string (String.ofList installedAt.text))], ?_,
    .record ?_, ?_⟩
  · simp [Entry.toData?, fieldNames]
  · simp only [List.mem_cons, List.not_mem_nil, or_false]
    rintro m (rfl | rfl | rfl | rfl | rfl) <;> exact .string _
  · simp [ofData?, Data.fields?, fieldNames, Data.membersNamed, Data.string?, Mode.ofData?, Moment.readRelaxed_text,
      Except.toOption]

theorem exists_mapM_toData? (h : ∀ e ∈ es, e.IsText) :
    ∃ ds, es.mapM toData? = some ds ∧ (∀ d ∈ ds, Json.Plain d) ∧ ds.mapM ofData? = some es := by
  induction es with
  | nil => exact ⟨[], rfl, by simp, rfl⟩
  | cons e es ih =>
      obtain ⟨d, hd, hplain, hread⟩ := (h e (List.mem_cons_self ..)).toData?
      obtain ⟨ds, hds, hplains, hreads⟩ := ih fun e he => h e (List.mem_cons_of_mem _ he)
      refine ⟨d :: ds, by simp [hd, hds], ?_, by simp [hread, hreads]⟩
      rintro d' (_ | ⟨_, hd'⟩)
      · exact hplain
      · exact hplains d' hd'

/-! ### Entries as text -/

theorem ofText?_jsonText {d : Data} (h : Json.Plain d) : Json.ofText? (Command.jsonText (some d)) = some d :=
  Json.ofText?_text h (by simp [Json.isBlank])

theorem ofJson?_jsonText (h : e.IsText) : ofJson? (Command.jsonText e.toData?) = some e := by
  obtain ⟨d, hd, hplain, hread⟩ := h.toData?
  rw [ofJson?, hd, ofText?_jsonText hplain, Option.bind_some, hread]

theorem listOfJson?_jsonText (h : ∀ e ∈ es, e.IsText) :
    listOfJson? (Command.jsonText (listToData? es)) = some es := by
  obtain ⟨ds, hds, hplain, hread⟩ := exists_mapM_toData? h
  rw [listOfJson?, listToData?, hds, Option.map_some, ofText?_jsonText (.list hplain)]
  exact hread

/-- The line of an entry stands for nothing else. -/
theorem eq_of_ofLine_toLine (h : e.toLine = .ok l) (hread : ofLine l = .ok e') : e' = e := by
  rw [ofLine_toLine h (encodable_of_ofLine_toLine h hread)] at hread
  exact (Except.ok.inj hread).symm

end Entry

/-- What is read has text for its paths. -/
theorem Registry.isText_of_read {d : Disk} {path : Path} {r : Registry} (h : read d path = .ok r)
    (he : e ∈ r.entries) : e.IsText := by
  obtain ⟨content, htext⟩ := exists_text_of_read h
  obtain ⟨l, -, -, hline⟩ := fromLine_of_ofText htext he
  obtain ⟨source, hsource, -⟩ := hline.source
  obtain ⟨artifact, hartifact, -⟩ := hline.artifact
  exact ⟨⟨source, hsource⟩, artifact, hartifact⟩

/-- Two entries with quotes, controls and line breaks in their texts, the one from a leap second long ago, the other
from a year of five digits. -/
def oddEntries : List Entry := [
  ⟨"a\"\\\n", .ofString "/\x01|\t", .copy, .ofString "", ⟨⟨-5, 6, 30, by decide⟩, 86399, 1500000000, by decide⟩⟩,
  ⟨"", .ofString "é\r", .editable, .ofString "/site/x.pth", ⟨⟨12000, 2, 29, by decide⟩, 0, 1, by decide⟩⟩]

theorem isText_of_mem_oddEntries : ∀ e ∈ oddEntries, e.IsText := by
  rintro e (_ | ⟨_, _ | ⟨_, ⟨⟩⟩⟩)
  · exact ⟨⟨_, rfl⟩, _, rfl⟩
  · exact ⟨⟨_, rfl⟩, _, rfl⟩

end Sideload
