import Sideload.Registry.Line
import Sideload.Proofs.Time.RoundTrip

/-!
One entry and its line. A line that an entry has is read back as that entry when the name is not
empty, both paths are absolute and the year has four digits; otherwise it is no entry at all.
-/

namespace Sideload

/-! ### Paths that are text -/

theorem Glyph.eq_ofString_of_text? {gs : List Glyph} {s : String} (h : text? gs = some s) :
    gs = ofString s := by
  obtain ⟨cs, hcs, rfl⟩ := Option.map_eq_some_iff.1 h
  rw [ofString, String.toList_ofList]
  clear h
  induction gs generalizing cs with
  | nil =>
      cases hcs
      rfl
  | cons g gs ih =>
      simp only [List.mapM_cons, Option.bind_eq_bind, Option.bind_eq_some_iff] at hcs
      obtain ⟨c, hc, ds, hds, heq⟩ := hcs
      cases heq
      cases g with
      | char c' =>
          cases hc
          rw [List.map_cons, ← ih ds hds]
      | stray bytes => cases hc

theorem Path.eq_ofString_of_text? {p : Path} {s : String} (h : p.text? = some s) :
    p = ofString s := by
  cases p
  exact congrArg Path.mk (Glyph.eq_ofString_of_text? h)

/-! ### Fields -/

/-- Characters that a field has no place for. -/
theorem not_mem_of_fitsField {s : String} (h : fitsField s = true) :
    fieldBar ∉ s.toList ∧ '\n' ∉ s.toList ∧ '\r' ∉ s.toList := by
  simp only [fitsField, List.all_eq_true, Bool.and_eq_true, decide_eq_true_eq] at h
  exact ⟨fun hm => (h _ hm).1.1 rfl, fun hm => (h _ hm).1.2 rfl, fun hm => (h _ hm).2 rfl⟩

theorem checkField_eq_ok {s t : String} (h : checkField s = .ok t) :
    t = s ∧ fitsField s = true := by
  unfold checkField at h
  split at h
  · next hs =>
      cases h
      exact ⟨rfl, hs⟩
  · cases h

theorem pathField_eq_ok {p : Path} {s : String} (h : pathField p = .ok s) :
    p = Path.ofString s ∧ fitsField s = true := by
  unfold pathField at h
  split at h
  · cases h
  · next t ht =>
      obtain ⟨rfl, hfits⟩ := checkField_eq_ok h
      exact ⟨Path.eq_ofString_of_text? ht, hfits⟩

/-- The characters that the written form of a moment is made of. -/
def momentChars : List Char := ['-', '+', 'T', ':', '.', 'Z']

namespace Moment

theorem mem_yearText {y : Int} {c : Char} (h : c ∈ yearText y) :
    c.isDigit = true ∨ c ∈ momentChars := by
  unfold yearText at h
  split at h
  · exact .inl (isDigit_of_mem_padded h)
  · rcases List.mem_cons.1 h with rfl | h
    · split <;> exact .inr (by decide)
    · exact .inl (isDigit_of_mem_padded h)

theorem mem_fractionText {n : Nat} {c : Char} (h : c ∈ fractionText n) :
    c.isDigit = true ∨ c ∈ momentChars := by
  unfold fractionText at h
  split at h
  · cases h
  · split at h
    · rcases List.mem_cons.1 h with rfl | h
      · exact .inr (by decide)
      · exact .inl (isDigit_of_mem_padded h)
    · split at h
      · rcases List.mem_cons.1 h with rfl | h
        · exact .inr (by decide)
        · exact .inl (isDigit_of_mem_padded h)
      · rcases List.mem_cons.1 h with rfl | h
        · exact .inr (by decide)
        · exact .inl (isDigit_of_mem_padded h)

theorem mem_text {m : Moment} {c : Char} (h : c ∈ m.text) :
    c.isDigit = true ∨ c ∈ momentChars := by
  simp only [text, dateText, clockText, List.mem_append, List.mem_cons, List.not_mem_nil,
    or_false] at h
  have hpadded {width n : Nat} (h : c ∈ padded width n) : c.isDigit = true ∨ c ∈ momentChars :=
    .inl (isDigit_of_mem_padded h)
  rcases h with ((((hyear | rfl | hmonth) | rfl | hday) |
    rfl | (hhour | rfl | hminute) | rfl | hsecond) | hfraction) | rfl
  · exact mem_yearText hyear
  · exact .inr (by decide)
  · exact hpadded hmonth
  · exact .inr (by decide)
  · exact hpadded hday
  · exact .inr (by decide)
  · exact hpadded hhour
  · exact .inr (by decide)
  · exact hpadded hminute
  · exact .inr (by decide)
  · exact hpadded hsecond
  · exact mem_fractionText hfraction
  · exact .inr (by decide)

theorem not_mem_text {m : Moment} {c : Char} (hd : c.isDigit = false) (hc : c ∉ momentChars) :
    c ∉ m.text := fun h => by
  rcases mem_text h with h | h
  · rw [hd] at h
    cases h
  · exact hc h

theorem getLast?_text (m : Moment) : m.text.getLast? = some 'Z' := by
  unfold text
  rw [List.getLast?_concat]

end Moment

theorem Mode.not_mem_keyword (m : Mode) :
    fieldBar ∉ m.keyword.toList ∧ '\n' ∉ m.keyword.toList ∧ '\r' ∉ m.keyword.toList := by
  cases m <;> decide

/-! ### The line -/

namespace Entry

/-- What an entry needs for its line to be an entry again. -/
structure Encodable (e : Entry) : Prop where
  name_ne : e.name ≠ ""
  source_absolute : e.source.isAbsolute = true
  artifact_absolute : e.artifact.isAbsolute = true
  year_bounds : 0 ≤ e.installedAt.date.year ∧ e.installedAt.date.year ≤ 9999

/-- The parts of a line, and what is known of each. -/
theorem toLine_eq_ok {e : Entry} {l : String} (h : e.toLine = .ok l) :
    ∃ source artifact : String, e.source = Path.ofString source ∧
      e.artifact = Path.ofString artifact ∧ fitsField source = true ∧
      fitsField artifact = true ∧ fitsField e.name = true ∧
      l.toList = joinWith fieldBar [e.name.toList, source.toList, e.mode.keyword.toList,
        artifact.toList, e.installedAt.text] := by
  unfold toLine fields at h
  cases hs : pathField e.source with
  | error f => simp [hs, bind, Except.bind, Except.map] at h
  | ok source =>
      cases ha : pathField e.artifact with
      | error f => simp [hs, ha, bind, Except.bind, Except.map] at h
      | ok artifact =>
          cases hn : checkField e.name with
          | error f => simp [hs, ha, hn, bind, Except.bind, Except.map] at h
          | ok name =>
              obtain ⟨hsource, hsfits⟩ := pathField_eq_ok hs
              obtain ⟨hartifact, hafits⟩ := pathField_eq_ok ha
              obtain ⟨rfl, hnfits⟩ := checkField_eq_ok hn
              simp only [hs, ha, hn, bind, Except.bind, Except.map, Except.ok.injEq] at h
              refine ⟨source, artifact, hsource, hartifact, hsfits, hafits, hnfits, ?_⟩
              rw [← h, String.toList_ofList]

/-- Cutting a line at its bars gives the fields that it was made of. -/
theorem splitAt_toLine {e : Entry} {l source artifact : String}
    (hs : fitsField source = true) (ha : fitsField artifact = true)
    (hn : fitsField e.name = true)
    (h : l.toList = joinWith fieldBar [e.name.toList, source.toList, e.mode.keyword.toList,
      artifact.toList, e.installedAt.text]) :
    splitAt fieldBar l.toList = [e.name.toList, source.toList, e.mode.keyword.toList,
      artifact.toList, e.installedAt.text] := by
  rw [h]
  apply splitAt_joinWith (by simp)
  intro part hpart
  simp only [List.mem_cons, List.not_mem_nil, or_false] at hpart
  rcases hpart with rfl | rfl | rfl | rfl | rfl
  · exact (not_mem_of_fitsField hn).1
  · exact (not_mem_of_fitsField hs).1
  · exact e.mode.not_mem_keyword.1
  · exact (not_mem_of_fitsField ha).1
  · exact Moment.not_mem_text (by decide) (by decide)

/-- A line of five fields, however each of them is written. -/
theorem ofLine_of_fields {l : String} (name source mode artifact time : String) {m : Mode}
    {t : Moment} (hsplit : splitAt fieldBar l.toList =
      [name.toList, source.toList, mode.toList, artifact.toList, time.toList])
    (hname : name ≠ "") (hsource : (Path.ofString source).isAbsolute = true)
    (hmode : Mode.ofText? mode = some m) (hartifact : (Path.ofString artifact).isAbsolute = true)
    (htime : Moment.read time = .ok t) :
    ofLine l = .ok ⟨name, .ofString source, m, .ofString artifact, t⟩ := by
  have hne : name.toList ≠ [] := fun hnil => hname (String.toList_eq_nil_iff.1 hnil)
  unfold ofLine
  rw [hsplit]
  simp only [String.ofList_toList, if_neg hne, hsource, hartifact, hmode, htime, bind, Except.bind,
    Except.mapError, Bool.not_true, Bool.false_eq_true, if_false]

/-- A line is read back as its entry. -/
theorem ofLine_toLine {e : Entry} {l : String} (h : e.toLine = .ok l) (he : e.Encodable) :
    ofLine l = .ok e := by
  obtain ⟨source, artifact, hsource, hartifact, hs, ha, hn, hl⟩ := toLine_eq_ok h
  have hsabs := he.source_absolute
  have haabs := he.artifact_absolute
  rw [hsource] at hsabs
  rw [hartifact] at haabs
  have hsplit := splitAt_toLine hs ha hn hl
  rw [← String.toList_ofList (l := e.installedAt.text)] at hsplit
  rw [ofLine_of_fields _ _ _ _ _ hsplit he.name_ne hsabs (Mode.ofText?_keyword _) haabs
    (Moment.read_text he.year_bounds), ← hsource, ← hartifact]

/-- Nothing else is read from the line of an entry. -/
theorem encodable_of_ofLine_toLine {e e' : Entry} {l : String} (h : e.toLine = .ok l)
    (hread : ofLine l = .ok e') : e.Encodable := by
  obtain ⟨source, artifact, hsource, hartifact, hs, ha, hn, hl⟩ := toLine_eq_ok h
  unfold ofLine at hread
  rw [splitAt_toLine hs ha hn hl] at hread
  simp only [String.ofList_toList, Mode.ofText?_keyword, bind, Except.bind] at hread
  split at hread
  · cases hread
  · next hname =>
      split at hread
      · cases hread
      · next hsabs =>
          split at hread
          · cases hread
          · next haabs =>
              refine ⟨?_, ?_, ?_, ?_⟩
              · exact fun hempty => hname (by rw [hempty]; rfl)
              · rw [hsource]
                simpa using hsabs
              · rw [hartifact]
                simpa using haabs
              · refine Decidable.byContradiction fun hyear => ?_
                obtain ⟨why, hwhy⟩ := Moment.read_text_error hyear
                rw [hwhy] at hread
                cases hread

/-- The line of an entry is an entry exactly if the entry is fit for it. -/
theorem ofLine_toLine_isOk_iff {e : Entry} {l : String} (h : e.toLine = .ok l) :
    (∃ e', ofLine l = .ok e') ↔ e.Encodable :=
  ⟨fun ⟨_, hread⟩ => encodable_of_ofLine_toLine h hread, fun he => ⟨e, ofLine_toLine h he⟩⟩

end Entry

end Sideload
