import Sideload.Proofs.Registry.Rewrite
import Sideload.Proofs.Shelf.Planning

/-!
Calls and the entries of other modules. A call writes the whole registry again; what it cannot write and
what cannot be read afterwards is at most the entry that it puts there itself, if the other entries have
no carriage returns inside and years of four digits.
-/

namespace Sideload

open Disk

variable {shelf : Shelf} {c : Change} {w w₁ w₂ : World} {r r' : Registry} {content s : String}
  {e : Entry} {name : String} {path : Path}

namespace Registry

/-- An entry that is read and can be written again is found in the new text, in a line that counts. -/
theorem mem_lines_of_ofText (h : ofText content = .ok r) (he : e ∈ r.entries)
    (hyear : 0 ≤ e.installedAt.date.year ∧ e.installedAt.date.year ≤ 9999) (htext : r'.text = .ok s)
    (he' : e ∈ r'.entries) : ∃ l ∈ lines s, isSkipped l = false ∧ Entry.ofLine l = .ok e := by
  have hreadable := (readable_iff_of_ofText h he).2 hyear
  obtain ⟨ls, hls, rfl⟩ := text_eq_ok_iff.1 htext
  obtain ⟨l, hl, hline⟩ : ∃ l ∈ ls, e.toLine = .ok l := by
    clear htext
    generalize r'.entries = es at hls he'
    induction hls with
    | nil => cases he'
    | cons hfirst _ ih =>
        rcases List.mem_cons.1 he' with rfl | he'
        · exact ⟨_, List.mem_cons_self .., hfirst⟩
        · obtain ⟨l, hl, hline⟩ := ih he'
          exact ⟨l, List.mem_cons_of_mem _ hl, hline⟩
  have hcounts : isSkipped l = false :=
    Bool.eq_false_iff.2 fun hskip => hreadable.not_comment ((isSkipped_toLine hline).1 hskip)
  have hmem : l ∈ (lines (String.join ((header :: ls).map (· ++ "\n")))).filter
      fun l => !isSkipped l := by
    rw [filter_lines_text hls]
    exact List.mem_filter.2 ⟨hl, by rw [hcounts]; rfl⟩
  exact ⟨l, (List.mem_filter.1 hmem).1, hcounts, Entry.ofLine_toLine hline hreadable.toEncodable⟩

/-- What a path holds after a save is the text that was saved. -/
theorem text_of_saved (h : (r.save path).run w₁ = (.ok (), w₂)) (hs : w₂.disk.readText path = .ok s) :
    r.text = .ok s := by
  obtain ⟨content, htext, ⟨x, hsee⟩ | ⟨e, hsee, -⟩⟩ := see_saved h
  · rw [readText_eq, hsee, Except.bind, Label.text, String.fromUTF8?_toUTF8] at hs
    cases hs
    exact htext
  · rw [readText_eq, hsee] at hs
    cases hs

end Registry

namespace Change

/-- The registry that a call saves has every entry of another module. -/
theorem mem_of_fileWork (hread : Registry.read w.disk shelf.registryPath = .ok r)
    (hwork : (c.fileWork shelf).run w = (.ok r', w₁)) (he : e ∈ r.entries)
    (hother : ¬ Concerns w.disk e.name c) : e ∈ r'.entries := by
  obtain ⟨r₀, n, hread₀, hconcerns, hr'⟩ := fileWork_ok hwork
  cases hread.symm.trans hread₀
  have hne : e.name ≠ n := fun heq => hother (heq ▸ hconcerns)
  apply @Registry.mem_of_get? _ e.name
  rcases hr' with rfl | ⟨e', hname, rfl⟩
  · rw [Registry.get?_erase, if_neg hne, Registry.get?_of_mem he]
  · rw [Registry.get?_insert, if_neg (by rw [hname]; exact hne.symm), Registry.get?_of_mem he]

/-- No other entry is in the registry that a call saves. -/
theorem mem_or_concerns (hread : Registry.read w.disk shelf.registryPath = .ok r)
    (hwork : (c.fileWork shelf).run w = (.ok r', w₁)) (he : e ∈ r'.entries) :
    e ∈ r.entries ∨ Concerns w.disk e.name c := by
  obtain ⟨r₀, n, hread₀, hconcerns, hr'⟩ := fileWork_ok hwork
  cases hread.symm.trans hread₀
  rcases hr' with rfl | ⟨e', hname, rfl⟩
  · exact .inl (Registry.mem_erase he).1
  · rcases Registry.mem_insert he with rfl | ⟨he, -⟩
    · exact .inr (hname ▸ hconcerns)
    · exact .inl he

/-- A call can save as soon as the entry that it puts there has a line and no other entry holds a carriage
return. -/
theorem save_of_fileWork (h : Registry.ofText content = .ok r)
    (hread : Registry.read w.disk shelf.registryPath = .ok r)
    (hwork : (c.fileWork shelf).run w = (.ok r', w₁)) (hstorable : Registry.Storable w₁ path)
    (hothers : ∀ e ∈ r.entries, ¬ Concerns w.disk e.name c → e.Unbroken)
    (hown : ∀ e ∈ r'.entries, Concerns w.disk e.name c → ∃ l, e.toLine = .ok l) :
    ∃ w₂, (r'.save path).run w₁ = (.ok (), w₂) := by
  have hlines : ∃ s, r'.text = .ok s := by
    refine (Registry.text_isOk_iff r').2 fun e he => ?_
    by_cases hconcerns : Concerns w.disk e.name c
    · exact hown e he hconcerns
    · have hmem := (mem_or_concerns hread hwork he).resolve_right hconcerns
      exact (Registry.toLine_isOk_iff_of_ofText h hmem).2 (hothers e hmem hconcerns)
  obtain ⟨s, htext⟩ := hlines
  obtain ⟨r₀, w₀, hsave₀, -⟩ := hstorable
  obtain ⟨w₂, hsave, -⟩ := Registry.save_of_save hsave₀ htext
  exact ⟨w₂, hsave⟩

end Change

/-- Writing again a registry that was read. At a path that is fit for a registry it is saved just when no
name and no path of an entry holds a carriage return, and otherwise the save fails at such an entry and
changes nothing; if it is saved and the years of its times have four digits, loading gives it again. So a
call that reads the registry, works and saves does not fail because of such entries of other modules, and
leaves each of them in the file, in a line that is read as that entry. -/
theorem rewrite_lossless (h : Registry.ofText content = .ok r) :
    (∀ (path : Path) (w : World), Registry.Storable w path →
      ((∃ w', (r.save path).run w = (.ok (), w')) ↔ ∀ e ∈ r.entries, e.Unbroken) ∧
      ((¬ ∀ e ∈ r.entries, e.Unbroken) → ∃ e ∈ r.entries, ¬ e.Unbroken ∧ ∃ fault,
        (r.save path).run w = (.error (.invalidEntry e.name (.field fault)), w)) ∧
      ((∀ e ∈ r.entries, 0 ≤ e.installedAt.date.year ∧ e.installedAt.date.year ≤ 9999) →
        ∀ w', (r.save path).run w = (.ok (), w') → ((Registry.load path).run w').1 = .ok r)) ∧
    ∀ (shelf : Shelf) (c : Change) (w : World) (r' : Registry) (w₁ : World),
      Registry.read w.disk shelf.registryPath = .ok r →
      (c.fileWork shelf).run w = (.ok r', w₁) →
      (Registry.Storable w₁ shelf.registryPath →
        (∀ e ∈ r.entries, ¬ Change.Concerns w.disk e.name c → e.Unbroken) →
        (∀ e ∈ r'.entries, Change.Concerns w.disk e.name c → ∃ l, e.toLine = .ok l) →
        ∃ w₂, (r'.save shelf.registryPath).run w₁ = (.ok (), w₂)) ∧
      ∀ (w₂ : World) (s : String), (r'.save shelf.registryPath).run w₁ = (.ok (), w₂) →
        w₂.disk.readText shelf.registryPath = .ok s →
        ∀ e ∈ r.entries, ¬ Change.Concerns w.disk e.name c →
          0 ≤ e.installedAt.date.year ∧ e.installedAt.date.year ≤ 9999 →
          ∃ l ∈ Registry.lines s, Registry.isSkipped l = false ∧ Entry.ofLine l = .ok e := by
  refine ⟨fun path w hstorable => ?_, fun shelf c w r' w₁ hread hwork => ⟨?_, ?_⟩⟩
  · obtain ⟨hiff, herror⟩ := Registry.save_of_ofText h hstorable
    exact ⟨hiff, herror, fun hyears w' hsave => Registry.load_of_ofText h hstorable hyears hsave⟩
  · exact Change.save_of_fileWork h hread hwork
  · intro w₂ s hsave hs e he hother hyear
    exact Registry.mem_lines_of_ofText h he hyear (Registry.text_of_saved hsave hs)
      (Change.mem_of_fileWork hread hwork he hother)

/-! ### Lines written by hand -/

/-- A comment, an offset from universal time, the other spelling of the mode, and carriage returns at the
end of lines. -/
def handWritten : String :=
  "# mine\r\n\r\nm|/src/m.py|editable|/site/nopkg_m.pth|2024-05-06T02:00:00+02:00\r\n"

def handWrittenEntry : Entry :=
  ⟨"m", .ofString "/src/m.py", .editable, .ofString "/site/nopkg_m.pth", sampleMoment⟩

theorem ofText_handWritten :
    Registry.ofText handWritten = .ok (Registry.ofList [handWrittenEntry]) :=
  Registry.ofText_of_line
    (show _ = ["m|/src/m.py|editable|/site/nopkg_m.pth|2024-05-06T02:00:00+02:00"] by cbv)
    (Entry.ofLine_of_fields "m" "/src/m.py" "editable" "/site/nopkg_m.pth" "2024-05-06T02:00:00+02:00"
      (by decide) (by decide) (by decide) (by decide) (by decide) (by cbv))

theorem storable_sample : Registry.Storable (.holding []) Registry.samplePath :=
  ⟨Registry.empty, _, Prod.ext (by cbv) rfl, by cbv⟩

/-- It is read, saved, and read again. -/
theorem rewrite_lossless_handWritten :
    Registry.ofText handWritten = .ok (Registry.ofList [handWrittenEntry]) ∧
    ∃ w', ((Registry.ofList [handWrittenEntry]).save Registry.samplePath).run (.holding []) =
      (.ok (), w') ∧ ((Registry.load Registry.samplePath).run w').1 =
        .ok (Registry.ofList [handWrittenEntry]) := by
  have hunbroken : ∀ e ∈ (Registry.ofList [handWrittenEntry]).entries, e.Unbroken := by
    intro e he
    obtain rfl := List.mem_singleton.1 he
    exact ⟨by decide, by decide, by decide⟩
  have hyears : ∀ e ∈ (Registry.ofList [handWrittenEntry]).entries,
      0 ≤ e.installedAt.date.year ∧ e.installedAt.date.year ≤ 9999 := by
    intro e he
    obtain rfl := List.mem_singleton.1 he
    exact ⟨by decide, by decide⟩
  obtain ⟨hiff, -, hload⟩ :=
    (rewrite_lossless ofText_handWritten).1 Registry.samplePath (.holding []) storable_sample
  obtain ⟨w', hsave⟩ := hiff.2 hunbroken
  exact ⟨ofText_handWritten, w', hsave, hload hyears w' hsave⟩

/-- A carriage return inside a name. -/
def brokenLine : String := "a\rb|/src/m.py|copy|/site/m.py|2024-05-06T00:00:00Z"

def brokenEntry : Entry :=
  ⟨"a\rb", .ofString "/src/m.py", .copy, .ofString "/site/m.py", sampleMoment⟩

/-- The reader takes it, and the writer does not. -/
theorem not_rewrite_lossless :
    Registry.ofText brokenLine = .ok (Registry.ofList [brokenEntry]) ∧
    Registry.Storable (.holding []) Registry.samplePath ∧
    ¬ ∃ w', ((Registry.ofList [brokenEntry]).save Registry.samplePath).run (.holding []) =
      (.ok (), w') := by
  have hread : Registry.ofText brokenLine = .ok (Registry.ofList [brokenEntry]) :=
    Registry.ofText_of_line (show _ = [brokenLine] by cbv)
      (Entry.ofLine_of_fields "a\rb" "/src/m.py" "copy" "/site/m.py" "2024-05-06T00:00:00Z"
        (by decide) (by decide) (by decide) (by decide) (by decide) (by cbv))
  refine ⟨hread, storable_sample, fun hsaved => ?_⟩
  have hunbroken := (Registry.save_of_ofText hread storable_sample).1.1 hsaved _
    (List.mem_singleton_self _)
  exact hunbroken.name (by decide)

end Sideload
