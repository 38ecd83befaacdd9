import Sideload.Proofs.Disk.Rewrite
import Sideload.Proofs.Registry.File

/-!
Writing again what was read. Every line that is read gives an entry that has a line of its own, unless a
carriage return stands inside one of its fields: the reader takes carriage returns away from the end of a
line only, and the writer takes none. Whether a text can be written to a path does not depend on the text.
-/

namespace Sideload

open Disk

/-! ### Characters of fields -/

theorem mem_of_mem_splitAt {sep c : Char} {cs part : List Char} (hpart : part ∈ splitAt sep cs)
    (hc : c ∈ part) : c ∈ cs ∧ c ≠ sep := by
  induction cs generalizing part with
  | nil =>
      rw [splitAt, List.mem_singleton] at hpart
      subst hpart
      cases hc
  | cons first rest ih =>
      rw [splitAt] at hpart
      split at hpart
      · rcases List.mem_cons.1 hpart with rfl | hpart
        · cases hc
        · exact (ih hpart hc).imp_left (List.mem_cons_of_mem first)
      · next hne =>
          split at hpart
          · rw [List.mem_singleton] at hpart
            subst hpart
            rw [List.mem_singleton] at hc
            subst hc
            exact ⟨List.mem_cons_self .., hne⟩
          · next next more hsplit =>
              rcases List.mem_cons.1 hpart with rfl | hpart
              · rcases List.mem_cons.1 hc with rfl | hc
                · exact ⟨List.mem_cons_self .., hne⟩
                · exact (ih (hsplit ▸ List.mem_cons_self ..) hc).imp_left (List.mem_cons_of_mem first)
              · exact (ih (hsplit ▸ List.mem_cons_of_mem _ hpart) hc).imp_left
                  (List.mem_cons_of_mem first)

/-- What stands before the first separator begins the text, if it is not empty. -/
theorem head?_of_splitAt {sep : Char} {cs part : List Char} {parts : List (List Char)}
    (h : splitAt sep cs = part :: parts) (hne : part ≠ []) : part.head? = cs.head? := by
  cases cs with
  | nil =>
      rw [splitAt, List.cons.injEq] at h
      exact absurd h.1.symm hne
  | cons first rest =>
      rw [splitAt] at h
      split at h
      · rw [List.cons.injEq] at h
        exact absurd h.1.symm hne
      · split at h
        · cases h
          rfl
        · cases h
          rfl

theorem fitsField_iff {s : String} :
    fitsField s = true ↔ fieldBar ∉ s.toList ∧ '\n' ∉ s.toList ∧ '\r' ∉ s.toList := by
  refine ⟨not_mem_of_fitsField, fun ⟨hbar, hfeed, hreturn⟩ => ?_⟩
  simp only [fitsField, List.all_eq_true, Bool.and_eq_true, decide_eq_true_eq]
  exact fun c hc => ⟨⟨fun h => hbar (h ▸ hc), fun h => hfeed (h ▸ hc)⟩, fun h => hreturn (h ▸ hc)⟩

theorem checkField_of_fits {s : String} (h : fitsField s = true) : checkField s = .ok s := if_pos h

theorem pathField_of_fits {s : String} (h : fitsField s = true) : pathField (.ofString s) = .ok s := by
  rw [pathField, Path.text?_ofString]
  exact checkField_of_fits h

namespace Entry

/-- No carriage return stands in the name or in one of the paths. -/
structure Unbroken (e : Entry) : Prop where
  name : '\r' ∉ e.name.toList
  source : Glyph.char '\r' ∉ e.source.glyphs
  artifact : Glyph.char '\r' ∉ e.artifact.glyphs

/-- An entry as it is read from a line: its texts come from between the bars. -/
structure FromLine (l : String) (e : Entry) : Prop where
  name_ne : e.name ≠ ""
  head : e.name.toList.head? = l.toList.head?
  name_mem : ∀ c ∈ e.name.toList, c ∈ l.toList ∧ c ≠ fieldBar
  source : ∃ s, e.source = Path.ofString s ∧ ∀ c ∈ s.toList, c ∈ l.toList ∧ c ≠ fieldBar
  artifact : ∃ s, e.artifact = Path.ofString s ∧ ∀ c ∈ s.toList, c ∈ l.toList ∧ c ≠ fieldBar
  source_absolute : e.source.isAbsolute = true
  artifact_absolute : e.artifact.isAbsolute = true

theorem fromLine_of_ofLine {l : String} {e : Entry} (h : ofLine l = .ok e) : FromLine l e := by
  unfold ofLine at h
  split at h
  · next name source mode artifact time hsplit =>
      have hpart : ∀ {part}, part ∈ [name, source, mode, artifact, time] →
          ∀ c ∈ (String.ofList part).toList, c ∈ l.toList ∧ c ≠ fieldBar := by
        intro part hpart c hc
        rw [String.toList_ofList] at hc
        exact mem_of_mem_splitAt (hsplit ▸ hpart) hc
      simp only [bind, Except.bind] at h
      split at h
      · cases h
      next hname =>
      split at h
      · cases h
      next hsource =>
      split at h
      · split at h
        · cases h
        next hartifact =>
        split at h
        · cases h
        · cases h
          refine ⟨fun hempty => hname (by simpa using hempty), ?_, hpart (by simp),
            ⟨_, rfl, hpart (by simp)⟩, ⟨_, rfl, hpart (by simp)⟩, by simpa using hsource,
            by simpa using hartifact⟩
          rw [String.toList_ofList]
          exact head?_of_splitAt hsplit hname
      · cases h
  · cases h

namespace FromLine

variable {l : String} {e : Entry}

/-- An entry that was read has a line again just when no carriage return stands in its way. -/
theorem toLine_isOk_iff (h : FromLine l e) (hfeed : '\n' ∉ l.toList) :
    (∃ l', e.toLine = .ok l') ↔ e.Unbroken := by
  obtain ⟨source, hsource, hsmem⟩ := h.source
  obtain ⟨artifact, hartifact, hamem⟩ := h.artifact
  have hfits : ∀ {s : String}, (∀ c ∈ s.toList, c ∈ l.toList ∧ c ≠ fieldBar) → '\r' ∉ s.toList →
      fitsField s = true := fun hmem hreturn =>
    fitsField_iff.2 ⟨fun hc => (hmem _ hc).2 rfl, fun hc => hfeed (hmem _ hc).1, hreturn⟩
  have hglyph : ∀ {s : String}, Glyph.char '\r' ∈ (Path.ofString s).glyphs ↔ '\r' ∈ s.toList := by
    intro s
    show Glyph.char '\r' ∈ s.toList.map Glyph.char ↔ _
    rw [List.mem_map]
    exact ⟨fun ⟨c, hc, heq⟩ => Glyph.char.inj heq ▸ hc, fun hc => ⟨_, hc, rfl⟩⟩
  constructor
  · rintro ⟨l', hl'⟩
    obtain ⟨s, a, hs, ha, hsfits, hafits, hnfits, -⟩ := toLine_eq_ok hl'
    refine ⟨(not_mem_of_fitsField hnfits).2.2, ?_, ?_⟩
    · rw [hs, hglyph]
      exact (not_mem_of_fitsField hsfits).2.2
    · rw [ha, hglyph]
      exact (not_mem_of_fitsField hafits).2.2
  · intro hunbroken
    have hs := hunbroken.source
    have ha := hunbroken.artifact
    rw [hsource, hglyph] at hs
    rw [hartifact, hglyph] at ha
    unfold toLine fields
    rw [hsource, hartifact, pathField_of_fits (hfits hsmem hs), pathField_of_fits (hfits hamem ha),
      checkField_of_fits (hfits h.name_mem hunbroken.name)]
    exact ⟨_, rfl⟩

theorem readable_iff (h : FromLine l e) (hcounts : Registry.isSkipped l = false) :
    e.Readable ↔ 0 ≤ e.installedAt.date.year ∧ e.installedAt.date.year ≤ 9999 := by
  refine ⟨fun hr => hr.year_bounds, fun hyear =>
    ⟨⟨h.name_ne, h.source_absolute, h.artifact_absolute, hyear⟩, fun hcomment => ?_⟩⟩
  rw [h.head] at hcomment
  rw [Registry.isSkipped, hcomment, Bool.or_eq_false_iff] at hcounts
  cases hcounts.2

end FromLine

end Entry

namespace Registry

variable {r r' : Registry} {path : Path} {w w' w₀ w₁ : World} {content s : String} {e : Entry}

/-- Every entry that is read comes from a line that counts. -/
theorem fromLine_of_ofText (h : ofText content = .ok r) (he : e ∈ r.entries) :
    ∃ l, '\n' ∉ l.toList ∧ isSkipped l = false ∧ Entry.FromLine l e := by
  obtain ⟨es, hes, rfl⟩ := ofText_eq_ok_iff.1 h
  obtain ⟨l, hl, hread⟩ : ∃ l ∈ (lines content).filter fun l => !isSkipped l, Entry.ofLine l = .ok e := by
    have hmem := mem_of_mem_ofList he
    clear he h
    generalize (lines content).filter _ = ls at hes
    induction hes with
    | nil => cases hmem
    | cons hfirst _ ih =>
        rcases List.mem_cons.1 hmem with rfl | hmem
        · exact ⟨_, List.mem_cons_self .., hfirst⟩
        · obtain ⟨l, hl, hread⟩ := ih hmem
          exact ⟨l, List.mem_cons_of_mem _ hl, hread⟩
  obtain ⟨hline, hcounts⟩ := List.mem_filter.1 hl
  obtain ⟨part, hpart, rfl⟩ := List.mem_map.1 hline
  refine ⟨_, fun hfeed => ?_, by simpa using hcounts, Entry.fromLine_of_ofLine hread⟩
  rw [String.toList_ofList, List.mem_reverse] at hfeed
  have hmem := List.mem_reverse.1 ((List.dropWhile_suffix _).subset hfeed)
  exact (mem_of_mem_splitAt hpart hmem).2 rfl

theorem toLine_isOk_iff_of_ofText (h : ofText content = .ok r) (he : e ∈ r.entries) :
    (∃ l, e.toLine = .ok l) ↔ e.Unbroken := by
  obtain ⟨l, hfeed, -, hline⟩ := fromLine_of_ofText h he
  exact hline.toLine_isOk_iff hfeed

theorem readable_iff_of_ofText (h : ofText content = .ok r) (he : e ∈ r.entries) :
    e.Readable ↔ 0 ≤ e.installedAt.date.year ∧ e.installedAt.date.year ≤ 9999 := by
  obtain ⟨l, -, hcounts, hline⟩ := fromLine_of_ofText h he
  exact hline.readable_iff hcounts

/-- What is read comes from a text; a missing file counts as an empty one. -/
theorem exists_text_of_read {d : Disk} (h : read d path = .ok r) : ∃ content, ofText content = .ok r := by
  unfold read at h
  split at h
  · split at h
    · cases h
      exact ⟨"", by cbv⟩
    · cases h
  · next content hcontent =>
      exact ⟨content, mapError_eq_ok_iff.1 h⟩

theorem not_comment_of_read {d : Disk} (h : read d path = .ok r) (he : e ∈ r.entries) :
    e.name.toList.head? ≠ some '#' := by
  obtain ⟨content, htext⟩ := exists_text_of_read h
  obtain ⟨l, -, hcounts, hline⟩ := fromLine_of_ofText htext he
  intro hhead
  rw [hline.head] at hhead
  rw [isSkipped, hhead] at hcounts
  simp at hcounts

/-- A registry has a text, or one of its entries has no line. -/
theorem text_cases (r : Registry) : (∃ s, r.text = .ok s) ∨
    ∃ e ∈ r.entries, ∃ fault, e.toLine = .error fault ∧ r.text = .error (e.name, fault) := by
  have hlines : (∃ ls, writeLines r.entries = .ok ls) ∨ ∃ e ∈ r.entries, ∃ fault,
      e.toLine = .error fault ∧ writeLines r.entries = .error (e.name, fault) := by
    generalize r.entries = es
    induction es with
    | nil => exact .inl ⟨[], rfl⟩
    | cons e es ih =>
        rw [writeLines]
        cases he : e.toLine with
        | error fault => exact .inr ⟨e, List.mem_cons_self .., fault, he, rfl⟩
        | ok l =>
            rcases ih with ⟨ls, hls⟩ | ⟨e', he', fault, hfault, hls⟩
            · exact .inl ⟨l :: ls, by rw [hls]; rfl⟩
            · exact .inr ⟨e', List.mem_cons_of_mem _ he', fault, hfault, by rw [hls]; rfl⟩
  unfold text
  rcases hlines with ⟨ls, hls⟩ | ⟨e, he, fault, hfault, hls⟩
  · exact .inl ⟨_, by rw [hls]; rfl⟩
  · exact .inr ⟨e, he, fault, hfault, by rw [hls]; rfl⟩

theorem text_isOk_iff (r : Registry) : (∃ s, r.text = .ok s) ↔ ∀ e ∈ r.entries, ∃ l, e.toLine = .ok l := by
  constructor
  · rintro ⟨s, hs⟩ e he
    obtain ⟨ls, hls, -⟩ := text_eq_ok_iff.1 hs
    clear hs
    generalize r.entries = es at hls he
    induction hls with
    | nil => cases he
    | cons hfirst _ ih =>
        rcases List.mem_cons.1 he with rfl | he
        · exact ⟨_, hfirst⟩
        · exact ih he
  · intro hall
    rcases text_cases r with hok | ⟨e, he, fault, hfault, -⟩
    · exact hok
    · obtain ⟨l, hl⟩ := hall e he
      rw [hfault] at hl
      cases hl

end Registry

/-! ### Saving what was read -/

namespace Disk

variable {d d' : Disk} {p : Path}

/-- Whether a path leads to a file does not depend on what is in it. -/
theorem isFile_of_shape (h : d.isFile p = true) (hcwd : d'.cwd = d.cwd)
    (hlook : ∀ l, (d'.look l).map Label.shape = (d.look l).map Label.shape) : d'.isFile p = true := by
  obtain ⟨content, x, hsee⟩ := isFile_see.1 h
  obtain ⟨loc, hgoal, hfile⟩ := see_eq_ok_iff.1 hsee
  have hshape := hlook loc
  rw [hfile] at hshape
  obtain ⟨label, hlabel, hkind⟩ := Option.map_eq_some_iff.1 hshape
  have hgoal' := goal_of_shape hgoal hcwd fun l _ => hlook l
  cases label with
  | file content' x' => exact isFile_see.2 ⟨content', x', see_eq_ok_iff.2 ⟨loc, hgoal', hlabel⟩⟩
  | link target => cases hkind
  | dir => cases hkind

end Disk

namespace Registry

variable {r r₀ : Registry} {path : Path} {w w₀ w' : World} {content s : String} {e : Entry}

/-- Where one registry is saved, any other one that has a text is saved, and the path leads to a file for
the one if it does for the other. -/
theorem save_of_save (h : (r₀.save path).run w = (.ok (), w₀)) (htext : r.text = .ok s) :
    ∃ w', (r.save path).run w = (.ok (), w') ∧
      (w₀.disk.isFile path = true → w'.disk.isFile path = true) := by
  obtain ⟨-, content, d₁, -, hw, hr⟩ := save_ok h
  have hwrite : (hosted w.disk path).write (draftPath path) content.toUTF8 = .ok d₁ := hw
  obtain ⟨d₂, hwrite'⟩ := openFile_isOk hwrite fun old =>
    (s.toUTF8, (old.map fun f : ByteArray × Bool => f.2).getD false)
  obtain ⟨g, hrewritten⟩ := rewritten_of_write hwrite hwrite'
  obtain ⟨parent, m, n, hdraft, hpath, hne, -, -⟩ := replaced_slots slash_notMem_draft dot_mem_draft
    two_le_draft hwrite hr
  obtain ⟨d', hr', hcwd, hshape⟩ := rename_of_rewritten hrewritten hr ⟨parent, m, n, hdraft, hpath, hne⟩
    fun {parent m} hslot => by
      obtain ⟨x, hfile | ⟨_, _, _, _, hlink, -⟩⟩ := written_cases hwrite hslot
      · rw [hfile]
        simp
      · rw [hlink]
        simp
  -- the directory of the registry is made in both runs
  have hhost : (makeHost path).run w = (.ok (), { w with disk := hosted w.disk path }) := by
    obtain ⟨content₀, htext₀, -⟩ := see_saved h
    unfold save at h
    rw [htext₀] at h
    obtain ⟨u, t, hmade, -⟩ := run_bind_ok h
    have hstate := run_makeHost path w
    rw [hmade] at hstate
    rw [hmade]
    exact Prod.ext rfl hstate
  have hreplace : (replaceText path s).run { w with disk := hosted w.disk path } =
      (.ok (), { w with disk := d' }) := by
    rw [run_replaceText]
    have hwritten : (hosted w.disk path).writeText (draftPath path) s = .ok d₂ := hwrite'
    rw [hwritten]
    dsimp only
    rw [hr']
  unfold save
  rw [htext]
  dsimp only
  rw [run_bind_of_ok hhost, run_bind_of_ok hreplace]
  exact ⟨_, rfl, fun hfile => isFile_of_shape hfile hcwd hshape⟩

/-- A path that is fit for a registry: some registry can be saved there, and then the path leads to a
file. -/
def Storable (w : World) (path : Path) : Prop :=
  ∃ (r₀ : Registry) (w₀ : World), (r₀.save path).run w = (.ok (), w₀) ∧ w₀.disk.isFile path = true

/-- What is read from a text can be saved again just when no carriage return stands in a field; else the
save fails at such an entry and changes nothing. -/
theorem save_of_ofText (h : ofText content = .ok r) (hstorable : Storable w path) :
    ((∃ w', (r.save path).run w = (.ok (), w')) ↔ ∀ e ∈ r.entries, e.Unbroken) ∧
    ((¬ ∀ e ∈ r.entries, e.Unbroken) → ∃ e ∈ r.entries, ¬ e.Unbroken ∧ ∃ fault,
      (r.save path).run w = (.error (.invalidEntry e.name (.field fault)), w)) := by
  have hlines : (∃ s, r.text = .ok s) ↔ ∀ e ∈ r.entries, e.Unbroken := by
    rw [text_isOk_iff]
    exact forall₂_congr fun e he => toLine_isOk_iff_of_ofText h he
  obtain ⟨r₀, w₀, hsave₀, -⟩ := hstorable
  refine ⟨?_, fun hbroken => ?_⟩
  · rw [← hlines]
    constructor
    · rintro ⟨w', hsave⟩
      obtain ⟨s, htext, -⟩ := see_saved hsave
      exact ⟨s, htext⟩
    · rintro ⟨s, htext⟩
      obtain ⟨w', hsave, -⟩ := save_of_save hsave₀ htext
      exact ⟨w', hsave⟩
  · rcases text_cases r with hok | ⟨e, he, fault, hfault, htext⟩
    · exact absurd (hlines.1 hok) hbroken
    · refine ⟨e, he, fun hunbroken => ?_, fault, ?_⟩
      · obtain ⟨l, hl⟩ := (toLine_isOk_iff_of_ofText h he).2 hunbroken
        rw [hfault] at hl
        cases hl
      · unfold save
        rw [htext]
        rfl

/-- What is read from a text and saved again is loaded as it was, if its times have years of four
digits. -/
theorem load_of_ofText (h : ofText content = .ok r) (hstorable : Storable w path)
    (hyears : ∀ e ∈ r.entries, 0 ≤ e.installedAt.date.year ∧ e.installedAt.date.year ≤ 9999)
    (hsave : (r.save path).run w = (.ok (), w')) : ((load path).run w').1 = .ok r := by
  obtain ⟨r₀, w₀, hsave₀, hfile₀⟩ := hstorable
  obtain ⟨s, htext, -⟩ := see_saved hsave
  obtain ⟨w'', hsave', hfile⟩ := save_of_save hsave₀ htext
  rw [hsave] at hsave'
  cases hsave'
  exact (load_saved_iff hsave).2
    ⟨fun e he => (readable_iff_of_ofText h he).2 (hyears e he), hfile hfile₀⟩

end Registry

end Sideload
