import Sideload.Proofs.Disk.Opening
import Sideload.Proofs.Disk.Replace
import Sideload.Proofs.Registry.Text
import Sideload.Registry.File

/-!
The registry on the disk. Loading answers what the file says and leaves the disk as it is. Saving
writes the text beside the file and moves it over the file; afterwards loading gives the saved registry
back just when all entries are readable and the path leads to a file.
-/

namespace Sideload

/-! ### Reading text -/

/-- The text of what a path leads to. -/
def Label.text : Label → Except IoError String
  | file content _ => match String.fromUTF8? content with
    | some s => .ok s
    | none => .error .notText
  | _ => .error (.os .isDirectory)

theorem String.fromUTF8?_toUTF8 (s : String) : String.fromUTF8? s.toUTF8 = some s := by
  have hvalid : s.toUTF8.IsValidUTF8 := s.isValidUTF8
  unfold String.fromUTF8?
  rw [dif_pos hvalid]
  rfl

namespace Disk

variable {d d' : Disk} {p : Path}

theorem readText_eq (d : Disk) (p : Path) : d.readText p = (d.see p true).bind Label.text := by
  rw [← stat_label]
  unfold readText readBytes
  cases d.stat p with
  | error e => rfl
  | ok node =>
      cases node with
      | file content x =>
          show (match String.fromUTF8? content with
            | some s => Except.ok s
            | none => Except.error IoError.notText) = Label.text (.file content x)
          rfl
      | link target => rfl
      | dir es => rfl

theorem isFile_see : d.isFile p = true ↔ ∃ content x, d.see p true = .ok (.file content x) := by
  rw [← stat_label, isFile]
  constructor
  · intro h
    split at h
    · next node hnode =>
        cases node with
        | file content x => exact ⟨content, x, by rw [hnode]; rfl⟩
        | link target => cases h
        | dir es => cases h
    · cases h
  · rintro ⟨content, x, h⟩
    obtain ⟨node, hnode, hlabel⟩ := map_label_eq_ok.1 h
    rw [hnode]
    cases node with
    | file content x => rfl
    | link target => cases hlabel
    | dir es => cases hlabel

/-- Whether a path names a link. -/
def isLink (d : Disk) (p : Path) : Bool :=
  match d.lstat p with
  | .ok n => n.isLink
  | .error _ => false

theorem isLink_eq_false_iff : d.isLink p = false ↔ ∀ target, d.see p false ≠ .ok (.link target) := by
  rw [← lstat_label, isLink]
  cases d.lstat p with
  | error e => exact ⟨fun _ _ => nofun, fun _ => rfl⟩
  | ok node =>
      cases node with
      | file content x => exact ⟨fun _ _ => nofun, fun _ => rfl⟩
      | link target => exact ⟨nofun, fun h => absurd rfl (h target)⟩
      | dir es => exact ⟨fun _ _ => nofun, fun _ => rfl⟩

end Disk

open Disk

/-- The same entry, perhaps with other spellings of its paths. -/
structure Entry.SameAs (e f : Entry) : Prop where
  name : e.name = f.name
  source : e.source.sameAs f.source = true
  mode : e.mode = f.mode
  artifact : e.artifact.sameAs f.artifact = true
  installedAt : e.installedAt = f.installedAt

namespace Registry

variable {r r' : Registry} {path : Path} {w w' : World} {d d' : Disk}

/-- The same registry, perhaps with other spellings of paths. -/
def SameAs (r r' : Registry) : Prop := List.Forall₂ Entry.SameAs r.entries r'.entries

theorem names_of_sameAs (h : r'.SameAs r) : ∀ e ∈ r.entries, ∃ e' ∈ r'.entries, e'.name = e.name := by
  unfold SameAs at h
  generalize r'.entries = es' at h
  generalize r.entries = es at h
  induction h with
  | nil => simp
  | cons hsame _ ih =>
      intro e he
      rcases List.mem_cons.1 he with rfl | he
      · exact ⟨_, List.mem_cons_self, hsame.name⟩
      · obtain ⟨e', he', hname⟩ := ih e he
        exact ⟨e', List.mem_cons_of_mem _ he', hname⟩

/-! ### Loading -/

/-- What loading answers on a disk. -/
def read (d : Disk) (path : Path) : Except Failure Registry :=
  match d.readText path with
  | .error e => if e.isMissing then .ok empty else .error (.ofIo path e)
  | .ok content => (ofText content).mapError fun fault => .corrupt path fault.1 (.line fault.2)

theorem run_load (path : Path) (w : World) :
    ((load path).run w).1 = read w.disk path ∧ w.Quiet ((load path).run w).2 := by
  unfold load
  rw [run_bind, Work.run_disk]
  dsimp only
  unfold read
  cases w.disk.readText path with
  | error e =>
      dsimp only
      split
      · exact ⟨rfl, rfl, rfl⟩
      · exact ⟨rfl, rfl, rfl⟩
  | ok content =>
      dsimp only
      rw [ofText]
      generalize readLines (numberedLines content) = found
      obtain ⟨es, fault?⟩ := found
      obtain ⟨w', hquiet, hrun⟩ := Work.run_forIn_log .debug .registry
        (fun name => s!"Replaced registry entry '{name}'") (repeatedNames empty es) w
      rw [run_bind_of_ok hrun]
      cases fault? with
      | none => exact ⟨rfl, hquiet.disk, hquiet.now⟩
      | some fault => exact ⟨rfl, hquiet.disk, hquiet.now⟩

/-- Loading depends on the way to the file only. -/
theorem read_congr (hcwd : d'.cwd = d.cwd) (hlook : ∀ l ∈ d.way path true, d'.look l = d.look l) :
    read d' path = read d path := by
  unfold read
  rw [readText_eq, readText_eq, see_congr hcwd hlook]

theorem read_of_file {content : String} {x : Bool}
    (h : d.see path true = .ok (.file content.toUTF8 x)) :
    read d path = (ofText content).mapError fun fault => .corrupt path fault.1 (.line fault.2) := by
  have htext : d.readText path = .ok content := by
    rw [readText_eq, h, Except.bind, Label.text, String.fromUTF8?_toUTF8]
  unfold read
  rw [htext]

/-- A file in which one line counts. -/
theorem read_of_line {content l : String} {x : Bool} {e : Entry}
    (h : d.see path true = .ok (.file content.toUTF8 x))
    (hlines : (lines content).filter (fun l => !isSkipped l) = [l]) (hline : Entry.ofLine l = .ok e) :
    read d path = .ok (ofList [e]) := by
  rw [read_of_file h, ofText_of_line hlines hline]
  rfl

theorem isMissing_eq_false {e : OsError} (h : e = .notDirectory ∨ e = .tooManyLinks) :
    (IoError.os e).isMissing = false := by
  rcases h with rfl | rfl <;> decide

theorem read_of_error {e : IoError} (h : d.see path true = .error e) :
    read d path = if e.isMissing then .ok empty else .error (.ofIo path e) := by
  have htext : d.readText path = .error e := by
    rw [readText_eq, h, Except.bind]
  unfold read
  rw [htext]

/-! ### Saving -/

theorem slash_notMem_draft : '/' ∉ draftExtension.toList := by decide

theorem dot_mem_draft : '.' ∈ draftExtension.toList := by decide

theorem two_le_draft : 2 ≤ draftExtension.toList.length := by decide


/-- The disk once the directory of a path was made. -/
def hosted (d : Disk) (path : Path) : Disk :=
  match path.parent? with
  | some parent => ((DiskM.createDirAll parent).run d).2
  | none => d

theorem opens_hosted (d : Disk) (path : Path) : Opens d (hosted d path) := by
  unfold hosted
  split
  · exact (DiskM.createDirAll_spec _ d).1
  · exact .refl d

theorem run_makeHost (path : Path) (w : World) :
    ((makeHost path).run w).2 = { w with disk := hosted w.disk path } := by
  unfold makeHost hosted
  cases path.parent? with
  | none => rfl
  | some parent => rw [Work.run_orFail, Work.run_onDisk]

theorem run_replaceText (path : Path) (content : String) (w : World) :
    (replaceText path content).run w = match w.disk.writeText (draftPath path) content with
      | .error e => (.error (.ofIo (draftPath path) e), w)
      | .ok d => match d.rename (draftPath path) path with
        | .error e => (.error (.ofIo path e), { w with disk := d })
        | .ok d' => (.ok (), { w with disk := d' }) := by
  rw [replaceText, run_bind, Work.run_change_orFail]
  cases w.disk.writeText (draftPath path) content with
  | error e => rfl
  | ok d =>
      dsimp only
      rw [Work.run_change_orFail]
      dsimp only
      cases d.rename (draftPath path) path <;> rfl

/-- How far saving comes: nothing is done but perhaps to make the directory, or the text is written
beside the file, or it is moved over the file as well. -/
theorem save_cases (r : Registry) (path : Path) (w : World) :
    ((r.save path).run w).2.now = w.now ∧
      ((∃ f, ((r.save path).run w).1 = .error f ∧ (((r.save path).run w).2.disk = w.disk ∨
        ((r.save path).run w).2.disk = hosted w.disk path)) ∨
      (∃ f content, ((r.save path).run w).1 = .error f ∧ r.text = .ok content ∧
        (hosted w.disk path).writeText (draftPath path) content =
          .ok ((r.save path).run w).2.disk) ∨
      (∃ content d', ((r.save path).run w).1 = .ok () ∧ r.text = .ok content ∧
        (hosted w.disk path).writeText (draftPath path) content = .ok d' ∧
        d'.rename (draftPath path) path = .ok ((r.save path).run w).2.disk)) := by
  unfold save
  cases htext : r.text with
  | error fault => exact ⟨rfl, .inl ⟨_, rfl, .inl rfl⟩⟩
  | ok content =>
      dsimp only
      rw [run_bind]
      generalize hhost : (makeHost path).run w = made
      have hdisk := run_makeHost path w
      rw [hhost] at hdisk
      rcases made with ⟨e | u, w₁⟩
      · dsimp only at hdisk ⊢
        subst hdisk
        exact ⟨rfl, .inl ⟨e, rfl, .inr rfl⟩⟩
      · dsimp only at hdisk ⊢
        subst hdisk
        rw [run_bind, run_replaceText]
        dsimp only
        cases hw : (hosted w.disk path).writeText (draftPath path) content with
        | error e => exact ⟨rfl, .inl ⟨_, rfl, .inr rfl⟩⟩
        | ok d' =>
            dsimp only
            cases hr : d'.rename (draftPath path) path with
            | error e => exact ⟨rfl, .inr (.inl ⟨_, content, rfl, rfl, hw⟩)⟩
            | ok d'' => exact ⟨rfl, .inr (.inr ⟨content, d', rfl, rfl, hw, hr⟩)⟩

theorem save_ok (h : (r.save path).run w = (.ok (), w')) : w'.now = w.now ∧ ∃ content d',
    r.text = .ok content ∧ (hosted w.disk path).writeText (draftPath path) content = .ok d' ∧
      d'.rename (draftPath path) path = .ok w'.disk := by
  obtain ⟨hnow, ⟨f, herr, -⟩ | ⟨f, _, herr, -⟩ | ⟨content, d', -, hrest⟩⟩ := save_cases r path w
  · rw [h] at herr
    cases herr
  · rw [h] at herr
    cases herr
  · rw [h] at hnow hrest
    exact ⟨hnow, content, d', hrest⟩

/-- After a save the path leads to the text of the registry, or there is no way to it. -/
theorem see_saved (h : (r.save path).run w = (.ok (), w')) : ∃ content, r.text = .ok content ∧
    ((∃ x, w'.disk.see path true = .ok (.file content.toUTF8 x)) ∨
      ∃ e, w'.disk.see path true = .error (.os e) ∧ (e = .notDirectory ∨ e = .tooManyLinks)) := by
  obtain ⟨-, content, d', htext, hw, hr⟩ := save_ok h
  exact ⟨content, htext, see_replaced slash_notMem_draft dot_mem_draft two_le_draft hw hr⟩

/-- If neither the file nor the one beside it is a link, the path leads to a file after a save. -/
theorem isFile_of_save (h : (r.save path).run w = (.ok (), w'))
    (hpath : (hosted w.disk path).isLink path = false)
    (hdraft : (hosted w.disk path).isLink (draftPath path) = false) :
    w'.disk.isFile path = true := by
  obtain ⟨-, content, d', htext, hw, hr⟩ := save_ok h
  rw [isLink_eq_false_iff] at hpath hdraft
  obtain ⟨parent, m, n, x, -, hslot, -, hslash, -, hdir, hway, hcwd, hlook⟩ :=
    look_replaced slash_notMem_draft dot_mem_draft two_le_draft hw hr hdraft
  have hlink : ∀ target, (hosted w.disk path).look (parent ++ [n]) ≠ some (.link target) := by
    intro target htarget
    refine hpath target ?_
    rw [hslot.see hslash (.inl rfl), htarget]
    rfl
  obtain ⟨-, -, hsee⟩ := slot_replaced hslot hslash hway hdir hlink hcwd hlook
  exact isFile_see.2 ⟨_, x, hsee⟩

/-- A registry that was saved comes back just when all its entries are readable and its path leads to
a file. -/
theorem load_saved_iff (h : (r.save path).run w = (.ok (), w')) :
    ((load path).run w').1 = .ok r ↔ (∀ e ∈ r.entries, e.Readable) ∧ w'.disk.isFile path = true := by
  obtain ⟨content, htext, hsee⟩ := see_saved h
  rw [(run_load path w').1]
  rcases hsee with ⟨x, hfile⟩ | ⟨e, herror, hkind⟩
  · rw [read_of_file hfile, mapError_eq_ok_iff, ofText_text_iff htext]
    exact ⟨fun hr => ⟨hr, isFile_see.2 ⟨_, x, hfile⟩⟩, fun hr => hr.1⟩
  · have hnot : ¬ w'.disk.isFile path = true := by
      rw [isFile_see, herror]
      simp
    rw [read_of_error herror, isMissing_eq_false hkind]
    exact ⟨nofun, fun hr => absurd hr.2 hnot⟩

/-- What is read after a save was in the text. -/
theorem ofText_of_load (h : (r.save path).run w = (.ok (), w'))
    (hload : ((load path).run w').1 = .ok r') : ∃ content, r.text = .ok content ∧
      ofText content = .ok r' := by
  obtain ⟨content, htext, hsee⟩ := see_saved h
  rw [(run_load path w').1] at hload
  rcases hsee with ⟨x, hfile⟩ | ⟨e, herror, hkind⟩
  · rw [read_of_file hfile, mapError_eq_ok_iff] at hload
    exact ⟨content, htext, hload⟩
  · rw [read_of_error herror, isMissing_eq_false hkind] at hload
    cases hload

/-- A registry that was saved comes back if and only if all its entries are readable and its path
leads to a file. What comes back is the registry itself as soon as it is the same but for the spelling
of paths. The path leads to a file if no links stood in the way. -/
theorem load_save (h : (r.save path).run w = (.ok (), w')) :
    (((load path).run w').1 = .ok r ↔
      (∀ e ∈ r.entries, e.Readable) ∧ w'.disk.isFile path = true) ∧
    (∀ r', ((load path).run w').1 = .ok r' → r'.SameAs r → r' = r) ∧
    ((hosted w.disk path).isLink path = false →
      (hosted w.disk path).isLink (draftPath path) = false → w'.disk.isFile path = true) := by
  refine ⟨load_saved_iff h, fun r' hload hsame => ?_, isFile_of_save h⟩
  obtain ⟨content, htext, hread⟩ := ofText_of_load h hload
  have hr := readable_of_ofText_text htext hread (names_of_sameAs hsame)
  exact eq_of_ofText_text htext (fun e he => (hr e he).not_comment) hread

/-! ### A link beside the registry -/

/-- A registry of one entry. -/
def sampleRegistry : Registry :=
  ofList [⟨"m", .ofString "/src/m.py", .copy, .ofString "/site/m.py", sampleMoment⟩]

def samplePath : Path := .ofString "/home/registry.txt"

theorem sample_readable : ∀ e ∈ sampleRegistry.entries, e.Readable := by
  intro e he
  obtain rfl := List.mem_singleton.1 he
  exact ⟨⟨by decide, by decide, by decide, by decide, by decide⟩, by decide⟩

/-- The round trip on a disk with nothing in the way. -/
theorem load_save_sample :
    ((load samplePath).run (((sampleRegistry.save samplePath).run (.holding [])).2)).1 =
      .ok sampleRegistry := by
  have hsave : (sampleRegistry.save samplePath).run (.holding []) =
      (.ok (), ((sampleRegistry.save samplePath).run (.holding [])).2) := Prod.ext (by cbv) rfl
  exact (load_save hsave).1.2 ⟨sample_readable, by cbv⟩

/-- The file that the text is written to first is a link to the registry. -/
def linkedDraft : World := .holding [(Glyph.ofString "home",
  .dir [(Glyph.ofString "registry.txt.tmp", .link (.ofString "registry.txt"))])]

/-- Readable entries alone do not bring a registry back: through a link beside it the registry is
written first, and then the link is moved over it. -/
theorem not_load_save_of_readable : ¬ ∀ (w w' : World) (path : Path) (r : Registry),
    (r.save path).run w = (.ok (), w') →
      (((load path).run w').1 = .ok r ↔ ∀ e ∈ r.entries, e.Readable) := by
  intro h
  have hsave : (sampleRegistry.save samplePath).run linkedDraft =
      (.ok (), ((sampleRegistry.save samplePath).run linkedDraft).2) := Prod.ext (by cbv) rfl
  have hloaded := (h _ _ _ _ hsave).2 sample_readable
  have hloop : ((load samplePath).run ((sampleRegistry.save samplePath).run linkedDraft).2).1 =
      .error (.io samplePath (.file (.os .tooManyLinks))) := by cbv
  cases hloop.symm.trans hloaded

end Registry

end Sideload
