import Sideload.Proofs.Disk.Removal
import Sideload.Proofs.Registry.Atomic
import Sideload.Proofs.Shelf.Planning
import Sideload.Proofs.Shelf.Readable

/-!
What an uninstall forgets and what it leaves. If the registry can be saved, it loses the entry whether or
not the artifact could be removed, and the answer tells what became of the artifact. Nothing outside the
artifact is touched but the registry and its draft.
-/

namespace Sideload

open Disk

namespace Disk

variable {d d' : Disk} {p : Path} {parent loc l : Location} {n : Name}

/-- An entry through which a path leads to a file is not passed on the way to itself. -/
theorem Slot.not_mem_approach_of_file (h : d.Slot p parent n) (hslash : p.endsInSlash = false)
    {content : ByteArray} {x : Bool} (hsee : d.see p true = .ok (.file content x)) :
    parent ++ [n] ∉ d.approach p := by
  obtain ⟨f, hgoal, hfile⟩ := see_eq_ok_iff.1 hsee
  obtain ⟨-, -, left, hend⟩ := goal_eq_ok_iff.1 hgoal
  obtain ⟨k, hlead⟩ := h.enters
  rw [trip_eq_lead h.last hslash, Trip.andThen, hlead] at hend
  simp only [Goal.location_present] at hend
  intro hmem
  cases hlabel : d.look (parent ++ [n]) with
  | none => exact h.look_ne_none hmem hlabel
  | some label =>
      cases label with
      | file c y => exact h.not_file hmem c y hlabel
      | dir =>
          rw [View.seek_dir h.short hlabel, View.seek_nil] at hend
          cases hend
          cases hlabel.symm.trans hfile
      | link target =>
          rcases List.mem_append.1 hmem with hmem | hmem
          · have hdir := look_eq_dir_above h.begins ((List.mem_inits _ _).1 hmem)
            cases hdir.symm.trans hlabel
          · cases k with
            | zero =>
                rw [View.seek_no_links h.short hlabel (by simp)] at hend
                cases hend
            | succ k =>
                by_cases hempty : target.isEmpty = true
                · rw [View.seek_empty_link h.short hlabel (by simp) hempty] at hend
                  cases hend
                rw [View.seek_link h.short hlabel (by simp) hempty, List.append_nil] at hend
                have hstuck : ∀ links more, more ≠ [] →
                    ∃ e, (d.look.seek true links parent (.name n :: more)).ending = .error e :=
                  fun links more hmore => View.stuck_of_link d.look_treelike h.dir h.short hlabel hempty
                    hend hfile hmore links
                rw [leadTrip, (View.seek_concat_here _ _ _ _).1] at hmem
                exact View.not_mem_of_stuck hstuck hlead hmem

/-- Not at or below what a path names. -/
def Spared (p : Path) (d : Disk) (l : Location) : Prop :=
  ∀ place, d.goal p false = .ok (.present place) → ¬ place <+: l

end Disk

namespace DiskM

variable {d : Disk} {p : Path} {l : Location}

/-- A removal takes away what the path names or a part of it, and nothing else. -/
theorem removeArtifact_spares (p : Path) (d : Disk) :
    ((removeArtifact p).run d).2.cwd = d.cwd ∧
      (∀ l, d.Spared p l → ((removeArtifact p).run d).2.look l = d.look l) ∧
      ∀ l, ((removeArtifact p).run d).2.look l ≠ none → d.look l = ((removeArtifact p).run d).2.look l := by
  rcases removeArtifact_cases p d with ⟨place, hgoal⟩ | ⟨e, -, hrun⟩
  · obtain ⟨hshrinks, -⟩ := removeArtifact_spec hgoal
    exact ⟨hshrinks.cwd, fun l hl => hshrinks.look l (hl place hgoal), fun l => hshrinks.look_of_ne_none⟩
  · rw [hrun]
    exact ⟨rfl, fun _ _ => rfl, fun _ _ => rfl⟩

/-- What is found after a removal was found before. -/
theorem goal_of_removed {q : Path} {follow : Bool}
    (hg : ((removeArtifact p).run d).2.goal q follow = .ok (.present l)) :
    d.goal q follow = .ok (.present l) := by
  obtain ⟨hcwd, -, hback⟩ := removeArtifact_spares p d
  rw [← hg]
  exact goal_congr hcwd.symm fun l' hl' => hback l' (ne_none_of_way hg l' hl')

/-- A removal succeeds with the answer whether something was there, and then nothing is there. -/
theorem occupied_of_removed {b : Bool} (h : ((removeArtifact p).run d).1 = .ok b) :
    b = d.occupied p ∧ ((removeArtifact p).run d).2.occupied p = false := by
  rcases removeArtifact_cases p d with ⟨place, hgoal⟩ | ⟨e, hsee, hrun⟩
  · obtain ⟨-, hnot, hgone⟩ := removeArtifact_spec hgoal
    have hthere := ne_none_of_way hgoal place (present_mem_way hgoal)
    obtain rfl : b = true := by
      cases b with
      | true => rfl
      | false => exact absurd h hnot
    refine ⟨(occupied_iff.2 ⟨place, hgoal, hthere⟩).symm, ?_⟩
    rw [Bool.eq_false_iff, Ne, occupied_iff]
    rintro ⟨place', hgoal', hthere'⟩
    cases hgoal.symm.trans (goal_of_removed hgoal')
    exact hthere' (hgone h place (List.prefix_refl _))
  · have hfree : d.occupied p = false := by
      rw [Bool.eq_false_iff, Ne, occupied_iff]
      rintro ⟨loc, hgoal, hlook⟩
      obtain ⟨label, hlabel⟩ := Option.ne_none_iff_exists'.1 hlook
      cases hsee.symm.trans (see_eq_ok_iff.2 ⟨loc, hgoal, hlabel⟩)
    rw [hrun] at h ⊢
    dsimp only at h ⊢
    split at h
    · cases h
      exact ⟨hfree.symm, hfree⟩
    · cases h

/-- A removal answers that nothing was there just when the path is missing. -/
theorem removeArtifact_eq_false_iff : ((removeArtifact p).run d).1 = .ok false ↔
    ∃ e, d.see p false = .error e ∧ e.isMissing = true := by
  constructor
  · intro h
    rcases removeArtifact_cases p d with ⟨place, hgoal⟩ | ⟨e, hsee, hrun⟩
    · exact absurd h (removeArtifact_spec hgoal).2.1
    · rw [hrun] at h
      dsimp only at h
      split at h
      · next hmissing => exact ⟨e, hsee, hmissing⟩
      · cases h
  · rintro ⟨e, hsee, hmissing⟩
    rw [removeArtifact_of_error hsee]
    exact if_pos hmissing

end DiskM

namespace Registry

variable {r : Registry} {path p : Path} {d d' : Disk} {w w' : World} {parent loc l : Location}
  {m n : Name} {content : String}

/-- A registry that is found in its directory needs no new one. -/
theorem look_hosted_of_slot (h : d.Slot path parent n) (hslash : path.endsInSlash = false) :
    (hosted d path).look = d.look := by
  obtain ⟨hslot, hway⟩ := (opens_hosted d path).slot h
  funext l
  by_contra hl
  have hmem := mem_approach_of_hosted hslot hslash hl
  exact hl ((opens_hosted d path).look_of_ne_none (h.look_ne_none (hway ▸ hmem)))

/-- A registry that can be read is saved in its place, if its draft is no link. -/
theorem replaced_in_place {c : ByteArray} {x : Bool} (hsee : w.disk.see path true = .ok (.file c x))
    (hdraft : w.disk.isLink (draftPath path) = false) (hsave : (r.save path).run w = (.ok (), w')) :
    ∃ content parent m n, r.text = .ok content ∧ Replaced path parent m n content w.disk w'.disk ∧
      w.disk.look (parent ++ [n]) ≠ none ∧ parent ++ [n] ∉ w.disk.approach path := by
  obtain ⟨f, hgoal, hfile⟩ := see_eq_ok_iff.1 hsee
  obtain ⟨hslash, parent', n', hslot⟩ := exists_slot_of_leaf hgoal (by
    rw [Goal.location_present, hfile]
    simp)
  have hlook := look_hosted_of_slot hslot hslash
  have hcwd := (opens_hosted w.disk path).cwd
  have hplain : (hosted w.disk path).isLink (draftPath path) = false := by
    rw [isLink_eq_false_iff] at hdraft ⊢
    rwa [see_congr hcwd fun l _ => congrFun hlook l]
  obtain ⟨content, parent, m, n, htext, hbefore, hfree, hleaf, hcwd', x', hlook'⟩ :=
    replaced_of_save hsave hplain
  obtain ⟨hstands, -⟩ := hbefore.congr hcwd.symm fun l _ => congrFun hlook.symm l
  rw [hlook] at hlook' hleaf
  rw [Disk.Writable, hlook] at hfree
  refine ⟨content, parent, m, n, htext, ⟨hstands, hfree, hleaf, hcwd'.trans hcwd, x', hlook'⟩, fun hnone => ?_,
    hstands.file.not_mem_approach_of_file hslash hsee⟩
  have hanswer : w.disk.see path true = answer (w.disk.look (parent ++ [n])) :=
    hstands.file.see hslash (.inr (by rw [hnone]; simp))
  rw [hsee, hnone] at hanswer
  cases hanswer

/-- What is found when the registry was replaced was found before. -/
theorem Replaced.goal_before (h : Replaced path parent m n content d d')
    (hthere : d.look (parent ++ [n]) ≠ none) (hg : d'.goal p false = .ok (.present loc)) :
    d.goal p false = .ok (.present loc) := by
  have hdraft : ∀ l ∈ d'.way p false, l ≠ parent ++ [m] := by
    rintro l hl rfl
    exact ne_none_of_way hg _ hl h.look_draft
  by_cases hfile : parent ++ [n] ∈ d'.way p false
  · obtain ⟨x, hlabel⟩ := h.look_file
    cases goal_of_file_on_way hg hfile hlabel
    obtain ⟨hslash, up, k, hslot⟩ := exists_slot_of_leaf hg (by
      rw [Goal.location_present, hlabel]
      simp)
    have hplace := hslot.goal hslash (.inl rfl)
    rw [hg] at hplace
    split at hplace
    · cases hplace
    rw [(h.slot_before hslot).1.goal hslash (.inl rfl), ← Goal.present.inj (Except.ok.inj hplace),
      if_neg hthere]
  · rw [← hg]
    refine goal_congr h.cwd.symm fun l hl => (h.look_elsewhere ?_ (hdraft l hl)).symm
    rintro rfl
    exact hfile hl

/-- A registry with an entry was read from a file. -/
theorem see_of_read {e : Entry} {name : String} (hread : read d path = .ok r) (hget : r.get? name = some e) :
    ∃ c x, d.see path true = .ok (.file c x) := by
  unfold read at hread
  rw [readText_eq] at hread
  cases hsee : d.see path true with
  | error cause =>
      rw [hsee, Except.bind] at hread
      dsimp only at hread
      split at hread
      · cases hread
        cases hget
      · cases hread
  | ok label =>
      cases label with
      | file c x => exact ⟨c, x, rfl⟩
      | link target =>
          rw [hsee] at hread
          cases hread
      | dir =>
          rw [hsee] at hread
          cases hread

end Registry

open Registry

namespace Shelf

variable {shelf : Shelf} {w w₁ w₂ : World} {r : Registry} {e : Entry} {name : String}

/-- What an uninstall leaves behind, whatever it answers. -/
structure Forgotten (shelf : Shelf) (r : Registry) (e : Entry) (w w' : World) : Prop where
  now : w'.now = w.now
  load : ((Registry.load shelf.registryPath).run w').1 = .ok (r.erase e.name)
  elsewhere : ∀ l, w.disk.Spared e.artifact l → w'.disk.look l = w.disk.look l ∨
    ∃ p g, (p = shelf.registryPath ∨ p = draftPath shelf.registryPath) ∧
      w.disk.goal p false = .ok g ∧ g.location = l

theorem Forgotten.quiet (h : Forgotten shelf r e w w₁) (hquiet : w₁.Quiet w₂) : Forgotten shelf r e w w₂ :=
  ⟨hquiet.now.trans h.now, by rw [(run_load _ w₂).1, hquiet.disk, ← (run_load _ w₁).1, h.load],
    fun l hl => hquiet.disk ▸ h.elsewhere l hl⟩

theorem removalAnswer_eq_ok_iff {removal : Except IoError Bool} {o : Removal} :
    removalAnswer e removal = .ok o ↔ ∃ b, removal = .ok b ∧ o = ⟨e, b⟩ := by
  cases removal with
  | error cause => simp [removalAnswer]
  | ok b => simp [removalAnswer, eq_comm]

/-- The registry after the artifact was removed as far as possible, and the save that follows. -/
theorem forgotten_of_save (hread : read w.disk shelf.registryPath = .ok r) (hr : ∀ f ∈ r.entries, f.Readable)
    (hget : r.get? name = some e) (hdraft : w.disk.isLink (draftPath shelf.registryPath) = false)
    (hkept : ∀ l ∈ w.disk.way shelf.registryPath true, w.disk.Spared e.artifact l)
    (hnow : w₁.now = w.now) (hdisk : w₁.disk = ((DiskM.removeArtifact e.artifact).run w.disk).2)
    (hsave : ((r.erase name).save shelf.registryPath).run w₁ = (.ok (), w₂)) :
    Forgotten shelf r e w w₂ ∧
      (w₁.disk.occupied e.artifact = false → w₂.disk.occupied e.artifact = false) := by
  obtain ⟨hcwd, hspared, hback⟩ := DiskM.removeArtifact_spares e.artifact w.disk
  rw [← hdisk] at hcwd hspared hback
  obtain ⟨c, x, hsee⟩ := see_of_read hread hget
  have hway : ∀ l ∈ w.disk.way shelf.registryPath true, w₁.disk.look l = w.disk.look l :=
    fun l hl => hspared l (hkept l hl)
  have hsee₁ : w₁.disk.see shelf.registryPath true = .ok (.file c x) := (see_congr hcwd hway).trans hsee
  have hdraft₁ : w₁.disk.isLink (draftPath shelf.registryPath) = false := by
    rw [isLink_eq_false_iff] at hdraft ⊢
    intro target htarget
    obtain ⟨loc, hgoal, hlook⟩ := see_eq_ok_iff.1 htarget
    have hsame := hback loc (by rw [hlook]; simp)
    rw [hdisk] at hgoal
    exact hdraft target (see_eq_ok_iff.2 ⟨loc, DiskM.goal_of_removed hgoal, hsame.trans hlook⟩)
  obtain ⟨content, parent, m, n, -, hreplaced, hthere, hnot⟩ := replaced_in_place hsee₁ hdraft₁ hsave
  have hslots : ∀ {p : Path} {k : Name}, w₁.disk.Slot p parent k → w.disk.Slot p parent k := fun hslot =>
    (hslot.congr hcwd.symm fun l hl => hback l (hslot.look_ne_none hl)).1
  have hstands := hreplaced.before
  have hplain := hreplaced.draft_plain
  obtain ⟨x', hfile⟩ := hreplaced.look_file
  refine ⟨⟨(save_ok hsave).1.trans hnow, ?_, fun l hl => ?_⟩, fun hfree => ?_⟩
  · have hslot := (hreplaced.stands hnot).1.file
    rw [name_of_get? hget, load_saved_iff hsave, isFile_see]
    refine ⟨fun f hf => hr f (mem_erase hf).1, content.toUTF8, x', ?_⟩
    rw [hslot.see hstands.slash (.inr (by rw [hfile]; simp)), hfile]
    rfl
  · by_cases hplace : l = parent ++ [n]
    · obtain ⟨g, hgoal, hlocation⟩ := exists_goal_of_slot (hslots hstands.file) hstands.slash
      exact .inr ⟨_, g, .inl rfl, hgoal, hlocation.trans hplace.symm⟩
    by_cases hbeside : l = parent ++ [m]
    · obtain ⟨g, hgoal, hlocation⟩ := exists_goal_of_slot (hslots hstands.draft) hplain
      exact .inr ⟨_, g, .inr rfl, hgoal, hlocation.trans hbeside.symm⟩
    exact .inl ((hreplaced.look_elsewhere hplace hbeside).trans (hspared l hl))
  · rw [Bool.eq_false_iff, Ne, occupied_iff] at hfree ⊢
    rintro ⟨loc, hgoal, -⟩
    have hbefore := hreplaced.goal_before hthere hgoal
    exact hfree ⟨loc, hbefore, ne_none_of_way hbefore loc (present_mem_way hbefore)⟩

/-- An uninstall forgets the entry in every case, and removes the artifact and nothing else. A name without
an entry is not found, and nothing changes. Otherwise, if the registry can be saved once the artifact is
removed as far as that is possible, it is loaded without the entry afterwards. The answer is an error just
when the removal failed, and tells the entry and the path; if there is none, nothing is at the path of the
artifact any more, and the answer tells whether something was. Outside the artifact only the registry and
its draft are touched. -/
theorem uninstall_forgets (shelf : Shelf) (w : World) (r : Registry) (name : String)
    (hload : ((Registry.load shelf.registryPath).run w).1 = .ok r) (hback : r.ComesBack)
    (hdraft : w.disk.isLink (draftPath shelf.registryPath) = false)
    (hkept : ∀ e, r.get? name = some e →
      ∀ l ∈ w.disk.way shelf.registryPath true, w.disk.Spared e.artifact l)
    (hsave : ∀ e, r.get? name = some e → ∀ w₁ : World,
      w₁.disk = ((DiskM.removeArtifact e.artifact).run w.disk).2 →
        (((r.erase name).save shelf.registryPath).run w₁).1 = .ok ()) :
    (r.get? name = none → ((shelf.uninstall name).run w).1 = .error (.notFound name) ∧
      w.Quiet ((shelf.uninstall name).run w).2) ∧
    ∀ e, r.get? name = some e → Forgotten shelf r e w ((shelf.uninstall name).run w).2 ∧
      (∀ o, ((shelf.uninstall name).run w).1 = .ok o → o = ⟨e, w.disk.occupied e.artifact⟩ ∧
        ((shelf.uninstall name).run w).2.disk.occupied e.artifact = false) ∧
      ((∃ o, ((shelf.uninstall name).run w).1 = .ok o) ↔
        ((DiskM.removeArtifact e.artifact).run w.disk).1 = .ok true ∨
          ∃ cause, w.disk.see e.artifact false = .error cause ∧ cause.isMissing = true) ∧
      ∀ cause, ((DiskM.removeArtifact e.artifact).run w.disk).1 = .error cause →
        ((shelf.uninstall name).run w).1 = .error (.cleanup e.name e.artifact (.file cause)) := by
  have hread : read w.disk shelf.registryPath = .ok r := (run_load _ w).1.symm.trans hload
  rcases uninstall_cases shelf name w with ⟨f, hanswer, hquiet, hwhy⟩ | ⟨r', e, w₁, hread', hget, hnow, hdisk,
    hrest⟩
  · have hnone : r.get? name = none ∧ f = .notFound name := by
      rcases hwhy with hfail | ⟨r', hread', hnone, hf⟩
      · cases hread.symm.trans hfail
      · cases hread.symm.trans hread'
        exact ⟨hnone, hf⟩
    refine ⟨fun _ => ⟨hnone.2 ▸ hanswer, hquiet⟩, fun e hget => ?_⟩
    cases hnone.1.symm.trans hget
  cases hread.symm.trans hread'
  refine ⟨fun hnone => ?_, fun e' hget' => ?_⟩
  · cases hnone.symm.trans hget
  cases hget.symm.trans hget'
  rcases hrest with ⟨f, hfail, -⟩ | ⟨w₂, hsaved, hquiet, hanswer⟩
  · have hok := hsave e hget w₁ hdisk
    rw [hfail] at hok
    cases hok
  obtain ⟨hforgotten, hgone⟩ :=
    forgotten_of_save hread hback.readable hget hdraft (hkept e hget) hnow hdisk hsaved
  rw [hanswer, hquiet.disk]
  refine ⟨?_, fun o ho => ?_, ?_, fun cause hcause => ?_⟩
  · exact hforgotten.quiet hquiet
  · obtain ⟨b, hremoved, rfl⟩ := removalAnswer_eq_ok_iff.1 ho
    obtain ⟨hb, hfree⟩ := DiskM.occupied_of_removed hremoved
    exact ⟨by rw [hb], hgone (hdisk ▸ hfree)⟩
  · simp only [removalAnswer_eq_ok_iff]
    rw [← DiskM.removeArtifact_eq_false_iff]
    constructor
    · rintro ⟨-, b, hremoved, -⟩
      cases b with
      | true => exact .inl hremoved
      | false => exact .inr hremoved
    · rintro (hremoved | hremoved) <;> exact ⟨_, _, hremoved, rfl⟩
  · rw [hcause]
    rfl

/-- A registry with one entry, and its artifact. -/
def recordedWorld (beside : List (Name × Node)) : World := .holding [
  (Glyph.ofString "home", .dir ((Glyph.ofString "registry.txt",
    .file "m|/src/m.py|copy|/site/m.py|2024-05-06T00:00:00Z\n".toUTF8 false) :: beside)),
  (Glyph.ofString "site", .dir [(Glyph.ofString "m.py", .file .empty false)])]

theorem sample_comesBack : sampleRegistry.ComesBack := by
  obtain ⟨s, htext⟩ := (text_isOk_iff sampleRegistry).2 fun e he => by
    obtain rfl := List.mem_singleton.1 he
    exact ⟨"m|/src/m.py|copy|/site/m.py|2024-05-06T00:00:00Z", by cbv⟩
  exact ⟨s, htext, ofText_text htext sample_readable⟩

def recordedEntry : Entry := ⟨"m", .ofString "/src/m.py", .copy, .ofString "/site/m.py", sampleMoment⟩

theorem read_recordedWorld (beside : List (Name × Node)) :
    Registry.read (recordedWorld beside).disk samplePath = .ok sampleRegistry := by
  have hsee : (recordedWorld beside).disk.see samplePath true = .ok (.file
      "m|/src/m.py|copy|/site/m.py|2024-05-06T00:00:00Z\n".toUTF8 false) := by cbv
  exact read_of_line hsee (show _ = ["m|/src/m.py|copy|/site/m.py|2024-05-06T00:00:00Z"] by cbv)
    (Entry.ofLine_toLine (e := recordedEntry) (by cbv) ⟨by decide, by decide, by decide, by decide⟩)

theorem load_recordedWorld (beside : List (Name × Node)) :
    ((load samplePath).run (recordedWorld beside)).1 = .ok sampleRegistry := by
  rw [(run_load _ _).1, read_recordedWorld]

theorem recordedWorld_spares (beside : List (Name × Node)) :
    ∀ l ∈ (recordedWorld beside).disk.way samplePath true,
      (recordedWorld beside).disk.Spared recordedEntry.artifact l := by
  have hgoal : (recordedWorld beside).disk.goal recordedEntry.artifact false =
      .ok (.present [Glyph.ofString "site", Glyph.ofString "m.py"]) := by cbv
  have hway : (recordedWorld beside).disk.way samplePath true =
      [[], [Glyph.ofString "home"], [Glyph.ofString "home", Glyph.ofString "registry.txt"]] := by cbv
  rw [hway]
  intro l hl place hplace
  cases hgoal.symm.trans hplace
  revert l
  decide

/-- A copied file is uninstalled. -/
theorem uninstall_forgets_sample :
    ((sampleShelf.uninstall "m").run (recordedWorld [])).1 = .ok ⟨recordedEntry, true⟩ ∧
    ((Registry.load samplePath).run ((sampleShelf.uninstall "m").run (recordedWorld [])).2).1 =
      .ok (sampleRegistry.erase "m") ∧
    ((sampleShelf.uninstall "m").run (recordedWorld [])).2.disk.occupied (.ofString "/site/m.py") = false := by
  have hget : sampleRegistry.get? "m" = some recordedEntry := by decide
  obtain ⟨-, hentry⟩ := uninstall_forgets sampleShelf (recordedWorld []) sampleRegistry "m"
    (load_recordedWorld []) sample_comesBack (by cbv)
    (fun e he => by
      cases hget.symm.trans he
      exact recordedWorld_spares [])
    (fun e he w₁ hdisk => by
      cases hget.symm.trans he
      obtain ⟨d, now, log⟩ := w₁
      dsimp only at hdisk
      subst hdisk
      cbv)
  obtain ⟨hforgotten, hok, hiff, -⟩ := hentry recordedEntry hget
  obtain ⟨o, ho⟩ := hiff.2 (.inl (by cbv))
  obtain ⟨rfl, hfree⟩ := hok o ho
  exact ⟨ho.trans (by cbv), hforgotten.load, hfree⟩

/-- The draft of the registry is a link to the registry. -/
def linkedWorld : World :=
  recordedWorld [(Glyph.ofString "registry.txt.tmp", .link (.ofString "registry.txt"))]

/-- Where the draft is a link to the registry, the text is written through it and the link is moved over
the registry: the uninstall succeeds, and the registry cannot be read any more. -/
theorem not_forgotten_of_linked_draft : ¬ ∀ (shelf : Shelf) (w w' : World) (r : Registry) (e : Entry) (o : Removal),
    ((Registry.load shelf.registryPath).run w).1 = .ok r → r.ComesBack → r.get? e.name = some e →
      (∀ l ∈ w.disk.way shelf.registryPath true, w.disk.Spared e.artifact l) →
        (shelf.uninstall e.name).run w = (.ok o, w') →
          ((Registry.load shelf.registryPath).run w').1 = .ok (r.erase e.name) := by
  intro h
  obtain hplanned : sampleShelf.plannedRemoval recordedEntry.name linkedWorld.disk =
      .ok (sampleRegistry, recordedEntry) := plannedRemoval_of_get? (read_recordedWorld _) (by decide)
  obtain ⟨_, hrun⟩ := (sampleShelf.uninstall_reads recordedEntry.name).run_of_ok hplanned
  obtain hlinked := h sampleShelf linkedWorld _ sampleRegistry recordedEntry ⟨recordedEntry, true⟩
    (load_recordedWorld _) sample_comesBack (by decide) (recordedWorld_spares _) (Prod.ext (by rw [hrun]; cbv) rfl)
  refine absurd hlinked ?_
  rw [hrun, (run_load _ _).1]
  clear hlinked hrun hplanned h
  cbv
  intro hok
  cases hok

end Shelf

end Sideload
