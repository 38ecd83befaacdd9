import Sideload.Proofs.Installer.Abreast
import Sideload.Proofs.Installer.Destination
import Sideload.Proofs.Shelf.Directory

/-!
What belongs to a module in a package directory: the name under which it is built, and the names that its
artifact may have. An install changes nothing else, and no name belongs to two modules, unless one of them is
called as redirect files are.
-/

namespace Sideload

open Disk

/-- A name that a module may have in a package directory. -/
structure ModuleEntry (name : String) (n : Name) : Prop where
  valid : IsIdentifier name
  name : n = Glyph.ofString (stagingName name) ∨
    ∃ source mode isDir, n = Glyph.ofString (artifactName source name mode isDir)

/-- A module that is called as redirect files are. -/
def IsRedirectLike (name : String) : Prop := ∃ rest, name = redirectStem ++ rest

/-- What is at or below the names of a module in a package directory. -/
def Owned (loc : Location) (name : String) (l : Location) : Prop :=
  ∃ n, ModuleEntry name n ∧ loc ++ [n] <+: l

variable {name other : String} {n m : Name} {loc l : Location}

theorem isRedirectLike_iff {name : String} : IsRedirectLike name ↔ redirectStem.toList <+: name.toList := by
  constructor
  · rintro ⟨rest, rfl⟩
    rw [String.toList_append]
    exact List.prefix_append _ _
  · rintro ⟨rest, hrest⟩
    exact ⟨String.ofList rest, by rw [← String.toList_inj, String.toList_append, String.toList_ofList, hrest]⟩

theorem stagingName_inj : stagingName name = stagingName other ↔ name = other := by
  show "." ++ redirectStem ++ name ++ ".partial" = "." ++ redirectStem ++ other ++ ".partial" ↔ _
  rw [← String.toList_inj]
  simp only [String.toList_append, List.append_cancel_right_eq, List.append_cancel_left_eq, String.toList_inj]

theorem name_eq_of_artifactStem {mode mode' : Mode} (hname : ¬ IsRedirectLike name) (hother : ¬ IsRedirectLike other)
    (h : artifactStem name mode = artifactStem other mode') : name = other := by
  cases mode <;> cases mode'
  · exact h
  · exact absurd ⟨other, h⟩ hname
  · exact absurd ⟨name, h.symm⟩ hother
  · rwa [artifactStem, artifactStem, ← String.toList_inj, String.toList_append, String.toList_append,
      List.append_cancel_left_eq, String.toList_inj] at h

theorem ModuleEntry.proper (h : ModuleEntry name n) : n.Proper := by
  rcases h.name with rfl | ⟨source, mode, isDir, rfl⟩
  · exact stagingName_proper h.valid
  · exact artifactName_proper h.valid _ _ _

/-- No name belongs to two modules. -/
theorem ModuleEntry.unique (h : ModuleEntry name n) (h' : ModuleEntry other n) (hname : ¬ IsRedirectLike name)
    (hother : ¬ IsRedirectLike other) : name = other := by
  rcases h.name with hn | ⟨source, mode, isDir, hn⟩ <;> rcases h'.name with hn' | ⟨source', mode', isDir', hn'⟩ <;>
    have heq := Glyph.ofString_inj.1 (hn.symm.trans hn')
  · exact stagingName_inj.1 heq
  · exact absurd heq.symm (artifactName_ne_stagingName h'.valid _ _ _ _)
  · exact absurd heq (artifactName_ne_stagingName h.valid _ _ _ _)
  · exact name_eq_of_artifactStem hname hother ((artifactName_inj h.valid h'.valid).1 heq).1

theorem Owned.below (h : Owned loc name l) : loc <+: l := by
  obtain ⟨n, -, hpre⟩ := h
  exact (List.prefix_append _ _).trans hpre

theorem Owned.unique (h : Owned loc name l) (h' : Owned loc other l) (hname : ¬ IsRedirectLike name)
    (hother : ¬ IsRedirectLike other) : name = other := by
  obtain ⟨n, hn, hl⟩ := h
  obtain ⟨m, hm, hl'⟩ := h'
  obtain rfl := Location.entry_unique hl hl'
  exact hn.unique hm hname hother

theorem Plan.staging_entry {plan : Plan} (h : IsIdentifier plan.name) : ModuleEntry plan.name plan.stagingEntry :=
  ⟨h, .inl rfl⟩

theorem Plan.artifact_entry {plan : Plan} (h : IsIdentifier plan.name) : ModuleEntry plan.name plan.artifactEntry :=
  ⟨h, .inr ⟨_, _, _, rfl⟩⟩

theorem Entry.Destined.moduleEntry {e : Entry} {target : Path} (h : e.Destined target n) : ModuleEntry e.name n := by
  obtain ⟨isDir, rfl⟩ := h.name
  exact ⟨h.valid, .inr ⟨_, _, _, rfl⟩⟩

/-! ### Work for one module -/

/-- Nothing differs but what belongs to a module in a package directory, and nothing that is looked up to find
the directory. -/
structure WorksFor (target : Path) (loc : Location) (name : String) (d d' : Disk) : Prop
    extends Differs (Owned loc name) d d' where
  kept : ∀ l ∈ d.way target true, d'.look l = d.look l

namespace WorksFor

variable {d d' d'' : Disk} {target dir : Path} {region : Location → Prop}

theorem refl (target : Path) (loc : Location) (name : String) (d : Disk) : WorksFor target loc name d d :=
  ⟨.refl _ d, fun _ _ => rfl⟩

/-- The directory is where it was, also by another path that leads the same way. -/
theorem enters (h : WorksFor target loc name d d') (he : d.Enters dir loc)
    (hway : ∀ l ∈ d.way dir true, l ∈ d.way target true) :
    d'.Enters dir loc ∧ d'.way dir true = d.way dir true :=
  he.congr h.cwd fun l hl => h.kept l (hway l hl)

theorem trans (h : WorksFor target loc name d d') (h' : WorksFor target loc name d' d'') (he : d.Enters target loc) :
    WorksFor target loc name d d'' := by
  refine ⟨h.toDiffers.trans h'.toDiffers, fun l hl => (h'.kept l ?_).trans (h.kept l hl)⟩
  rwa [(h.enters he fun _ hl => hl).2]

/-- A change at names of the module over which the directory is not reached. -/
theorem of_differs (h : Differs region d d')
    (hregion : ∀ l, region l → ∃ n, ModuleEntry name n ∧ loc ++ [n] ∉ d.way target true ∧ loc ++ [n] <+: l) :
    WorksFor target loc name d d' := by
  refine ⟨h.mono fun l hl => ?_, fun l hl => h.look l fun hin => ?_⟩
  · obtain ⟨n, hn, -, hpre⟩ := hregion l hl
    exact ⟨n, hn, hpre⟩
  · obtain ⟨n, -, haside, hpre⟩ := hregion l hin
    exact haside (prefix_of_way hl hpre)

end WorksFor

end Sideload
