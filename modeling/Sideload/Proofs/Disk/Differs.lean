import Sideload.Proofs.Disk.Making
import Sideload.Proofs.Disk.Stable

/-!
Disks that differ in a region only. What is not in the region is as it was, and a tree without a part of the
region in it is the same tree: its directories list the same names in the same order. Every change of the
disk makes such a difference at the place of its path.
-/

namespace Sideload

namespace Node

/-- A change at a location leaves every tree that is neither above nor below it. -/
theorem get?_update_apart (f : Node → Node) {loc l : Location} (habove : ¬ l <+: loc) (hbelow : ¬ loc <+: l)
    (n : Node) : (n.update f loc).get? l = n.get? l := by
  induction loc generalizing n l with
  | nil => exact absurd List.nil_prefix hbelow
  | cons x loc ih =>
      cases l with
      | nil => exact absurd List.nil_prefix habove
      | cons y l =>
          unfold update
          split
          · next es m hm =>
              rw [get?_cons, get?_cons]
              by_cases hy : y = x
              · subst hy
                rw [List.cons_prefix_cons, not_and] at habove hbelow
                have hnew : (dir (setEntry y (m.update f loc) es)).child? y = some (m.update f loc) :=
                  lookup?_setEntry_self y _ es
                rw [hnew, hm]
                exact ih (habove rfl) (hbelow rfl) m
              · have hother : (dir (setEntry x (m.update f loc) es)).child? y = (dir es).child? y :=
                  lookup?_setEntry_of_ne hy _ _
                rw [hother]
          · rfl

/-- A change of one entry leaves every tree that is neither above nor below the entry. -/
theorem get?_update_entries {f : List (Name × Node) → List (Name × Node)} {x : Name}
    (hf : ∀ y es, y ≠ x → lookup? y (f es) = lookup? y es) (n : Node) {loc l : Location}
    (habove : ¬ l <+: loc ++ [x]) (hbelow : ¬ loc ++ [x] <+: l) :
    (n.update (fun d => match d with
      | dir es => dir (f es)
      | d => d) loc).get? l = n.get? l := by
  by_cases hl : loc <+: l
  · obtain ⟨rest, rfl⟩ := hl
    cases hloc : n.get? loc with
    | none => rw [update_of_get?_eq_none hloc]
    | some k =>
        rw [get?_append, get?_append, get?_update hloc, hloc, Option.bind_some, Option.bind_some]
        cases k with
        | dir es =>
            cases rest with
            | nil => exact absurd (by rw [List.append_nil]; exact List.prefix_append _ _) habove
            | cons y rest =>
                have hyx : y ≠ x := by
                  rintro rfl
                  exact hbelow (prefix_concat_iff.2 ⟨rest, rfl⟩)
                have hother : (dir (f es)).child? y = (dir es).child? y := hf y es hyx
                rw [get?_cons, get?_cons, hother]
        | file content e => rfl
        | link target => rfl
  · exact get?_update_apart _ (fun h => habove (h.trans (List.prefix_append _ _))) hl n

end Node

namespace Disk

variable {d d' d'' : Disk} {p q src : Path} {parent loc place : Location} {n m : Name}
  {region region' : Location → Prop}

/-- Two disks that differ in a region at most. -/
structure Differs (region : Location → Prop) (d d' : Disk) : Prop where
  cwd : d'.cwd = d.cwd
  look : ∀ l, ¬ region l → d'.look l = d.look l
  tree : ∀ l, (∀ l', l <+: l' → ¬ region l') → d'.root.get? l = d.root.get? l

/-- What lies at or below a place. -/
def AtOrBelow (place l : Location) : Prop := place <+: l

namespace Differs

theorem refl (region : Location → Prop) (d : Disk) : Differs region d d := ⟨rfl, fun _ _ => rfl, fun _ _ => rfl⟩

theorem trans (h : Differs region d d') (h' : Differs region d' d'') : Differs region d d'' :=
  ⟨h'.cwd.trans h.cwd, fun l hl => (h'.look l hl).trans (h.look l hl),
    fun l hl => (h'.tree l hl).trans (h.tree l hl)⟩

theorem symm (h : Differs region d d') : Differs region d' d :=
  ⟨h.cwd.symm, fun l hl => (h.look l hl).symm, fun l hl => (h.tree l hl).symm⟩

theorem mono (h : Differs region d d') (hsub : ∀ l, region l → region' l) : Differs region' d d' :=
  ⟨h.cwd, fun l hl => h.look l (mt (hsub l) hl), fun l hl => h.tree l fun l' hl' => mt (hsub l') (hl l' hl')⟩

end Differs

/-! ### Single changes -/

theorem differs_put (d : Disk) (c : Cursor) (n : Name) (m : Node) :
    Differs (AtOrBelow (c.location ++ [n])) d (d.put c n m) := by
  refine ⟨rfl, fun l hl => (sameOff_put d c n m).look l hl, fun l hl => ?_⟩
  exact Node.get?_update_entries (fun _ _ hy => Node.lookup?_setEntry_of_ne hy _ _) _
    (fun h => hl _ h (List.prefix_refl _)) (hl l (List.prefix_refl _))

theorem differs_drop (d : Disk) (c : Cursor) (n : Name) :
    Differs (AtOrBelow (c.location ++ [n])) d (d.drop c n) := by
  refine ⟨rfl, fun l hl => (sameOff_drop d c n).look l hl, fun l hl => ?_⟩
  exact Node.get?_update_entries (fun _ _ hy => Node.lookup?_filter_of_ne hy _) _
    (fun h => hl _ h (List.prefix_refl _)) (hl l (List.prefix_refl _))

theorem differs_emptied (d : Disk) (loc : Location) : Differs (AtOrBelow loc) d (d.emptied loc) :=
  ⟨rfl, fun _ hl => Node.look_update_elsewhere _ hl _,
    fun l hl => Node.get?_update_apart _ (fun h => hl _ h (List.prefix_refl _)) (hl l (List.prefix_refl _)) _⟩

theorem makeDir_differs (h : d.makeDir p = .ok d') :
    ∃ place, d.look place = none ∧ d'.look place = some .dir ∧ Differs (AtOrBelow place) d d' := by
  obtain ⟨parent, n, hslot, hnone, -, hlook⟩ := makeDir_ok h
  refine ⟨parent ++ [n], hnone, by rw [hlook, Function.update_self], ?_⟩
  obtain ⟨c, hplace, rfl, -⟩ := hslot.place
  rw [makeDir, hplace] at h
  simp only [bind, Except.bind] at h
  split at h
  · cases h
  · cases h
    exact differs_put d c n _

theorem openFile_differs {change : Option (ByteArray × Bool) → ByteArray × Bool} {g : Goal}
    (h : d.openFile p change = .ok d') (hg : d.goal p true = .ok g) : Differs (AtOrBelow g.location) d d' := by
  unfold openFile at h
  split at h
  · cases hplace : d.place p <;> rw [hplace] at h <;> cases h
  rcases find_eq d p true with ⟨s, hfind, hfits, hgoal⟩ | ⟨e, hfind, -⟩ <;> rw [hfind] at h
  · cases hg.symm.trans hgoal
    simp only [bind, Except.bind] at h
    cases s with
    | vacant c n =>
        cases h
        exact differs_put d c n _
    | present c =>
        obtain ⟨node, above⟩ := c
        simp only at h
        split at h
        · next content x n up rest =>
            cases h
            have hloc : (⟨.file content x, (n, up) :: rest⟩ : Cursor).location =
                (⟨up, rest⟩ : Cursor).location ++ [n] := Cursor.location_down ⟨up, rest⟩ n _
            simp only [Spot.goal, Goal.location_present, hloc]
            exact differs_put d ⟨up, rest⟩ n _
        · cases h
  · cases h

theorem removeFile_differs (hslot : d.Slot p parent n) (h : d.removeFile p = .ok d') :
    Differs (AtOrBelow (parent ++ [n])) d d' := by
  obtain ⟨c, hplace, rfl, -⟩ := hslot.place
  rw [removeFile, hplace] at h
  simp only [bind, Except.bind] at h
  split at h
  · cases h
  · split at h
    · cases h
    · split at h
      · cases h
      · cases h
        exact differs_drop d c n

theorem removeDir_differs (hslot : d.Slot p parent n) (h : d.removeDir p = .ok d') :
    Differs (AtOrBelow (parent ++ [n])) d d' := by
  obtain ⟨c, hplace, rfl, -⟩ := hslot.place
  rw [removeDir, hplace] at h
  simp only [bind, Except.bind] at h
  split at h
  · cases h
  · cases h
    exact differs_drop d c n
  · cases h
  · cases h

theorem rename_differs {dst : Path} {parent' : Location} (hsrc : d.Slot src parent n) (hdst : d.Slot dst parent' m)
    (h : d.rename src dst = .ok d') :
    Differs (fun l => AtOrBelow (parent ++ [n]) l ∨ AtOrBelow (parent' ++ [m]) l) d d' := by
  obtain ⟨c, hplace, rfl, -⟩ := hsrc.place
  obtain ⟨c', hplace', rfl, -⟩ := hdst.place
  rw [rename, hplace, hplace'] at h
  simp only [bind, Except.bind] at h
  split at h
  · cases h
  · next node hnode =>
      split at h
      · cases h
      split at h
      · cases h
        exact .refl _ d
      split at h
      · cases h
      split at h
      · cases h
      split at h
      · cases h
      · cases h
        exact ((differs_drop d c n).mono fun _ => .inl).trans ((differs_put _ c' m node).mono fun _ => .inr)

/-! ### Changes in several steps -/

theorem removeArtifact_differs (hgoal : d.goal p false = .ok (.present loc)) :
    Differs (AtOrBelow loc) d ((DiskM.removeArtifact p).run d).2 := by
  obtain ⟨c, hfind, rfl, hfits⟩ := DiskM.find_of_goal hgoal
  have hfile : Differs (AtOrBelow c.location) d ((DiskM.step (·.removeFile p)).run d).2 := by
    rw [DiskM.run_step]
    cases h : d.removeFile p with
    | error e => exact .refl _ d
    | ok d' =>
        obtain ⟨parent, n, label, hslot, hlook, -, hslash, -⟩ := removeFile_ok h
        rw [← DiskM.location_of_removal hslot hgoal hlook (.inl hslash)]
        exact removeFile_differs hslot h
  have htree : Differs (AtOrBelow c.location) d ((DiskM.removeTree p).run d).2 := by
    rw [DiskM.run_removeTree, hfind]
    dsimp only
    split
    · exact hfile
    · exact .refl _ d
    · next es hnode =>
        have hdir : d.look c.location = some .dir := by rw [look, hfits.look, hnode]; rfl
        refine (differs_emptied d c.location).trans ?_
        rw [DiskM.run_step]
        cases h : (d.emptied c.location).removeDir p with
        | error e => exact .refl _ _
        | ok d' =>
            have hempty := shrinks_emptied hdir
            obtain ⟨parent, n, hslot, hlook, -⟩ := removeDir_ok h
            have hold : d.look (parent ++ [n]) = some .dir := by
              rw [hempty.look_of_ne_none (by rw [hlook]; simp), hlook]
            have hdiffers := removeDir_differs hslot h
            rwa [DiskM.location_of_removal (hempty.slot hslot).1 hgoal hold (.inr rfl)] at hdiffers
  rw [DiskM.run_removeArtifact]
  split
  · split <;> exact .refl _ d
  · dsimp only
    split
    · exact htree
    · exact hfile

/-- What is removed at a name of a directory is what is there. -/
theorem Slot.removeArtifact_differs (h : d.Slot p parent n) (hslash : p.endsInSlash = false) :
    Differs (AtOrBelow (parent ++ [n])) d ((DiskM.removeArtifact p).run d).2 := by
  have hgoal := h.goal hslash (.inl rfl)
  split at hgoal
  · next hnone =>
      rcases DiskM.removeArtifact_cases p d with ⟨place, hpresent⟩ | ⟨e, -, hrun⟩
      · cases hgoal.symm.trans hpresent
      · rw [hrun]
        exact .refl _ d
  · exact Disk.removeArtifact_differs hgoal

/-- Making directories changes the disk where there are new ones. -/
theorem opened_differs (d : Disk) (p : Path) :
    Differs (fun l => ∃ place, d.look place = none ∧ (d.opened p).look place = some .dir ∧ AtOrBelow place l) d
      (d.opened p) := by
  have hkept := @DiskM.createDirAll_keeps (fun d' => Opens d d' ∧
    Differs (fun l => ∃ place, d.look place = none ∧ d'.look place = some .dir ∧ AtOrBelow place l) d d') p
    (fun q _ d₁ d₂ h hm => ?_) d ⟨.refl d, .refl _ d⟩
  · exact hkept.2
  · obtain ⟨hopens, hdiffers⟩ := h
    obtain ⟨place, hnone, hdir, hnew⟩ := makeDir_differs hm
    have hopens' := (makeDir_opens hm).1
    have hfirst : d.look place = none := by
      rcases hopens.look place with hsame | ⟨h, -⟩
      · rw [← hsame, hnone]
      · exact h
    refine ⟨hopens.trans hopens', (hdiffers.mono ?_).trans (hnew.mono ?_)⟩
    · rintro l ⟨place', hnone', hdir', hl⟩
      exact ⟨place', hnone', by rw [hopens'.look_of_ne_none (by rw [hdir']; simp), hdir'], hl⟩
    · exact fun l hl => ⟨place, hfirst, hdir, hl⟩

end Disk

end Sideload
