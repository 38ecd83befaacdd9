import Sideload.Proofs.Disk.Canonical
import Sideload.Proofs.Shelf.Owned
import Sideload.Proofs.Shelf.Planning

/-!
Planning the same install on two disks. Where the source is found and read in the same places, and the same
names of the module are taken in the package directory, the plan is the same, or what keeps it from being made.
-/

namespace Sideload

open Disk

variable {d d' : Disk} {p q dir source real target : Path} {loc l : Location} {n : Name} {name : String} {mode : Mode}
  {prior : Option Entry} {region : Location → Prop}

/-! ### Sources -/

/-- A path that is not found over a region, and leads to a file or a tree apart from it. -/
structure Disk.Aloof (region : Location → Prop) (d : Disk) (p : Path) : Prop where
  way : ∀ l ∈ d.way p true, ¬ region l
  tree : ∀ s, d.goal p true = .ok (.present s) → Avoids region d (pathOf s)

namespace Disk.Aloof

theorem avoids (h : Aloof region d source) (hr : resolveSource d source = .ok real) : Avoids region d real := by
  obtain ⟨s, hgoal, rfl⟩ := resolveSource_eq_ok_iff.1 hr
  exact h.tree s hgoal

section Congr

variable (h : Aloof region d source) (hdiffers : Differs region d d')
include h hdiffers

theorem goal : d'.goal source true = d.goal source true :=
  goal_congr hdiffers.cwd fun l hl => hdiffers.look l (h.way l hl)

theorem see : d'.see source true = d.see source true :=
  see_congr hdiffers.cwd fun l hl => hdiffers.look l (h.way l hl)

theorem resolveSource : resolveSource d' source = resolveSource d source := by
  rw [resolveSource_eq, resolveSource_eq, h.goal hdiffers]

theorem exists_ : d'.exists_ source = d.exists_ source := by rw [exists_eq, exists_eq, h.see hdiffers]

end Congr

/-- A path without links is resolved to itself, if at all. -/
theorem resolved (hproper : d.Proper) (h : Aloof region d source)
    (hr : Sideload.resolveSource d source = .ok real) : Aloof region d real := by
  have havoids := h.avoids hr
  refine ⟨fun l hl => havoids.not_way hl, fun s' hgoal' => ?_⟩
  obtain ⟨s, hgoal, rfl⟩ := resolveSource_eq_ok_iff.1 hr
  have hthere := ne_none_of_way hgoal s (present_mem_way hgoal)
  have hs : s.Proper := hproper.look s hthere
  obtain ⟨label, hlabel⟩ := Option.ne_none_iff_exists'.1 hthere
  have hroot : d.look [] = some .dir := look_eq_dir_above (goal_eq_ok_iff.1 hgoal).2.1 List.nil_prefix
  have := goal_pathOf hs (nameable_of_goal hs hthere hgoal') hroot hlabel fun target heq =>
    ne_link_of_goal hgoal target (hlabel.trans (congrArg some heq))
  cases hgoal'.symm.trans this
  exact havoids

end Disk.Aloof

/-! ### The places of a module -/

/-- A name of a directory is taken on both disks or on neither, if something is there on both or on neither. -/
theorem Disk.Enters.occupied_agrees {loc' : Location} (h : d.Enters dir loc) (h' : d'.Enters dir loc')
    (hq : q.Adds dir n) (hsame : d'.look (loc' ++ [n]) = none ↔ d.look (loc ++ [n]) = none) :
    d'.occupied q = d.occupied q := by
  rw [Bool.eq_iff_iff, occupied_iff, occupied_iff]
  rcases slot_or_refused hq with hslot | ⟨e, -, hrefused⟩
  · have hgoal : ∀ {d : Disk} {loc : Location}, d.Enters dir loc →
        ((∃ l, d.goal q false = .ok (.present l) ∧ d.look l ≠ none) ↔ d.look (loc ++ [n]) ≠ none) := by
      intro d loc h
      rw [(hslot h).goal hq.slash (.inl rfl)]
      split
      · next hnone => simp [hnone]
      · next hthere => exact ⟨fun _ => hthere, fun _ => ⟨_, rfl, hthere⟩⟩
    rw [hgoal h, hgoal h', Ne, hsame]
  · rw [(hrefused h).2, (hrefused h').2]
    simp

/-- Nothing is taken in a directory that is missing. -/
theorem Disk.Vacant.not_occupied {anc : Path} {above : Location} {names : List Name} (h : d.Vacant dir anc above names)
    (hq : q.components = dir.components ++ [.name n]) (hlast : q.segments.getLast? = some (.name n))
    (hslash : q.endsInSlash = false) : d.occupied q = false := by
  rw [Bool.eq_false_iff]
  intro htaken
  obtain ⟨l, hgoal, -⟩ := occupied_iff.1 htaken
  obtain ⟨parent, hslot⟩ := exists_slot_of_goal hlast hslash hgoal
  have he := hslot.enters_dir hq h.admits
  have hopened : d.opened dir = d := by rw [opened, he.run_createDirAll (Path.isEmpty_of_last h.last.choose_spec)]
  have hin := h.made.2.2
  rw [hopened] at hin
  have hgone := h.fresh.1 _ (List.prefix_refl _)
  rw [hin.dir] at hgone
  cases hgone

/-- Where an install looks for things in its way, a module may have a name. -/
theorem exists_entry_of_candidate {target dest : Path} {isDir : Bool} (hvalid : IsIdentifier name)
    (hdest : dest = destination target source name mode isDir) (hq : q ∈ candidates target dest name mode) :
    ∃ s, ModuleEntry name (Glyph.ofString s) ∧ q = target.child s := by
  have hentry : ∀ (source : Path) (mode : Mode) (isDir : Bool),
      ModuleEntry name (Glyph.ofString (artifactName source name mode isDir)) := fun _ _ _ =>
    ⟨hvalid, .inr ⟨_, _, _, rfl⟩⟩
  have hfirst : ∃ s, ModuleEntry name (Glyph.ofString s) ∧ dest = target.child s :=
    ⟨_, hentry source mode isDir, hdest.trans (destination_eq ..)⟩
  cases mode with
  | copy => exact List.mem_singleton.1 hq ▸ hfirst
  | editable =>
      simp only [candidates, List.mem_cons, List.not_mem_nil, or_false] at hq
      rcases hq with rfl | rfl | rfl
      · exact hfirst
      · exact ⟨_, hentry .empty .copy true, rfl⟩
      · exact ⟨_, hentry .empty .copy false, rfl⟩

/-! ### Plans -/

/-- The same is planned where the same names of the module are taken. -/
theorem planInstall_agrees (h : Aloof region d source) (hdiffers : Differs region d d')
    (htaken : ∀ s, ModuleEntry name (Glyph.ofString s) → d'.occupied (target.child s) = d.occupied (target.child s)) :
    planInstall d' target source mode (some name) prior = planInstall d target source mode (some name) prior := by
  unfold planInstall
  rw [h.resolveSource hdiffers]
  cases hr : resolveSource d source with
  | error f => rfl
  | ok real =>
      have hisDir := isDir_congr ((h.avoids hr).see hdiffers)
      simp only [bind, Except.bind]
      rw [deriveName_congr hisDir, hisDir]
      cases deriveName d real with
      | error f => rfl
      | ok derived =>
          dsimp only
          cases hvalid : validateName ((some name).getD derived) with
          | error f => rfl
          | ok u =>
              have hconflict : conflict? d' (candidates target (destination target real name mode (d.isDir real)) name mode)
                  prior = conflict? d (candidates target (destination target real name mode (d.isDir real)) name mode)
                    prior := by
                refine List.find?_congr fun q hq => ?_
                obtain ⟨s, hs, rfl⟩ := exists_entry_of_candidate (validateName_eq_ok_iff.1 hvalid) rfl hq
                rw [htaken s hs]
              dsimp only [Option.getD_some]
              rw [hconflict]

end Sideload
