import Sideload.Proofs.Disk.Growth

/-!
Directories that are reached over one of their own entries. Taking that entry away cuts the way to the
directory. What is made at the path of the entry afterwards, the missing directories on the way and
whatever is copied there, lies at or below the place where the entry was.
-/

namespace Sideload

namespace DiskM

open Disk

/-- What making one directory keeps, the search for the nearest one that is there keeps too. -/
theorem reach_keeps {keeps : Disk → Prop} {ps : List Path}
    (hstep : ∀ q ∈ ps, ∀ d d', keeps d → d.makeDir q = .ok d' → keeps d') (todo : List Path) {d : Disk}
    (h : keeps d) : keeps ((reach ps todo).run d).2 := by
  induction ps generalizing todo with
  | nil => exact h
  | cons p above ih =>
      rw [reach_cons]
      split
      · exact h
      · cases hmake : d.makeDir p with
        | ok d' => exact hstep p (List.mem_cons_self ..) d d' h hmake
        | error e =>
            dsimp only
            split
            · exact ih (fun q hq => hstep q (List.mem_cons_of_mem _ hq)) (p :: todo)
            · split <;> exact h

theorem makeEach_keeps {keeps : Disk → Prop} {ps : List Path}
    (hstep : ∀ q ∈ ps, ∀ d d', keeps d → d.makeDir q = .ok d' → keeps d') {d : Disk} (h : keeps d) :
    keeps ((makeEach ps).run d).2 := by
  induction ps generalizing d with
  | nil => exact h
  | cons p rest ih =>
      have hrest := fun q hq => hstep q (List.mem_cons_of_mem p hq)
      rw [makeEach_cons]
      cases hmake : d.makeDir p with
      | ok d' => exact ih hrest (hstep p (List.mem_cons_self ..) d d' h hmake)
      | error e =>
          dsimp only
          split
          · exact ih hrest h
          · exact h

/-- What making one directory keeps, making all that are missing keeps. -/
theorem createDirAll_keeps {keeps : Disk → Prop} {p : Path}
    (hstep : ∀ q ∈ p.ancestors, ∀ d d', keeps d → d.makeDir q = .ok d' → keeps d') {d : Disk}
    (h : keeps d) : keeps (d.opened p) := by
  by_cases hempty : p.isEmpty = true
  · rwa [opened_of_isEmpty hempty]
  · obtain ⟨-, -, htodo⟩ := reach_spec p.ancestors [] d
    have hreach := reach_keeps hstep [] h
    unfold opened
    rw [run_createDirAll (by simpa using hempty), run_bind]
    revert htodo hreach
    rcases (reach p.ancestors []).run d with ⟨e | todo, d'⟩
    · exact fun _ hreach => hreach
    · intro htodo hreach
      obtain ⟨hsub, -, -⟩ := htodo todo rfl
      exact makeEach_keeps (fun q hq => hstep q ((hsub q hq).resolve_right (by simp))) hreach

end DiskM

namespace Disk

variable {base d d' d'' : Disk} {dir p q : Path} {loc parent l tl : Location} {n k : Name}

/-- An entry on the way to a directory is there. -/
theorem Enters.look_of_slot (h : d.Enters dir loc) (hs : d.Slot p parent k)
    (habsolute : p.isAbsolute = dir.isAbsolute) (hcourse : p.course <+: dir.course) :
    d.look (parent ++ [k]) ≠ none := by
  intro hnone
  obtain ⟨links, hseek⟩ := h.seek
  obtain ⟨links', hend⟩ := hs.enters
  have horigin : d.origin p = d.origin dir := by rw [origin, origin, habsolute]
  have hcut : p.course = p.course.dropLast ++ [.name k] :=
    (List.dropLast_append_getLast? _ (Path.last_course hs.last)).symm
  obtain ⟨rest, hrest⟩ := hcourse
  rw [← hrest, hcut, List.append_assoc, List.append_assoc, View.seek_append _ _ _ _ _ (by simp),
    ← horigin, ← leadTrip_eq d hs.last, Trip.andThen, hend] at hseek
  have hstop := congrArg Trip.ending hseek
  simp only [Goal.location_present, List.singleton_append] at hstop
  rw [View.seek_none hs.short hnone, if_neg (by simp)] at hstop
  cases hstop

theorem Slot.isEmpty (h : d.Slot p parent n) : p.isEmpty = false := by
  rw [Bool.eq_false_iff]
  intro hempty
  have hlast := h.last
  rw [Path.segments, List.isEmpty_iff.1 hempty] at hlast
  cases hlast

theorem Slot.name_eq (h : d.Slot p parent k) {front : List Step}
    (hcourse : p.course = front ++ [.name n]) : k = n := by
  have hlast := Path.last_course h.last
  rw [hcourse, List.getLast?_concat] at hlast
  cases hlast
  rfl

theorem prefix_of_approach {l' : Location} (hl : l ∈ d.approach p) (h : l' <+: l) :
    l' ∈ d.approach p := by
  rcases List.mem_append.1 hl with hl | hl
  · exact List.mem_append_left _ ((List.mem_inits _ _).2 (h.trans ((List.mem_inits _ _).1 hl)))
  · rcases View.prefix_of_visited hl h with hmem | hpre
    · exact List.mem_append_right _ hmem
    · exact List.mem_append_left _ ((List.mem_inits _ _).2 hpre)

/-- The disk `base` without the entry `n` of a directory that was reached over this very entry. -/
structure Severed (dir : Path) (loc : Location) (n : Name) (base d : Disk) : Prop where
  enters : base.Enters dir loc
  through : loc ++ [n] ∈ base.way dir true
  sameOff : SameOff (loc ++ [n]) base d
  gone : Gone (loc ++ [n]) d

/-- New directories are at or below the place `top` only; and it is a path above `dir` that leads to the
place, once there is something. -/
structure Regrown (dir : Path) (top : Location) (d d' : Disk) : Prop where
  opens : Opens d d'
  below : ∀ l, d'.look l ≠ d.look l → top <+: l
  found : d'.look top ≠ none →
    ∃ r : Path, r.isEmpty = false ∧ r.components <+: dir.components ∧ d'.Enters r top

namespace Severed

variable (h : Severed dir loc n base d)
include h

theorem regrown : Regrown dir (loc ++ [n]) d d :=
  ⟨.refl d, fun _ hl => absurd rfl hl, fun hl => absurd (h.gone _ (List.prefix_refl _)) hl⟩

theorem look_base (hr : Regrown dir (loc ++ [n]) d d') (hl : ¬ loc ++ [n] <+: l) :
    d'.look l = base.look l := by
  rw [← h.sameOff.look l hl]
  by_contra hchanged
  exact hl (hr.below l hchanged)

theorem sameOff_of_regrown (hr : Regrown dir (loc ++ [n]) d d') : SameOff (loc ++ [n]) base d' :=
  ⟨hr.opens.cwd.trans h.sameOff.cwd, fun _ hl => h.look_base hr hl⟩

/-- What is at or below the place of the entry is a new directory. -/
theorem dir_of_regrown (hr : Regrown dir (loc ++ [n]) d d') (hl : loc ++ [n] <+: l)
    (hthere : d'.look l ≠ none) : d'.look l = some .dir := by
  rcases hr.opens.look l with hsame | ⟨-, hdir⟩
  · exact absurd (hsame.trans (h.gone l hl)) hthere
  · exact hdir

/-- If the path leads to a directory again, that is at or below the place of the entry. -/
theorem below_of_enters (hup : .up ∉ dir.components) (hr : Regrown dir (loc ++ [n]) d d')
    (he : d'.Enters dir tl) : loc ++ [n] <+: tl := by
  have hover : loc ++ [n] ∈ d'.way dir true := by
    by_contra hnot
    have hsame : ∀ l ∈ d'.way dir true, base.look l = d'.look l := fun l hl =>
      (h.look_base hr fun hpre => hnot (prefix_of_way hl hpre)).symm
    obtain ⟨-, hway⟩ := he.congr (h.sameOff_of_regrown hr).cwd.symm hsame
    exact hnot (hway ▸ h.through)
  obtain ⟨r, hne, hinitial, hre⟩ := hr.found (he.look_ne_none hover)
  obtain ⟨names, hext⟩ := Path.Extends.of_initial hne hinitial hup
  have hplain := hr.opens.plain (h.gone _ (List.prefix_refl _)) names
  exact ⟨names, (hre.below he hext hplain).symm⟩

/-- Where a directory can be made on the way to the severed one is at or below the place of the entry. -/
theorem below_of_free (hup : .up ∉ dir.components) (hr : Regrown dir (loc ++ [n]) d d')
    (hs : d'.Slot p parent k) (hfree : d'.look (parent ++ [k]) = none)
    (hp : p.components <+: dir.components) : loc ++ [n] <+: parent ++ [k] := by
  by_cases hover : loc ++ [n] ∈ d'.approach p
  · -- the place was made before, at a path that is shorter than this one
    obtain ⟨r, hne, hrp, hre⟩ := hr.found (hs.look_ne_none hover)
    rcases List.prefix_or_prefix_of_prefix hp hrp with hlong | hshort
    · exact absurd hfree (hre.look_of_slot hs (Path.isAbsolute_of_initial hs.isEmpty hlong)
        (Path.course_initial hlong))
    · obtain ⟨names, hext⟩ := Path.Extends.of_initial hne hshort fun hmem => hup (hp.subset hmem)
      rcases List.eq_nil_or_concat' names with rfl | ⟨front, m, rfl⟩
      · refine absurd hfree (hre.look_of_slot hs hext.absolute ?_)
        rw [hext.course, List.map_nil, List.append_nil]
      · have hname := hs.name_eq (hext.course.trans (by rw [List.map_append, ← List.append_assoc]; rfl))
        subst hname
        have hplain := hr.opens.plain (h.gone _ (List.prefix_refl _)) front
        obtain ⟨rfl, -⟩ := hre.slot_below hext hs.last hplain hs
        exact ⟨front ++ [k], by simp⟩
  · -- the directory above was found on the way to the old place, where nothing was missing
    have hsame : ∀ l ∈ d'.approach p, base.look l = d'.look l := fun l hl =>
      (h.look_base hr fun hpre => hover (prefix_of_approach hl hpre)).symm
    obtain ⟨hbase, -⟩ := hs.congr (h.sameOff_of_regrown hr).cwd.symm hsame
    by_contra hnot
    exact h.enters.look_of_slot hbase (Path.isAbsolute_of_initial hs.isEmpty hp)
      (Path.course_initial hp) ((h.look_base hr hnot).symm.trans hfree)

/-- Making one of the missing directories. -/
theorem regrown_makeDir (hup : .up ∉ dir.components)
    (hq : q.components = dir.components ++ [.name n]) (hp : p ∈ q.ancestors)
    (hr : Regrown dir (loc ++ [n]) d d') (hm : d'.makeDir p = .ok d'') :
    Regrown dir (loc ++ [n]) d d'' := by
  obtain ⟨parent, k, hslot, hfree, -, hlook⟩ := makeDir_ok hm
  obtain ⟨hopens, -, -⟩ := makeDir_opens hm
  have hold : ∀ l, l ≠ parent ++ [k] → d''.look l = d'.look l := fun l hl => by
    rw [hlook, Function.update_of_ne hl]
  have hfound : d'.look (loc ++ [n]) ≠ none →
      ∃ r : Path, r.isEmpty = false ∧ r.components <+: dir.components ∧ d''.Enters r (loc ++ [n]) :=
    fun hthere =>
      let ⟨r, hne, hinitial, hre⟩ := hr.found hthere
      ⟨r, hne, hinitial, (hopens.enters hre).1⟩
  have hbelow : loc ++ [n] <+: parent ++ [k] →
      ∀ l, d''.look l ≠ d.look l → loc ++ [n] <+: l := by
    intro hplace l hl
    by_cases hne : l = parent ++ [k]
    · exact hne ▸ hplace
    · exact hr.below l (hold l hne ▸ hl)
  have hinitial := Path.components_of_mem_ancestors hp
  rw [hq, List.prefix_concat_iff] at hinitial
  rcases hinitial with hall | hinitial
  · -- the path of the entry itself: its directory was made again before
    obtain rfl := hslot.name_eq (Path.course_concat hall)
    obtain ⟨hadmits, -⟩ := goal_eq_ok_iff.1 h.enters.goal
    have htop := h.below_of_enters hup hr (hslot.enters_dir hall hadmits)
    refine ⟨hr.opens.trans hopens, hbelow (htop.trans (List.prefix_append _ _)), fun _ => hfound ?_⟩
    exact look_ne_none_above (by rw [hslot.dir]; simp) htop
  · refine ⟨hr.opens.trans hopens, hbelow (h.below_of_free hup hr hslot hfree hinitial), fun hthere => ?_⟩
    by_cases htop : loc ++ [n] = parent ++ [k]
    · refine ⟨p, hslot.isEmpty, hinitial, ?_⟩
      rw [htop]
      exact (hopens.slot hslot).1.enters_entry (by rw [hlook, Function.update_self])
    · exact hfound (hold _ htop ▸ hthere)

/-- Making all directories down to the entry. -/
theorem regrown_opened (hup : .up ∉ dir.components)
    (hq : q.components = dir.components ++ [.name n]) :
    Regrown dir (loc ++ [n]) d (d.opened q) :=
  DiskM.createDirAll_keeps (fun _ hp _ _ hr hm => h.regrown_makeDir hup hq hp hr hm) h.regrown

/-- A directory that the path leads to again is part of the new tree. -/
theorem within (hup : .up ∉ dir.components) (hr : Regrown dir (loc ++ [n]) d d')
    (he : d'.Enters dir tl) : Within (loc ++ [n]) d' dir tl :=
  ⟨he, h.below_of_enters hup hr he, fun _ hl hpre => h.dir_of_regrown hr hpre (he.look_ne_none hl)⟩

/-- Once the path of the entry leads to a directory, both that and the directory of the entry are part of
the new tree. -/
theorem within_entry (hup : .up ∉ dir.components)
    (hq : q.components = dir.components ++ [.name n]) (hadds : q.Adds dir n)
    (hr : Regrown dir (loc ++ [n]) d d') (hdir : d'.isDir q = true) :
    ∃ tl, Within (loc ++ [n]) d' dir tl ∧ Within (loc ++ [n]) d' q (tl ++ [n]) := by
  obtain ⟨place, he⟩ := isDir_iff.1 hdir
  obtain ⟨parent, hslot⟩ := exists_slot_of_goal hadds.last hadds.slash he.goal
  obtain ⟨hadmits, -⟩ := goal_eq_ok_iff.1 h.enters.goal
  have hin := h.within hup hr (hslot.enters_dir hq hadmits)
  have htop : loc ++ [n] <+: parent ++ [n] := hin.below.trans (List.prefix_append _ _)
  have hlink : ∀ target, d'.look (parent ++ [n]) ≠ some (.link target) := fun target hlabel => by
    have hlabel' := h.dir_of_regrown hr htop (by rw [hlabel]; simp)
    cases hlabel.symm.trans hlabel'
  obtain rfl := hin.enters.child he hadds.route hlink
  exact ⟨parent, hin, he, htop, fun _ hl hpre => h.dir_of_regrown hr hpre (he.look_ne_none hl)⟩

theorem noLinks (hr : Regrown dir (loc ++ [n]) d d') : NoLinks (loc ++ [n]) d' := by
  intro l hl target hlabel
  have hdir := h.dir_of_regrown hr hl (by rw [hlabel]; simp)
  cases hlabel.symm.trans hdir

end Severed

end Disk

end Sideload
