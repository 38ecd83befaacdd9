import Sideload.Proofs.Registry.Order
import Sideload.Proofs.Registry.Owned
import Sideload.Proofs.Registry.Rewrite

/-!
Saving is all or nothing. A save that fails leaves what the path of the registry names as it was; it may
leave new directories above the registry and the draft. A save that succeeds leaves the whole text and no
draft. Both need that the draft is no link: for a path without `..` this can be asked before the
directories above the registry are made, for others it has to hold afterwards, since a path with `..` may
lead elsewhere once there are more directories.
-/

namespace Sideload

namespace Disk

variable {d : Disk} {dir p : Path} {loc : Location} {n : Name}

/-- What a path leads to without a link at its end is where it leads when links are followed. -/
theorem goal_follow (hg : d.goal p false = .ok (.present loc)) (hdir : d.look loc = some .dir) :
    d.Enters p loc := by
  obtain ⟨hadmits, hbegins, links, hend⟩ := goal_eq_ok_iff.1 hg
  refine ⟨goal_eq_ok_iff.2 ⟨hadmits, hbegins, links, View.seek_follow hend fun target htarget => ?_⟩, hdir⟩
  cases hdir.symm.trans htarget

/-- If a path names something once the directory above it was made, and no `..` leads there, then that
directory was there before. -/
theorem look_opened_of_present (hup : .up ∉ dir.components) (hp : p.components = dir.components ++ [.name n])
    (hg : (d.opened dir).goal p false = .ok (.present loc)) : (d.opened dir).look = d.look := by
  have hopens := opens_opened d dir
  have hnew : ∀ l, (d.opened dir).look l ≠ d.look l → d.look l = none ∧ l <+: loc ∧ l ≠ loc := by
    intro l hl
    have hnone := ((hopens.look l).resolve_left hl).1
    obtain ⟨q, hq, hne, he⟩ := newOn_opened d dir l hl
    obtain ⟨names, hext⟩ := Path.Extends.of_initial hne (Path.components_of_mem_ancestors hq) hup
    have hext' : p.Extends q (names ++ [n]) := hext.trans (.of_concat hp)
    have hloc : loc = l ++ (names ++ [n]) := by
      by_cases hdir : (d.opened dir).look loc = some .dir
      · exact he.below (goal_follow hg hdir) hext' (hopens.plain hnone _)
      · obtain ⟨hslash, parent, m, hslot⟩ := exists_slot_of_leaf hg hdir
        obtain rfl : m = n := by
          have hlast := Path.last_course hslot.last
          rw [Path.course_concat hp, List.getLast?_concat] at hlast
          simpa using hlast.symm
        obtain ⟨rfl, -⟩ := he.slot_below hext' hslot.last (hopens.plain hnone _) hslot
        have hplace := hslot.goal hslash (.inl rfl)
        rw [hg] at hplace
        split at hplace
        · cases hplace
        · cases hplace
          exact List.append_assoc ..
    refine ⟨hnone, ⟨_, hloc.symm⟩, fun heq => ?_⟩
    have hlen := congrArg List.length hloc
    simp [heq] at hlen
  funext l
  by_contra hl
  obtain ⟨hnone, hpre, -⟩ := hnew l hl
  have hchanged : (d.opened dir).look loc ≠ d.look loc := by
    rw [look_none_below hnone hpre]
    exact ne_none_of_way hg loc (present_mem_way hg)
  exact (hnew loc hchanged).2.2 rfl

end Disk

open Disk

namespace Registry

variable {r : Registry} {path : Path} {d d' : Disk} {w w' : World} {loc l : Location} {content : String}

/-! ### Making the directory of the registry -/

theorem hosted_of_parent {dir : Path} (h : path.parent? = some dir) (d : Disk) :
    hosted d path = d.opened dir := by
  rw [hosted, h]
  rfl

/-- Where a directory above the registry is made. -/
def MadeAbove (path : Path) (d : Disk) (l : Location) : Prop :=
  d.look l = none ∧ ∃ dir q, path.parent? = some dir ∧ q ∈ dir.ancestors ∧ (hosted d path).Enters q l

theorem look_hosted (d : Disk) (path : Path) (l : Location) :
    (hosted d path).look l = d.look l ∨ (hosted d path).look l = some .dir ∧ MadeAbove path d l := by
  refine or_iff_not_imp_left.2 fun hl => ?_
  obtain ⟨hnone, hnew⟩ := ((opens_hosted d path).look l).resolve_left hl
  refine ⟨hnew, hnone, ?_⟩
  cases hdir : path.parent? with
  | none => exact absurd (by rw [hosted, hdir]) hl
  | some dir =>
      rw [hosted_of_parent hdir] at hl ⊢
      obtain ⟨q, hq, -, he⟩ := newOn_opened d dir l hl
      exact ⟨dir, q, rfl, hq, he⟩

/-- The path of the registry and that of its draft differ in their last names, or they are one path that
ends in no name. -/
theorem draft_cases (path : Path) :
    (∃ front n m, path.components = front ++ [.name n] ∧
      (draftPath path).components = front ++ [.name m] ∧ m ≠ n ∧
        (draftPath path).segments.getLast? = some (.name m) ∧ (draftPath path).endsInSlash = false) ∨
    path.fileName? = none ∧ draftPath path = path := by
  cases hname : path.fileName? with
  | none => exact .inr ⟨rfl, Path.withExtension_of_fileName?_eq_none hname _⟩
  | some n =>
      obtain ⟨body, hbody, hup⟩ := Path.trimmed_of_fileName? hname
      obtain ⟨front, hpath, hdraft, hlast, hslash⟩ :=
        Path.withExtension_of_trimmed hbody hup slash_notMem_draft two_le_draft
      exact .inl ⟨front, n, _, hpath, hdraft, Path.otherName_ne dot_mem_draft, hlast, hslash⟩

/-- Where the path of the registry has no `..`, making its directory makes neither the registry nor its
draft appear. -/
theorem look_hosted_of_present {p : Path} (hup : .up ∉ path.components) (hp : p = path ∨ p = draftPath path)
    (hg : (hosted d path).goal p false = .ok (.present loc)) : (hosted d path).look = d.look := by
  cases hdir : path.parent? with
  | none => rw [hosted, hdir]
  | some dir =>
      rw [hosted_of_parent hdir] at hg ⊢
      have hfront := Path.components_parent hdir
      have hup' : .up ∉ dir.components := fun hmem =>
        hup ((List.dropLast_prefix _).subset (hfront ▸ hmem))
      rcases draft_cases path with ⟨front, n, m, hpath, hdraft, -⟩ | ⟨hname, -⟩
      · rw [hpath, List.dropLast_concat] at hfront
        rw [← hfront] at hpath hdraft
        rcases hp with rfl | rfl
        · exact look_opened_of_present hup' hpath hg
        · exact look_opened_of_present hup' hdraft hg
      · rcases Path.parent?_of_fileName?_eq_none hname hup with hnone | hempty
        · cases hdir.symm.trans hnone
        · cases hdir.symm.trans hempty
          rw [opened_of_isEmpty rfl]

/-- A path that has no `..` leads to the same thing before the directory of the registry is made. -/
theorem goal_before_hosted {p : Path} (hup : .up ∉ path.components) (hp : p = path ∨ p = draftPath path)
    (hg : (hosted d path).goal p false = .ok (.present loc)) :
    d.goal p false = .ok (.present loc) ∧ d.look loc = (hosted d path).look loc := by
  have hlook := look_hosted_of_present hup hp hg
  rw [← hg]
  exact ⟨goal_congr (opens_hosted d path).cwd.symm fun l _ => congrFun hlook.symm l, congrFun hlook.symm loc⟩

/-- So a draft that is no link does not become one. -/
theorem isLink_hosted (hup : .up ∉ path.components) (hdraft : d.isLink (draftPath path) = false) :
    (hosted d path).isLink (draftPath path) = false := by
  rw [isLink_eq_false_iff] at hdraft ⊢
  intro target htarget
  obtain ⟨loc, hgoal, hlook⟩ := see_eq_ok_iff.1 htarget
  obtain ⟨hgoal', hlook'⟩ := goal_before_hosted hup (.inr rfl) hgoal
  exact hdraft target (see_eq_ok_iff.2 ⟨loc, hgoal', hlook'.trans hlook⟩)

/-- What the registry's path names is the same once its directory is there. -/
theorem goal_hosted (hg : d.goal path false = .ok (.present loc)) :
    (hosted d path).goal path false = .ok (.present loc) ∧ (hosted d path).look loc = d.look loc := by
  have hopens := opens_hosted d path
  have hway : ∀ l ∈ d.way path false, (hosted d path).look l = d.look l := fun l hl =>
    hopens.look_of_ne_none (ne_none_of_way hg l hl)
  exact ⟨(goal_congr hopens.cwd hway).trans hg, hway loc (present_mem_way hg)⟩

/-! ### Writing the draft -/

/-- The path of the registry names nothing but a directory where its draft has its entry. -/
theorem ne_draft_of_goal {parent : Location} {m : Name} (hdraft : d.Slot (draftPath path) parent m)
    (hg : d.goal path false = .ok (.present loc)) (hleaf : d.look loc ≠ some .dir) :
    loc ≠ parent ++ [m] := by
  rintro rfl
  obtain ⟨hslash, parent', n, hslot⟩ := exists_slot_of_leaf hg hleaf
  have hentry := hslot.goal hslash (.inl rfl)
  rw [hg] at hentry
  split at hentry
  · cases hentry
  obtain ⟨-, hname⟩ := List.append_inj' (Goal.present.inj (Except.ok.inj hentry)) rfl
  obtain rfl : m = n := by simpa using hname
  obtain ⟨front, -, -, hlast, -⟩ :=
    Path.withExtension_eq hslot.last hslash slash_notMem_draft two_le_draft
  have hsame : Path.otherName m draftExtension = m := by
    simpa using hlast.symm.trans hdraft.last
  exact Path.otherName_ne dot_mem_draft hsame

/-- The draft is written at its own entry, where nothing was or a file. -/
structure Drafted (path : Path) (content : String) (parent : Location) (m : Name) (d d' : Disk) :
    Prop where
  before : d.Slot (draftPath path) parent m
  after : d'.Slot (draftPath path) parent m
  slash : (draftPath path).endsInSlash = false
  free : d.Writable (parent ++ [m])
  cwd : d'.cwd = d.cwd
  look : ∃ x, d'.look = Function.update d.look (parent ++ [m]) (some (.file content.toUTF8 x))

theorem drafted_of_write (hdraft : d.isLink (draftPath path) = false)
    (hw : d.writeText (draftPath path) content = .ok d') :
    ∃ parent m, Drafted path content parent m d d' := by
  obtain ⟨g, old, hgoal, hold, hslash, hoff, hlook⟩ := openFile_ok (show d.write _ _ = .ok d' from hw)
  have hfree : d.Writable g.location := not_dir_of_old hold
  obtain ⟨-, parent, m, hslot⟩ := exists_slot_of_leaf hgoal hfree.ne_dir
  have hplace : g.location = parent ++ [m] := by
    have hentry := hslot.goal hslash (.inl rfl)
    rw [goal_of_follow hdraft hgoal] at hentry
    cases hentry
    split <;> rfl
  rw [hplace] at hfree hlook
  refine ⟨parent, m, hslot, (hslot.congr hoff.cwd fun l hl => ?_).1, hslash, hfree, hoff.cwd, _, hlook⟩
  rw [hlook, Function.update_of_ne]
  rintro rfl
  rcases hfree with hnone | ⟨c, x, hfile⟩
  · exact hslot.look_ne_none hl hnone
  · exact hslot.not_file hl c x hfile

namespace Drafted

variable {parent : Location} {m : Name} (h : Drafted path content parent m d d')
include h

theorem look_draft : ∃ x, d'.look (parent ++ [m]) = some (.file content.toUTF8 x) := by
  obtain ⟨x, hlook⟩ := h.look
  exact ⟨x, by rw [hlook, Function.update_self]⟩

theorem look_elsewhere (hl : l ≠ parent ++ [m]) : d'.look l = d.look l := by
  obtain ⟨x, hlook⟩ := h.look
  rw [hlook, Function.update_of_ne hl]

theorem goal_draft : d'.goal (draftPath path) true = .ok (.present (parent ++ [m])) := by
  obtain ⟨x, hfile⟩ := h.look_draft
  rw [h.after.goal h.slash (.inr (by rw [hfile]; simp)), hfile]
  rfl

/-- What the path of the registry names stays. -/
theorem goal_of_before (hg : d.goal path false = .ok (.present loc)) :
    d'.goal path false = .ok (.present loc) ∧ d'.look loc = d.look loc := by
  refine ⟨goal_of_shape hg h.cwd fun l hl => ?_, h.look_elsewhere ?_⟩
  · by_cases hplace : l = parent ++ [m]
    · subst hplace
      obtain ⟨x, hfile⟩ := h.look_draft
      rcases h.free with hnone | ⟨c, y, hold⟩
      · exact absurd hnone (ne_none_of_way hg _ hl)
      · rw [hfile, hold]
        rfl
    · rw [h.look_elsewhere hplace]
  · by_cases hdir : d.look loc = some .dir
    · rintro rfl
      exact h.free.ne_dir hdir
    · exact ne_draft_of_goal h.before hg hdir

/-- What the path of the registry names was there. -/
theorem goal_of_after (hg : d'.goal path false = .ok (.present loc)) :
    d.goal path false = .ok (.present loc) ∧ d'.look loc = d.look loc := by
  have hway : ∀ l ∈ d'.way path false, l ≠ parent ++ [m] := by
    rintro l hl rfl
    obtain ⟨x, hfile⟩ := h.look_draft
    cases goal_of_file_on_way hg hl hfile
    exact ne_draft_of_goal h.after hg (by rw [hfile]; simp) rfl
  have hlook : ∀ l ∈ d'.way path false, d.look l = d'.look l := fun l hl =>
    (h.look_elsewhere (hway l hl)).symm
  exact ⟨(goal_congr h.cwd.symm hlook).trans hg, (hlook loc (present_mem_way hg)).symm⟩

end Drafted

/-! ### Saves that fail -/

/-- Where a save that fails may leave something: new directories above the registry, and its draft. -/
inductive Leftover (path : Path) (r : Registry) (d d' : Disk) (l : Location) : Prop
  | host (hmade : MadeAbove path d l) (hnew : d'.look l = some .dir)
  | draft {content : String} {x : Bool} (htext : r.text = .ok content)
      (hgoal : d'.goal (draftPath path) true = .ok (.present l)) (hold : d.Writable l)
      (hnew : d'.look l = some (.file content.toUTF8 x))

/-- What a save that fails leaves: what the path of the registry names stays as it was. If it names
nothing, then it names nothing afterwards, unless it has a `..` and names one of the new directories. -/
structure Undone (path : Path) (r : Registry) (d d' : Disk) : Prop where
  cwd : d'.cwd = d.cwd
  look : ∀ l, d'.look l = d.look l ∨ Leftover path r d d' l
  kept : ∀ loc, d.goal path false = .ok (.present loc) →
    d'.goal path false = .ok (.present loc) ∧ d'.look loc = d.look loc
  absent : .up ∉ path.components → d.occupied path = false → d'.occupied path = false

theorem undone_refl (path : Path) (r : Registry) (d : Disk) : Undone path r d d :=
  ⟨rfl, fun _ => .inl rfl, fun _ hg => ⟨hg, rfl⟩, fun _ hfree => hfree⟩

theorem absent_of_goal (hback : ∀ loc, d'.goal path false = .ok (.present loc) →
    d.goal path false = .ok (.present loc)) (hfree : d.occupied path = false) :
    d'.occupied path = false := by
  rw [Bool.eq_false_iff, Ne, occupied_iff] at hfree ⊢
  rintro ⟨loc, hg, -⟩
  exact hfree ⟨loc, hback loc hg, ne_none_of_way (hback loc hg) loc (present_mem_way (hback loc hg))⟩

theorem undone_hosted (path : Path) (r : Registry) (d : Disk) : Undone path r d (hosted d path) := by
  refine ⟨(opens_hosted d path).cwd, fun l => ?_, fun _ hg => goal_hosted hg, fun hup => ?_⟩
  · exact (look_hosted d path l).imp_right fun ⟨hnew, hmade⟩ => .host hmade hnew
  · exact absent_of_goal fun loc hg => (goal_before_hosted hup (.inl rfl) hg).1

theorem writable_of_hosted (h : (hosted d path).Writable l) : d.Writable l := by
  have hsame := ((opens_hosted d path).look l).resolve_right fun hnew => h.ne_dir hnew.2
  rwa [Disk.Writable, hsame] at h

theorem Drafted.undone {parent : Location} {m : Name} (h : Drafted path content parent m (hosted d path) d')
    (htext : r.text = .ok content) : Undone path r d d' := by
  refine ⟨h.cwd.trans (opens_hosted d path).cwd, fun l => ?_, fun loc hg => ?_, fun hup => ?_⟩
  · by_cases hplace : l = parent ++ [m]
    · subst hplace
      obtain ⟨x, hfile⟩ := h.look_draft
      exact .inr (.draft htext h.goal_draft (writable_of_hosted h.free) hfile)
    · rw [h.look_elsewhere hplace]
      refine (look_hosted d path l).imp_right fun ⟨hnew, hmade⟩ => .host hmade ?_
      rw [h.look_elsewhere hplace, hnew]
  · obtain ⟨hg', hlook⟩ := goal_hosted hg
    obtain ⟨hg'', hlook'⟩ := h.goal_of_before hg'
    exact ⟨hg'', hlook'.trans hlook⟩
  · exact absent_of_goal fun loc hg => (goal_before_hosted hup (.inl rfl) (h.goal_of_after hg).1).1

/-! ### Saves that succeed -/

/-- What a save that succeeds leaves: the text stands where the path of the registry led when its
directory was there, and the draft is gone. The path leads to the text, unless the registry was a link on
the way to itself. -/
structure Exchanged (path : Path) (content : String) (place : Location) (d d' : Disk) : Prop where
  cwd : d'.cwd = d.cwd
  named : ∃ g, (hosted d path).goal path false = .ok g ∧ g.location = place
  file : ∃ x, d'.look place = some (.file content.toUTF8 x)
  leads : (∃ x, d'.see path true = .ok (.file content.toUTF8 x)) ∨
    place ∈ (hosted d path).approach path ∧ ∀ follow, d'.see path follow = .error (.os .notDirectory)
  draft : d'.occupied (draftPath path) = false
  elsewhere : ∀ l, l ≠ place → d'.look l = d.look l ∨ (d'.look l = some .dir ∧ MadeAbove path d l) ∨
    d'.look l = none ∧ d.Writable l ∧
      ∃ g, (hosted d path).goal (draftPath path) false = .ok g ∧ g.location = l

namespace Replaced

variable {parent : Location} {m n : Name}

theorem draft_plain (h : Replaced path parent m n content d d') :
    (draftPath path).endsInSlash = false := by
  obtain ⟨-, -, -, -, hslash⟩ := Path.withExtension_eq h.before.file.last h.before.slash
    slash_notMem_draft two_le_draft
  exact hslash

/-- No draft is left. -/
theorem draft_gone (h : Replaced path parent m n content d d') : d'.occupied (draftPath path) = false := by
  rw [Bool.eq_false_iff, Ne, occupied_iff]
  rintro ⟨loc, hg, hthere⟩
  obtain ⟨up, hslot⟩ := exists_slot_of_goal h.before.draft.last h.draft_plain hg
  obtain ⟨rfl, -⟩ := (h.slot_before hslot).1.unique h.before.draft
  rw [hslot.goal h.draft_plain (.inl rfl), if_pos h.look_draft] at hg
  cases hg

/-- The path of the registry leads to the text, or the registry was a link on the way to itself. -/
theorem leads (h : Replaced path parent m n content d d') :
    (∃ x, d'.see path true = .ok (.file content.toUTF8 x)) ∨
      parent ++ [n] ∈ d.approach path ∧ ∀ follow, d'.see path follow = .error (.os .notDirectory) := by
  obtain ⟨x, hfile⟩ := h.look_file
  rcases h.slot_or_blocked h.before.file h.before.slash with ⟨hslot, -⟩ | hblocked
  · refine .inl ⟨x, ?_⟩
    rw [hslot.see h.before.slash (.inr (by rw [hfile]; simp)), hfile]
    rfl
  · refine .inr ⟨?_, hblocked⟩
    by_contra hnot
    have hslot := (h.stands hnot).1.file
    have hsee := hslot.see h.before.slash (.inl rfl)
    rw [hblocked, hfile] at hsee
    cases hsee

theorem exchanged (h : Replaced path parent m n content (hosted d path) d') :
    Exchanged path content (parent ++ [n]) d d' := by
  refine ⟨h.cwd.trans (opens_hosted d path).cwd, exists_goal_of_slot h.before.file h.before.slash,
    h.look_file, h.leads, h.draft_gone, fun l hfile => ?_⟩
  by_cases hdraft : l = parent ++ [m]
  · subst hdraft
    exact .inr (.inr ⟨h.look_draft, writable_of_hosted h.free,
      exists_goal_of_slot h.before.draft h.draft_plain⟩)
  · rw [h.look_elsewhere hfile hdraft]
    exact (look_hosted d path l).imp_right .inl

end Replaced

/-! ### All or nothing -/

/-- Saving is all or nothing. An entry that has no line makes it fail before anything is done. If it fails
later, what the path of the registry names is as it was, and new are at most directories above the
registry and the draft. If it succeeds, the registry is the header and the lines of the entries in the
order of their names, and no draft is left. The draft must be no link; if the path has a `..`, it must not
be one either when the directories above the registry are there. The path of the draft is never that of
the registry, if that has a file name. -/
theorem save_all_or_nothing (r : Registry) (path : Path) (w : World)
    (hdraft : w.disk.isLink (draftPath path) = false)
    (hup : .up ∈ path.components → (hosted w.disk path).isLink (draftPath path) = false) :
    (∀ n, path.fileName? = some n → (draftPath path).sameAs path = false) ∧
    ((∃ e ∈ r.entries, ∀ l, e.toLine ≠ .ok l) → ∃ e ∈ r.entries, ∃ fault, e.toLine = .error fault ∧
      (r.save path).run w = (.error (.invalidEntry e.name (.field fault)), w)) ∧
    (∀ f w', (r.save path).run w = (.error f, w') → w'.now = w.now ∧ Undone path r w.disk w'.disk) ∧
    ∀ w', (r.save path).run w = (.ok (), w') → w'.now = w.now ∧ ∃ ls place,
      List.Forall₂ (fun e l => e.toLine = .ok l) r.entries ls ∧
      r.entries.Pairwise (fun e f => nameBefore e.name f.name = true) ∧
      Exchanged path (String.join ((header :: ls).map (· ++ "\n"))) place w.disk w'.disk := by
  have hplain : (hosted w.disk path).isLink (draftPath path) = false := by
    by_cases hmem : .up ∈ path.components
    · exact hup hmem
    · exact isLink_hosted hmem hdraft
  refine ⟨fun n hname => ?_, fun hbroken => ?_, fun f w' hsave => ?_, fun w' hsave => ?_⟩
  · exact Path.withExtension_not_sameAs hname slash_notMem_draft two_le_draft dot_mem_draft
  · rcases text_cases r with hok | ⟨e, he, fault, hfault, htext⟩
    · obtain ⟨e, he, hnone⟩ := hbroken
      obtain ⟨l, hl⟩ := (text_isOk_iff r).1 hok e he
      exact absurd hl (hnone l)
    · refine ⟨e, he, fault, hfault, ?_⟩
      unfold save
      rw [htext]
      rfl
  · obtain ⟨hnow, hcases⟩ := save_cases r path w
    rw [hsave] at hnow hcases
    refine ⟨hnow, ?_⟩
    rcases hcases with ⟨-, -, hsame | hsame⟩ | ⟨-, content, -, htext, hw⟩ | ⟨-, -, hok, -⟩
    · dsimp only at hsame
      rw [hsame]
      exact undone_refl path r w.disk
    · dsimp only at hsame
      rw [hsame]
      exact undone_hosted path r w.disk
    · obtain ⟨parent, m, hdrafted⟩ := drafted_of_write hplain hw
      exact hdrafted.undone htext
    · cases hok
  · obtain ⟨content, parent, m, n, htext, hreplaced⟩ := replaced_of_save hsave hplain
    obtain ⟨ls, hls, rfl⟩ := text_eq_ok_iff.1 htext
    exact ⟨(save_ok hsave).1, ls, parent ++ [n], hls, pairwise_of_inNameOrder r.ordered,
      hreplaced.exchanged⟩

/-- A first save, which makes the directory of the registry. -/
theorem save_all_or_nothing_sample :
    (World.holding []).disk.isLink (draftPath samplePath) = false ∧ .up ∉ samplePath.components ∧
      ∃ ls place, List.Forall₂ (fun e l => e.toLine = .ok l) sampleRegistry.entries ls ∧
        Exchanged samplePath (String.join ((header :: ls).map (· ++ "\n"))) place (World.holding []).disk
          ((sampleRegistry.save samplePath).run (.holding [])).2.disk := by
  have hup : .up ∉ samplePath.components := by decide
  have hsave : (sampleRegistry.save samplePath).run (.holding []) =
      (.ok (), ((sampleRegistry.save samplePath).run (.holding [])).2) := Prod.ext (by cbv) rfl
  obtain ⟨-, ls, place, hls, -, hexchanged⟩ :=
    (save_all_or_nothing sampleRegistry samplePath (.holding []) (by cbv) fun h => absurd h hup).2.2.2 _ hsave
  exact ⟨by cbv, hup, ls, place, hls, hexchanged⟩

/-- Beside the registry is a link to a file of the user. -/
def linkedBeside : World := .holding [
  (Glyph.ofString "home", .dir [(Glyph.ofString "r.txt.tmp", .link (.ofString "../user.txt"))]),
  (Glyph.ofString "user.txt", .file "mine".toUTF8 false)]

/-- With `..` in the path it is not enough that the draft is no link before the save: the path of the draft
leads nowhere until the directory `/home/r.txt` is made, then to the link, and the file of the user is
overwritten although the save fails. -/
theorem not_undone_of_plain_draft : ¬ ∀ (r : Registry) (path : Path) (w w' : World) (f : Failure),
    w.disk.isLink (draftPath path) = false → (r.save path).run w = (.error f, w') →
      ∀ l, w'.disk.look l = w.disk.look l ∨ (w.disk.look l = none ∧ w'.disk.look l = some .dir) ∨
        w'.disk.goal (draftPath path) false = .ok (.present l) := by
  intro h
  have hold : (linkedBeside.disk.look [Glyph.ofString "user.txt"]).map Label.text = some (.ok "mine") := by cbv
  have hplain : linkedBeside.disk.isLink (draftPath (.ofString "/home/r.txt/../r.txt")) = false := by cbv
  obtain hsave : (empty.save (.ofString "/home/r.txt/../r.txt")).run linkedBeside =
      (.error (.io (.ofString "/home/r.txt/../r.txt") (.file (.os .isDirectory))),
        ((empty.save (.ofString "/home/r.txt/../r.txt")).run linkedBeside).2) := Prod.ext (by cbv) rfl
  rcases h _ _ _ _ _ hplain hsave [Glyph.ofString "user.txt"] with hsame | ⟨hnone, -⟩ | hgoal
  · obtain hnew : (((empty.save (.ofString "/home/r.txt/../r.txt")).run linkedBeside).2.disk.look
        [Glyph.ofString "user.txt"]).map Label.text = some (.ok (header ++ "\n")) := by cbv
    rw [hsame, hold] at hnew
    exact absurd (Except.ok.inj (Option.some.inj hnew)) (by decide)
  · cases hnone
  · obtain hlink : ((empty.save (.ofString "/home/r.txt/../r.txt")).run linkedBeside).2.disk.goal
        (draftPath (.ofString "/home/r.txt/../r.txt")) false =
          .ok (.present [Glyph.ofString "home", Glyph.ofString "r.txt.tmp"]) := by cbv
    cases hgoal.symm.trans hlink

end Registry

end Sideload
