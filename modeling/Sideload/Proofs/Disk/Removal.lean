import Sideload.Proofs.Disk.Effect
import Sideload.Proofs.Run

/-!
Removing artifacts. Nothing changes but at and below the place that the path leads to, and nothing is
new there. Where the way to the place does not lead through it, the removal succeeds.
-/

namespace Sideload

namespace Disk

variable {d d' d'' : Disk} {p : Path} {loc parent : Location} {n : Name}

/-- What is at or below a location may be gone; everything else is as it was. -/
structure Shrinks (loc : Location) (d d' : Disk) : Prop extends SameOff loc d d' where
  below : ∀ l, loc <+: l → d'.look l = none ∨ d'.look l = d.look l

/-- Everything at and below a location is gone. -/
def Gone (loc : Location) (d : Disk) : Prop := ∀ l, loc <+: l → d.look l = none

namespace Shrinks

theorem refl (loc : Location) (d : Disk) : Shrinks loc d d := ⟨.refl loc d, fun _ _ => .inr rfl⟩

theorem trans (h : Shrinks loc d d') (h' : Shrinks loc d' d'') : Shrinks loc d d'' := by
  refine ⟨h.toSameOff.trans h'.toSameOff, fun l hl => ?_⟩
  rcases h'.below l hl with hnone | hsame
  · exact .inl hnone
  · exact (h.below l hl).imp hsame.trans hsame.trans

/-- What is left was there before. -/
theorem look_of_ne_none (h : Shrinks loc d d') {l : Location} (hl : d'.look l ≠ none) :
    d.look l = d'.look l := by
  by_cases hpre : loc <+: l
  · exact ((h.below l hpre).resolve_left hl).symm
  · exact (h.look l hpre).symm

/-- An entry that is still found was found the same way before. -/
theorem slot (h : Shrinks loc d d') (hs : d'.Slot p parent n) :
    d.Slot p parent n ∧ d.approach p = d'.approach p :=
  hs.congr h.cwd.symm fun _ hl => h.look_of_ne_none (hs.look_ne_none hl)

/-- What is still found was found the same way before. -/
theorem goal {follow : Bool} {place : Location} (h : Shrinks loc d d')
    (hg : d'.goal p follow = .ok (.present place)) : d.goal p follow = .ok (.present place) := by
  rw [← hg]
  exact goal_congr h.cwd.symm fun l hl => h.look_of_ne_none (ne_none_of_way hg l hl)

theorem of_drop {d d' : Disk} (hcwd : d'.cwd = d.cwd)
    (hlook : ∀ l, d'.look l = if loc <+: l then none else d.look l) :
    Shrinks loc d d' ∧ Gone loc d' :=
  ⟨⟨⟨hcwd, fun l hl => by rw [hlook, if_neg hl]⟩, fun l hl => .inl (by rw [hlook, if_pos hl])⟩,
    fun l hl => by rw [hlook, if_pos hl]⟩

end Shrinks

/-- A disk with an emptied directory. -/
def emptied (d : Disk) (loc : Location) : Disk :=
  { d with root := d.root.update (fun _ => .dir []) loc }

theorem get?_emptied (h : d.look loc ≠ none) : (d.emptied loc).root.get? loc = some (.dir []) := by
  obtain ⟨label, hlabel⟩ := Option.ne_none_iff_exists'.1 h
  obtain ⟨m, hm, -⟩ := Option.map_eq_some_iff.1 hlabel
  exact Node.get?_update hm _

theorem shrinks_emptied (h : d.look loc = some .dir) : Shrinks loc d (d.emptied loc) := by
  have hget : (d.emptied loc).root.get? loc = some (.dir []) := get?_emptied (by rw [h]; simp)
  refine ⟨⟨rfl, fun l hl => Node.look_update_elsewhere _ hl d.root⟩, fun l hl => ?_⟩
  obtain ⟨rest, rfl⟩ := hl
  have hlook : (d.emptied loc).look (loc ++ rest) = (Node.dir []).look rest :=
    Node.look_append hget rest
  cases rest with
  | nil =>
      right
      rw [hlook, List.append_nil, h]
      rfl
  | cons k rest => exact .inl hlook

theorem removeFile_of_slot {label : Label} (h : d.Slot p parent n) (hslash : p.endsInSlash = false)
    (hlook : d.look (parent ++ [n]) = some label) (hdir : label ≠ .dir) :
    ∃ d', d.removeFile p = .ok d' := by
  obtain ⟨c, hplace, rfl, hfits⟩ := h.place
  rw [look_child_slot hfits, Option.map_eq_some_iff] at hlook
  obtain ⟨m, hm, rfl⟩ := hlook
  have hm' : m.isDir = false := Bool.eq_false_iff.2 fun hd => hdir (Node.isDir_iff.1 hd)
  refine ⟨d.drop c n, ?_⟩
  unfold removeFile
  rw [hplace]
  simp only [bind, Except.bind, hm, hm', hslash]
  rfl

theorem removeDir_of_slot (h : d.Slot p parent n)
    (hget : d.root.get? (parent ++ [n]) = some (.dir [])) : ∃ d', d.removeDir p = .ok d' := by
  obtain ⟨c, hplace, rfl, hfits⟩ := h.place
  have hchild : c.node.child? n = some (.dir []) := by
    rw [Node.get?_append, hfits.get?, Option.bind_some, Node.get?_cons] at hget
    simpa using hget
  refine ⟨d.drop c n, ?_⟩
  unfold removeDir
  rw [hplace]
  simp only [bind, Except.bind, hchild]

end Disk

namespace DiskM

open Disk

variable {d d' : Disk} {p : Path} {loc parent : Location} {n : Name}

/-- What is removed is at the place where the path leads. -/
theorem location_of_removal {label : Label} (h : d.Slot p parent n)
    (hgoal : d.goal p false = .ok (.present loc)) (hlook : d.look (parent ++ [n]) = some label)
    (hplain : p.endsInSlash = false ∨ label = .dir) : parent ++ [n] = loc := by
  rcases hplain with hslash | rfl
  · rw [h.goal hslash (.inl rfl), if_neg (by rw [hlook]; simp)] at hgoal
    cases hgoal
    rfl
  · rw [h.goal_dir hlook] at hgoal
    cases hgoal
    rfl

theorem step_removeFile_spec (hgoal : d.goal p false = .ok (.present loc)) :
    Shrinks loc d ((step (·.removeFile p)).run d).2 ∧
      (((step (·.removeFile p)).run d).1 = .ok () → Gone loc ((step (·.removeFile p)).run d).2) := by
  rw [run_step]
  cases h : d.removeFile p with
  | error e => exact ⟨.refl loc d, nofun⟩
  | ok d' =>
      obtain ⟨parent, n, label, hslot, hlook, -, hslash, hcwd, heffect⟩ := removeFile_ok h
      obtain rfl := location_of_removal hslot hgoal hlook (.inl hslash)
      obtain ⟨hshrinks, hgone⟩ := Shrinks.of_drop hcwd heffect
      exact ⟨hshrinks, fun _ => hgone⟩

theorem step_removeDir_spec (hgoal : d.goal p false = .ok (.present loc))
    (hdir : d.look loc = some .dir) :
    Shrinks loc d ((step (·.removeDir p)).run (d.emptied loc)).2 ∧
      (((step (·.removeDir p)).run (d.emptied loc)).1 = .ok () →
        Gone loc ((step (·.removeDir p)).run (d.emptied loc)).2) := by
  have hempty := shrinks_emptied hdir
  rw [run_step]
  cases h : (d.emptied loc).removeDir p with
  | error e => exact ⟨hempty, nofun⟩
  | ok d' =>
      obtain ⟨parent, n, hslot, hlook, -, hcwd, heffect⟩ := removeDir_ok h
      have hold : d.look (parent ++ [n]) = some .dir := by
        rw [hempty.look_of_ne_none (by rw [hlook]; simp), hlook]
      obtain rfl := location_of_removal (hempty.slot hslot).1 hgoal hold (.inr rfl)
      obtain ⟨hshrinks, hgone⟩ := Shrinks.of_drop hcwd heffect
      exact ⟨hempty.trans hshrinks, fun _ => hgone⟩

theorem run_removeTree (p : Path) (d : Disk) : (removeTree p).run d =
    match d.find p false with
    | .error e => (.error e, d)
    | .ok (.vacant ..) => (.error (.os .noEntry), d)
    | .ok (.present c) => match c.node with
      | .link _ => (step (·.removeFile p)).run d
      | .file .. => (.error (.os .notDirectory), d)
      | .dir _ => (step (·.removeDir p)).run (d.emptied c.location) := by
  rw [removeTree]
  show ((match d.find p false with
    | .error e => throw e
    | .ok (.vacant ..) => throw (.os .noEntry)
    | .ok (.present c) => match c.node with
      | .link _ => step (·.removeFile p)
      | .file .. => throw (.os .notDirectory)
      | .dir _ => do
        set (d.emptied c.location)
        step (·.removeDir p)) : DiskM Unit).run d = _
  rcases d.find p false with e | (c | ⟨c, n⟩)
  · rfl
  · rcases c with ⟨node, above⟩
    cases node <;> rfl
  · rfl

theorem run_removeArtifact (p : Path) (d : Disk) : (removeArtifact p).run d =
    match d.lstat p with
    | .error e => if e.isMissing then (.ok false, d) else (.error e, d)
    | .ok node =>
      let run := if node.isDir then (removeTree p).run d else (step (·.removeFile p)).run d
      (run.1.map fun _ => true, run.2) := by
  rw [removeArtifact]
  show ((match d.lstat p with
    | .error e => if e.isMissing then pure false else throw e
    | .ok node => do
      if node.isDir then removeTree p else step (·.removeFile p)
      pure true) : DiskM Bool).run d = _
  cases d.lstat p with
  | error e =>
      dsimp only
      split <;> rfl
  | ok node =>
      dsimp only
      split
      · rw [run_bind]
        rcases (removeTree p).run d with ⟨e | u, d'⟩ <;> rfl
      · rw [run_bind]
        rcases (step (·.removeFile p)).run d with ⟨e | u, d'⟩ <;> rfl

/-- The cursor at a place that a path leads to. -/
theorem find_of_goal {follow : Bool} (h : d.goal p follow = .ok (.present loc)) :
    ∃ c, d.find p follow = .ok (.present c) ∧ c.location = loc ∧ c.Fits d.root := by
  rcases find_eq d p follow with ⟨s, hfind, hfits, hgoal⟩ | ⟨e, -, hgoal⟩
  · have hs := hgoal.symm.trans h
    cases s with
    | vacant c n => cases hs
    | present c =>
        cases hs
        exact ⟨c, hfind, rfl, hfits⟩
  · cases hgoal.symm.trans h

theorem removeTree_spec (hgoal : d.goal p false = .ok (.present loc)) :
    Shrinks loc d ((removeTree p).run d).2 ∧
      (((removeTree p).run d).1 = .ok () → Gone loc ((removeTree p).run d).2) := by
  obtain ⟨c, hfind, rfl, hfits⟩ := find_of_goal hgoal
  rw [run_removeTree, hfind]
  obtain ⟨node, above⟩ := c
  cases node with
  | file content x => exact ⟨.refl _ d, nofun⟩
  | link target => exact step_removeFile_spec hgoal
  | dir es => exact step_removeDir_spec hgoal hfits.look

/-- Removing an artifact that is there. -/
theorem removeArtifact_spec (hgoal : d.goal p false = .ok (.present loc)) :
    Shrinks loc d ((removeArtifact p).run d).2 ∧ ((removeArtifact p).run d).1 ≠ .ok false ∧
      (((removeArtifact p).run d).1 = .ok true → Gone loc ((removeArtifact p).run d).2) := by
  have hrun : ∃ m : DiskM Unit,
      (Shrinks loc d (m.run d).2 ∧ ((m.run d).1 = .ok () → Gone loc (m.run d).2)) ∧
        (removeArtifact p).run d = ((m.run d).1.map fun _ => true, (m.run d).2) := by
    obtain ⟨c, hfind, -, -⟩ := find_of_goal hgoal
    have hlstat : d.lstat p = .ok c.node := by
      unfold lstat
      rw [hfind]
      rfl
    rw [run_removeArtifact, hlstat]
    by_cases hdir : c.node.isDir = true
    · exact ⟨removeTree p, removeTree_spec hgoal, by simp only [if_pos hdir]⟩
    · exact ⟨step (·.removeFile p), step_removeFile_spec hgoal, by simp only [if_neg hdir]⟩
  obtain ⟨m, ⟨hshrinks, hgone⟩, hrun⟩ := hrun
  rw [hrun]
  refine ⟨hshrinks, ?_, fun h => hgone ?_⟩
  · cases (m.run d).1 <;> nofun
  · revert h
    cases (m.run d).1 with
    | error e => nofun
    | ok u => intro _; rfl

/-- Removing an artifact that is not found changes nothing. -/
theorem removeArtifact_of_error {e : IoError} (h : d.see p false = .error e) :
    (removeArtifact p).run d = (if e.isMissing then .ok false else .error e, d) := by
  have hlabel := lstat_label d p
  rw [run_removeArtifact]
  cases hn : d.lstat p with
  | ok node =>
      rw [hn, h] at hlabel
      cases hlabel
  | error e' =>
      rw [hn, h] at hlabel
      cases hlabel
      simp only
      split <;> rfl

/-- A removal leaves everything that is not at or below the place of the artifact. -/
theorem removeArtifact_cases (p : Path) (d : Disk) :
    (∃ loc, d.goal p false = .ok (.present loc)) ∨
      ∃ e, d.see p false = .error e ∧
        (removeArtifact p).run d = (if e.isMissing then .ok false else .error e, d) := by
  cases h : d.see p false with
  | error e => exact .inr ⟨e, rfl, removeArtifact_of_error h⟩
  | ok label =>
      obtain ⟨loc, hgoal, -⟩ := see_eq_ok_iff.1 h
      exact .inl ⟨loc, hgoal⟩

theorem removeArtifact_isOk {label : Label} (h : d.Slot p parent n) (hslash : p.endsInSlash = false)
    (hway : ∀ l ∈ d.approach p, ¬ parent ++ [n] <+: l) (hlook : d.look (parent ++ [n]) = some label) :
    ((removeArtifact p).run d).1 = .ok true := by
  have hgoal := h.goal hslash (.inl rfl)
  rw [if_neg (by rw [hlook]; simp)] at hgoal
  obtain ⟨c, hfind, hloc, hfits⟩ := find_of_goal hgoal
  have hlstat : d.lstat p = .ok c.node := by
    unfold lstat
    rw [hfind]
    rfl
  have hlabel : c.node.label = label := by
    rw [← Option.some_inj, ← hlook, ← hloc]
    exact hfits.look.symm
  rw [run_removeArtifact, hlstat]
  dsimp only
  by_cases hdir : label = .dir
  · subst hdir
    rw [if_pos (Node.isDir_iff.2 hlabel), run_removeTree, hfind]
    obtain ⟨es, hes⟩ := Node.label_eq_dir_iff.1 hlabel
    simp only [hes, hloc]
    have hempty := shrinks_emptied hlook
    have hslot := (h.congr hempty.cwd fun l hl => hempty.look l (hway l hl)).1
    obtain ⟨d', hd'⟩ := removeDir_of_slot hslot (get?_emptied (by rw [hlook]; simp))
    rw [run_step, hd']
    rfl
  · have hnot : ¬ c.node.isDir = true := fun hd => hdir (hlabel ▸ Node.isDir_iff.1 hd)
    obtain ⟨d', hd'⟩ := removeFile_of_slot h hslash hlook hdir
    rw [if_neg hnot, run_step, hd']
    rfl

/-- Where the way does not lead through the artifact, its removal succeeds. -/
theorem removeArtifact_of_slot (h : d.Slot p parent n) (hslash : p.endsInSlash = false)
    (hway : ∀ l ∈ d.approach p, ¬ parent ++ [n] <+: l) :
    ∃ b, ((removeArtifact p).run d).1 = .ok b ∧
      Shrinks (parent ++ [n]) d ((removeArtifact p).run d).2 ∧
      Gone (parent ++ [n]) ((removeArtifact p).run d).2 := by
  cases hlook : d.look (parent ++ [n]) with
  | none =>
      have hsee := h.see hslash (.inl rfl)
      rw [hlook] at hsee
      rw [removeArtifact_of_error hsee]
      refine ⟨false, rfl, .refl _ d, fun l hl => ?_⟩
      by_cases hne : l = parent ++ [n]
      · rw [hne, hlook]
      · exact look_eq_none_below (by rw [hlook]; simp) hl hne
  | some label =>
      have hgoal := h.goal hslash (.inl rfl)
      rw [if_neg (by rw [hlook]; simp)] at hgoal
      obtain ⟨hshrinks, -, hgone⟩ := removeArtifact_spec hgoal
      have hok := removeArtifact_isOk h hslash hway hlook
      exact ⟨true, hok, hshrinks, hgone hok⟩

end DiskM

end Sideload
