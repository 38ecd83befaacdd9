import Sideload.Proofs.Registry.Outside

/-!
The files of a registry. Wherever a save stops, it writes at most the files to which the path of the
registry and that of the draft lead once their directory is there; no directory and no link apart from
these is changed.
-/

namespace Sideload

open Disk

/-- A path that is no link leads to the same place whether links are followed at the end or not. -/
theorem Disk.goal_of_follow {d : Disk} {p : Path} {g : Goal} (hlink : d.isLink p = false)
    (h : d.goal p true = .ok g) : d.goal p false = .ok g := by
  obtain ⟨hadmits, hbegins, links, hend⟩ := goal_eq_ok_iff.1 h
  rw [isLink_eq_false_iff] at hlink
  cases hstop : (d.trip p false).ending with
  | error e => cases hend.symm.trans (View.seek_follow_of_error hstop)
  | ok found =>
      obtain ⟨left, g'⟩ := found
      have hgoal : d.goal p false = .ok g' := goal_eq_ok_iff.2 ⟨hadmits, hbegins, left, hstop⟩
      have hplain : ∀ target, d.look g'.location ≠ some (.link target) := by
        intro target hlabel
        refine hlink target ?_
        rw [see, hgoal]
        dsimp only
        rw [hlabel]
        rfl
      cases hend.symm.trans (View.seek_follow hstop hplain)
      exact hgoal

namespace Registry

variable {d d' : Disk} {path p : Path} {parent l : Location} {n : Name} {r : Registry} {w : World}

/-- A place that belongs to the registry: no directory, and where the path of the registry or of its draft
leads once their directory is there. -/
def Owns (path : Path) (d : Disk) (l : Location) : Prop :=
  d.look l ≠ some .dir ∧ ∃ p g, (p = path ∨ p = draftPath path) ∧
    (hosted d path).goal p false = .ok g ∧ g.location = l

/-- An entry is where its path leads. -/
theorem exists_goal_of_slot (h : d.Slot p parent n) (hslash : p.endsInSlash = false) :
    ∃ g, d.goal p false = .ok g ∧ g.location = parent ++ [n] := by
  refine ⟨_, h.goal hslash (.inl rfl), ?_⟩
  split <;> rfl

/-- A draft that is no link is written at its own entry. -/
theorem look_of_writeDraft {content : String} (hdraft : d.isLink (draftPath path) = false)
    (hw : d.writeText (draftPath path) content = .ok d') : ∃ g,
      d.goal (draftPath path) false = .ok g ∧ d.Writable g.location ∧
        (draftPath path).endsInSlash = false ∧ ∀ l, l ≠ g.location → d'.look l = d.look l := by
  obtain ⟨g, old, hgoal, hold, hslash, -, hlook⟩ := openFile_ok (show d.write _ _ = .ok d' from hw)
  have hwritable : d.Writable g.location := not_dir_of_old hold
  exact ⟨g, goal_of_follow hdraft hgoal, hwritable, hslash, fun l hl => by
    rw [hlook, Function.update_of_ne hl]⟩

/-- Saving changes no directory and nothing that does not belong to the registry. -/
theorem look_of_save (hdraft : (hosted w.disk path).isLink (draftPath path) = false)
    (hl : w.disk.look l ≠ none) (hno : ¬ Owns path w.disk l) :
    ((r.save path).run w).2.disk.look l = w.disk.look l := by
  have hhosted := (opens_hosted w.disk path).look_of_ne_none hl
  obtain ⟨-, ⟨f, -, hsame | hsame⟩ | ⟨f, content, -, -, hw⟩ | ⟨content, d', hok, -, hw, -⟩⟩ :=
    save_cases r path w
  · rw [hsame]
  · rw [hsame, hhosted]
  · obtain ⟨g, hgoal, hwritable, -, hlook⟩ := look_of_writeDraft hdraft hw
    rw [← hhosted]
    refine hlook l fun heq => hno ⟨?_, _, g, .inr rfl, hgoal, heq.symm⟩
    rw [← hhosted, heq]
    exact hwritable.ne_dir
  · obtain ⟨content, parent, m, n, -, hr⟩ := replaced_of_save (Prod.ext hok rfl) hdraft
    obtain ⟨-, -, -, hslash, -⟩ := look_of_writeDraft hdraft hw
    rw [← hhosted]
    refine hr.look_elsewhere (fun heq => hno ⟨?_, ?_⟩) fun heq => hno ⟨?_, ?_⟩
    · rw [← hhosted, heq]
      exact hr.leaf
    · obtain ⟨g, hgoal, hlocation⟩ := exists_goal_of_slot hr.before.file hr.before.slash
      exact ⟨_, g, .inl rfl, hgoal, hlocation.trans heq.symm⟩
    · rw [← hhosted, heq]
      exact hr.free.ne_dir
    · obtain ⟨g, hgoal, hlocation⟩ := exists_goal_of_slot hr.before.draft hslash
      exact ⟨_, g, .inr rfl, hgoal, hlocation.trans heq.symm⟩

end Registry

end Sideload
