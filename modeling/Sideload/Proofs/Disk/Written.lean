import Sideload.Proofs.Disk.Growth

/-!
A file that was written is what its path leads to, links followed. Writing the same once more succeeds and changes
nothing.
-/

namespace Sideload

namespace View

variable {v : View} {follow : Bool} {links left : Nat} {loc parent : Location} {n : Name} {steps : List Step}

/-- A walk that ends where nothing is ends at a file once that is there. -/
theorem seek_filled (content : ByteArray) (x : Bool)
    (h : (v.seek follow links loc steps).ending = .ok (left, .vacant parent n)) :
    (seek (Function.update v (parent ++ [n]) (some (.file content x))) follow links loc steps).ending =
      .ok (left, .present (parent ++ [n])) := by
  have hnone := none_of_seek_vacant h
  have hother : ∀ {l label}, v l = some label →
      Function.update v (parent ++ [n]) (some (.file content x)) l = some label := by
    intro l label hl
    rw [Function.update_of_ne, hl]
    rintro rfl
    cases hnone.symm.trans hl
  fun_induction v.seek follow links loc steps with
  | case1 => cases h
  | case2 links loc rest ih => rw [seek_here, ih h]
  | case3 links loc rest ih => rw [seek_up, ih h]
  | case4 => cases h
  | case5 links loc m rest hshort _ =>
      simp only at h
      split at h
      · next hrest =>
          cases h
          rw [seek_file hshort (Function.update_self ..)]
          exact if_pos hrest
      · cases h
  | case6 => cases h
  | case7 => cases h
  | case8 => cases h
  | case9 loc m rest hshort target hlink hend links hempty ih =>
      rw [seek_link hshort (hother hlink) hend hempty]
      exact ih h
  | case10 links loc m rest hshort hdir ih =>
      rw [seek_dir hshort (hother hdir)]
      exact ih h
  | case11 =>
      simp only at h
      split at h <;> cases h

end View

namespace Disk

variable {d d' : Disk} {p q : Path} {loc : Location} {content : ByteArray} {x : Bool}
  {change : Option (ByteArray × Bool) → ByteArray × Bool}

/-- A file can be written where the path leads, if there is nothing or a file. -/
theorem openFile_isOk_of_goal {g : Goal} (hgoal : d.goal p true = .ok g) (hslash : p.endsInSlash = false)
    (hfree : d.Writable g.location) (change : Option (ByteArray × Bool) → ByteArray × Bool) :
    ∃ d', d.openFile p change = .ok d' := by
  unfold openFile
  rw [if_neg (by rw [hslash]; simp)]
  rcases find_eq d p true with ⟨s, hfind, hfits, hfound⟩ | ⟨e, -, hfault⟩
  · rw [hfind]
    cases s with
    | vacant c m => exact ⟨_, rfl⟩
    | present c =>
        cases hfound.symm.trans hgoal
        have hlabel := Cursor.Fits.look hfits
        obtain ⟨content, x, hfile⟩ := hfree.resolve_left fun hnone => nomatch hlabel.symm.trans hnone
        have hnode : c.node.label = .file content x := Option.some_inj.1 (hlabel.symm.trans hfile)
        obtain ⟨node, above⟩ := c
        cases node with
        | dir es => cases hnode
        | link target => cases hnode
        | file content' x' =>
            cases above with
            | cons a above => exact ⟨_, rfl⟩
            | nil =>
                -- the top is a directory
                obtain ⟨-, hbegin, -⟩ := goal_eq_ok_iff.1 hgoal
                cases (look_eq_dir_above hbegin List.nil_prefix).symm.trans hfile
  · cases hfault.symm.trans hgoal

/-- The file at the place that the path leads to. -/
structure Filed (d : Disk) (p : Path) (loc : Location) (content : ByteArray) (x : Bool) : Prop where
  slash : p.endsInSlash = false
  goal : d.goal p true = .ok (.present loc)
  file : d.look loc = some (.file content x)

theorem Filed.see (h : d.Filed p loc content x) : d.see p true = .ok (.file content x) :=
  see_eq_ok_iff.2 ⟨loc, h.goal, h.file⟩

/-- After a file is written the path leads to it. -/
theorem filed_openFile (h : d.openFile p change = .ok d') : ∃ loc old,
    d.look loc = old.map (fun f : ByteArray × Bool => Label.file f.1 f.2) ∧
      d'.Filed p loc (change old).1 (change old).2 ∧ SameOff loc d d' ∧
        d'.look = Function.update d.look loc (some (.file (change old).1 (change old).2)) := by
  obtain ⟨g, old, hgoal, hold, hslash, hsame, hlook⟩ := openFile_ok h
  refine ⟨g.location, old, hold, ⟨hslash, ?_, by rw [hlook, Function.update_self]⟩, hsame, hlook⟩
  cases g with
  | present loc =>
      obtain ⟨f, rfl⟩ : ∃ f, old = some f := by
        refine Option.ne_none_iff_exists'.1 fun hnone => ne_none_of_way hgoal loc (present_mem_way hgoal) ?_
        simpa [hnone] using hold
      refine goal_of_shape hgoal hsame.cwd fun l _ => ?_
      rw [hlook]
      by_cases hl : l = loc
      · subst hl
        rw [Goal.location_present] at hold ⊢
        rw [Function.update_self, hold]
        rfl
      · rw [Goal.location_present, Function.update_of_ne hl]
  | vacant parent n =>
      obtain ⟨hadmits, hbegin, links, hend⟩ := goal_eq_ok_iff.1 hgoal
      have horigin : d'.origin p = d.origin p := by rw [origin, origin, hsame.cwd]
      refine goal_eq_ok_iff.2 ⟨hadmits, ?_, links, ?_⟩
      · rw [horigin, hlook, Function.update_of_ne, hbegin]
        intro heq
        rw [heq, Goal.location_vacant, look_eq_none_of_goal hgoal] at hbegin
        cases hbegin
      · rw [trip, horigin, hlook]
        exact View.seek_filled _ _ hend

/-- Writing a file again changes nothing. -/
theorem Filed.write_again (h : d.Filed p loc content x) :
    ∃ d', d.write p content = .ok d' ∧ d'.cwd = d.cwd ∧ d'.look = d.look := by
  obtain ⟨d', ho⟩ := openFile_isOk_of_goal h.goal h.slash (.inr ⟨_, _, h.file⟩) fun old => (content, (old.map (·.2)).getD false)
  obtain ⟨g, old, hgoal, hold, -, hsame, hlook⟩ := openFile_ok ho
  cases h.goal.symm.trans hgoal
  rw [Goal.location_present, h.file] at hold
  obtain rfl : old = some (content, x) := by
    cases old with
    | none => cases hold
    | some f => cases hold; rfl
  refine ⟨d', ho, hsame.cwd, ?_⟩
  rw [hlook]
  exact (congrArg _ h.file.symm).trans (Function.update_eq_self loc d.look)

/-- A directory is still there after a file is written. -/
theorem Enters.openFile (h : d.Enters q loc) (ho : d.openFile p change = .ok d') : d'.Enters q loc := by
  obtain ⟨place, old, hold, -, hsame, hlook⟩ := filed_openFile ho
  refine (h.congr hsame.cwd fun l hl => ?_).1
  rw [hlook, Function.update_of_ne]
  rintro rfl
  cases old with
  | none => exact h.look_ne_none hl hold
  | some f =>
      -- a file on the way to a directory would be its end
      cases goal_of_file_on_way h.goal hl hold
      cases h.dir.symm.trans hold

end Disk

end Sideload
