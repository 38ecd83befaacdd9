import Sideload.Proofs.Disk.Detour

/-!
Writing a file beside another one and moving it over that. If both steps succeed, the path either leads
to the written text or there is no way to it; it never leads to another file, and it is never missing.
-/

namespace Sideload

namespace Disk

variable {d d' d'' : Disk} {p : Path} {parent : Location} {n m : Name}

/-- Only directories and links are on the way to the directory of an entry. -/
theorem Slot.not_file (h : d.Slot p parent n) {l : Location} (hl : l ∈ d.approach p)
    (content : ByteArray) (x : Bool) : d.look l ≠ some (.file content x) := by
  have hstart : ∀ {l}, l <+: d.origin p → d.look l ≠ some (.file content x) := by
    intro l hpre
    rw [d.look_treelike _ _ h.begins hpre]
    simp
  rcases List.mem_append.1 hl with hl | hl
  · exact hstart ((List.mem_inits _ _).1 hl)
  · obtain ⟨links, hend⟩ := h.enters
    by_cases hnil : l = []
    · exact hstart (hnil ▸ List.nil_prefix)
    · exact View.not_file_of_seek_here hend hl hnil content x

section Written

variable {draft : Path} {content : ByteArray}

/-- The label of a file, or of nothing. -/
theorem not_dir_of_old {old : Option (ByteArray × Bool)} {l : Location}
    (h : d.look l = old.map fun f : ByteArray × Bool => Label.file f.1 f.2) :
    d.look l = none ∨ ∃ c y, d.look l = some (.file c y) := by
  cases old with
  | none => exact .inl h
  | some f => exact .inr ⟨f.1, f.2, h⟩

/-- A file that was written is not on the way to a directory. -/
theorem look_before_write {place : Location} {x : Bool}
    (hlook : d'.look = Function.update d.look place (some (.file content x)))
    (hslot : d'.Slot p parent m) {l : Location} (hl : l ∈ d'.approach p) : d'.look l = d.look l := by
  have hne : l ≠ place := by
    rintro rfl
    exact hslot.not_file hl content x (by rw [hlook, Function.update_self])
  rw [hlook, Function.update_of_ne hne]

/-- So the directory was found the same way before. -/
theorem slot_before_write {place : Location} {x : Bool} (hcwd : d'.cwd = d.cwd)
    (hlook : d'.look = Function.update d.look place (some (.file content x)))
    (hslot : d'.Slot p parent m) : d.Slot p parent m ∧ d.approach p = d'.approach p :=
  hslot.congr hcwd.symm fun _ hl => (look_before_write hlook hslot hl).symm

/-- What stands at the place of a written path: the file, or a link through which the file was
written. -/
theorem written_cases (hw : d.write draft content = .ok d') (hslot : d'.Slot draft parent m) :
    ∃ x, d'.look (parent ++ [m]) = some (.file content x) ∨
      ∃ target k left f, d'.look (parent ++ [m]) = some (.link target) ∧
        ¬ target.isEmpty = true ∧ d'.look f = some (.file content x) ∧
        (d'.look.seek true k (target.origin parent) target.steps).ending = .ok (left, .present f) := by
  obtain ⟨g, old, hgoal, hold, hslash, hoff, hlook⟩ := openFile_ok hw
  have hkind := not_dir_of_old hold
  have hnew : d'.look g.location = some (.file content ((old.map (·.2)).getD false)) := by
    rw [hlook, Function.update_self]
  have hsame : ∀ l, l ≠ g.location → d'.look l = d.look l := fun l hl => by
    rw [hlook, Function.update_of_ne hl]
  have hbefore := (slot_before_write hoff.cwd hlook hslot).1
  refine ⟨(old.map (·.2)).getD false, ?_⟩
  by_cases hlink : ∀ target, d.look (parent ++ [m]) ≠ some (.link target)
  · left
    have hplace := @Slot.goal _ _ _ _ true hbefore hslash (.inr hlink)
    rw [hgoal] at hplace
    have hloc : g.location = parent ++ [m] := by
      cases hplace
      split <;> rfl
    rw [← hloc, hnew]
  · right
    obtain ⟨target, htarget⟩ := not_forall_not.1 hlink
    have hne : parent ++ [m] ≠ g.location := by
      intro he
      rw [he] at htarget
      rcases hkind with hnone | ⟨c, y, hfile⟩
      · cases htarget.symm.trans hnone
      · cases htarget.symm.trans hfile
    obtain ⟨-, -, left, hend⟩ := goal_eq_ok_iff.1 hgoal
    obtain ⟨k, hlead⟩ := hbefore.enters
    rw [trip_eq_lead hbefore.last hslash, Trip.andThen, hlead] at hend
    simp only [Goal.location_present] at hend
    cases k with
    | zero =>
        rw [View.seek_no_links hbefore.short htarget (by simp)] at hend
        cases hend
    | succ k =>
        by_cases hempty : target.isEmpty = true
        · rw [View.seek_empty_link hbefore.short htarget (by simp) hempty] at hend
          cases hend
        · rw [View.seek_link hbefore.short htarget (by simp) hempty, List.append_nil] at hend
          obtain ⟨left', hwritten⟩ := View.seek_written d.look_treelike
            (d.look_treelike.origin hbefore.dir target) hend rfl hkind hsame hnew
          exact ⟨target, k, left', g.location, (hsame _ hne).trans htarget, hempty, hnew, hwritten⟩

end Written

/-- What is renamed over something that is no directory leaves all directories. -/
theorem dir_of_rename_leaf {old new l : Location} (hold : d.look old ≠ some .dir)
    (hnew : d.look new ≠ some .dir)
    (hlook : d'.look = Function.update (Function.update d.look old none) new (d.look old))
    (hl : d.look l = some .dir) : d'.look l = some .dir := by
  have hnew' : l ≠ new := fun he => hnew (he ▸ hl)
  have hold' : l ≠ old := fun he => hold (he ▸ hl)
  rw [hlook, Function.update_of_ne hnew', Function.update_of_ne hold', hl]

/-- After a file was moved to a place, the path of the place leads to its content or gets stuck. -/
theorem landsOn_replaced {draft path : Path} {content : ByteArray} {x : Bool}
    (hr : d.rename draft path = .ok d') (hdraft : d.Slot draft parent m) (hpath : d.Slot path parent n)
    (hne : m ≠ n)
    (hstands : d.look (parent ++ [m]) = some (.file content x) ∨
      ∃ target k left f, d.look (parent ++ [m]) = some (.link target) ∧
        ¬ target.isEmpty = true ∧ d.look f = some (.file content x) ∧
        (d.look.seek true k (target.origin parent) target.steps).ending = .ok (left, .present f))
    (hslash : path.endsInSlash = false) :
    d'.look.LandsOn content x (d'.trip path true).ending := by
  have hplaces : parent ++ [m] ≠ parent ++ [n] := by simpa using hne
  have hleaf : d.look (parent ++ [m]) ≠ some .dir := by
    rcases hstands with hfile | ⟨_, _, _, _, hlink, -⟩
    · rw [hfile]
      simp
    · rw [hlink]
      simp
  obtain ⟨hcwd, hnotDir, hlook⟩ := rename_leaf hr hdraft hpath hplaces hleaf
  have hsame : ∀ l, l ≠ parent ++ [n] → l ≠ parent ++ [m] → d'.look l = d.look l := by
    intro l hn hm
    rw [hlook, Function.update_of_ne hn, Function.update_of_ne hm]
  have hdirs : ∀ l, d.look l = some .dir → d'.look l = some .dir := fun l hl =>
    dir_of_rename_leaf hleaf hnotDir hlook hl
  have hmoved : d'.look (parent ++ [n]) = d.look (parent ++ [m]) := by
    rw [hlook, Function.update_self]
  have hstuck : ∀ links more, more ≠ [] →
      ∃ e, (d.look.seek true links parent (.name m :: more)).ending = .error e := by
    intro links more hmore
    rcases hstands with hfile | ⟨target, k, left, f, hlink, hempty, hf, hend⟩
    · rw [View.seek_file hdraft.short hfile]
      simp [hmore]
    · exact View.stuck_of_link d.look_treelike hdraft.dir hdraft.short hlink hempty hend hf hmore links
  obtain ⟨k, hlead⟩ := hpath.enters
  have hagree : View.AgreeOff d.look d'.look (parent ++ [n])
      (d.look.seek true maxLinks (d.origin path) path.lead).visited := fun l hl hn =>
    hsame l hn fun he => View.not_mem_of_stuck hstuck hlead (he ▸ hl)
  obtain ⟨links, rest, hat⟩ := View.ending_at (hdirs _ hpath.dir) hlead hagree
  have hsteps : path.steps = path.lead ++ [.name n] := by
    rw [Path.steps_eq, hslash, Path.lead]
    simpa using (List.dropLast_append_getLast? _ hpath.last).symm
  have horigin : d'.origin path = d.origin path := by rw [origin, origin, hcwd]
  rw [trip, horigin, hsteps, hat]
  rcases hstands with hfile | ⟨target, k', left, f, hlink, hempty, hf, hend⟩
  · have hfile' := hmoved.trans hfile
    rw [View.seek_file hpath.short hfile']
    by_cases hrest : rest = []
    · simp only [hrest]
      exact ⟨parent ++ [n], rfl, hfile'⟩
    · simp only [List.isEmpty_iff, hrest]
      exact .inl rfl
  · exact View.landsOn_moved d.look_treelike d'.look_treelike hdraft.dir (hdirs _ hdraft.dir)
      hdraft.short hlink hempty hend hf hpath.short hsame (hmoved.trans hlink) links rest

section Beside

variable {path : Path} {content : ByteArray} {ext : String}

/-- A file that is written beside another one, under another extension, and then moved over it: both
names are in the same directory. -/
theorem replaced_slots (hext : '/' ∉ ext.toList) (hdot : '.' ∈ ext.toList)
    (hlen : 2 ≤ ext.toList.length) (hw : d.write (path.withExtension ext) content = .ok d')
    (hr : d'.rename (path.withExtension ext) path = .ok d'') :
    ∃ parent m n, d'.Slot (path.withExtension ext) parent m ∧ d'.Slot path parent n ∧ m ≠ n ∧
      path.endsInSlash = false ∧ d'.approach (path.withExtension ext) = d'.approach path := by
  obtain ⟨parent, m, parent', n, hdraft, hpath, -, -, hplain, -⟩ := rename_ok hr
  have hnotDir : d'.look (parent ++ [m]) ≠ some .dir := by
    obtain ⟨x, hfile | ⟨_, _, _, _, hlink, -⟩⟩ := written_cases hw hdraft
    · rw [hfile]
      simp
    · rw [hlink]
      simp
  have hslash := (hplain hnotDir).2
  obtain ⟨front, hp, hq, hlast, -⟩ := Path.withExtension_eq hpath.last hslash hext hlen
  obtain rfl : Path.otherName n ext = m := by
    cases hlast.symm.trans hdraft.last
    rfl
  obtain ⟨hdraft', hway⟩ := hpath.sibling hp hq hdraft.admits hlast hdraft.short
  obtain ⟨rfl, -⟩ := hdraft'.unique hdraft
  exact ⟨parent, _, n, hdraft, hpath, Path.otherName_ne hdot, hslash, hway⟩

/-- Afterwards the path leads to the new content, or the way to it is broken. -/
theorem see_replaced (hext : '/' ∉ ext.toList) (hdot : '.' ∈ ext.toList)
    (hlen : 2 ≤ ext.toList.length) (hw : d.write (path.withExtension ext) content = .ok d')
    (hr : d'.rename (path.withExtension ext) path = .ok d'') :
    (∃ x, d''.see path true = .ok (.file content x)) ∨
      ∃ e, d''.see path true = .error (.os e) ∧ (e = .notDirectory ∨ e = .tooManyLinks) := by
  obtain ⟨parent, m, n, hdraft, hpath, hne, hslash, -⟩ := replaced_slots hext hdot hlen hw hr
  obtain ⟨x, hstands⟩ := written_cases hw hdraft
  have hlands := landsOn_replaced hr hdraft hpath hne hstands hslash
  have hleaf : d'.look (parent ++ [m]) ≠ some .dir := by
    rcases hstands with hfile | ⟨_, _, _, _, hlink, -⟩
    · rw [hfile]
      simp
    · rw [hlink]
      simp
  have hplaces : parent ++ [m] ≠ parent ++ [n] := by simpa using hne
  obtain ⟨hcwd, hnotDir, hlook⟩ := rename_leaf hr hdraft hpath hplaces hleaf
  have hbegin : d''.look (d''.origin path) = some .dir := by
    rw [origin, hcwd, ← origin]
    exact dir_of_rename_leaf hleaf hnotDir hlook hpath.begins
  unfold see goal
  rw [hpath.admits, hbegin]
  cases hend : (d''.trip path true).ending with
  | error e =>
      rw [hend] at hlands
      exact .inr ⟨e, rfl, hlands⟩
  | ok found =>
      rw [hend] at hlands
      obtain ⟨l, hl, hfile⟩ := hlands
      refine .inl ⟨x, ?_⟩
      simp only [hl, Goal.location_present]
      rw [hfile]
      rfl

/-- If the other name is no link, it is gone afterwards and the path has the new content; nothing else
is changed. -/
theorem look_replaced (hext : '/' ∉ ext.toList) (hdot : '.' ∈ ext.toList)
    (hlen : 2 ≤ ext.toList.length) (hw : d.write (path.withExtension ext) content = .ok d')
    (hr : d'.rename (path.withExtension ext) path = .ok d'')
    (hlink : ∀ target, d.see (path.withExtension ext) false ≠ .ok (.link target)) :
    ∃ parent m n x, d.Slot (path.withExtension ext) parent m ∧ d.Slot path parent n ∧ m ≠ n ∧
      path.endsInSlash = false ∧ d.look (parent ++ [m]) ≠ some .dir ∧
      d.look (parent ++ [n]) ≠ some .dir ∧ (∀ l ∈ d.approach path, l ≠ parent ++ [m]) ∧
      d''.cwd = d.cwd ∧ d''.look = Function.update (Function.update d.look (parent ++ [m]) none)
        (parent ++ [n]) (some (.file content x)) := by
  obtain ⟨parent, m, n, hdraft, hpath, hne, hslash, hway⟩ := replaced_slots hext hdot hlen hw hr
  obtain ⟨g, old, hgoal, hold, hplain, hoff, hlook⟩ := openFile_ok hw
  obtain ⟨hbefore, -⟩ := slot_before_write hoff.cwd hlook hdraft
  obtain ⟨hpathBefore, happroach⟩ := slot_before_write hoff.cwd hlook hpath
  have hsee := hbefore.see hplain (.inl rfl)
  have hloc : g.location = parent ++ [m] := by
    have hplace := @Slot.goal _ _ _ _ true hbefore hplain (.inr fun target htarget => by
      rw [htarget] at hsee
      exact hlink target hsee)
    rw [hgoal] at hplace
    cases hplace
    split <;> rfl
  rw [hloc] at hold hlook
  have hmfile : d'.look (parent ++ [m]) = some (.file content ((old.map (·.2)).getD false)) := by
    rw [hlook, Function.update_self]
  have hleaf : d'.look (parent ++ [m]) ≠ some .dir := by
    rw [hmfile]
    simp
  have hplaces : parent ++ [m] ≠ parent ++ [n] := by simpa using hne
  obtain ⟨hcwd, hnotDir, hlook'⟩ := rename_leaf hr hdraft hpath hplaces hleaf
  refine ⟨parent, m, n, (old.map (·.2)).getD false, hbefore, hpathBefore, hne, hslash, ?_, ?_, ?_,
    hcwd.trans hoff.cwd, ?_⟩
  · rcases not_dir_of_old hold with hnone | ⟨c, y, hfile⟩
    · rw [hnone]
      simp
    · rw [hfile]
      simp
  · rwa [hlook, Function.update_of_ne hplaces.symm] at hnotDir
  · rintro l hl rfl
    exact hpath.not_file (happroach ▸ hl) _ _ hmfile
  · rw [hlook', hmfile, hlook, Function.update_idem]

/-- A place where a file is put over a file or over nothing is found the same way afterwards. -/
theorem slot_replaced {x : Bool} (h : d.Slot p parent n) (hslash : p.endsInSlash = false)
    (hway : ∀ l ∈ d.approach p, l ≠ parent ++ [m]) (hdir : d.look (parent ++ [n]) ≠ some .dir)
    (hlink : ∀ target, d.look (parent ++ [n]) ≠ some (.link target)) (hcwd : d'.cwd = d.cwd)
    (hlook : d'.look = Function.update (Function.update d.look (parent ++ [m]) none)
      (parent ++ [n]) (some (.file content x))) :
    d'.Slot p parent n ∧ d'.approach p = d.approach p ∧
      d'.see p true = .ok (.file content x) := by
  have hnot : ∀ l ∈ d.approach p, l ≠ parent ++ [n] := by
    rintro l hl rfl
    have hthere := h.look_ne_none hl
    cases hold : d.look (parent ++ [n]) with
    | none => exact hthere hold
    | some label =>
        cases label with
        | dir => exact hdir hold
        | link target => exact hlink target hold
        | file c y => exact h.not_file hl c y hold
  have hfile : d'.look (parent ++ [n]) = some (.file content x) := by
    rw [hlook, Function.update_self]
  obtain ⟨hslot, happroach⟩ := h.congr hcwd fun l hl => by
    rw [hlook, Function.update_of_ne (hnot l hl), Function.update_of_ne (hway l hl)]
  refine ⟨hslot, happroach, ?_⟩
  rw [hslot.see hslash (.inr (by rw [hfile]; simp)), hfile]
  rfl

end Beside

end Disk

end Sideload
