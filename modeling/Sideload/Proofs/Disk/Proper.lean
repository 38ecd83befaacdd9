import Sideload.Proofs.Disk.Opening
import Sideload.Proofs.Disk.Removal

/-!
Names on a disk. No name is blank, a dot or two dots, and none holds a slash; so the name of an entry can
be joined to a path. Every change keeps this: new names are taken from paths.
-/

namespace Sideload

/-- Steps whose names are names of entries. -/
def ProperSteps (steps : List Step) : Prop := ∀ n, .name n ∈ steps → n.Proper

theorem Path.proper_segments (p : Path) : ProperSteps p.segments := by
  intro n hn
  obtain ⟨m, hm, hmn⟩ := List.mem_map.1 hn
  obtain ⟨hmem, hne⟩ := List.mem_filter.1 hm
  obtain ⟨rfl, hdot, hup⟩ := Disk.ofSegment_eq_name hmn
  exact ⟨by simpa using hne, hdot, hup, not_mem_of_mem_splitSlash hmem⟩

theorem Path.proper_steps (p : Path) : ProperSteps p.steps := by
  intro n hn
  rw [Path.steps_eq] at hn
  rcases List.mem_append.1 hn with hn | hn
  · exact p.proper_segments n hn
  · split at hn
    · cases List.mem_singleton.1 hn
    · cases hn

theorem ProperSteps.tail {s : Step} {rest : List Step} (h : ProperSteps (s :: rest)) :
    ProperSteps rest := fun n hn => h n (List.mem_cons_of_mem _ hn)

theorem ProperSteps.append {a b : List Step} (h : ProperSteps a) (h' : ProperSteps b) :
    ProperSteps (a ++ b) := fun n hn => (List.mem_append.1 hn).elim (h n) (h' n)

/-- A location whose names are names of entries. -/
def Location.Proper (loc : Location) : Prop := ∀ n ∈ loc, n.Proper

theorem Location.Proper.concat {loc : Location} (h : loc.Proper) {n : Name} (hn : n.Proper) :
    Location.Proper (loc ++ [n]) := by
  intro m hm
  rcases List.mem_append.1 hm with hm | hm
  · exact h m hm
  · exact List.mem_singleton.1 hm ▸ hn

theorem Location.Proper.initial {loc l : Location} (h : loc.Proper) (hl : l <+: loc) : l.Proper :=
  fun n hn => h n (hl.subset hn)

/-- What a walk looks up has the names of its steps and of the links on the way. -/
theorem View.proper_of_visited {v : View} {follow : Bool} {links : Nat} {loc l : Location}
    {steps : List Step} (hsteps : ProperSteps steps) (hloc : loc.Proper)
    (hl : l ∈ (v.seek follow links loc steps).visited) : l.Proper := by
  have hone : ∀ {loc : Location} {n : Name} {rest : List Step}, ProperSteps (.name n :: rest) →
      loc.Proper → Location.Proper (loc ++ [n]) :=
    fun hsteps hloc => hloc.concat (hsteps _ (List.mem_cons_self ..))
  fun_induction v.seek follow links loc steps with
  | case1 => cases hl
  | case2 links loc rest ih => exact ih hsteps.tail hloc hl
  | case3 links loc rest ih => exact ih hsteps.tail (hloc.initial (List.dropLast_prefix loc)) hl
  | case4 => cases hl
  | case5 => exact List.mem_singleton.1 hl ▸ hone hsteps hloc
  | case6 => exact List.mem_singleton.1 hl ▸ hone hsteps hloc
  | case7 => exact List.mem_singleton.1 hl ▸ hone hsteps hloc
  | case8 => exact List.mem_singleton.1 hl ▸ hone hsteps hloc
  | case9 loc n rest hshort target hlink hend links hempty ih =>
      rcases List.mem_cons.1 hl with rfl | hl
      · exact hone hsteps hloc
      · refine ih (target.proper_steps.append hsteps.tail) ?_ hl
        unfold Path.origin
        split
        · intro n hn
          cases hn
        · exact hloc
  | case10 links loc n rest hshort hdir ih =>
      rcases List.mem_cons.1 hl with rfl | hl
      · exact hone hsteps hloc
      · exact ih hsteps.tail (hone hsteps hloc) hl
  | case11 => exact List.mem_singleton.1 hl ▸ hone hsteps hloc

namespace Disk

variable {d d' : Disk} {p : Path} {loc parent : Location} {n : Name}

/-- Every name on the disk is the name of an entry. -/
structure Proper (d : Disk) : Prop where
  cwd : d.cwd.Proper
  look : ∀ l, d.look l ≠ none → l.Proper

theorem Slot.proper (h : d.Slot p parent n) : n.Proper :=
  p.proper_segments n (List.mem_of_getLast? h.last)

namespace Proper

/-- What is looked up to follow a path has proper names. -/
theorem of_way (hcwd : d.cwd.Proper) {follow : Bool} {l : Location} (hl : l ∈ d.way p follow) :
    l.Proper := by
  have horigin : (d.origin p).Proper := by
    unfold origin
    split
    · intro n hn
      cases hn
    · exact hcwd
  rcases List.mem_append.1 hl with hl | hl
  · exact horigin.initial ((List.mem_inits _ _).1 hl)
  · exact View.proper_of_visited p.proper_steps horigin hl

/-- Disks with new names at most where the names are proper. -/
theorem of_look (h : d.Proper) (hcwd : d'.cwd = d.cwd)
    (hlook : ∀ l, d'.look l ≠ none → d.look l ≠ none ∨ l.Proper) : d'.Proper :=
  ⟨hcwd ▸ h.cwd, fun l hl => (hlook l hl).elim (h.look l) id⟩

theorem update {label : Label} (h : d.Proper) (hcwd : d'.cwd = d.cwd)
    (hlook : d'.look = Function.update d.look loc (some label)) (hloc : loc.Proper) : d'.Proper := by
  refine h.of_look hcwd fun l hl => ?_
  by_cases hne : l = loc
  · exact .inr (hne ▸ hloc)
  · rw [hlook, Function.update_of_ne hne] at hl
    exact .inl hl

theorem opens {ps : List Path} (h : d.Proper) (ho : Opens d d') (hnew : NewOn ps d d') :
    d'.Proper := by
  refine h.of_look ho.cwd fun l hl => ?_
  by_cases hsame : d'.look l = d.look l
  · exact .inl (hsame ▸ hl)
  · obtain ⟨q, -, -, hq⟩ := hnew l hsame
    exact .inr (of_way (ho.cwd ▸ h.cwd) (present_mem_way hq.goal))

theorem opened (h : d.Proper) (p : Path) : (d.opened p).Proper :=
  h.opens (opens_opened d p) (newOn_opened d p)

theorem shrinks (h : d.Proper) (hs : Shrinks loc d d') : d'.Proper :=
  h.of_look hs.cwd fun _ hl => .inl (hs.look_of_ne_none hl ▸ hl)

theorem openFile {change : Option (ByteArray × Bool) → ByteArray × Bool} (h : d.Proper)
    (ho : d.openFile p change = .ok d') : d'.Proper := by
  obtain ⟨g, old, hgoal, -, -, hsame, hlook⟩ := openFile_ok ho
  exact h.update hsame.cwd hlook (of_way h.cwd (location_mem_way hgoal))

theorem write {content : ByteArray} (h : d.Proper) (hw : d.write p content = .ok d') : d'.Proper :=
  h.openFile hw

theorem rename {src dst : Path} (h : d.Proper) (hr : d.rename src dst = .ok d') : d'.Proper := by
  obtain ⟨parent, n, parent', n', -, hdst, -, hcwd, -, ⟨-, rfl⟩ | ⟨-, -, -, hlook⟩⟩ := rename_ok hr
  · exact h
  · refine h.of_look hcwd fun l hl => ?_
    rw [hlook, moved] at hl
    split at hl
    · next hpre =>
        obtain ⟨rest, rfl⟩ := hpre
        rw [List.drop_left] at hl
        refine .inr fun m hm => ?_
        rcases List.mem_append.1 hm with hm | hm
        · exact ((h.look parent' (by rw [hdst.dir]; simp)).concat hdst.proper) m hm
        · exact h.look _ hl m (List.mem_append_right _ hm)
    · split at hl
      · exact absurd rfl hl
      · exact .inl hl

end Proper

end Disk

end Sideload
