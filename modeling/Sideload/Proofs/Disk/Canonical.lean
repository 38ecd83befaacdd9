import Sideload.Installer.Name
import Sideload.Proofs.Disk.Chain
import Sideload.Proofs.Disk.Proper

/-!
Canonical paths. The absolute path of a location takes nothing but the names of the location, so it leads
there as long as the location is there, whatever links there may be elsewhere.
-/

namespace Sideload

namespace View

variable {v : View} {follow : Bool} {links : Nat} {loc l : Location} {names : List Name}
  {steps : List Step}

/-- A walk straight down to something that is there. -/
theorem seek_down {label : Label} (hthere : v (loc ++ names) = some label)
    (hdirs : ∀ front, front <+: names → front ≠ names → v (loc ++ front) = some .dir)
    (hlink : follow = false ∨ ∀ target, label ≠ .link target)
    (hshort : ∀ n ∈ names, ¬ n.byteSize > Disk.maxName) :
    (v.seek follow links loc (names.map .name)).ending = .ok (links, .present (loc ++ names)) := by
  induction names generalizing loc with
  | nil => rw [List.map_nil, seek_nil, List.append_nil]
  | cons n ns ih =>
      have hn := hshort n (List.mem_cons_self ..)
      have hloc : loc ++ n :: ns = loc ++ [n] ++ ns := List.append_cons ..
      rw [hloc] at hthere ⊢
      by_cases hnil : ns = []
      · subst hnil
        rw [List.append_nil] at hthere ⊢
        have hlast : follow = false ∨ ∀ target, v (loc ++ [n]) ≠ some (.link target) :=
          hlink.imp_right fun h target heq => h target (Option.some.inj (hthere.symm.trans heq))
        rw [List.map_singleton, seek_name hn hlast, hthere, if_neg (Option.some_ne_none label)]
      · have hdir : v (loc ++ [n]) = some .dir :=
          hdirs [n] (List.prefix_append [n] ns) fun heq => hnil (List.cons.inj heq).2.symm
        rw [List.map_cons, seek_dir hn hdir, Trip.ending_visit]
        refine ih hthere (fun front hfront hne => ?_) fun m hm => hshort m (List.mem_cons_of_mem _ hm)
        rw [← List.append_cons]
        exact hdirs (n :: front) ((List.prefix_cons_inj n).2 hfront) fun heq =>
          hne (List.cons.inj heq).2

/-- The names of a walk straight down that succeeds are short. -/
theorem short_of_seek_down {found : Nat × Goal}
    (hdirs : ∀ front, front <+: names → front ≠ names → v (loc ++ front) = some .dir)
    (h : (v.seek follow links loc (names.map .name)).ending = .ok found) :
    ∀ n ∈ names, ¬ n.byteSize > Disk.maxName := by
  induction names generalizing loc with
  | nil => exact fun n hn => nomatch hn
  | cons n ns ih =>
      have hn : ¬ n.byteSize > Disk.maxName := by
        intro hlong
        rw [List.map_cons, seek_long hlong] at h
        cases h
      refine List.forall_mem_cons.2 ⟨hn, ?_⟩
      by_cases hnil : ns = []
      · subst hnil
        exact fun m hm => nomatch hm
      · have hdir : v (loc ++ [n]) = some .dir :=
          hdirs [n] (List.prefix_append [n] ns) fun heq => hnil (List.cons.inj heq).2.symm
        rw [List.map_cons, seek_dir hn hdir, Trip.ending_visit] at h
        refine ih (fun front hfront hne => ?_) h
        rw [← List.append_cons]
        exact hdirs (n :: front) ((List.prefix_cons_inj n).2 hfront) fun heq =>
          hne (List.cons.inj heq).2

/-- A walk that follows links does not end at one. -/
theorem ne_link_of_seek {left : Nat} (hv : v.Treelike) (hloc : v loc = some .dir)
    (h : (v.seek true links loc steps).ending = .ok (left, .present l)) (target : Path) :
    v l ≠ some (.link target) := by
  generalize hstop : true = stop at h
  fun_induction v.seek stop links loc steps with
  | case1 =>
      cases h
      simp [hloc]
  | case2 links loc rest ih => exact ih hloc h
  | case3 links loc rest ih => exact ih (hv _ _ hloc (List.dropLast_prefix loc)) h
  | case4 => cases h
  | case5 =>
      dsimp only at h
      split at h <;> cases h
  | case6 links loc n rest hshort target' hlink hend =>
      subst hstop
      simp at hend
  | case7 => cases h
  | case8 => cases h
  | case9 loc n rest hshort target' hlink hend links hempty ih => exact ih (hv.origin hloc target') h
  | case10 links loc n rest hshort hdir ih => exact ih hdir h
  | case11 links loc n rest hshort content x hfile =>
      dsimp only at h
      split at h
      · cases h
        simp [hfile]
      · cases h

end View

/-- An absolute path of names takes these names. -/
theorem Path.course_of_names {p : Path} {names : List Name} (h : p.components = .root :: names.map .name) :
    p.course = names.map .name := by
  rw [course, h, List.filterMap_cons]
  show (names.map Component.name).filterMap courseStep? = _
  rw [List.filterMap_map]
  exact congrFun (List.filterMap_eq_map (f := Step.name)) names

namespace Disk

variable {d : Disk} {p q : Path} {s l : Location} {label : Label}

theorem ne_link_of_goal (h : d.goal p true = .ok (.present l)) (target : Path) :
    d.look l ≠ some (.link target) := by
  obtain ⟨-, hbegins, links, hend⟩ := goal_eq_ok_iff.1 h
  exact View.ne_link_of_seek d.look_treelike hbegins hend target

/-- Locations with names and a path of a length that can be asked for. -/
structure Nameable (s : Location) : Prop where
  admits : admit? (pathOf s) = .ok ()
  short : ∀ n ∈ s, ¬ n.byteSize > maxName

/-- The steps of a canonical path are the names of its location. -/
theorem steps_pathOf (hs : s.Proper) (hne : s ≠ []) : (pathOf s).steps = s.map .name := by
  have hsplit := Path.splitSlash_ofSegments (a := .root) ⟨fun n hn => (hs n hn).no_slash, nofun⟩ hne
  obtain ⟨front, n, rfl⟩ := (List.eq_nil_or_concat' s).resolve_left hne
  have hn : n.Proper := hs n (by simp)
  have hslash : (pathOf (front ++ [n])).endsInSlash = false := by
    refine (@Path.last_of_split _ n ([] :: front) ?_ hn).2
    exact hsplit
  have hall : ([] :: (front ++ [n])).filter (· ≠ []) = front ++ [n] := by
    rw [List.filter_cons_of_neg (by simp)]
    exact List.filter_eq_self.2 fun m hm => by simpa using (hs m hm).ne_nil
  have hnames : (front ++ [n]).map Step.ofSegment = (front ++ [n]).map .name :=
    List.map_congr_left fun m hm => by
      rw [Step.ofSegment, if_neg (hs m hm).ne_dot, if_neg (hs m hm).ne_dotDot]
  rw [Path.steps_eq, hslash, if_neg Bool.false_ne_true, List.append_nil, Path.segments, pathOf, hsplit]
  show (([] :: (front ++ [n])).filter (· ≠ [])).map Step.ofSegment = _
  rw [hall, hnames]

/-- A canonical path leads to its location, if something is there. -/
theorem goal_pathOf (hs : s.Proper) (hname : Nameable s) (hroot : d.look [] = some .dir)
    (hthere : d.look s = some label) (hlink : ∀ target, label ≠ .link target) :
    d.goal (pathOf s) true = .ok (.present s) := by
  have horigin : d.origin (pathOf s) = [] := if_pos (by cases s <;> rfl)
  refine goal_eq_ok_iff.2 ⟨hname.admits, by rw [horigin, hroot], maxLinks, ?_⟩
  rw [trip, horigin]
  by_cases hne : s = []
  · subst hne
    show (d.look.seek true maxLinks [] [.here]).ending = _
    rw [View.seek_here, View.seek_nil]
  · rw [steps_pathOf hs hne]
    refine View.seek_down hthere (fun front hfront hfront' => ?_) (.inr hlink) hname.short
    obtain ⟨rest, rfl⟩ := hfront
    have hnil : rest ≠ [] := fun h => hfront' (by rw [h, List.append_nil])
    refine Node.look_eq_dir_of_append hnil ?_
    show d.look (front ++ rest) ≠ none
    rw [hthere]
    exact Option.some_ne_none label

/-- A canonical path that leads somewhere is of a length that can be asked for, if its location is there. -/
theorem nameable_of_goal {g : Goal} (hs : s.Proper) (hthere : d.look s ≠ none)
    (hg : d.goal (pathOf s) true = .ok g) : Nameable s := by
  obtain ⟨hadmits, -, links, hend⟩ := goal_eq_ok_iff.1 hg
  refine ⟨hadmits, ?_⟩
  by_cases hne : s = []
  · subst hne
    exact fun n hn => nomatch hn
  · have horigin : d.origin (pathOf s) = [] := if_pos (by cases s <;> rfl)
    rw [trip, horigin, steps_pathOf hs hne] at hend
    refine View.short_of_seek_down (fun front hfront hfront' => ?_) hend
    obtain ⟨rest, rfl⟩ := hfront
    exact Node.look_eq_dir_of_append (fun h => hfront' (by rw [h, List.append_nil])) hthere

/-- A path that takes nothing but the names of a directory goes straight down to it. -/
theorem enters_straight {l : Location} (hcomponents : p.components = .root :: l.map .name)
    (hadmits : admit? p = .ok ()) (hshort : ∀ n ∈ l, ¬ n.byteSize > maxName) (hdir : d.look l = some .dir) :
    d.Enters p l ∧ ∀ l' ∈ d.way p true, l' <+: l := by
  have habsolute : p.isAbsolute = true := by
    rw [Path.isAbsolute_iff, hcomponents]
    rfl
  have hcourse := Path.course_of_names hcomponents
  have horigin : d.origin p = [] := if_pos habsolute
  have hroot : d.look [] = some .dir := look_eq_dir_above hdir List.nil_prefix
  have hplain : d.look.Plain [] l := fun front hfront => .inr (look_eq_dir_above hdir hfront)
  have hfilter : (p.steps.filter fun s => !s.isHere) = l.map .name := by
    rw [← hcourse, Path.course_eq, Path.steps_eq, List.filter_append]
    split
    · exact List.append_nil _
    · exact List.append_nil _
  have hhere := View.seek_filter_here d.look maxLinks [] p.steps
  rw [hfilter] at hhere
  rcases View.seek_names d.look_treelike hplain hroot (List.cons_ne_nil Step.here []) maxLinks with
    ⟨-, hseek⟩ | ⟨e, -, hmissing⟩
  · rw [hhere, View.seek_here, View.seek_nil, List.nil_append, List.append_nil] at hseek
    obtain ⟨hvisited, -⟩ := View.seek_concat_here d.look maxLinks [] p.steps
    have hend := (View.present_of_seek_here (congrArg Trip.ending hseek)).2
    refine ⟨⟨goal_eq_ok_iff.2 ⟨hadmits, horigin ▸ hroot, maxLinks, ?_⟩, hdir⟩, fun l' hl' => ?_⟩
    · rw [trip, horigin]
      exact hend
    · rcases List.mem_append.1 hl' with hl' | hl'
      · rw [horigin] at hl'
        rw [List.prefix_nil.1 ((List.mem_inits _ _).1 hl')]
        exact List.nil_prefix
      · rw [trip, horigin, ← hvisited, hseek] at hl'
        obtain ⟨front, hfront, -, rfl⟩ := View.mem_passed.1 hl'
        exact hfront
  · cases (hmissing hshort).2.symm.trans hdir

/-- The components of a canonical path are the names of its location. -/
theorem components_pathOf (hs : s.Proper) : (pathOf s).components = .root :: s.map .name := by
  have hfits : Path.Fits .root s := ⟨fun n hn => (hs n hn).no_slash, nofun⟩
  rw [pathOf, Path.components_ofSegments hfits]
  refine congrArg (Path.Component.root :: ·) ?_
  have hall : s.filter (fun n => !Path.isBlank n) = s := List.filter_eq_self.2 fun n hn => by
    simp [Path.isBlank, (hs n hn).ne_nil, (hs n hn).ne_dot]
  rw [Path.bodyComponents, hall]
  exact List.map_congr_left fun n hn => if_neg (hs n hn).ne_dotDot

end Disk

open Disk

variable {d : Disk} {source p : Path} {s : Location} {label : Label}

/-- A source is resolved to the canonical path of the place that it leads to. -/
theorem resolveSource_eq_ok_iff : resolveSource d source = .ok p ↔
    ∃ s, d.goal source true = .ok (.present s) ∧ p = pathOf s := by
  unfold resolveSource exists_ stat canonical
  rcases find_eq d source true with ⟨spot, hfind, hfits, hgoal⟩ | ⟨e, hfind, hgoal⟩
  · rw [hfind, hgoal]
    cases spot with
    | present c =>
        refine ⟨fun h => ⟨c.location, rfl, ?_⟩, ?_⟩
        · cases h
          rfl
        · rintro ⟨s, hs, rfl⟩
          cases hs
          rfl
    | vacant c n => exact ⟨nofun, fun ⟨_, h, _⟩ => nomatch h⟩
  · rw [hfind, hgoal]
    exact ⟨nofun, fun ⟨_, h, _⟩ => nomatch h⟩

end Sideload
