import Sideload.Proofs.Path

/-!
The last names of paths. Most changes of the disk happen at the entry that a path names in a directory
that is there: `Slot` says which entry that is, and `approach` is what is looked up to find the
directory. `Enters` says that a path leads to a directory.
-/

namespace Sideload

namespace Path

/-- The steps that lead to the directory of the last name. -/
def lead (p : Path) : List Step := p.segments.dropLast

end Path

namespace Disk

variable {d d' : Disk} {p : Path} {parent : Location} {n : Name}

/-- The walk to the directory that holds the last name of a path. -/
def leadTrip (d : Disk) (p : Path) : Trip :=
  d.look.seek true maxLinks (d.origin p) (p.lead ++ [.here])

/-- Everything that is looked up to find the directory of the last name. -/
def approach (d : Disk) (p : Path) : List Location := (d.origin p).inits ++ (d.leadTrip p).visited

/-- The path names the entry `n` of the directory `parent`. -/
structure Slot (d : Disk) (p : Path) (parent : Location) (n : Name) : Prop where
  admits : admit? p = .ok ()
  begins : d.look (d.origin p) = some .dir
  last : p.segments.getLast? = some (.name n)
  enters : ∃ links, (d.leadTrip p).ending = .ok (links, .present parent)
  dir : d.look parent = some .dir
  short : ¬ n.byteSize > maxName

theorem ofSegment_eq_name {m n : Name} (h : Step.ofSegment m = .name n) :
    m = n ∧ m ≠ Name.dot ∧ m ≠ Name.dotDot := by
  unfold Step.ofSegment at h
  split at h
  · cases h
  · next hdot =>
      split at h
      · cases h
      · next hup =>
          cases h
          exact ⟨rfl, hdot, hup⟩

theorem agree_lead (d : Disk) (p : Path) {c : Cursor} (hc : c.Fits d.root)
    (hloc : c.location = d.origin p) :
    Agree d.root
      (walk d.top true maxLinks c
        ((((splitSlash p.glyphs).filter (· ≠ [])).dropLast.map Step.ofSegment) ++ [.here]))
      (d.leadTrip p).ending := by
  rw [leadTrip, Path.lead, Path.segments, ← List.map_dropLast, ← hloc]
  exact agree_walk hc

/-- Where something can be made or taken away is the entry that the path names. -/
theorem slot_of_place {spot : Place} (h : d.place p = .ok spot) (hlast : spot.last = .name n) :
    d.Slot p spot.parent.location n ∧ spot.parent.Fits d.root ∧ spot.slash = p.endsInSlash := by
  unfold place at h
  cases hadmits : admit? p with
  | error e => rw [hadmits] at h; cases h
  | ok u =>
      rcases start_eq d p with ⟨c, hc, hfits, hloc, hbegin⟩ | ⟨hnone, -⟩ | ⟨hnot, -⟩
      · have hagree := agree_lead d p hfits hloc
        rw [hadmits, hc] at h
        simp only [bind, Except.bind, Except.mapError] at h
        split at h
        · cases h
          cases hlast
        · next m hm =>
            generalize walk d.top true maxLinks c _ = found at hagree h
            generalize hend : (d.leadTrip p).ending = ending at hagree
            cases hagree with
            | error e => cases h
            | @ok s links hs =>
                cases s with
                | vacant c' k => cases h
                | present c' =>
                    simp only at h
                    split at h
                    · cases h
                    next hdir =>
                    split at h
                    · cases h
                      cases hlast
                    next hdot =>
                    split at h
                    · cases h
                      cases hlast
                    next hup =>
                    split at h
                    · cases h
                    next hshort =>
                    cases h
                    cases hlast
                    have hisDir : c'.node.label = .dir := by
                      simpa [Node.isDir_iff] using hdir
                    refine ⟨⟨hadmits, hbegin, ?_, ⟨links, hend⟩, ?_, hshort⟩, hs, rfl⟩
                    · rw [Path.segments, List.getLast?_map, hm, Option.map_some, Step.ofSegment,
                        if_neg hdot, if_neg hup]
                    · rw [← hisDir]
                      exact hs.look
      · rw [hadmits, hnone] at h
        cases h
      · rw [hadmits, hnot] at h
        cases h

theorem Slot.place (h : d.Slot p parent n) :
    ∃ c, d.place p = .ok ⟨c, .name n, p.endsInSlash⟩ ∧ c.location = parent ∧ c.Fits d.root := by
  rcases start_eq d p with ⟨c, hc, hfits, hloc, -⟩ | ⟨-, hnone⟩ | ⟨-, -, hnot⟩
  · have hagree := agree_lead d p hfits hloc
    obtain ⟨links, hend⟩ := h.enters
    have hlast := h.last
    rw [Path.segments, List.getLast?_map, Option.map_eq_some_iff] at hlast
    obtain ⟨m, hm, hmn⟩ := hlast
    obtain ⟨rfl, hdot, hup⟩ := ofSegment_eq_name hmn
    unfold Disk.place
    rw [h.admits, hc]
    simp only [bind, Except.bind, Except.mapError]
    rw [hm]
    generalize walk d.top true maxLinks c _ = found at hagree ⊢
    rw [hend] at hagree
    generalize hg : Goal.present parent = g at hagree
    cases hagree with
    | @ok s links hs =>
        cases s with
        | vacant c' k => cases hg
        | present c' =>
            cases hg
            have hdir : c'.node.isDir = true := by
              rw [Node.isDir_iff, ← Option.some_inj, ← h.dir]
              exact hs.look.symm
            refine ⟨c', ?_, rfl, hs⟩
            simp only [hdir, Bool.not_true, Bool.false_eq_true, if_false, if_neg hdot, if_neg hup,
              if_neg h.short]
  · exact absurd (hnone.symm.trans h.begins) (by simp)
  · exact absurd h.begins hnot

theorem leadTrip_eq (d : Disk) (h : p.segments.getLast? = some (.name n)) :
    d.leadTrip p =
      d.look.seek true maxLinks (d.origin p) (p.course.dropLast ++ [.here]) := by
  have hsegments : p.segments = p.lead ++ [.name n] := (List.dropLast_append_getLast? _ h).symm
  have hcourse : p.course.dropLast = p.lead.filter fun s => !s.isHere := by
    rw [Path.course_eq, hsegments, List.filter_append]
    simp [Step.isHere]
  rw [hcourse, View.seek_filter_here, leadTrip]

theorem trip_eq_lead {follow : Bool} (h : p.segments.getLast? = some (.name n))
    (hslash : p.endsInSlash = false) : d.trip p follow =
      (d.leadTrip p).andThen fun links loc => d.look.seek follow links loc [.name n] := by
  have hsteps : p.steps = p.lead ++ [.name n] := by
    rw [Path.steps_eq, hslash, Path.lead]
    simpa using (List.dropLast_append_getLast? _ h).symm
  rw [trip, hsteps, View.seek_append _ _ _ _ _ (by simp)]
  rfl

theorem look_ne_none_above {l loc : Location} (h : d.look loc ≠ none) (hl : l <+: loc) :
    d.look l ≠ none := by
  obtain ⟨rest, rfl⟩ := hl
  by_cases hnil : rest = []
  · rwa [hnil, List.append_nil] at h
  · rw [look, Node.look_eq_dir_of_append hnil h]
    simp

namespace Slot

/-- The path leads to the entry, if the entry is not a link that is followed. -/
theorem goal {follow : Bool} (h : d.Slot p parent n) (hslash : p.endsInSlash = false)
    (hlink : follow = false ∨ ∀ target, d.look (parent ++ [n]) ≠ some (.link target)) :
    d.goal p follow = .ok (if d.look (parent ++ [n]) = none then .vacant parent n else
      .present (parent ++ [n])) := by
  obtain ⟨links, hend⟩ := h.enters
  refine goal_eq_ok_iff.2 ⟨h.admits, h.begins, links, ?_⟩
  rw [trip_eq_lead h.last hslash, Trip.andThen, hend]
  simp only [Goal.location_present]
  rw [View.seek_name h.short hlink]

theorem see {follow : Bool} (h : d.Slot p parent n) (hslash : p.endsInSlash = false)
    (hlink : follow = false ∨ ∀ target, d.look (parent ++ [n]) ≠ some (.link target)) :
    d.see p follow = answer (d.look (parent ++ [n])) := by
  unfold Disk.see
  rw [h.goal hslash hlink]
  by_cases hv : d.look (parent ++ [n]) = none
  · simp only [if_pos hv, Goal.location_vacant]
  · simp only [if_neg hv, Goal.location_present]

/-- The directories above the entry are on the way. -/
theorem mem_approach (h : d.Slot p parent n) {l : Location} (hl : l <+: parent) :
    l ∈ d.approach p := by
  obtain ⟨links, hend⟩ := h.enters
  have hstart : ∀ {l}, l <+: d.origin p → l ∈ d.approach p := fun hl =>
    List.mem_append_left _ ((List.mem_inits _ _).2 hl)
  rcases View.location_of_seek hend with hp | hp
  · rcases View.prefix_of_visited hp hl with h | h
    · exact List.mem_append_right _ h
    · exact hstart h
  · exact hstart (hl.trans hp)

/-- Everything on the way to a directory is there. -/
theorem look_ne_none (h : d.Slot p parent n) {l : Location} (hl : l ∈ d.approach p) :
    d.look l ≠ none := by
  obtain ⟨links, hend⟩ := h.enters
  rcases List.mem_append.1 hl with hl | hl
  · exact look_ne_none_above (by rw [h.begins]; simp) ((List.mem_inits _ _).1 hl)
  · exact View.ne_none_of_seek hend l hl

/-- A disk that agrees about the way has the same entry there. -/
theorem congr (h : d.Slot p parent n) (hcwd : d'.cwd = d.cwd)
    (hlook : ∀ l ∈ d.approach p, d'.look l = d.look l) :
    d'.Slot p parent n ∧ d'.approach p = d.approach p := by
  have horigin : d'.origin p = d.origin p := by rw [origin, origin, hcwd]
  have htrip : d'.leadTrip p = d.leadTrip p := by
    rw [leadTrip, horigin]
    exact View.seek_congr fun l hl => hlook l (List.mem_append_right _ hl)
  refine ⟨⟨h.admits, ?_, h.last, ?_, ?_, h.short⟩, ?_⟩
  · rw [horigin, hlook _ (List.mem_append_left _ ((List.mem_inits _ _).2 (List.prefix_refl _)))]
    exact h.begins
  · rw [htrip]
    exact h.enters
  · rw [hlook _ (h.mem_approach (List.prefix_refl _))]
    exact h.dir
  · rw [approach, horigin, htrip, approach]

/-- Another name in the same directory. -/
theorem sibling (h : d.Slot p parent n) {q : Path} {m : Name} {front : List Path.Component}
    (hp : p.components = front ++ [.name n]) (hq : q.components = front ++ [.name m])
    (hadmits : admit? q = .ok ()) (hlast : q.segments.getLast? = some (.name m))
    (hshort : ¬ m.byteSize > maxName) : d.Slot q parent m ∧ d.approach q = d.approach p := by
  have horigin : d.origin q = d.origin p := by
    rw [origin, origin, Path.isAbsolute_concat hp hq]
  have htrip : d.leadTrip q = d.leadTrip p := by
    rw [leadTrip_eq d hlast, leadTrip_eq d h.last, horigin, Path.course, Path.course, hp, hq,
      List.filterMap_append, List.filterMap_append]
    simp [Path.courseStep?]
  refine ⟨⟨hadmits, horigin ▸ h.begins, hlast, htrip ▸ h.enters, h.dir, hshort⟩, ?_⟩
  rw [approach, approach, horigin, htrip]

theorem unique {parent' : Location} {n' : Name} (h : d.Slot p parent n)
    (h' : d.Slot p parent' n') : parent' = parent ∧ n' = n := by
  obtain ⟨links, hend⟩ := h.enters
  obtain ⟨links', hend'⟩ := h'.enters
  cases hend.symm.trans hend'
  cases h.last.symm.trans h'.last
  exact ⟨rfl, rfl⟩

end Slot

/-! ### Directories -/

variable {dir : Path}

/-- The path leads to the directory at a location. -/
structure Enters (d : Disk) (dir : Path) (loc : Location) : Prop where
  goal : d.goal dir true = .ok (.present loc)
  dir : d.look loc = some .dir

theorem isDir_iff : d.isDir dir = true ↔ ∃ loc, d.Enters dir loc := by
  rw [isDir_see, see_eq_ok_iff]
  exact exists_congr fun loc => ⟨fun h => ⟨h.1, h.2⟩, fun h => ⟨h.goal, h.dir⟩⟩

namespace Enters

variable {loc : Location} {q : Path}

/-- The walk to a directory takes the course of the path. -/
theorem seek (h : d.Enters dir loc) :
    ∃ links, d.look.seek true maxLinks (d.origin dir) (dir.course ++ [.here]) =
      ⟨(d.trip dir true).visited, .ok (links, .present loc)⟩ := by
  obtain ⟨-, -, links, hend⟩ := goal_eq_ok_iff.1 h.goal
  refine ⟨links, ?_⟩
  rw [Path.course_eq, View.seek_filter_here]
  unfold trip at hend ⊢
  rw [Path.steps_eq] at hend ⊢
  by_cases hslash : dir.endsInSlash = true
  · rw [if_pos hslash] at hend ⊢
    rw [← hend]
  · rw [if_neg hslash, List.append_nil] at hend ⊢
    have hhere := View.seek_here_of_dir hend h.dir
    rw [Goal.location_present] at hhere
    rw [← hhere, ← (View.seek_concat_here _ _ _ _).1]

theorem congr (h : d.Enters dir loc) (hcwd : d'.cwd = d.cwd)
    (hlook : ∀ l ∈ d.way dir true, d'.look l = d.look l) :
    d'.Enters dir loc ∧ d'.way dir true = d.way dir true := by
  refine ⟨⟨?_, ?_⟩, way_congr hcwd hlook⟩
  · rw [goal_congr hcwd hlook, h.goal]
  · rw [hlook _ (present_mem_way h.goal)]
    exact h.dir

theorem mem_way (h : d.Enters dir loc) {l : Location} (hl : l <+: loc) : l ∈ d.way dir true :=
  prefix_of_way (present_mem_way h.goal) hl

/-- Everything on the way to a directory is there. -/
theorem look_ne_none (h : d.Enters dir loc) {l : Location} (hl : l ∈ d.way dir true) :
    d.look l ≠ none := by
  obtain ⟨-, hbegin, links, hend⟩ := goal_eq_ok_iff.1 h.goal
  rcases List.mem_append.1 hl with hl | hl
  · exact look_ne_none_above (by rw [hbegin]; simp) ((List.mem_inits _ _).1 hl)
  · exact View.ne_none_of_seek hend l hl

theorem unique (h : d.Enters dir loc) {loc' : Location} (h' : d.Enters dir loc') : loc' = loc := by
  cases h.goal.symm.trans h'.goal
  rfl

/-- The walk to a name in a directory is the walk to the directory. -/
theorem leadTrip (h : d.Enters dir loc) (hq : q.Extends dir [n])
    (hlast : q.segments.getLast? = some (.name n)) :
    ∃ links, d.leadTrip q = ⟨(d.trip dir true).visited, .ok (links, .present loc)⟩ := by
  obtain ⟨links, hseek⟩ := h.seek
  have horigin : d.origin q = d.origin dir := by rw [origin, origin, hq.absolute]
  refine ⟨links, ?_⟩
  rw [leadTrip_eq d hlast, horigin, ← hseek, hq.course]
  simp

/-- A name in a directory that is there. -/
theorem slot (h : d.Enters dir loc) (hq : q.Extends dir [n]) (hadmits : admit? q = .ok ())
    (hlast : q.segments.getLast? = some (.name n)) (hshort : ¬ n.byteSize > maxName) :
    d.Slot q loc n ∧ d.approach q = d.way dir true := by
  obtain ⟨links, htrip⟩ := h.leadTrip hq hlast
  obtain ⟨-, hbegin, -⟩ := goal_eq_ok_iff.1 h.goal
  have horigin : d.origin q = d.origin dir := by rw [origin, origin, hq.absolute]
  refine ⟨⟨hadmits, horigin ▸ hbegin, hlast, ⟨links, by rw [htrip]⟩, h.dir, hshort⟩, ?_⟩
  rw [approach, horigin, htrip, way]

end Enters

/-- A path leads to an entry that is a directory, with or without a slash at the end. -/
theorem Slot.goal_dir (h : d.Slot p parent n) (hdir : d.look (parent ++ [n]) = some .dir)
    (follow : Bool) : d.goal p follow = .ok (.present (parent ++ [n])) := by
  obtain ⟨links, hend⟩ := h.enters
  have hname : ∀ rest, d.look.seek follow links parent (.name n :: rest) =
      (d.look.seek follow links (parent ++ [n]) rest).visit (parent ++ [n]) :=
    fun rest => View.seek_dir h.short hdir
  have hsteps : p.steps = p.lead ++ .name n :: if p.endsInSlash then [.here] else [] := by
    rw [Path.steps_eq, ← List.dropLast_append_getLast? _ h.last, Path.lead]
    simp
  refine goal_eq_ok_iff.2 ⟨h.admits, h.begins, links, ?_⟩
  rw [trip, hsteps, View.seek_append _ _ _ _ _ (by simp), ← leadTrip, Trip.andThen, hend]
  simp only [Goal.location_present, hname]
  split
  · rw [View.seek_here, View.seek_nil]
    rfl
  · rw [View.seek_nil]
    rfl

theorem Slot.enters_entry (h : d.Slot p parent n) (hdir : d.look (parent ++ [n]) = some .dir) :
    d.Enters p (parent ++ [n]) := ⟨h.goal_dir hdir true, hdir⟩

/-- The way to a directory leads over the way to the directories above it. -/
theorem Enters.way_subset {loc loc' : Location} {q : Path} (h : d.Enters dir loc)
    (hq : d.Enters q loc') (habsolute : q.isAbsolute = dir.isAbsolute)
    (hcourse : q.course <+: dir.course) : ∀ l ∈ d.way q true, l ∈ d.way dir true := by
  obtain ⟨links, hseek⟩ := h.seek
  obtain ⟨links', hseek'⟩ := hq.seek
  have horigin : d.origin q = d.origin dir := by rw [origin, origin, habsolute]
  obtain ⟨rest, hrest⟩ := hcourse
  rw [← hrest, List.append_assoc, View.seek_append _ _ _ _ _ (by simp), ← horigin, hseek',
    Trip.andThen] at hseek
  have hvisited := congrArg Trip.visited hseek
  simp only at hvisited
  intro l hl
  rw [way, ← horigin, ← hvisited]
  rcases List.mem_append.1 hl with hl | hl
  · exact List.mem_append_left _ hl
  · exact List.mem_append_right _ (List.mem_append_left _ hl)

/-- The directory of a name is where a path leads that is one name shorter. -/
theorem Slot.enters_upper (h : d.Slot p parent n) (hp : p.Extends dir [n]) (hadmits : admit? dir = .ok ()) :
    d.Enters dir parent := by
  obtain ⟨links, hend⟩ := h.enters
  have horigin : d.origin p = d.origin dir := by rw [origin, origin, hp.absolute]
  have htrip : d.leadTrip p =
      d.look.seek true maxLinks (d.origin dir) (dir.segments ++ [.here]) := by
    rw [leadTrip_eq d h.last, horigin, ← View.seek_filter_here _ _ _ dir.segments,
      ← Path.course_eq, hp.course]
    simp
  rw [htrip] at hend
  refine ⟨goal_eq_ok_iff.2 ⟨hadmits, horigin ▸ h.begins, links, ?_⟩, h.dir⟩
  unfold trip
  rw [Path.steps_eq]
  by_cases hslash : dir.endsInSlash = true
  · rw [if_pos hslash, hend]
  · rw [if_neg hslash, List.append_nil, (View.present_of_seek_here hend).2]

/-- The directory of a name is where the path without that name leads. -/
theorem Slot.enters_dir (h : d.Slot p parent n) (hp : p.components = dir.components ++ [.name n])
    (hadmits : admit? dir = .ok ()) : d.Enters dir parent := h.enters_upper (.of_concat hp) hadmits

/-- The name that a path adds to the path of a directory is an entry of that directory. -/
theorem Enters.slot_adds {loc : Location} {q : Path} {m : Name} (h : d.Enters dir loc)
    (hq : q.Adds dir n) (hslot : d.Slot q parent m) :
    parent = loc ∧ m = n ∧ d.approach q = d.way dir true := by
  obtain rfl : m = n := by
    have hlast := hslot.last.symm.trans hq.last
    cases hlast
    rfl
  obtain ⟨hslot', happroach⟩ := h.slot hq.route hslot.admits hslot.last hslot.short
  exact ⟨(hslot'.unique hslot).1, rfl, happroach⟩

end Disk

end Sideload
