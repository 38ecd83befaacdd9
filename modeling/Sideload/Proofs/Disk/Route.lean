import Sideload.Proofs.Disk.Trip

/-!
What a path names, told by locations. A walk over cursors is the walk over the labels of their
tree, so every question to the disk has an answer in terms of `look`: `goal` is where a path leads,
`see` is the label there, and `way` is everything that is looked up to find out.
-/

namespace Sideload

namespace Disk

/-- The label at a location of the disk. -/
def look (d : Disk) : View := d.root.look

/-! ### Cursors and locations -/

/-- Cursors that stand in a tree. -/
inductive Cursor.Fits (root : Node) : Cursor → Prop
  | top : Fits root ⟨root, []⟩
  | down {c : Cursor} {n : Name} {m : Node} (h : Fits root c) (hm : c.node.child? n = some m) :
      Fits root (c.down n m)

namespace Cursor

@[simp] theorem location_top (root : Node) : (⟨root, []⟩ : Cursor).location = [] := rfl

@[simp] theorem location_down (c : Cursor) (n : Name) (m : Node) :
    (c.down n m).location = c.location ++ [n] := by
  simp [location, down]

@[simp] theorem location_up (c : Cursor) : c.up.location = c.location.dropLast := by
  unfold up
  split
  · next h => simp [location, h]
  · next h => simp [location, h]

variable {root : Node} {c : Cursor}

namespace Fits

theorem get? (h : c.Fits root) : root.get? c.location = some c.node := by
  induction h with
  | top => simp
  | down _ hm ih =>
      rw [location_down, Node.get?_append, ih, Option.bind_some, Node.get?_cons, hm]
      simp [Cursor.down]

theorem look (h : c.Fits root) : root.look c.location = some c.node.label := by
  rw [Node.look, h.get?]
  rfl

theorem look_child (h : c.Fits root) (n : Name) :
    root.look (c.location ++ [n]) = (c.node.child? n).map Node.label := by
  rw [Node.look_append h.get?, Node.look_cons]
  cases c.node.child? n <;> simp

theorem up (h : c.Fits root) : c.up.Fits root := by
  cases h with
  | top => exact .top
  | down h _ => exact h

/-- The directory above a cursor has its node under the name that led down. -/
theorem above {m up : Node} {n : Name} {rest : List (Name × Node)}
    (h : (⟨m, (n, up) :: rest⟩ : Cursor).Fits root) :
    (⟨up, rest⟩ : Cursor).Fits root ∧ up.child? n = some m := by
  generalize hc : (⟨m, (n, up) :: rest⟩ : Cursor) = c at h
  cases h with
  | top => cases hc
  | down h hm =>
      cases hc
      exact ⟨h, hm⟩

end Fits

end Cursor

/-- Following the names of a location succeeds just where there is a node. -/
theorem descend_eq {root : Node} {c : Cursor} (h : c.Fits root) (loc : Location) :
    (∃ c', descend c loc = some c' ∧ c'.Fits root ∧ c'.location = c.location ++ loc ∧
      c.node.look loc ≠ none) ∨ (descend c loc = none ∧ c.node.look loc = none) := by
  induction loc generalizing c with
  | nil => exact .inl ⟨c, rfl, h, by simp, by simp⟩
  | cons n loc ih =>
      unfold descend
      rw [Node.look_cons]
      cases hm : c.node.child? n with
      | none => exact .inr ⟨rfl, rfl⟩
      | some m =>
          have hdown := Cursor.Fits.down h hm
          rcases ih hdown with ⟨c', hc', hfits, hloc, hlook⟩ | ⟨hnone, hlook⟩
          · refine .inl ⟨c', hc', hfits, ?_, hlook⟩
            rw [hloc, Cursor.location_down, List.append_assoc, List.singleton_append]
          · exact .inr ⟨hnone, hlook⟩

namespace Spot

/-- The end of a walk, told by locations. -/
def goal : Spot → Goal
  | present c => .present c.location
  | vacant c n => .vacant c.location n

def Fits (root : Node) : Spot → Prop
  | present c => c.Fits root
  | vacant c _ => c.Fits root

end Spot

/-- The end of a walk over cursors and that of the walk over labels. -/
inductive Agree (root : Node) : Except OsError Spot → Except OsError (Nat × Goal) → Prop
  | ok {s : Spot} (links : Nat) (h : s.Fits root) : Agree root (.ok s) (.ok (links, s.goal))
  | error (e : OsError) : Agree root (.error e) (.error e)

/-- A walk over cursors is the walk over labels. -/
theorem agree_walk {root : Node} {follow : Bool} {links : Nat} {c : Cursor} {steps : List Step}
    (h : c.Fits root) :
    Agree root (walk ⟨root, []⟩ follow links c steps)
      (root.look.seek follow links c.location steps).ending := by
  have hchild : ∀ {c : Cursor} {n : Name} {o : Option Node}, c.Fits root → c.node.child? n = o →
      root.look (c.location ++ [n]) = o.map Node.label :=
    fun hc ho => ho ▸ hc.look_child _
  fun_induction walk ⟨root, []⟩ follow links c steps with
  | case1 links c =>
      rw [View.seek_nil]
      exact .ok links (s := .present c) h
  | case2 links c rest ih =>
      rw [View.seek_here]
      exact ih h
  | case3 links c rest ih =>
      rw [View.seek_up, ← Cursor.location_up]
      exact ih h.up
  | case4 links c n rest hlong =>
      rw [View.seek_long hlong]
      exact .error _
  | case5 links c n rest hshort hnone hrest =>
      rw [View.seek_none hshort (hchild h hnone), if_pos hrest]
      exact .ok links (s := .vacant c n) h
  | case6 links c n rest hshort hnone hrest =>
      rw [View.seek_none hshort (hchild h hnone), if_neg hrest]
      exact .error _
  | case7 links c n rest hshort target hlink hend =>
      obtain ⟨rfl, rfl⟩ : rest = [] ∧ follow = false := by simpa using hend
      rw [View.seek_stop hshort (hchild h hlink), ← Cursor.location_down]
      exact .ok links (s := .present (c.down n (.link target))) (h.down hlink)
  | case8 c n rest hshort target hlink hend =>
      rw [View.seek_no_links hshort (hchild h hlink) hend]
      exact .error _
  | case9 c n rest hshort target hlink hend links hempty =>
      rw [View.seek_empty_link hshort (hchild h hlink) hend hempty]
      exact .error _
  | case10 c n rest hshort target hlink hend links hempty ih =>
      rw [View.seek_link hshort (hchild h hlink) hend hempty, Trip.ending_visit]
      unfold Path.origin
      split at ih
      · next habs =>
          rw [if_pos habs, if_pos habs]
          exact ih .top
      · next habs =>
          rw [if_neg habs, if_neg habs]
          exact ih h
  | case11 links c n rest hshort es hdir ih =>
      rw [View.seek_dir hshort (hchild h hdir), Trip.ending_visit, ← Cursor.location_down]
      exact ih (h.down hdir)
  | case12 links c n rest hshort content x hfile hrest =>
      rw [View.seek_file hshort (hchild h hfile), if_pos hrest, ← Cursor.location_down]
      exact .ok links (s := .present (c.down n (.file content x))) (h.down hfile)
  | case13 links c n rest hshort content x hfile hrest =>
      rw [View.seek_file hshort (hchild h hfile), if_neg hrest]
      exact .error _

end Disk

namespace Path

/-- The steps of a path without the one that a slash at its end stands for. -/
def segments (p : Path) : List Step :=
  ((splitSlash p.glyphs).filter (· ≠ [])).map Step.ofSegment

theorem steps_eq (p : Path) : p.steps = p.segments ++ if p.endsInSlash then [.here] else [] := rfl

end Path

namespace Disk

/-! ### Where paths lead -/

variable {d d' : Disk} {p : Path} {follow : Bool}

/-- The location that a path starts from. -/
def origin (d : Disk) (p : Path) : Location := if p.isAbsolute then [] else d.cwd

def trip (d : Disk) (p : Path) (follow : Bool) : Trip :=
  d.look.seek follow maxLinks (d.origin p) p.steps

/-- Everything that is looked up to follow a path. -/
def way (d : Disk) (p : Path) (follow : Bool) : List Location :=
  (d.origin p).inits ++ (d.trip p follow).visited

/-- Where a path leads. -/
def goal (d : Disk) (p : Path) (follow : Bool) : Except IoError Goal :=
  match admit? p, d.look (d.origin p), (d.trip p follow).ending with
  | .error e, _, _ => .error e
  | .ok (), none, _ => .error (.os .noEntry)
  | .ok (), some .dir, .error e => .error (.os e)
  | .ok (), some .dir, .ok (_, g) => .ok g
  | .ok (), some _, _ => .error (.os .notDirectory)

/-- What there is at a place, as the answer to a question. -/
def answer : Option Label → Except IoError Label
  | some label => .ok label
  | none => .error (.os .noEntry)

/-- The label where a path leads. -/
def see (d : Disk) (p : Path) (follow : Bool) : Except IoError Label :=
  match d.goal p follow with
  | .error e => .error e
  | .ok g => answer (d.look g.location)

theorem goal_eq_ok_iff {g : Goal} : d.goal p follow = .ok g ↔
    admit? p = .ok () ∧ d.look (d.origin p) = some .dir ∧
      ∃ links, (d.trip p follow).ending = .ok (links, g) := by
  unfold goal
  split
  · next hadmits => exact ⟨nofun, fun h => nomatch hadmits.symm.trans h.1⟩
  · next _ hnone => exact ⟨nofun, fun h => nomatch hnone.symm.trans h.2.1⟩
  · next hend => exact ⟨nofun, fun ⟨_, _, _, h⟩ => nomatch hend.symm.trans h⟩
  · next links g' hadmits hdir hend =>
      constructor
      · intro h
        cases h
        exact ⟨hadmits, hdir, links, hend⟩
      · rintro ⟨-, -, links', h⟩
        cases hend.symm.trans h
        rfl
  · next _ hlabel _ hnot =>
      refine ⟨nofun, fun ⟨_, hdir, links, hend⟩ => ?_⟩
      exact absurd (Option.some.inj (hlabel.symm.trans hdir)) (hnot links g hend)

theorem start_eq (d : Disk) (p : Path) :
    (∃ c, d.start p = .ok c ∧ c.Fits d.root ∧ c.location = d.origin p ∧
      d.look (d.origin p) = some .dir) ∨
    (d.start p = .error .noEntry ∧ d.look (d.origin p) = none) ∨
    (d.start p = .error .notDirectory ∧ d.look (d.origin p) ≠ none ∧
      d.look (d.origin p) ≠ some .dir) := by
  have hbegin : (∃ c, (if p.isAbsolute then some d.top else descend d.top d.cwd) = some c ∧
      c.Fits d.root ∧ c.location = d.origin p) ∨
      ((if p.isAbsolute then some d.top else descend d.top d.cwd) = none ∧
        d.look (d.origin p) = none) := by
    unfold origin
    have htop : d.top.Fits d.root := .top
    by_cases habs : p.isAbsolute = true
    · rw [if_pos habs, if_pos habs]
      exact .inl ⟨d.top, rfl, htop, rfl⟩
    · rw [if_neg habs, if_neg habs]
      rcases descend_eq htop d.cwd with ⟨c, hc, hfits, hloc, -⟩ | ⟨hnone, hlook⟩
      · exact .inl ⟨c, hc, hfits, hloc⟩
      · exact .inr ⟨hnone, hlook⟩
  unfold start
  rcases hbegin with ⟨c, hc, hfits, hloc⟩ | ⟨hnone, hlook⟩
  · have hlook : d.look (d.origin p) = some c.node.label := by
      rw [← hloc]
      exact hfits.look
    rw [hc]
    dsimp only
    by_cases hdir : c.node.isDir = true
    · rw [if_pos hdir]
      exact .inl ⟨c, rfl, hfits, hloc, by rw [hlook, Node.isDir_iff.1 hdir]⟩
    · rw [if_neg hdir]
      refine .inr (.inr ⟨rfl, by rw [hlook]; simp, fun h => hdir ?_⟩)
      rw [hlook] at h
      exact Node.isDir_iff.2 (Option.some.inj h)
  · rw [hnone]
    exact .inr (.inl ⟨rfl, hlook⟩)

/-- What a search over cursors finds is what `goal` tells. -/
theorem find_eq (d : Disk) (p : Path) (follow : Bool) :
    (∃ s, d.find p follow = .ok s ∧ s.Fits d.root ∧ d.goal p follow = .ok s.goal) ∨
      ∃ e, d.find p follow = .error e ∧ d.goal p follow = .error e := by
  unfold find goal
  cases hadmits : admit? p with
  | error e => exact .inr ⟨e, rfl, rfl⟩
  | ok u =>
      rcases start_eq d p with
        ⟨c, hc, hfits, hloc, hlook⟩ | ⟨hnone, hlook⟩ | ⟨hnot, hsome, hne⟩
      · have hagree : Agree d.root (walk d.top follow maxLinks c p.steps) (d.trip p follow).ending := by
          rw [trip, ← hloc]
          exact agree_walk hfits
        rw [hc, hlook]
        simp only [bind, Except.bind, Except.mapError]
        generalize walk d.top follow maxLinks c p.steps = found at hagree ⊢
        generalize (d.trip p follow).ending = ending at hagree ⊢
        cases hagree with
        | error e => exact .inr ⟨.os e, rfl, rfl⟩
        | ok links hs => exact .inl ⟨_, rfl, hs, rfl⟩
      · exact .inr ⟨.os .noEntry, by rw [hnone]; rfl, by rw [hlook]⟩
      · obtain ⟨label, hlabel⟩ := Option.ne_none_iff_exists'.1 hsome
        refine .inr ⟨.os .notDirectory, by rw [hnot]; rfl, ?_⟩
        rw [hlabel] at hne ⊢
        cases label with
        | dir => exact absurd rfl hne
        | file content x => rfl
        | link target => rfl

/-- A walk that ends at a vacant place found nothing there. -/
theorem look_eq_none_of_goal {parent : Location} {n : Name}
    (h : d.goal p follow = .ok (.vacant parent n)) : d.look (parent ++ [n]) = none := by
  obtain ⟨-, -, links, hend⟩ := goal_eq_ok_iff.1 h
  exact View.none_of_seek_vacant hend

theorem look_eq_dir_above {l l' : Location} (h : d.look l = some .dir) (hl : l' <+: l) :
    d.look l' = some .dir := by
  obtain ⟨rest, rfl⟩ := hl
  by_cases hnil : rest = []
  · rwa [hnil, List.append_nil] at h
  · exact Node.look_eq_dir_of_append hnil (by rw [← look, h]; simp)

theorem look_treelike (d : Disk) : d.look.Treelike := fun _ _ => look_eq_dir_above

theorem dir_of_goal {parent : Location} {n : Name}
    (h : d.goal p follow = .ok (.vacant parent n)) : d.look parent = some .dir := by
  obtain ⟨-, hbegin, links, hend⟩ := goal_eq_ok_iff.1 h
  exact View.dir_of_seek_vacant d.look_treelike hbegin hend

theorem see_eq (d : Disk) (p : Path) (follow : Bool) (answer : Except IoError Node)
    (h : answer = (do match ← d.find p follow with
      | .present c => .ok c.node
      | .vacant .. => .error (.os .noEntry))) :
    answer.map Node.label = d.see p follow := by
  subst h
  unfold see
  rcases find_eq d p follow with ⟨s, hfind, hfits, hgoal⟩ | ⟨e, hfind, hgoal⟩
  · rw [hfind, hgoal]
    cases s with
    | present c =>
        simp only [Spot.goal, Goal.location_present]
        rw [show d.look c.location = _ from hfits.look]
        rfl
    | vacant c n =>
        simp only [Spot.goal, Goal.location_vacant]
        rw [look_eq_none_of_goal hgoal]
        rfl
  · rw [hfind, hgoal]
    rfl

theorem stat_label (d : Disk) (p : Path) : (d.stat p).map Node.label = d.see p true :=
  see_eq d p true _ rfl

theorem lstat_label (d : Disk) (p : Path) : (d.lstat p).map Node.label = d.see p false :=
  see_eq d p false _ rfl

theorem see_eq_ok_iff {label : Label} : d.see p follow = .ok label ↔
    ∃ loc, d.goal p follow = .ok (.present loc) ∧ d.look loc = some label := by
  unfold see
  cases hg : d.goal p follow with
  | error e => exact ⟨nofun, fun ⟨_, h, _⟩ => nomatch h⟩
  | ok g =>
      cases g with
      | vacant loc n =>
          simp only [Goal.location_vacant, look_eq_none_of_goal hg, answer]
          exact ⟨nofun, fun ⟨_, h, _⟩ => nomatch h⟩
      | present loc =>
          simp only [Goal.location_present]
          constructor
          · intro h
            cases hl : d.look loc with
            | none =>
                rw [hl] at h
                cases h
            | some label' =>
                rw [hl] at h
                cases h
                exact ⟨loc, rfl, hl⟩
          · rintro ⟨loc', hloc, hl⟩
            cases hloc
            rw [hl]
            rfl

theorem map_label_eq_ok {r : Except IoError Node} {label : Label} :
    r.map Node.label = .ok label ↔ ∃ node, r = .ok node ∧ node.label = label := by
  cases r with
  | error e => exact ⟨nofun, fun ⟨_, h, _⟩ => nomatch h⟩
  | ok node =>
      constructor
      · intro h
        exact ⟨node, rfl, Except.ok.inj h⟩
      · rintro ⟨_, h, rfl⟩
        cases h
        rfl

theorem isDir_see : d.isDir p = true ↔ d.see p true = .ok .dir := by
  rw [← stat_label, map_label_eq_ok, isDir]
  constructor
  · intro h
    split at h
    · next node hnode => exact ⟨node, hnode, Node.isDir_iff.1 h⟩
    · cases h
  · rintro ⟨node, hnode, hlabel⟩
    rw [hnode]
    exact Node.isDir_iff.2 hlabel

/-! ### What a path depends on -/

/-- The locations on the way to a path include all directories above them. -/
theorem prefix_of_way {l l' : Location} (hl : l ∈ d.way p follow) (h : l' <+: l) :
    l' ∈ d.way p follow := by
  rcases List.mem_append.1 hl with hl | hl
  · exact List.mem_append_left _ ((List.mem_inits _ _).2 (h.trans ((List.mem_inits _ _).1 hl)))
  · rcases View.prefix_of_visited hl h with h | h
    · exact List.mem_append_right _ h
    · exact List.mem_append_left _ ((List.mem_inits _ _).2 h)

theorem location_mem_way {g : Goal} (h : d.goal p follow = .ok g) : g.location ∈ d.way p follow := by
  obtain ⟨-, -, links, hend⟩ := goal_eq_ok_iff.1 h
  rcases View.location_of_seek hend with h | h
  · exact List.mem_append_right _ h
  · exact List.mem_append_left _ ((List.mem_inits _ _).2 h)

theorem present_mem_way {loc : Location} (h : d.goal p follow = .ok (.present loc)) :
    loc ∈ d.way p follow := location_mem_way h

section Congr

variable (hcwd : d'.cwd = d.cwd) (hlook : ∀ l ∈ d.way p follow, d'.look l = d.look l)
include hcwd hlook

theorem trip_congr : d'.trip p follow = d.trip p follow := by
  unfold trip origin
  rw [hcwd]
  exact View.seek_congr fun l hl => hlook l (List.mem_append_right _ hl)

theorem way_congr : d'.way p follow = d.way p follow := by
  unfold way
  rw [trip_congr hcwd hlook, origin, origin, hcwd]

/-- A path leads to the same place on every disk that agrees about the way. -/
theorem goal_congr : d'.goal p follow = d.goal p follow := by
  have horigin : d'.origin p = d.origin p := by rw [origin, origin, hcwd]
  have hstart : d'.look (d.origin p) = d.look (d.origin p) :=
    hlook _ (List.mem_append_left _ ((List.mem_inits _ _).2 (List.prefix_refl _)))
  unfold goal
  rw [trip_congr hcwd hlook, horigin, hstart]

theorem see_congr : d'.see p follow = d.see p follow := by
  unfold see
  rw [goal_congr hcwd hlook]
  cases hg : d.goal p follow with
  | error e => rfl
  | ok g => simp only [hlook _ (location_mem_way hg)]

end Congr

/-- A path leads to the same place whatever is in the files on the way. -/
theorem goal_of_shape {g : Goal} (hg : d.goal p follow = .ok g) (hcwd : d'.cwd = d.cwd)
    (hlook : ∀ l ∈ d.way p follow, (d'.look l).map Label.shape = (d.look l).map Label.shape) :
    d'.goal p follow = .ok g := by
  obtain ⟨hadmits, hbegin, links, hend⟩ := goal_eq_ok_iff.1 hg
  have horigin : d'.origin p = d.origin p := by rw [origin, origin, hcwd]
  have htrip : d'.trip p follow = d.trip p follow := by
    rw [trip, trip, horigin, ← View.seek_shape d'.look, ← View.seek_shape d.look]
    apply View.seek_congr
    rw [View.seek_shape]
    intro l hl
    exact hlook l (List.mem_append_right _ hl)
  have hstart := hlook (d.origin p)
    (List.mem_append_left _ ((List.mem_inits _ _).2 (List.prefix_refl _)))
  refine goal_eq_ok_iff.2 ⟨hadmits, ?_, links, by rw [htrip, hend]⟩
  rw [hbegin, Option.map_some] at hstart
  obtain ⟨label, hlabel, hdir⟩ := Option.map_eq_some_iff.1 hstart
  rw [horigin, hlabel]
  cases label with
  | file content x => cases hdir
  | link target => cases hdir
  | dir => rfl

/-- Everything on the way to something is there. -/
theorem ne_none_of_way {loc : Location} (h : d.goal p follow = .ok (.present loc)) :
    ∀ l ∈ d.way p follow, d.look l ≠ none := by
  obtain ⟨-, hbegin, links, hend⟩ := goal_eq_ok_iff.1 h
  intro l hl
  rcases List.mem_append.1 hl with hl | hl
  · rw [look_eq_dir_above hbegin ((List.mem_inits _ _).1 hl)]
    simp
  · exact View.ne_none_of_seek hend l hl

/-- No file is on the way but perhaps at its end. -/
theorem goal_of_file_on_way {g : Goal} (h : d.goal p follow = .ok g) {l : Location}
    (hl : l ∈ d.way p follow) {content : ByteArray} {x : Bool}
    (hfile : d.look l = some (.file content x)) : g = .present l := by
  obtain ⟨-, hbegin, links, hend⟩ := goal_eq_ok_iff.1 h
  rcases List.mem_append.1 hl with hl | hl
  · cases (look_eq_dir_above hbegin ((List.mem_inits _ _).1 hl)).symm.trans hfile
  · exact View.file_of_seek hend hl hfile

/-- Something is at a path, perhaps a link that leads nowhere. -/
theorem occupied_iff :
    d.occupied p = true ↔ ∃ loc, d.goal p false = .ok (.present loc) ∧ d.look loc ≠ none := by
  have hlabel := lstat_label d p
  unfold occupied
  constructor
  · intro hok
    cases hlstat : d.lstat p with
    | error e =>
        rw [hlstat] at hok
        cases hok
    | ok node =>
        rw [hlstat] at hlabel
        obtain ⟨loc, hgoal, hlook⟩ := see_eq_ok_iff.1 hlabel.symm
        exact ⟨loc, hgoal, by rw [hlook]; simp⟩
  · rintro ⟨loc, hgoal, hlook⟩
    obtain ⟨label, hlook⟩ := Option.ne_none_iff_exists'.1 hlook
    rw [see_eq_ok_iff.2 ⟨loc, hgoal, hlook⟩] at hlabel
    obtain ⟨node, hlstat, -⟩ := map_label_eq_ok.1 hlabel
    rw [hlstat]
    rfl

end Disk

end Sideload
