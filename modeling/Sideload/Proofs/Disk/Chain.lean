import Sideload.Proofs.Disk.Detour

/-!
Walks down plain names. Where directories are the only things on the way, a walk down names goes from
each directory into the next, or it finds that one of them is missing.
-/

namespace Sideload

namespace View

variable {v v' : View} {follow : Bool} {loc : Location} {names : List Name} {rest : List Step}

/-- From a location down the names there are directories, and perhaps nothing from some point on. -/
def Plain (v : View) (loc : Location) (names : List Name) : Prop :=
  ∀ front, front <+: names → v (loc ++ front) = none ∨ v (loc ++ front) = some .dir

/-- The locations on the way down the names. -/
def passed : Location → List Name → List Location
  | _, [] => []
  | loc, n :: ns => (loc ++ [n]) :: passed (loc ++ [n]) ns

theorem mem_passed {l : Location} : l ∈ passed loc names ↔
    ∃ front, front <+: names ∧ front ≠ [] ∧ l = loc ++ front := by
  induction names generalizing loc with
  | nil =>
      refine ⟨nofun, ?_⟩
      rintro ⟨front, hfront, hne, -⟩
      exact absurd (List.prefix_nil.1 hfront) hne
  | cons n ns ih =>
      rw [passed, List.mem_cons, ih]
      constructor
      · rintro (rfl | ⟨front, hfront, -, rfl⟩)
        · exact ⟨[n], List.prefix_append [n] ns, List.cons_ne_nil n [], rfl⟩
        · exact ⟨n :: front, (List.prefix_cons_inj n).2 hfront, List.cons_ne_nil n front,
            by rw [List.append_assoc, List.singleton_append]⟩
      · rintro ⟨front, hfront, hne, rfl⟩
        obtain ⟨m, front, rfl⟩ := List.exists_cons_of_ne_nil hne
        obtain ⟨rfl, hrest⟩ := List.cons_prefix_cons.1 hfront
        by_cases hnil : front = []
        · exact .inl (by rw [hnil])
        · exact .inr ⟨front, hrest, hnil, by rw [List.append_assoc, List.singleton_append]⟩

theorem Plain.tail {n : Name} (h : v.Plain loc (n :: names)) : v.Plain (loc ++ [n]) names := by
  intro front hfront
  rw [List.append_assoc, List.singleton_append]
  exact h (n :: front) ((List.prefix_cons_inj n).2 hfront)

/-- A walk down plain names reaches the last of them, or it fails because one is missing or too long. -/
theorem seek_names (hv : v.Treelike) (hplain : v.Plain loc names) (hdir : v loc = some .dir)
    (hrest : rest ≠ []) (links : Nat) :
    (v (loc ++ names) = some .dir ∧ v.seek follow links loc (names.map .name ++ rest) =
      ⟨passed loc names ++ (v.seek follow links (loc ++ names) rest).visited,
        (v.seek follow links (loc ++ names) rest).ending⟩) ∨
    ∃ e, (v.seek follow links loc (names.map .name ++ rest)).ending = .error e ∧
      ((∀ n ∈ names, ¬ n.byteSize > Disk.maxName) → e = .noEntry ∧ v (loc ++ names) = none) := by
  induction names generalizing loc with
  | nil =>
      left
      rw [List.append_nil]
      exact ⟨hdir, rfl⟩
  | cons n ns ih =>
      have hloc : loc ++ [n] ++ ns = loc ++ n :: ns := by
        rw [List.append_assoc, List.singleton_append]
      rw [List.map_cons, List.cons_append]
      by_cases hn : n.byteSize > Disk.maxName
      · exact .inr ⟨.nameTooLong, by rw [seek_long hn], fun hshort => absurd hn (hshort n (by simp))⟩
      rcases hplain [n] (List.prefix_append [n] ns) with hnone | hsub
      · refine .inr ⟨.noEntry, by rw [seek_none hn hnone, if_neg (by simp [hrest])], fun _ => ⟨rfl, ?_⟩⟩
        rcases hplain (n :: ns) (List.prefix_refl _) with hlast | hlast
        · exact hlast
        · have habove := hv _ _ hlast (hloc ▸ List.prefix_append (loc ++ [n]) ns)
          cases hnone.symm.trans habove
      · rcases ih hplain.tail hsub with ⟨hlast, hseek⟩ | ⟨e, hseek, hmissing⟩
        · left
          rw [hloc] at hlast hseek
          refine ⟨hlast, ?_⟩
          rw [seek_dir hn hsub, hseek]
          rfl
        · refine .inr ⟨e, by rw [seek_dir hn hsub, Trip.ending_visit, hseek], fun hshort => ?_⟩
          rw [← hloc]
          exact hmissing fun m hm => hshort m (by simp [hm])

end View

namespace Disk

variable {d d' : Disk} {p q : Path} {loc l : Location} {names : List Name} {n : Name}

/-- A directory that is reached from another one down plain names. -/
theorem Enters.below (h : d.Enters q l) (hp : d.Enters p loc) (hext : p.Extends q names)
    (hplain : d.look.Plain l names) : loc = l ++ names := by
  obtain ⟨links, hseek⟩ := h.seek
  obtain ⟨links', hseek'⟩ := hp.seek
  have horigin : d.origin p = d.origin q := by rw [origin, origin, hext.absolute]
  rw [hext.course, List.append_assoc, View.seek_append _ _ _ _ _ (by simp), horigin, hseek,
    Trip.andThen] at hseek'
  have hend := congrArg Trip.ending hseek'
  simp only [Goal.location_present] at hend
  rcases View.seek_names d.look_treelike hplain h.dir (List.cons_ne_nil Step.here []) links with
    ⟨-, hnames⟩ | ⟨e, hnames, -⟩
  · rw [hnames, View.seek_here, View.seek_nil] at hend
    cases hend
    rfl
  · cases hnames.symm.trans hend

/-- The way to the directory of a name some names below a directory: it gets there, or it fails. -/
theorem Enters.leadTrip_below (h : d.Enters q l) (hext : p.Extends q (names ++ [n]))
    (hlast : p.segments.getLast? = some (.name n)) (hplain : d.look.Plain l names) :
    (d.look (l ++ names) = some .dir ∧ ∃ links, d.leadTrip p =
      ⟨(d.trip q true).visited ++ View.passed l names, .ok (links, .present (l ++ names))⟩) ∨
    ∃ e, (d.leadTrip p).ending = .error e ∧
      ((∀ m ∈ names, ¬ m.byteSize > maxName) → e = .noEntry ∧ d.look (l ++ names) = none) := by
  obtain ⟨links, hseek⟩ := h.seek
  have horigin : d.origin p = d.origin q := by rw [origin, origin, hext.absolute]
  have hcourse : p.course.dropLast = q.course ++ names.map .name := by
    rw [hext.course, List.map_append, ← List.append_assoc, List.map_singleton,
      List.dropLast_concat]
  rw [leadTrip_eq d hlast, hcourse, horigin, List.append_assoc,
    View.seek_append _ _ _ _ _ (by simp), hseek, Trip.andThen]
  dsimp only [Goal.location_present]
  rcases View.seek_names d.look_treelike hplain h.dir (List.cons_ne_nil Step.here []) links with
    ⟨hdir, hnames⟩ | ⟨e, hnames, hmissing⟩
  · rw [hnames, View.seek_here, View.seek_nil]
    exact .inl ⟨hdir, links, by rw [List.append_nil]⟩
  · exact .inr ⟨e, hnames, hmissing⟩

/-- Where a path leads is the entry of its last name in a directory. -/
theorem exists_slot_of_goal {follow : Bool} {g : Goal} (hlast : p.segments.getLast? = some (.name n))
    (hslash : p.endsInSlash = false) (hg : d.goal p follow = .ok g) : ∃ parent, d.Slot p parent n := by
  obtain ⟨hadmits, hbegin, links, hend⟩ := goal_eq_ok_iff.1 hg
  rw [trip_eq_lead hlast hslash, Trip.andThen] at hend
  split at hend
  · next links' g' hlead =>
      obtain ⟨⟨dir, rfl⟩, -⟩ := View.present_of_seek_here hlead
      refine ⟨dir, hadmits, hbegin, hlast, ⟨links', hlead⟩, ?_, fun hlong => ?_⟩
      · exact View.dir_of_seek_here d.look_treelike _ _ _ hbegin hlead
      · simp only [View.seek_long hlong] at hend
        cases hend
  · cases hend

/-- Where a path leads to anything but a directory, it names an entry. -/
theorem exists_slot_of_leaf {follow : Bool} {g : Goal} (hg : d.goal p follow = .ok g)
    (hleaf : d.look g.location ≠ some .dir) : p.endsInSlash = false ∧ ∃ parent n, d.Slot p parent n := by
  obtain ⟨hadmits, hbegin, links, hend⟩ := goal_eq_ok_iff.1 hg
  have hstep : ∀ (a : List Step) (s : Step), (∀ n, s ≠ .name n) → p.steps ≠ a ++ [s] := by
    intro a s hs hsteps
    rw [trip, hsteps] at hend
    exact hleaf (View.dir_of_seek_step d.look_treelike hbegin hs hend)
  have hslash : p.endsInSlash = false := by
    by_contra hslash
    exact hstep p.segments .here (by simp) (by rw [Path.steps_eq, if_pos (by simpa using hslash)])
  have hsteps : p.steps = p.segments := by
    rw [Path.steps_eq, hslash, if_neg (by simp), List.append_nil]
  refine ⟨hslash, ?_⟩
  rcases List.eq_nil_or_concat' p.segments with hnil | ⟨front, s, hsegments⟩
  · rw [trip, hsteps, hnil, View.seek_nil] at hend
    cases hend
    exact absurd hbegin hleaf
  · cases s with
    | here => exact absurd (hsteps.trans hsegments) (hstep front .here (by simp))
    | up => exact absurd (hsteps.trans hsegments) (hstep front .up (by simp))
    | name n =>
        obtain ⟨parent, hslot⟩ := exists_slot_of_goal (by rw [hsegments, List.getLast?_concat]) hslash hg
        exact ⟨parent, n, hslot⟩

section Below

variable (h : d.Enters q l) (hext : p.Extends q (names ++ [n]))
  (hlast : p.segments.getLast? = some (.name n)) (hslash : p.endsInSlash = false)
  (hplain : d.look.Plain l names)
include h hext hlast hplain

/-- The entry of a name some names below a directory. -/
theorem Enters.slot_below {parent : Location} (hslot : d.Slot p parent n) :
    parent = l ++ names ∧ d.approach p = d.way q true ++ View.passed l names := by
  obtain ⟨links, hend⟩ := hslot.enters
  have horigin : d.origin p = d.origin q := by rw [origin, origin, hext.absolute]
  rcases h.leadTrip_below hext hlast hplain with ⟨-, links', htrip⟩ | ⟨e, herror, -⟩
  · rw [htrip] at hend
    cases hend
    exact ⟨rfl, by rw [approach, htrip, way, horigin, List.append_assoc]⟩
  · cases herror.symm.trans hend

include hslash

/-- What there is at a name some names below a directory. -/
theorem Enters.see_below {follow : Bool} (hadmits : admit? p = .ok ())
    (hshort : ∀ m ∈ names ++ [n], ¬ m.byteSize > maxName)
    (hlink : follow = false ∨ ∀ target, d.look (l ++ names ++ [n]) ≠ some (.link target)) :
    d.see p follow = answer (d.look (l ++ names ++ [n])) := by
  obtain ⟨-, hbegin, -⟩ := goal_eq_ok_iff.1 h.goal
  have horigin : d.origin p = d.origin q := by rw [origin, origin, hext.absolute]
  rcases h.leadTrip_below hext hlast hplain with ⟨hdir, links, htrip⟩ | ⟨e, herror, hmissing⟩
  · have hslot : d.Slot p (l ++ names) n :=
      ⟨hadmits, horigin ▸ hbegin, hlast, ⟨links, by rw [htrip]⟩, hdir, hshort n (by simp)⟩
    exact hslot.see hslash hlink
  · obtain ⟨rfl, hnone⟩ := hmissing fun m hm => hshort m (by simp [hm])
    have hend : (d.trip p follow).ending = .error .noEntry := by
      rw [trip_eq_lead hlast hslash, Trip.andThen, herror]
    rw [look_eq_none_below (by rw [hnone]; simp) (List.prefix_append _ [n]) (by simp), see, Disk.goal,
      hadmits, horigin, hbegin, hend]
    rfl

end Below

end Disk

end Sideload
