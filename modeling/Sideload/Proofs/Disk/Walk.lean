import Sideload.Proofs.Disk.Copied

/-!
The walk over a source. `Visits` says which directories a copy goes into when it follows the links that it
meets, and `Fault` says which of these links stop it. A link is followed only to a directory that the walk
is not in already. So there are at most as many stretches between links as there are directories, and each
of them goes straight down: a walk ends even where links lead back up.
-/

namespace Sideload

namespace Disk

variable {d d' : Disk} {dst src : Path} {rel front f : Location} {n : Name} {here loc : Location}

/-- The directories below a source that its copy goes into. What is left out is not entered, and a link is
not followed to a directory that the walk is in. -/
inductive Visits (d : Disk) (dst src : Path) : Location → Prop
  | top : Visits d dst src []
  | down {rel here loc : Location} {n : Name} {label : Label} (h : Visits d dst src rel)
      (hin : d.Enters (src.joins rel) here) (hentry : d.look (here ++ [n]) = some label)
      (hkept : LeftOut dst src (rel ++ [n]) = false) (hto : d.Enters (src.joins (rel ++ [n])) loc)
      (hopen : ∀ target, label = .link target →
        ∀ front, front <+: rel → ¬ d.Enters (src.joins front) loc) : Visits d dst src (rel ++ [n])

/-- The walk meets an entry of a directory that it is in. -/
structure Meets (d : Disk) (dst src : Path) (rel : Location) (n : Name) (label : Label) : Prop where
  visits : d.Visits dst src rel
  entry : ∃ here, d.Enters (src.joins rel) here ∧ d.look (here ++ [n]) = some label

/-- The links that stop the walk, and what is said about them: a link leads nowhere, or it leads to a
directory that the walk is in. -/
inductive Fault (d : Disk) (dst src : Path) : Location → IoError → Prop
  | dangling {rel : Location} {n : Name} {target : Path} {e : IoError}
      (h : d.Meets dst src rel n (.link target)) (hsee : d.see (src.joins (rel ++ [n])) true = .error e) :
      Fault d dst src (rel ++ [n]) (.walking (src.joins (rel ++ [n])) e)
  | loop {rel front loc : Location} {n : Name} {target : Path} (h : d.Meets dst src rel n (.link target))
      (hfront : front <+: rel) (hin : d.Enters (src.joins front) loc)
      (hto : d.Enters (src.joins (rel ++ [n])) loc) :
      Fault d dst src (rel ++ [n]) (.loop (src.joins (rel ++ [n])) (src.joins front))

namespace Visits

theorem proper (h : d.Visits dst src rel) (hd : d.Proper) : rel.Proper := by
  induction h with
  | top => exact nofun
  | @down rel here loc n label h hin hentry hkept hto hopen ih =>
      exact ih.concat (hd.look (here ++ [n]) (by rw [hentry]; simp) n (by simp))

theorem kept (h : d.Visits dst src rel) : Kept dst src rel := by
  induction h with
  | top => exact kept_nil dst src
  | down h hin hentry hkept hto hopen ih => exact kept_concat.2 ⟨ih, hkept⟩

/-- The walk goes into every directory on the way. -/
theorem initial (h : d.Visits dst src rel) (hfront : front <+: rel) : d.Visits dst src front := by
  induction h with
  | top => exact List.prefix_nil.1 hfront ▸ .top
  | down h hin hentry hkept hto hopen ih =>
      rcases List.prefix_concat_iff.1 hfront with rfl | hfront
      · exact h.down hin hentry hkept hto hopen
      · exact ih hfront

theorem enters (h : d.Visits dst src rel) (hsrc : d.see src true = .ok .dir) :
    ∃ loc, d.Enters (src.joins rel) loc := by
  cases h with
  | top =>
      obtain ⟨loc, hgoal, hlook⟩ := see_eq_ok_iff.1 hsrc
      exact ⟨loc, hgoal, hlook⟩
  | down h hin hentry hkept hto hopen => exact ⟨_, hto⟩

theorem meets (h : d.Visits dst src (rel ++ [n])) : ∃ label, d.Meets dst src rel n label := by
  generalize hgoal : rel ++ [n] = goal at h
  cases h with
  | top => cases (List.append_ne_nil_of_right_ne_nil rel (by simp) hgoal)
  | down h hin hentry hkept hto hopen =>
      obtain ⟨rfl, hn⟩ := List.append_inj' hgoal rfl
      cases hn
      exact ⟨_, h, _, hin, hentry⟩

/-- Where a walk arrives by links: one arrival for each stretch of the way, which goes straight down from
there. -/
theorem exists_arrivals (h : d.Visits dst src rel) (hd : d.Proper) (hsrc : d.see src true = .ok .dir)
    {height : Nat} (hheight : ∀ l, d.look l = some .dir → l.length ≤ height) :
    ∃ (arrivals : Finset Location) (loc : Location), d.Enters (src.joins rel) loc ∧
      (∀ a ∈ arrivals, ∃ front, front <+: rel ∧ d.Enters (src.joins front) a) ∧
      rel.length + (height + 1) ≤ arrivals.card * (height + 1) + loc.length := by
  induction h with
  | top =>
      obtain ⟨loc, he⟩ := (Visits.top : d.Visits dst src []).enters hsrc
      refine ⟨{loc}, loc, he, fun a ha => ?_, ?_⟩
      · rw [Finset.mem_singleton.1 ha]
        exact ⟨[], List.prefix_refl _, he⟩
      · rw [Finset.card_singleton, List.length_nil]
        omega
  | @down rel here loc n label h hin hentry hkept hto hopen ih =>
      obtain ⟨arrivals, last, hlast, harrivals, hlength⟩ := ih
      obtain rfl := hin.unique hlast
      have hup : ∀ a ∈ arrivals, ∃ front, front <+: rel ++ [n] ∧ d.Enters (src.joins front) a := by
        intro a ha
        obtain ⟨front, hfront, henters⟩ := harrivals a ha
        exact ⟨front, hfront.trans (List.prefix_append _ _), henters⟩
      by_cases hlink : ∃ target, label = .link target
      · -- a link begins a new stretch at a directory that was not met so far
        obtain ⟨target, rfl⟩ := hlink
        have hnew : loc ∉ arrivals := by
          intro hmem
          obtain ⟨front, hfront, hin'⟩ := harrivals loc hmem
          exact hopen target rfl front hfront hin'
        refine ⟨insert loc arrivals, loc, hto, fun a ha => ?_, ?_⟩
        · rcases Finset.mem_insert.1 ha with rfl | ha
          · exact ⟨_, List.prefix_refl _, hto⟩
          · exact hup a ha
        · have hhere := hheight last hlast.dir
          rw [Finset.card_insert_of_notMem hnew, Nat.add_mul, List.length_append, List.length_singleton]
          omega
      · -- a directory continues the stretch by one name
        have hn : n.Proper := hd.look (last ++ [n]) (by rw [hentry]; simp) n (by simp)
        have hchild : loc = last ++ [n] := by
          rw [Path.joins_concat] at hto
          refine hlast.child hto (Path.extends_join _ hn) fun target htarget => hlink ⟨target, ?_⟩
          exact Option.some_inj.1 (hentry.symm.trans htarget)
        refine ⟨arrivals, loc, hto, hup, ?_⟩
        rw [hchild, List.length_append, List.length_append, List.length_singleton]
        omega

/-- No walk goes deeper than there are directories, each with a way straight down. -/
theorem length_lt (h : d.Visits dst src rel) (hd : d.Proper) (hsrc : d.see src true = .ok .dir)
    {dirs : Finset Location} (hdirs : ∀ l, d.look l = some .dir → l ∈ dirs) {height : Nat}
    (hheight : ∀ l, d.look l = some .dir → l.length ≤ height) :
    rel.length < dirs.card * (height + 1) := by
  obtain ⟨arrivals, loc, he, harrivals, hlength⟩ := h.exists_arrivals hd hsrc hheight
  have hcard : arrivals.card ≤ dirs.card := Finset.card_le_card fun a ha => by
    obtain ⟨front, -, hin⟩ := harrivals a ha
    exact hdirs a hin.dir
  have hmul := Nat.mul_le_mul_right (height + 1) hcard
  have hloc := hheight loc he.dir
  omega

end Visits

/-! ### The entries that are met -/

/-- The directories that a walk is in, and where they are. -/
def Trail (d : Disk) (src : Path) (rel : Location) (above : List Ancestor) : Prop :=
  ∀ a, a ∈ above ↔ ∃ front, front <+: rel ∧ a.path = src.joins front ∧ d.Enters a.path a.location

theorem Trail.top (h : d.Enters src loc) : Trail d src [] [⟨src, loc⟩] := by
  intro a
  rw [List.mem_singleton]
  constructor
  · rintro rfl
    exact ⟨[], List.prefix_refl _, rfl, h⟩
  · rintro ⟨front, hfront, hpath, hin⟩
    obtain rfl := List.prefix_nil.1 hfront
    obtain ⟨path, location⟩ := a
    obtain rfl : path = src := hpath
    obtain rfl : location = loc := h.unique hin
    rfl

theorem Trail.down {rel : Location} {above : List Ancestor} (h : Trail d src rel above)
    (he : d.Enters (src.joins (rel ++ [n])) loc) :
    Trail d src (rel ++ [n]) (⟨src.joins (rel ++ [n]), loc⟩ :: above) := by
  intro a
  rw [List.mem_cons, h a]
  constructor
  · rintro (rfl | ⟨front, hfront, hin⟩)
    · exact ⟨_, List.prefix_refl _, rfl, he⟩
    · exact ⟨front, hfront.trans (List.prefix_append _ _), hin⟩
  · rintro ⟨front, hfront, hpath, hin⟩
    rcases List.prefix_concat_iff.1 hfront with rfl | hfront
    · obtain ⟨path, location⟩ := a
      obtain rfl : path = src.joins (rel ++ [n]) := hpath
      obtain rfl : location = loc := he.unique hin
      exact .inl rfl
    · exact .inr ⟨front, hfront, hpath, hin⟩

/-- The walk passes an entry: its path leads somewhere, and not by a link to a directory that the walk is
in. -/
structure Passes (d : Disk) (src : Path) (rel : Location) (n : Name) (entry label : Label) : Prop where
  see : d.see (src.joins (rel ++ [n])) true = .ok label
  apart : ∀ target, entry = .link target → ∀ front, front <+: rel → ∀ loc, d.Enters (src.joins front) loc →
    ¬ d.Enters (src.joins (rel ++ [n])) loc

theorem Meets.unique {rel : Location} {label label' : Label} (h : d.Meets dst src rel n label)
    (h' : d.Meets dst src rel n label') : label = label' := by
  obtain ⟨here, hin, hentry⟩ := h.entry
  obtain ⟨here', hin', hentry'⟩ := h'.entry
  obtain rfl := hin.unique hin'
  exact Option.some_inj.1 (hentry.symm.trans hentry')

theorem Passes.not_fault {rel : Location} {entry label : Label} (h : Passes d src rel n entry label)
    (hmeets : d.Meets dst src rel n entry) (e : IoError) : ¬ d.Fault dst src (rel ++ [n]) e := by
  intro hfault
  generalize hplace : rel ++ [n] = place at hfault
  cases hfault with
  | dangling hlink hsee =>
      obtain ⟨rfl, hn⟩ := List.append_inj' hplace rfl
      cases hn
      cases h.see.symm.trans hsee
  | loop hlink hfront hin hto =>
      obtain ⟨rfl, hn⟩ := List.append_inj' hplace rfl
      cases hn
      exact h.apart _ (hmeets.unique hlink) _ hfront _ hin hto

/-- A directory that is passed is entered, unless it is left out. -/
theorem Passes.visits {rel : Location} {entry : Label} (h : Passes d src rel n entry .dir)
    (hmeets : d.Meets dst src rel n entry) (hkept : LeftOut dst src (rel ++ [n]) = false) :
    d.Visits dst src (rel ++ [n]) := by
  obtain ⟨here, hin, hentry⟩ := hmeets.entry
  obtain ⟨loc, hgoal, hdir⟩ := see_eq_ok_iff.1 h.see
  exact hmeets.visits.down hin hentry hkept ⟨hgoal, hdir⟩ fun target htarget front hfront hin' =>
    h.apart target htarget front hfront loc hin' ⟨hgoal, hdir⟩

theorem Fault.ne_nil {f : Location} {e : IoError} (h : d.Fault dst src f e) : f ≠ [] := by
  cases h <;> simp

/-- Above what stops the walk the walk goes into every directory. -/
theorem Fault.visits {f front : Location} {e : IoError} (h : d.Fault dst src f e) (hfront : front <+: f)
    (hne : front ≠ f) : d.Visits dst src front := by
  cases h with
  | dangling hlink hsee => exact hlink.visits.initial ((List.prefix_concat_iff.1 hfront).resolve_left hne)
  | loop hlink hle hin hto =>
      exact hlink.visits.initial ((List.prefix_concat_iff.1 hfront).resolve_left hne)

/-- The walk meets everything on the way to what stops it. -/
theorem Fault.meets {f rel : Location} {e : IoError} (h : d.Fault dst src f e) (hf : rel ++ [n] <+: f) :
    ∃ label, d.Meets dst src rel n label := by
  by_cases hne : rel ++ [n] = f
  · subst hne
    generalize hplace : rel ++ [n] = place at h
    cases h with
    | dangling hlink hsee =>
        obtain ⟨rfl, hn⟩ := List.append_inj' hplace rfl
        cases hn
        exact ⟨_, hlink⟩
    | loop hlink hle hin hto =>
        obtain ⟨rfl, hn⟩ := List.append_inj' hplace rfl
        cases hn
        exact ⟨_, hlink⟩
  · exact (h.visits hf hne).meets

/-! ### Disks on which the walk is the same -/

/-- Disks on which the walk over a source meets the same: they agree about the ways of the paths that are
not left out and about the entries of the directories there, and no link that is met is left out. -/
structure Alike (dst src : Path) (d d' : Disk) : Prop where
  cwd : d'.cwd = d.cwd
  look : ∀ rel, Location.Proper rel → Kept dst src rel → ∀ l ∈ d.way (src.joins rel) true, d'.look l = d.look l
  entry : ∀ rel here, Location.Proper rel → Kept dst src rel → d.Enters (src.joins rel) here →
    ∀ n, d'.look (here ++ [n]) = d.look (here ++ [n])
  links : ∀ rel here n target, Location.Proper rel → Kept dst src rel → d.Enters (src.joins rel) here →
    d.look (here ++ [n]) = some (.link target) → LeftOut dst src (rel ++ [n]) = false

namespace Alike

theorem enters (h : Alike dst src d d') (hrel : rel.Proper) (hkept : Kept dst src rel)
    (he : d.Enters (src.joins rel) loc) : d'.Enters (src.joins rel) loc :=
  (he.congr h.cwd (h.look rel hrel hkept)).1

theorem symm (h : Alike dst src d d') : Alike dst src d' d := by
  have hback : ∀ rel, Location.Proper rel → Kept dst src rel →
      ∀ l ∈ d'.way (src.joins rel) true, d.look l = d'.look l := by
    intro rel hrel hkept l hl
    rw [way_congr h.cwd (h.look rel hrel hkept)] at hl
    exact (h.look rel hrel hkept l hl).symm
  have henters : ∀ {rel here : Location}, rel.Proper → Kept dst src rel →
      d'.Enters (src.joins rel) here → d.Enters (src.joins rel) here :=
    fun hrel hkept he => (he.congr h.cwd.symm (hback _ hrel hkept)).1
  refine ⟨h.cwd.symm, hback, fun rel here hrel hkept he n => ?_, fun rel here n target hrel hkept he hlink => ?_⟩
  · exact (h.entry rel here hrel hkept (henters hrel hkept he) n).symm
  · have he' := henters hrel hkept he
    exact h.links rel here n target hrel hkept he' ((h.entry rel here hrel hkept he' n).symm.trans hlink)

theorem visits (h : Alike dst src d d') (hd : d.Proper) (hvisits : d.Visits dst src rel) :
    d'.Visits dst src rel := by
  induction hvisits with
  | top => exact .top
  | @down rel here stop n label hvisits hin hentry hkept hto hopen ih =>
      have hrel := hvisits.proper hd
      have hnext := hvisits.down hin hentry hkept hto hopen
      refine ih.down (h.enters hrel hvisits.kept hin) ?_ hkept (h.enters (hnext.proper hd) hnext.kept hto)
        fun target htarget front hfront hin' => hopen target htarget front hfront ?_
      · rw [h.entry rel here hrel hvisits.kept hin, hentry]
      · exact h.symm.enters (hrel.initial hfront) (hvisits.kept.initial hfront) hin'

variable {label : Label}

theorem meets (h : Alike dst src d d') (hd : d.Proper) (hmeets : d.Meets dst src rel n label) :
    d'.Meets dst src rel n label := by
  obtain ⟨hvisits, here, hin, hentry⟩ := hmeets
  have hrel := hvisits.proper hd
  refine ⟨h.visits hd hvisits, here, h.enters hrel hvisits.kept hin, ?_⟩
  rw [h.entry rel here hrel hvisits.kept hin, hentry]

/-- A link that is met is not left out. -/
theorem kept_of_link (h : Alike dst src d d') (hd : d.Proper) {target : Path}
    (hmeets : d.Meets dst src rel n (.link target)) :
    Location.Proper (rel ++ [n]) ∧ Kept dst src (rel ++ [n]) := by
  obtain ⟨hvisits, here, hin, hentry⟩ := hmeets
  have hrel := hvisits.proper hd
  exact ⟨hrel.concat (hd.look (here ++ [n]) (by rw [hentry]; simp) n (by simp)),
    kept_concat.2 ⟨hvisits.kept, h.links rel here n target hrel hvisits.kept hin hentry⟩⟩

theorem fault (h : Alike dst src d d') (hd : d.Proper) {e : IoError} (hfault : d.Fault dst src f e) :
    d'.Fault dst src f e := by
  cases hfault with
  | dangling hlink hsee =>
      obtain ⟨hproper, hkept⟩ := h.kept_of_link hd hlink
      exact .dangling (h.meets hd hlink) ((see_congr h.cwd (h.look _ hproper hkept)).trans hsee)
  | loop hlink hfront hin hto =>
      obtain ⟨hproper, hkept⟩ := h.kept_of_link hd hlink
      have hvisits := hlink.visits.initial hfront
      exact .loop (h.meets hd hlink) hfront (h.enters (hvisits.proper hd) hvisits.kept hin)
        (h.enters hproper hkept hto)

end Alike

/-- There is room for a copy: the names of what the walk meets are neither empty nor too long, and neither
are the paths, in the source and in the copy. -/
def Room (d : Disk) (dst src : Path) : Prop :=
  ∀ rel n label, d.Meets dst src rel n label → 0 < n.byteSize ∧ ¬ n.byteSize > maxName ∧
    admit? (src.joins (rel ++ [n])) = .ok () ∧ admit? (dst.joins (rel ++ [n])) = .ok ()

/-- Each name makes a path longer. -/
theorem length_le_byteSize_joins {p : Path} {rel : Location} (hrel : rel.Proper)
    (hsize : ∀ n ∈ rel, 0 < n.byteSize) : 2 * rel.length ≤ (p.joins rel).byteSize + 1 := by
  induction rel using List.reverseRecOn with
  | nil => exact Nat.zero_le _
  | append_singleton rel n ih =>
      have hn : n.Proper := hrel n (by simp)
      have hpositive : 0 < Glyph.size n := hsize n (by simp)
      have hfront := ih (hrel.initial (List.prefix_append _ _)) fun m hm => hsize m (by simp [hm])
      rw [Path.joins_concat, List.length_append, List.length_singleton]
      unfold Path.byteSize at hfront ⊢
      unfold Path.join
      rw [if_neg (by rw [Path.isAbsolute_ofName hn]; simp)]
      by_cases hnil : rel = []
      · subst hnil
        split <;> simp only [size_append, Glyph.size, Path.ofName, List.length_nil] <;> omega
      · -- the path that the name is joined to ends in a name, so a slash is put between
        obtain ⟨front, m, rfl⟩ := (List.eq_nil_or_concat' rel).resolve_left hnil
        have hm : m.Proper := hrel m (by simp)
        have hslash : Glyph.byteSize (.char '/') = 1 := rfl
        rw [if_neg (by rw [Path.joins_concat, Path.isEmpty_join _ hm, Path.endsInSlash_join _ hm]; simp)]
        simp only [size_append, Glyph.size, Path.ofName, hslash]
        omega

theorem Room.length_lt {rel : Location} (hroom : d.Room dst src) (hd : d.Proper)
    (h : d.Visits dst src rel) (hsrc : d.see src true = .ok .dir) : rel.length < maxPath := by
  have hsize : ∀ n ∈ rel, 0 < n.byteSize := by
    intro n hn
    obtain ⟨front, rest, rfl⟩ := List.append_of_mem hn
    have hvisits : d.Visits dst src (front ++ [n]) := h.initial (by simp)
    obtain ⟨label, hmeets⟩ := hvisits.meets
    exact (hroom _ _ _ hmeets).1
  obtain ⟨loc, he⟩ := h.enters hsrc
  obtain ⟨hadmits, -⟩ := goal_eq_ok_iff.1 he.goal
  have hbytes : (src.joins rel).byteSize ≤ maxPath := by
    unfold admit? at hadmits
    split at hadmits
    · cases hadmits
    split at hadmits
    · cases hadmits
    split at hadmits
    · cases hadmits
    · omega
  have hlong := length_le_byteSize_joins (p := src) (h.proper hd) hsize
  unfold maxPath at hbytes ⊢
  omega

end Disk

end Sideload
