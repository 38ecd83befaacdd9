import Sideload.Proofs.Disk.Copied

/-!
Making the directories of a path that are missing. Where a path goes on from a directory down names of which
the first is missing, making all of its directories succeeds, and they are all that is new.
-/

namespace Sideload

theorem joinSlash_prefix {a b : List Name} (ha : a ≠ []) (h : a <+: b) : joinSlash a <+: joinSlash b := by
  obtain ⟨rest, rfl⟩ := h
  by_cases hrest : rest = []
  · rw [hrest, List.append_nil]
  · rw [joinSlash_append ha hrest]
    exact List.prefix_append _ _

namespace Path

variable {p q : Path} {m n : Name} {front : List Step}

theorem filterMap_anchor (a : Anchor) : a.components.filterMap courseStep? = [] := by
  cases a <;> rfl

/-- Segments of which the last counts: if what they lead down ends in a name, that name is the last. -/
theorem concat_of_course {a : Anchor} {names : List Name}
    (hclean : ∀ body k, names = body ++ [k] → isBlank k = false)
    (h : (a.components ++ bodyComponents names).filterMap courseStep? = front ++ [.name n]) :
    ∃ body, names = body ++ [n] ∧
      (a.components ++ bodyComponents body).filterMap courseStep? = front ∧ n ≠ Name.dotDot := by
  rw [List.filterMap_append] at h
  rcases List.eq_nil_or_concat' names with hnil | ⟨body, k, hbody⟩
  · rw [hnil, filterMap_anchor] at h
    simp [bodyComponents] at h
  · rw [hbody, bodyComponents_append, bodyComponents_singleton (hclean body k hbody),
      List.filterMap_append, ← List.append_assoc] at h
    by_cases hk : k = Name.dotDot
    · rw [if_pos hk] at h
      have hlast := (List.append_inj' h rfl).2
      simp [courseStep?] at hlast
    · rw [if_neg hk] at h
      obtain ⟨hfront, hlast⟩ := List.append_inj' h rfl
      obtain rfl : k = n := by simpa [courseStep?] using hlast
      exact ⟨body, hbody, by rw [List.filterMap_append, hfront], hk⟩

/-- The course of a path ends with the last of its own segments. -/
theorem trimmed_of_course (h : p.course = front ++ [.name n]) :
    ∃ body, p.trimmed.2 = body ++ [n] ∧
      (p.anchored.1.components ++ bodyComponents body).filterMap courseStep? = front ∧ n ≠ Name.dotDot := by
  rw [course, components_trimmed] at h
  exact concat_of_course (fun _ _ hbody => not_isBlank_of_trimmed hbody) h

/-- A segment that counts, goes nowhere up and holds no slash is a name. -/
theorem proper_of_not_isBlank (hblank : isBlank n = false) (hup : n ≠ Name.dotDot)
    (hslash : Glyph.char '/' ∉ n) : n.Proper := by
  rw [isBlank, Bool.or_eq_false_iff, beq_eq_false_iff_ne, beq_eq_false_iff_ne] at hblank
  exact ⟨hblank.1, hblank.2, hup, hslash⟩

/-- A path whose course ends in a name has that name as its last component. -/
theorem components_of_course (h : p.course = front ++ [.name n]) :
    ∃ cs, p.components = cs ++ [.name n] ∧ n.Proper := by
  obtain ⟨body, hbody, -, hup⟩ := trimmed_of_course h
  have hblank := not_isBlank_of_trimmed hbody
  have hslash := (fits_anchored p (List.prefix_refl p.trimmed.2)).1 n (by simp [hbody])
  refine ⟨p.anchored.1.components ++ bodyComponents body, ?_, proper_of_not_isBlank hblank hup hslash⟩
  rw [components_trimmed, hbody, bodyComponents_append, bodyComponents_singleton hblank, if_neg hup,
    List.append_assoc]

theorem isEmpty_of_last {s : Step} (h : p.segments.getLast? = some s) : p.isEmpty = false := by
  rw [isEmpty, Bool.eq_false_iff]
  intro hempty
  rw [segments, List.isEmpty_iff.1 hempty] at h
  simp [splitSlash] at h

/-- The path above a path is made of what is left without its last segment. -/
theorem parent_of_trimmed {body : List Name} (h : p.trimmed.2 = body ++ [n]) :
    p.parent? = some (ofSegments p.anchored.1 (body.rdropWhile isBlank)) := by
  have htrimmed : p.trimmed = (p.anchored.1, body ++ [n]) := Prod.ext rfl h
  unfold parent?
  rw [htrimmed]
  split
  · next heq => simp at heq
  · next heq => simp at heq
  · next heq =>
      cases heq
      rw [List.dropLast_concat]
      rfl

theorem not_isBlank_of_rdropWhile {body rest : List Name} (h : body.rdropWhile isBlank = rest ++ [n]) :
    isBlank n = false := by
  have hne : body.rdropWhile isBlank ≠ [] := by simp [h]
  have hlast := List.rdropWhile_last_not isBlank body hne
  simp only [h, List.getLast_append_singleton] at hlast
  simpa using hlast

/-- The path above a path that ends in two names ends in the first of them, and it is shorter. -/
theorem parent_of_course (h : p.course = front ++ [.name m] ++ [.name n]) :
    ∃ q, p.parent? = some q ∧ q.course = front ++ [.name m] ∧ q.isAbsolute = p.isAbsolute ∧
      q.segments.getLast? = some (.name m) ∧ q.endsInSlash = false ∧ q.isEmpty = false ∧
        q.glyphs <+: p.glyphs := by
  obtain ⟨body, hbody, hcourse, -⟩ := trimmed_of_course h
  have hpre : body.rdropWhile isBlank <+: p.trimmed.2 := by
    rw [hbody]
    exact (List.rdropWhile_prefix _ _).trans (List.prefix_append _ _)
  have hfits := fits_anchored p hpre
  have hparent := parent_of_trimmed hbody
  have hcomponents := components_ofSegments hfits
  rw [← bodyComponents_rdropWhile body] at hcourse
  -- what is left of the body ends in the name before the last one
  obtain ⟨rest, hrest, -, hup⟩ := concat_of_course (fun _ _ hrest => not_isBlank_of_rdropWhile hrest) hcourse
  have hproper : m.Proper :=
    proper_of_not_isBlank (not_isBlank_of_rdropWhile hrest) hup (hfits.1 m (by simp [hrest]))
  have hsplit := splitSlash_ofSegments hfits (by simp [hrest])
  rw [hrest, ← List.append_assoc] at hsplit
  rw [hrest] at hcomponents hparent hcourse
  obtain ⟨hlast, hslash⟩ := last_of_split hsplit hproper
  have hne : (ofSegments p.anchored.1 (rest ++ [m])).isEmpty = false := isEmpty_of_last hlast
  have hinitial : (ofSegments p.anchored.1 (rest ++ [m])).components <+: p.components := by
    rw [components_parent hparent]
    exact List.dropLast_prefix _
  refine ⟨_, hparent, ?_, isAbsolute_of_initial hne hinitial, hlast, hslash, hne, ?_⟩
  · rw [course, hcomponents, hcourse]
  · rw [hrest] at hpre
    have hjoin := joinSlash_splitSlash p.glyphs
    rw [splitSlash_glyphs] at hjoin
    have hshape : (ofSegments p.anchored.1 (rest ++ [m])).glyphs =
        joinSlash (p.anchored.1.segments ++ (rest ++ [m])) := by
      cases p.anchored.1 <;> cases rest <;> rfl
    rw [hshape, ← hjoin]
    refine joinSlash_prefix (by simp) ((List.prefix_append_right_inj _).2 (hpre.trans ?_))
    rw [trimmed_snd]
    exact List.rdropWhile_prefix _ _

theorem go_eq_cons (k : Nat) (p : Path) : ∃ above, ancestors.go k p = p :: above := by
  cases k with
  | zero => exact ⟨[], rfl⟩
  | succ k =>
      rw [ancestors.go]
      split
      · exact ⟨[], rfl⟩
      · exact ⟨_, rfl⟩

/-- A path has at least as many segments as names on its course. -/
theorem length_course_le (p : Path) : p.course.length ≤ p.anchored.2.length := by
  rw [course, components_anchored, List.filterMap_append, filterMap_anchor, List.nil_append]
  refine (List.length_filterMap_le _ _).trans ?_
  rw [bodyComponents, List.length_map]
  exact List.length_filter_le _ _

end Path

namespace Disk

variable {d d' : Disk} {p anc : Path} {loc : Location} {n : Name} {names : List Name}

theorem Slot.makeDir_isOk {parent : Location} (h : d.Slot p parent n)
    (hfree : d.look (parent ++ [n]) = none) : ∃ d', d.makeDir p = .ok d' := by
  obtain ⟨c, hplace, rfl, hfits⟩ := h.place
  rw [look_child_slot hfits, Option.map_eq_none_iff] at hfree
  unfold makeDir
  rw [hplace]
  simp [bind, Except.bind, hfree]

/-- The directory that is made is the one that the path leads to then, and nothing else is new. -/
theorem Slot.makeDir_enters {parent : Location} (h : d.Slot p parent n)
    (hfree : d.look (parent ++ [n]) = none) : ∃ d', d.makeDir p = .ok d' ∧ d'.cwd = d.cwd ∧
      d'.look = Function.update d.look (parent ++ [n]) (some .dir) ∧ d'.Enters p (parent ++ [n]) := by
  obtain ⟨d', hmake⟩ := h.makeDir_isOk hfree
  obtain ⟨parent, n, hslot', -, hcwd, hlook⟩ := makeDir_ok hmake
  obtain ⟨rfl, rfl⟩ := h.unique hslot'
  refine ⟨d', hmake, hcwd, hlook, ((makeDir_opens hmake).1.slot h).1.enters_entry ?_⟩
  rw [hlook, Function.update_self]

theorem Slot.makeDir_taken {parent : Location} (h : d.Slot p parent n)
    (hthere : d.look (parent ++ [n]) ≠ none) : d.makeDir p = .error (.os .exists_) := by
  obtain ⟨c, hplace, rfl, hfits⟩ := h.place
  rw [look_child_slot hfits, Ne, Option.map_eq_none_iff] at hthere
  unfold makeDir
  rw [hplace]
  simp [bind, Except.bind, Option.isSome_iff_ne_none.2 hthere]

/-- The walk to a directory comes to a directory before its last step. -/
theorem Enters.leadTrip_last {s : Step} (h : d.Enters p loc) (hlast : p.segments.getLast? = some s) :
    ∃ left dir links, (d.leadTrip p).ending = .ok (left, .present dir) ∧ d.look dir = some .dir ∧
      (d.look.seek true left dir [s, .here]).ending = .ok (links, .present loc) := by
  have hbegin := (goal_eq_ok_iff.1 h.goal).2.1
  obtain ⟨links, hseek⟩ := h.seek
  rw [Path.course_eq, View.seek_filter_here, ← List.dropLast_append_getLast? _ hlast, List.append_assoc,
    View.seek_append _ _ _ _ _ (by simp), ← Path.lead, ← Disk.leadTrip, Trip.andThen] at hseek
  have hending := congrArg Trip.ending hseek
  cases hend : (d.leadTrip p).ending with
  | error e =>
      rw [hend] at hending
      cases hending
  | ok found =>
      obtain ⟨left, g⟩ := found
      obtain ⟨⟨dir, rfl⟩, -⟩ := View.present_of_seek_here hend
      rw [hend] at hending
      exact ⟨left, dir, links, rfl, View.dir_of_seek_here d.look_treelike _ _ _ hbegin hend, hending⟩

/-- A directory that is there cannot be made. -/
theorem Enters.makeDir_taken (h : d.Enters p loc) : d.makeDir p = .error (.os .exists_) := by
  obtain ⟨hadmits, hbegin, -⟩ := goal_eq_ok_iff.1 h.goal
  rcases start_eq d p with ⟨c, hc, hfits, hloc, -⟩ | ⟨-, hmissing⟩ | ⟨-, -, hnot⟩
  · have hagree := agree_lead d p hfits hloc
    cases hlast : ((splitSlash p.glyphs).filter (· ≠ [])).getLast? with
    | none =>
        unfold makeDir place
        rw [hadmits, hc]
        simp only [bind, Except.bind, Except.mapError]
        rw [hlast]
    | some m =>
        have hstep : p.segments.getLast? = some (Step.ofSegment m) := by
          rw [Path.segments, List.getLast?_map, hlast]
          rfl
        obtain ⟨left, dir, links, hend, hdir, hrest⟩ := h.leadTrip_last hstep
        by_cases hdots : m = Name.dot ∨ m = Name.dotDot
        · -- the parent is there, and nothing is to be made in it
          rw [hend] at hagree
          generalize hwalk : walk d.top true maxLinks c _ = spot at hagree
          generalize hg : Goal.present dir = g at hagree
          cases hagree with
          | @ok s links hs =>
              cases s with
              | vacant c' k => cases hg
              | present c' =>
                  cases hg
                  have hparent : c'.node.isDir = true := by
                    rw [Node.isDir_iff, ← Option.some_inj, ← hdir]
                    exact hs.look.symm
                  unfold makeDir place
                  rw [hadmits, hc]
                  simp only [bind, Except.bind, Except.mapError]
                  rw [hlast]
                  dsimp only
                  rw [hwalk]
                  rcases hdots with rfl | rfl <;> simp [hparent, Name.dot, Name.dotDot]
        · push Not at hdots
          rw [Step.ofSegment, if_neg hdots.1, if_neg hdots.2] at hstep hrest
          have hshort : ¬ Name.byteSize m > maxName := fun hlong => by
            rw [View.seek_long hlong] at hrest
            cases hrest
          refine Slot.makeDir_taken ⟨hadmits, hbegin, hstep, ⟨left, hend⟩, hdir, hshort⟩ fun hnone => ?_
          rw [View.seek_none hshort hnone] at hrest
          cases hrest
  · rw [hbegin] at hmissing
    cases hmissing
  · exact absurd hbegin hnot

/-- Making a directory that is there already changes nothing. -/
theorem Enters.run_createDirAll (h : d.Enters p loc) (hne : p.isEmpty = false) :
    (DiskM.createDirAll p).run d = (.ok (), d) := by
  obtain ⟨above, habove⟩ := p.ancestors_eq_cons
  rw [DiskM.run_createDirAll hne, habove, run_bind, DiskM.reach_cons, if_neg (by rw [hne]; simp),
    h.makeDir_taken, isDir_iff.2 ⟨loc, h⟩]
  rfl

/-- A directory can be made where there is nothing or a directory. -/
theorem Slot.createDirAll_isOk {parent : Location} (h : d.Slot p parent n) (hne : p.isEmpty = false)
    (hfree : d.look (parent ++ [n]) = none ∨ d.look (parent ++ [n]) = some .dir) :
    ((DiskM.createDirAll p).run d).1 = .ok () := by
  obtain ⟨above, habove⟩ := p.ancestors_eq_cons
  rw [DiskM.run_createDirAll hne, habove, run_bind, DiskM.reach_cons, if_neg (by rw [hne]; simp)]
  rcases hfree with hnone | hdir
  · obtain ⟨d', hmake⟩ := h.makeDir_isOk hnone
    rw [hmake]
    rfl
  · have hisDir : d.isDir p = true := isDir_iff.2 ⟨_, h.enters_entry hdir⟩
    rw [h.makeDir_taken (by rw [hdir]; simp), hisDir]
    rfl

/-- Where the directory of a last name is missing, nothing can be made. -/
theorem makeDir_missing (hadmits : admit? p = .ok ()) (h : d.Enters anc loc)
    (hext : p.Extends anc (names ++ [n])) (hlast : p.segments.getLast? = some (.name n))
    (hplain : d.look.Plain loc names) (hshort : ∀ m ∈ names, ¬ m.byteSize > maxName)
    (hnone : d.look (loc ++ names) = none) : d.makeDir p = .error (.os .noEntry) := by
  have hbegin := (goal_eq_ok_iff.1 h.goal).2.1
  have horigin : d.origin p = d.origin anc := by rw [origin, origin, hext.absolute]
  have hend : (d.leadTrip p).ending = .error .noEntry := by
    rcases h.leadTrip_below hext hlast hplain with ⟨hdir, -⟩ | ⟨e, hend, he⟩
    · cases hnone.symm.trans hdir
    · rw [hend, (he hshort).1]
  rcases start_eq d p with ⟨c, hc, hfits, hloc, -⟩ | ⟨-, hmissing⟩ | ⟨-, -, hnot⟩
  · have hagree := agree_lead d p hfits hloc
    rw [hend] at hagree
    generalize hwalk : walk d.top true maxLinks c _ = found at hagree
    cases hagree with
    | error =>
        rw [Path.segments, List.getLast?_map, Option.map_eq_some_iff] at hlast
        obtain ⟨m, hm, -⟩ := hlast
        unfold makeDir place
        rw [hadmits, hc]
        simp only [bind, Except.bind, Except.mapError]
        rw [hm, hwalk]
  · rw [horigin, hbegin] at hmissing
    cases hmissing
  · rw [horigin] at hnot
    exact absurd hbegin hnot

/-! ### All that are missing -/

/-- A path that leads nowhere yet: it goes on from a directory down names, the first of which is missing. -/
structure Vacant (d : Disk) (p anc : Path) (loc : Location) (names : List Name) : Prop where
  enters : d.Enters anc loc
  route : p.Extends anc names
  last : ∃ n, p.segments.getLast? = some (.name n)
  free : ∃ n rest, names = n :: rest ∧ d.look (loc ++ [n]) = none
  admits : admit? p = .ok ()
  short : ∀ n ∈ names, ¬ n.byteSize > maxName

/-- Directories were made down some names, and nothing else. -/
structure Laid (loc : Location) (names : List Name) (d d' : Disk) : Prop where
  cwd : d'.cwd = d.cwd
  made : ∀ front, front ≠ [] → front <+: names → d'.look (loc ++ front) = some .dir
  same : ∀ l, (∀ front, front ≠ [] → front <+: names → l ≠ loc ++ front) → d'.look l = d.look l

theorem Laid.refl (loc : Location) (d : Disk) : Laid loc [] d d :=
  ⟨rfl, fun _ hne hfront => absurd (List.prefix_nil.1 hfront) hne, fun _ _ => rfl⟩

/-- One directory more. -/
theorem Laid.concat {d'' : Disk} (h : Laid loc names d d') (hcwd : d''.cwd = d'.cwd)
    (hlook : d''.look = Function.update d'.look (loc ++ names ++ [n]) (some .dir)) :
    Laid loc (names ++ [n]) d d'' := by
  refine ⟨hcwd.trans h.cwd, fun front hne hfront => ?_, fun l hl => ?_⟩
  · rw [hlook]
    rcases List.prefix_concat_iff.1 hfront with rfl | hfront'
    · rw [← List.append_assoc, Function.update_self]
    · rw [Function.update_of_ne, h.made front hne hfront']
      intro heq
      rw [List.append_assoc] at heq
      have hlength := hfront'.length_le
      rw [List.append_cancel_left heq] at hlength
      simp at hlength
  · rw [hlook, Function.update_of_ne]
    · exact h.same l fun front hne hfront => hl front hne (hfront.trans (List.prefix_append _ _))
    · rw [List.append_assoc]
      exact hl _ (by simp) (List.prefix_refl _)

/-- Below a missing name nothing is there. -/
theorem look_none_down {rest : List Name} (hfree : d.look (loc ++ [n]) = none) (names : List Name)
    (hne : names ≠ []) (hpre : names <+: n :: rest) : d.look (loc ++ names) = none := by
  obtain ⟨m, ms, rfl⟩ := List.exists_cons_of_ne_nil hne
  obtain rfl := (List.cons_prefix_cons.1 hpre).1
  refine look_none_below hfree ?_
  rw [List.append_cons loc m ms]
  exact List.prefix_append _ _

/-- The last name is the one that the path ends in. -/
theorem Vacant.getLast? {m : Name} (h : d.Vacant p anc loc (names ++ [m])) :
    p.segments.getLast? = some (.name m) := by
  obtain ⟨n, hlast⟩ := h.last
  have hcourse := Path.last_course hlast
  rw [h.route.course, List.map_append, ← List.append_assoc] at hcourse
  obtain rfl : n = m := by simpa using hcourse.symm
  exact hlast

/-- Below the first name nothing is there. -/
theorem Vacant.look_none (h : d.Vacant p anc loc names) {front : List Name} (hne : front ≠ [])
    (hpre : front <+: names) : d.look (loc ++ front) = none := by
  obtain ⟨first, rest, hfirst, hfree⟩ := h.free
  exact look_none_down hfree front hne (hfirst ▸ hpre)

/-- If two names or more are missing, the directory of the last one cannot be made yet, and the path above
leads nowhere either. -/
theorem Vacant.up {m : Name} (h : d.Vacant p anc loc (names ++ [m] ++ [n])) :
    ∃ q, p.parent? = some q ∧ p.Extends q [n] ∧ d.Vacant q anc loc (names ++ [m]) ∧
      d.makeDir p = .error (.os .noEntry) := by
  have hcourse : p.course = anc.course ++ names.map .name ++ [.name m] ++ [.name n] := by
    rw [h.route.course]
    simp
  obtain ⟨q, hparent, hq, habsolute, hqlast, -, hqempty, hglyphs⟩ := Path.parent_of_course hcourse
  have hplain : d.look.Plain loc (names ++ [m]) := by
    intro f hf
    by_cases hnil : f = []
    · rw [hnil, List.append_nil]
      exact .inr h.enters.dir
    · exact .inl (h.look_none hnil (hf.trans (List.prefix_append _ _)))
  have hshort : ∀ k ∈ names ++ [m], ¬ k.byteSize > maxName := fun k hk =>
    h.short k (List.mem_append_left _ hk)
  have hfree : ∃ k rest, names ++ [m] = k :: rest ∧ d.look (loc ++ [k]) = none := by
    obtain ⟨k, rest, heq⟩ := List.exists_cons_of_ne_nil (show names ++ [m] ≠ [] by simp)
    refine ⟨k, rest, heq, h.look_none (by simp) ?_⟩
    rw [heq]
    exact ⟨rest ++ [n], rfl⟩
  exact ⟨q, hparent, ⟨habsolute.symm, by rw [hcourse, hq]; simp⟩,
    ⟨h.enters, ⟨habsolute.trans h.route.absolute, by rw [hq]; simp⟩, ⟨m, hqlast⟩, hfree,
      admit?_of_prefix hqempty hglyphs h.admits, hshort⟩,
    makeDir_missing h.admits h.enters h.route h.getLast? hplain hshort
      (h.look_none (by simp) (List.prefix_append _ _))⟩

end Disk

namespace DiskM

open Disk

variable {d d' : Disk} {p anc : Path} {loc : Location} {names : List Name}

theorem makeEach_append {ps : List Path} (h : (makeEach ps).run d = (.ok (), d')) (qs : List Path) :
    (makeEach (ps ++ qs)).run d = (makeEach qs).run d' := by
  induction ps generalizing d with
  | nil =>
      cases h
      rfl
  | cons p ps ih =>
      rw [List.cons_append, makeEach_cons]
      rw [makeEach_cons] at h
      split at h
      · exact ih h
      · split at h
        · next hthere =>
            rw [if_pos hthere]
            exact ih h
        · cases h

/-- The search for the nearest directory makes the first that is missing, and the others can be made one
after the other. -/
theorem reach_vacant (hne : names ≠ []) (h : d.Vacant p anc loc names) {k : Nat}
    (hk : names.length ≤ k + 1) (todo : List Path) :
    ∃ ps d₁ d₂, (reach (Path.ancestors.go k p) todo).run d = (.ok (ps ++ todo), d₁) ∧
      (makeEach ps).run d₁ = (.ok (), d₂) ∧ Laid loc names d d₂ ∧ d₂.Enters p (loc ++ names) := by
  induction names using List.reverseRecOn generalizing p k todo with
  | nil => exact absurd rfl hne
  | append_singleton front n ih =>
      have hempty : p.isEmpty = false := Path.isEmpty_of_last h.getLast?
      by_cases hfront : front = []
      · -- the name is missing in the directory that is there
        subst hfront
        have hslot := (h.enters.slot h.route h.admits h.getLast? (h.short n (by simp))).1
        obtain ⟨d₁, hmake, hcwd, hlook, hin⟩ :=
          hslot.makeDir_enters (h.look_none (List.cons_ne_nil n []) (List.prefix_refl _))
        refine ⟨[], d₁, d₁, ?_, rfl, (Laid.refl loc d).concat hcwd (by rw [hlook, List.append_nil]), hin⟩
        obtain ⟨above, habove⟩ := Path.go_eq_cons k p
        rw [habove, reach_cons, if_neg (by rw [hempty]; simp), hmake]
        rfl
      · -- the path above is laid first, and this directory is made in it last
        obtain ⟨names, m, rfl⟩ := (List.eq_nil_or_concat' front).resolve_left hfront
        obtain ⟨q, hparent, hroute, hvacant, hmissing⟩ := h.up
        obtain ⟨k, rfl⟩ : ∃ k', k = k' + 1 := by
          refine ⟨k - 1, ?_⟩
          simp at hk
          omega
        obtain ⟨ps, d₁, d₂, hreach, hmakes, hlaid, hin⟩ := ih hfront hvacant (k := k) (by
          simp at hk ⊢
          omega) (p :: todo)
        have hslot := (hin.slot hroute h.admits h.getLast? (h.short n (by simp))).1
        have hfree : d₂.look (loc ++ (names ++ [m]) ++ [n]) = none := by
          rw [List.append_assoc, hlaid.same, h.look_none (by simp) (List.prefix_refl _)]
          intro f hf hle heq
          have hlength := hle.length_le
          rw [← List.append_cancel_left heq] at hlength
          simp at hlength
        obtain ⟨d₃, hmake, hcwd, hlook, hin'⟩ := hslot.makeDir_enters hfree
        refine ⟨ps ++ [p], d₁, d₃, ?_, ?_, hlaid.concat hcwd hlook, List.append_assoc loc _ [n] ▸ hin'⟩
        · have hgo : Path.ancestors.go (k + 1) p = p :: Path.ancestors.go k q := by
            rw [Path.ancestors.go, hparent]
          rw [hgo, reach_cons, if_neg (by rw [hempty]; simp), hmissing, List.append_assoc]
          exact hreach
        · rw [makeEach_append hmakes, makeEach_cons, hmake]
          rfl

end DiskM

namespace Disk

variable {d : Disk} {p anc : Path} {loc : Location} {names : List Name}

/-- All directories of a path that leads nowhere yet can be made. -/
theorem Vacant.made (h : d.Vacant p anc loc names) : ((DiskM.createDirAll p).run d).1 = .ok () ∧
    Laid loc names d (d.opened p) ∧ (d.opened p).Enters p (loc ++ names) := by
  obtain ⟨first, rest, hfirst, -⟩ := h.free
  obtain ⟨n, hlast⟩ := h.last
  have hlength : names.length ≤ p.anchored.2.length + 1 + 1 := by
    have hcourse := p.length_course_le
    rw [h.route.course, List.length_append, List.length_map] at hcourse
    omega
  obtain ⟨ps, d₁, d₂, hreach, hmakes, hlaid, hin⟩ :=
    DiskM.reach_vacant (by rw [hfirst]; simp) h hlength []
  rw [List.append_nil] at hreach
  have hrun : (DiskM.createDirAll p).run d = (.ok (), d₂) := by
    rw [DiskM.run_createDirAll (Path.isEmpty_of_last hlast), Path.ancestors, run_bind_of_ok hreach, hmakes]
  have hopened : d.opened p = d₂ := congrArg Prod.snd hrun
  rw [hopened, hrun]
  exact ⟨rfl, hlaid, hin⟩

/-- What is looked up to find that a path leads nowhere yet. -/
theorem Vacant.way_subset (h : d.Vacant p anc loc names) : (∀ l ∈ d.way anc true, l ∈ d.way p true) ∧
    ∃ n rest, names = n :: rest ∧ d.look (loc ++ [n]) = none ∧ loc ++ [n] ∈ d.way p true := by
  obtain ⟨n, rest, rfl, hfree⟩ := h.free
  obtain ⟨links, hseek⟩ := h.enters.seek
  have horigin : d.origin p = d.origin anc := by rw [origin, origin, h.route.absolute]
  have hvisited : (d.trip p true).visited =
      (d.look.seek true maxLinks (d.origin p) (p.course ++ [.here])).visited := by
    rw [Path.course_eq, View.seek_filter_here, (View.seek_concat_here _ _ _ _).1, trip, Path.steps_eq]
    split
    · rw [(View.seek_concat_here _ _ _ _).1]
    · rw [List.append_nil]
  rw [h.route.course, List.append_assoc, View.seek_append _ _ _ _ _ (by simp), horigin, hseek,
    Trip.andThen] at hvisited
  refine ⟨fun l hl => ?_, n, rest, rfl, hfree, ?_⟩
  · rw [way, horigin, hvisited]
    refine (List.mem_append.1 hl).elim (fun hl => List.mem_append_left _ hl) fun hl => ?_
    exact List.mem_append_right _ (List.mem_append_left _ hl)
  · rw [way, hvisited]
    refine List.mem_append_right _ (List.mem_append_right _ ?_)
    exact View.mem_visited_name (h.short n (by simp))

/-- A disk that agrees about what is looked up has it lead nowhere as well. -/
theorem Vacant.congr {d' : Disk} (h : d.Vacant p anc loc names) (hcwd : d'.cwd = d.cwd)
    (hway : ∀ l ∈ d.way p true, d'.look l = d.look l) : d'.Vacant p anc loc names := by
  obtain ⟨hsub, n, rest, hnames, hfree, hmem⟩ := h.way_subset
  exact { h with
    enters := (h.enters.congr hcwd fun l hl => hway l (hsub l hl)).1
    free := ⟨n, rest, hnames, (hway _ hmem).trans hfree⟩ }

/-- Nothing is below the place of such a path, and making it makes nothing there. -/
theorem Vacant.fresh (h : d.Vacant p anc loc names) : Gone (loc ++ names) d ∧
    ∀ n l, loc ++ names ++ [n] <+: l → (d.opened p).look l = none := by
  obtain ⟨n, rest, hnames, hfree⟩ := h.free
  have hgone : Gone (loc ++ names) d := fun l hl =>
    look_none_below (look_none_down hfree names (by rw [hnames]; simp) (by rw [hnames])) hl
  refine ⟨hgone, fun n l hl => ?_⟩
  rw [h.made.2.1.same l, hgone l ((List.prefix_append _ _).trans hl)]
  rintro front - hfront rfl
  have hlength := hl.length_le
  have hle := hfront.length_le
  simp only [List.length_append, List.length_singleton] at hlength
  omega

end Disk

end Sideload
