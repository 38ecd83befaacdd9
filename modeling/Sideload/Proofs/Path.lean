import Sideload.Proofs.Disk.Route

/-!
Paths and their components. The components of a path say where it starts from and which steps it takes;
joining, taking the parent and changing the extension are described by what they do to them.
-/

namespace Sideload

/-! ### Cutting at slashes -/

/-- The slash, which no name holds. -/
abbrev slash : Glyph := .char '/'

/-- Names that a directory entry can have. -/
structure Name.Proper (n : Name) : Prop where
  ne_nil : n ≠ []
  ne_dot : n ≠ Name.dot
  ne_dotDot : n ≠ Name.dotDot
  no_slash : slash ∉ n

theorem splitSlash_append (a b : List Glyph) :
    splitSlash (a ++ slash :: b) = splitSlash a ++ splitSlash b := by
  induction a with
  | nil => simp [splitSlash, slash]
  | cons g a ih =>
      rw [List.cons_append, splitSlash, splitSlash]
      split
      · rw [ih, List.cons_append]
      · obtain ⟨n, ns, hns⟩ := List.exists_cons_of_ne_nil (splitSlash_ne_nil a)
        rw [ih, hns, List.cons_append]
        rfl

theorem splitSlash_of_not_mem {gs : List Glyph} (h : slash ∉ gs) : splitSlash gs = [gs] := by
  induction gs with
  | nil => rfl
  | cons g gs ih =>
      rw [List.mem_cons, not_or] at h
      rw [splitSlash, if_neg (Ne.symm h.1), ih h.2]

theorem not_mem_of_mem_splitSlash {gs : List Glyph} {n : Name} (h : n ∈ splitSlash gs) :
    slash ∉ n := by
  induction gs generalizing n with
  | nil =>
      obtain rfl := List.mem_singleton.1 h
      exact List.not_mem_nil
  | cons g gs ih =>
      obtain ⟨m, ms, hms⟩ := List.exists_cons_of_ne_nil (splitSlash_ne_nil gs)
      rw [splitSlash, hms] at h
      rw [hms] at ih
      split at h
      · rcases List.mem_cons.1 h with rfl | h
        · exact List.not_mem_nil
        · exact ih h
      · next hg =>
          rcases List.mem_cons.1 h with rfl | h
          · rw [List.mem_cons, not_or]
            exact ⟨Ne.symm hg, ih (List.mem_cons_self ..)⟩
          · exact ih (List.mem_cons_of_mem _ h)

theorem splitSlash_joinSlash {ns : List Name} (hne : ns ≠ []) (h : ∀ n ∈ ns, slash ∉ n) :
    splitSlash (joinSlash ns) = ns := by
  induction ns with
  | nil => exact absurd rfl hne
  | cons n ns ih =>
      have hn := splitSlash_of_not_mem (h n (List.mem_cons_self ..))
      cases ns with
      | nil => exact hn
      | cons m ms =>
          show splitSlash (n ++ slash :: joinSlash (m :: ms)) = _
          rw [splitSlash_append, hn, ih (by simp) fun k hk => h k (List.mem_cons_of_mem _ hk)]
          rfl

theorem joinSlash_append {a b : List Name} (ha : a ≠ []) (hb : b ≠ []) :
    joinSlash (a ++ b) = joinSlash a ++ slash :: joinSlash b := by
  induction a with
  | nil => exact absurd rfl ha
  | cons n a ih =>
      cases a with
      | nil =>
          obtain ⟨m, b, rfl⟩ := List.exists_cons_of_ne_nil hb
          rfl
      | cons m a =>
          show n ++ slash :: joinSlash (m :: a ++ b) = n ++ slash :: joinSlash (m :: a) ++ _
          rw [ih (by simp), List.append_assoc, List.cons_append]

namespace Path

variable {p q : Path} {n : Name} {ns : List Name}

/-! ### The last segment -/

/-- A path whose last segment is a name ends in that name. -/
theorem last_of_split (h : splitSlash p.glyphs = ns ++ [n]) (hn : n.Proper) :
    p.segments.getLast? = some (.name n) ∧ p.endsInSlash = false := by
  have hglyphs : ∃ front, p.glyphs = front ++ n := by
    have hjoin := joinSlash_splitSlash p.glyphs
    rw [h] at hjoin
    cases ns with
    | nil => exact ⟨[], hjoin.symm⟩
    | cons m ms =>
        rw [joinSlash_append (List.cons_ne_nil m ms) (List.cons_ne_nil n [])] at hjoin
        exact ⟨joinSlash (m :: ms) ++ [slash], by rw [← hjoin]; simp [joinSlash]⟩
  obtain ⟨front, hfront⟩ := hglyphs
  constructor
  · rw [segments, h, List.filter_append, List.filter_cons_of_pos (by simpa using hn.ne_nil)]
    simp [Step.ofSegment, hn.ne_dot, hn.ne_dotDot]
  · rw [endsInSlash, hfront, List.getLast?_append_of_ne_nil _ hn.ne_nil]
    rw [beq_eq_false_iff_ne]
    intro hlast
    exact hn.no_slash (List.mem_of_getLast? hlast)

theorem split_of_last (h : p.segments.getLast? = some (.name n)) (hslash : p.endsInSlash = false) :
    (∃ ns, splitSlash p.glyphs = ns ++ [n]) ∧ n.Proper := by
  rw [segments, List.getLast?_map, Option.map_eq_some_iff] at h
  obtain ⟨m, hm, hmn⟩ := h
  obtain ⟨ns, k, hk⟩ := List.eq_nil_or_concat' (splitSlash p.glyphs) |>.resolve_left
    (splitSlash_ne_nil _)
  have hkne : k ≠ [] := by
    rintro rfl
    have hjoin := joinSlash_splitSlash p.glyphs
    rw [hk] at hjoin
    cases ns with
    | nil =>
        rw [hk] at hm
        cases hm
    | cons a as =>
        rw [joinSlash_append (List.cons_ne_nil a as) (List.cons_ne_nil [] [])] at hjoin
        rw [endsInSlash, ← hjoin] at hslash
        simp [joinSlash] at hslash
  rw [hk, List.filter_append, List.filter_cons_of_pos (by simpa using hkne)] at hm
  obtain rfl : k = m := by simpa using hm
  unfold Step.ofSegment at hmn
  split at hmn
  · cases hmn
  · next hdot =>
      split at hmn
      · cases hmn
      · next hup =>
          cases hmn
          refine ⟨⟨ns, hk⟩, hkne, hdot, hup, ?_⟩
          exact not_mem_of_mem_splitSlash (by rw [hk]; simp)

/-! ### Components -/

/-- The components that the segments after the anchor stand for. -/
def bodyComponents (body : List Name) : List Component :=
  (body.filter fun n => !isBlank n).map fun n => if n = Name.dotDot then .up else .name n

theorem bodyComponents_append (a b : List Name) :
    bodyComponents (a ++ b) = bodyComponents a ++ bodyComponents b := by
  simp [bodyComponents]

theorem bodyComponents_proper (h : n.Proper) : bodyComponents [n] = [.name n] := by
  simp [bodyComponents, isBlank, h.ne_nil, h.ne_dot, h.ne_dotDot]

/-- The components of the first segment. -/
def headComponents (n : Name) (ns : List Name) : List Component :=
  if n = [] then (if ns = [] then [] else [.root])
  else if n = Name.dot then [.here]
  else bodyComponents [n]

theorem components_eq (h : splitSlash p.glyphs = n :: ns) :
    p.components = headComponents n ns ++ bodyComponents ns := by
  have hfree : n ≠ [] → n ≠ Name.dot → bodyComponents (n :: ns) =
      bodyComponents [n] ++ bodyComponents ns := fun _ _ => bodyComponents_append [n] ns
  unfold components anchored headComponents
  rw [h]
  cases ns with
  | nil =>
      by_cases hnil : n = []
      · subst hnil
        rfl
      · by_cases hdot : n = Name.dot
        · subst hdot
          rfl
        · simp only [hnil, hdot, if_false]
          exact (List.append_nil _).symm
  | cons m ms =>
      by_cases hnil : n = []
      · simp only [hnil, if_true, Anchor.components]
        rfl
      · by_cases hdot : n = Name.dot
        · subst hdot
          rfl
        · simp only [hnil, hdot, if_false, Anchor.components, List.nil_append]
          exact hfree hnil hdot

theorem splitSlash_glyphs (p : Path) :
    splitSlash p.glyphs = p.anchored.1.segments ++ p.anchored.2 := by
  unfold anchored
  split
  · next h => exact absurd h (splitSlash_ne_nil _)
  · next n h =>
      split
      · next hdot => rw [h, hdot]; rfl
      · rw [h]; rfl
  · next n ns _ h =>
      split
      · next hnil => rw [h, hnil]; rfl
      · split
        · next hdot => rw [h, hdot]; rfl
        · rw [h]; rfl

theorem components_anchored (p : Path) :
    p.components = p.anchored.1.components ++ bodyComponents p.anchored.2 := rfl

/-- The step that a component stands for, if it goes anywhere. -/
def courseStep? : Component → Option Step
  | .root => none
  | .here => none
  | .up => some .up
  | .name n => some (.name n)

/-- The steps of a path, blank segments left out. -/
def course (p : Path) : List Step := p.components.filterMap courseStep?

theorem course_eq (p : Path) : p.course = p.segments.filter fun s => !s.isHere := by
  have hstep : ∀ b : List Name,
      (bodyComponents b).filterMap courseStep? =
        ((b.filter (· ≠ [])).map Step.ofSegment).filter fun s => !s.isHere := by
    intro b
    induction b with
    | nil => rfl
    | cons n b ih =>
        rw [← List.singleton_append, bodyComponents_append, List.filterMap_append, ih,
          List.filter_append, List.map_append, List.filter_append]
        congr 1
        by_cases hnil : n = []
        · rw [hnil]
          rfl
        by_cases hdot : n = Name.dot
        · rw [hdot]
          rfl
        by_cases hup : n = Name.dotDot
        · rw [hup]
          rfl
        simp [bodyComponents, isBlank, Step.ofSegment, hnil, hdot, hup, courseStep?, Step.isHere]
  obtain ⟨n, ns, h⟩ := List.exists_cons_of_ne_nil (splitSlash_ne_nil p.glyphs)
  have hhead : (headComponents n ns).filterMap courseStep? =
      (bodyComponents [n]).filterMap courseStep? := by
    unfold headComponents
    split
    · next hnil =>
        rw [hnil]
        split <;> rfl
    · split
      · next hdot =>
          rw [hdot]
          rfl
      · rfl
  rw [course, components_eq h, List.filterMap_append, hhead, ← List.filterMap_append,
    ← bodyComponents_append, hstep, segments, h, List.singleton_append]

/-- A last name ends the course. -/
theorem last_course (h : p.segments.getLast? = some (.name n)) : p.course.getLast? = some (.name n) := by
  rw [course_eq, ← List.dropLast_append_getLast? _ h, List.filter_append]
  exact List.getLast?_concat ..

theorem root_not_mem_body (b : List Name) : .root ∉ bodyComponents b := by
  intro hmem
  obtain ⟨m, -, hm⟩ := List.mem_map.1 hmem
  split at hm <;> cases hm

theorem isAbsolute_iff : p.isAbsolute = true ↔ p.components.head? = some .root := by
  obtain ⟨n, ns, h⟩ := List.exists_cons_of_ne_nil (splitSlash_ne_nil p.glyphs)
  rw [components_eq h, isAbsolute, beq_iff_eq]
  cases hg : p.glyphs with
  | nil =>
      rw [hg] at h
      cases h
      simp [headComponents, bodyComponents]
  | cons g gs =>
      rw [hg, splitSlash] at h
      by_cases hgs : g = slash
      · rw [if_pos hgs] at h
        cases h
        rw [hgs, headComponents, if_pos rfl, if_neg (splitSlash_ne_nil gs)]
        exact ⟨fun _ => rfl, fun _ => rfl⟩
      · rw [if_neg hgs] at h
        have hn : n ≠ [] := by
          obtain ⟨m, ms, hms⟩ := List.exists_cons_of_ne_nil (splitSlash_ne_nil gs)
          rw [hms] at h
          cases h
          simp
        constructor
        · intro hhead
          exact absurd (Option.some.inj hhead) hgs
        · intro hhead
          rw [headComponents, if_neg hn] at hhead
          split at hhead
          · cases hhead
          · rw [← bodyComponents_append] at hhead
            exact absurd (List.mem_of_head? hhead) (root_not_mem_body _)

theorem isAbsolute_congr (h : p.components = q.components) : p.isAbsolute = q.isAbsolute :=
  Bool.eq_iff_iff.2 (by rw [isAbsolute_iff, isAbsolute_iff, h])

/-- The last name does not say where a path starts from. -/
theorem isAbsolute_concat {front : List Component} {m n : Name}
    (hp : p.components = front ++ [.name n]) (hq : q.components = front ++ [.name m]) :
    q.isAbsolute = p.isAbsolute := by
  refine Bool.eq_iff_iff.2 ?_
  rw [isAbsolute_iff, isAbsolute_iff, hp, hq]
  cases front with
  | nil => exact ⟨by simp, by simp⟩
  | cons c cs => exact Iff.rfl

theorem isAbsolute_of_concat {front : List Component} (hp : p.components = front)
    (hq : q.components = front ++ [.name n]) : q.isAbsolute = p.isAbsolute := by
  refine Bool.eq_iff_iff.2 ?_
  rw [isAbsolute_iff, isAbsolute_iff, hp, hq]
  cases front with
  | nil => exact ⟨by simp, by simp⟩
  | cons c cs => exact Iff.rfl

theorem components_ne_nil (h : p.isEmpty = false) : p.components ≠ [] := by
  obtain ⟨n, ns, hsplit⟩ := List.exists_cons_of_ne_nil (splitSlash_ne_nil p.glyphs)
  have hone : n = [] → ns ≠ [] := by
    rintro rfl rfl
    have hjoin := joinSlash_splitSlash p.glyphs
    rw [hsplit] at hjoin
    rw [isEmpty, ← hjoin] at h
    cases h
  rw [components_eq hsplit, headComponents]
  split
  · next hnil => simp [hone hnil]
  · split
    · simp
    · next hnil hdot => simp [bodyComponents, isBlank, hnil, hdot]

theorem isEmpty_of_isAbsolute (h : p.isAbsolute = true) : p.isEmpty = false := by
  unfold isAbsolute at h
  unfold isEmpty
  cases hglyphs : p.glyphs with
  | nil =>
      rw [hglyphs] at h
      cases h
  | cons g gs => rfl

theorem isAbsolute_of_initial (hne : q.isEmpty = false) (h : q.components <+: p.components) :
    q.isAbsolute = p.isAbsolute := by
  obtain ⟨c, cs, hq⟩ := List.exists_cons_of_ne_nil (components_ne_nil hne)
  obtain ⟨rest, hp⟩ := h
  refine Bool.eq_iff_iff.2 ?_
  rw [isAbsolute_iff, isAbsolute_iff, ← hp, hq]
  exact Iff.rfl

theorem course_initial (h : q.components <+: p.components) : q.course <+: p.course := by
  obtain ⟨rest, hp⟩ := h
  exact ⟨rest.filterMap courseStep?, by rw [course, course, ← hp, List.filterMap_append]⟩

/-- What a path without `..` adds to the course of a shorter one is names. -/
theorem course_of_initial (h : q.components <+: p.components) (hup : .up ∉ p.components) :
    ∃ names : List Name, p.course = q.course ++ names.map .name := by
  obtain ⟨rest, hrest⟩ := h
  have hup' : .up ∉ rest := fun hmem => hup (hrest ▸ List.mem_append_right _ hmem)
  suffices hnames : ∃ names : List Name, rest.filterMap courseStep? = names.map .name by
    obtain ⟨names, hnames⟩ := hnames
    exact ⟨names, by rw [course, course, ← hrest, List.filterMap_append, hnames]⟩
  clear hrest
  induction rest with
  | nil => exact ⟨[], rfl⟩
  | cons c cs ih =>
      obtain ⟨names, hnames⟩ := ih fun hmem => hup' (List.mem_cons_of_mem _ hmem)
      cases c with
      | root => exact ⟨names, hnames⟩
      | here => exact ⟨names, hnames⟩
      | up => exact absurd (List.mem_cons_self ..) hup'
      | name n => exact ⟨n :: names, by rw [List.filterMap_cons, courseStep?, hnames]; rfl⟩

/-- The path goes on from another one down some names. -/
structure Extends (q p : Path) (names : List Name) : Prop where
  absolute : q.isAbsolute = p.isAbsolute
  course : q.course = p.course ++ names.map .name

theorem Extends.of_concat (h : q.components = p.components ++ [.name n]) : q.Extends p [n] := by
  refine ⟨isAbsolute_of_concat rfl h, ?_⟩
  rw [Path.course, Path.course, h, List.filterMap_append]
  rfl

/-- A path without `..` goes down names from every shorter one. -/
theorem Extends.of_initial (hne : q.isEmpty = false) (h : q.components <+: p.components)
    (hup : .up ∉ p.components) : ∃ names, p.Extends q names := by
  obtain ⟨names, hnames⟩ := course_of_initial h hup
  exact ⟨names, (isAbsolute_of_initial hne h).symm, hnames⟩

theorem Extends.trans {dir : Path} {front names : List Name} (h : p.Extends dir front)
    (h' : q.Extends p names) : q.Extends dir (front ++ names) := by
  refine ⟨h'.absolute.trans h.absolute, ?_⟩
  rw [h'.course, h.course, List.map_append, List.append_assoc]

theorem course_congr (h : p.components = q.components) : p.course = q.course := by
  rw [course, course, h]

theorem sameAs_iff : p.sameAs q = true ↔ p.components = q.components := by simp [sameAs]

theorem course_concat {front : List Component} (h : p.components = front ++ [.name n]) :
    p.course = front.filterMap courseStep? ++ [.name n] := by
  rw [course, h, List.filterMap_append]
  rfl

theorem Extends.front {dir : Path} {names : List Name} {front : List Component}
    (h : p.Extends dir (names ++ [n])) (hp : p.components = front ++ [.name n]) :
    front.filterMap courseStep? = dir.course ++ names.map .name := by
  have hcourse := h.course
  rw [course_concat hp, List.map_append, ← List.append_assoc] at hcourse
  exact List.append_cancel_right hcourse

/-- Another last name. -/
theorem Extends.sibling {dir : Path} {names : List Name} {front : List Component} {m : Name}
    (h : p.Extends dir (names ++ [n])) (hp : p.components = front ++ [.name n])
    (hq : q.components = front ++ [.name m]) : q.Extends dir (names ++ [m]) := by
  refine ⟨(isAbsolute_concat hp hq).trans h.absolute, ?_⟩
  rw [course_concat hq, h.front hp, List.map_append, List.append_assoc]
  rfl

/-- One name less. -/
theorem Extends.upper {dir : Path} {names : List Name} (h : p.Extends dir (names ++ [n]))
    (hp : p.components = q.components ++ [.name n]) : q.Extends dir names :=
  ⟨(isAbsolute_of_concat rfl hp).symm.trans h.absolute, h.front hp⟩

/-- A path along the way to another one is above the first directory, or goes on from it. -/
theorem Extends.cut {dir : Path} {names : List Name} (h : p.Extends dir names)
    (hne : q.isEmpty = false) (hq : q.components <+: p.components) :
    q.isAbsolute = dir.isAbsolute ∧ q.course <+: dir.course ∨
      ∃ front, front <+: names ∧ q.Extends dir front := by
  have habsolute := (isAbsolute_of_initial hne hq).trans h.absolute
  have hcourse := course_initial hq
  rw [h.course] at hcourse
  rcases List.prefix_or_prefix_of_prefix hcourse (List.prefix_append _ _) with hshort | ⟨rest, hrest⟩
  · exact .inl ⟨habsolute, hshort⟩
  · rw [← hrest, List.prefix_append_right_inj] at hcourse
    obtain ⟨front, hfront, rfl⟩ := List.prefix_map_iff.1 hcourse
    exact .inr ⟨front, hfront, habsolute, hrest.symm⟩

/-! ### Joining and taking apart -/

theorem isAbsolute_ofName (h : n.Proper) : (ofName n).isAbsolute = false := by
  obtain ⟨g, gs, rfl⟩ := List.exists_cons_of_ne_nil h.ne_nil
  have hg : g ≠ slash := fun he => h.no_slash (he ▸ List.mem_cons_self ..)
  simpa [isAbsolute, ofName] using hg

/-- What is put between a path and a name that is joined to it does not depend on the name. -/
theorem glyphs_join (p : Path) :
    ∃ gap, ∀ n : Name, n.Proper → (p.join (ofName n)).glyphs = p.glyphs ++ gap ++ n := by
  by_cases hplain : (p.isEmpty || p.endsInSlash) = true
  · refine ⟨[], fun n h => ?_⟩
    rw [join, isAbsolute_ofName h, if_neg Bool.false_ne_true, if_pos hplain, List.append_nil]
    rfl
  · refine ⟨[slash], fun n h => ?_⟩
    rw [join, isAbsolute_ofName h, if_neg Bool.false_ne_true, if_neg hplain, List.append_assoc]
    rfl

/-- Joining a name puts it in the place of a blank last segment or after the last segment. -/
theorem splitSlash_join (p : Path) (h : n.Proper) :
    ∃ ns, splitSlash (p.join (ofName n)).glyphs = ns ++ [n] ∧
      (splitSlash p.glyphs = ns ++ [[]] ∨ splitSlash p.glyphs = ns ∧ ns ≠ [[]]) := by
  have hrel := isAbsolute_ofName h
  have hn := splitSlash_of_not_mem h.no_slash
  unfold join
  rw [hrel, if_neg Bool.false_ne_true]
  by_cases hempty : p.isEmpty = true
  · have hnil : p.glyphs = [] := List.isEmpty_iff.1 hempty
    refine ⟨[], ?_, .inl (by rw [hnil]; rfl)⟩
    rw [if_pos (by rw [hempty]; rfl), hnil]
    exact hn
  · have hne : p.glyphs ≠ [] := fun he => hempty (List.isEmpty_iff.2 he)
    by_cases hend : p.endsInSlash = true
    · obtain ⟨gs, hgs⟩ : ∃ gs, p.glyphs = gs ++ slash :: [] := by
        rw [endsInSlash, beq_iff_eq] at hend
        exact ⟨_, (List.dropLast_append_getLast? _ hend).symm⟩
      refine ⟨splitSlash gs, ?_, .inl (by rw [hgs, splitSlash_append]; rfl)⟩
      rw [if_pos (by rw [hend, Bool.or_true]), hgs, List.append_assoc]
      exact (splitSlash_append gs n).trans (by rw [hn])
    · refine ⟨splitSlash p.glyphs, ?_, .inr ⟨rfl, fun hone => ?_⟩⟩
      · rw [if_neg (by simp [hempty, hend])]
        exact (splitSlash_append p.glyphs n).trans (by rw [hn])
      · have hjoin := joinSlash_splitSlash p.glyphs
        rw [hone] at hjoin
        exact hne hjoin.symm

theorem components_join (p : Path) (h : n.Proper) :
    (p.join (ofName n)).components = p.components ++ [.name n] := by
  obtain ⟨ns, hjoin, hp⟩ := splitSlash_join p h
  cases ns with
  | nil =>
      obtain hp | ⟨hp, -⟩ := hp
      · rw [components_eq hjoin, components_eq hp, headComponents, if_neg h.ne_nil,
          if_neg h.ne_dot, bodyComponents_proper h]
        rfl
      · exact absurd hp (splitSlash_ne_nil _)
  | cons m ms =>
      have hmore : ∀ k : Name, ms ++ [k] ≠ [] := by simp
      rw [components_eq (show _ = m :: (ms ++ [n]) from hjoin), bodyComponents_append,
        bodyComponents_proper h, ← List.append_assoc]
      congr 1
      obtain hp | ⟨hp, hm⟩ := hp
      · rw [components_eq (show _ = m :: (ms ++ [[]]) from hp), bodyComponents_append,
          headComponents, headComponents, if_neg (hmore n), if_neg (hmore [])]
        simp [bodyComponents, isBlank]
      · rw [components_eq hp, headComponents, headComponents, if_neg (hmore n)]
        by_cases hnil : m = []
        · have hms : ms ≠ [] := by
            rintro rfl
            exact hm (by rw [hnil])
          rw [if_neg hms]
        · rw [if_neg hnil, if_neg hnil]

theorem segments_join (p : Path) (h : n.Proper) :
    (p.join (ofName n)).segments = p.segments ++ [.name n] := by
  obtain ⟨ns, hjoin, hp⟩ := splitSlash_join p h
  have hfilter : (splitSlash p.glyphs).filter (· ≠ []) = ns.filter (· ≠ []) := by
    obtain hp | ⟨hp, -⟩ := hp
    · rw [hp, List.filter_append]
      simp
    · rw [hp]
  rw [segments, segments, hjoin, hfilter, List.filter_append,
    List.filter_cons_of_pos (by simpa using h.ne_nil)]
  simp [Step.ofSegment, h.ne_dot, h.ne_dotDot]

theorem last_join (p : Path) (h : n.Proper) :
    (p.join (ofName n)).segments.getLast? = some (.name n) := by
  rw [segments_join p h, List.getLast?_concat]

theorem isEmpty_join (p : Path) (h : n.Proper) : (p.join (ofName n)).isEmpty = false := by
  rw [Bool.eq_false_iff]
  intro hempty
  have hnil : (p.join (ofName n)).segments = [] := by
    rw [segments, List.isEmpty_iff.1 hempty]
    rfl
  rw [segments_join p h] at hnil
  exact absurd hnil (by simp)

theorem extends_join (p : Path) (h : n.Proper) : (p.join (ofName n)).Extends p [n] :=
  .of_concat (components_join p h)

theorem endsInSlash_join (p : Path) (h : n.Proper) : (p.join (ofName n)).endsInSlash = false := by
  obtain ⟨ns, hjoin, -⟩ := splitSlash_join p h
  exact (last_of_split hjoin h).2

/-- A path that goes one name further than the path of a directory. Every path above it is above the
directory as well. -/
structure Adds (q dir : Path) (n : Name) : Prop where
  route : q.Extends dir [n]
  last : q.segments.getLast? = some (.name n)
  slash : q.endsInSlash = false
  upper : ∀ r : Path, r.isEmpty = false → r.components <+: q.components →
    r.Extends dir [n] ∨ r.isAbsolute = dir.isAbsolute ∧ r.course <+: dir.course

theorem adds_join (p : Path) (h : n.Proper) : (p.join (ofName n)).Adds p n := by
  refine ⟨extends_join p h, last_join p h, endsInSlash_join p h, fun r hne hr => ?_⟩
  rw [components_join p h, List.prefix_concat_iff] at hr
  rcases hr with hall | hr
  · exact .inl (.of_concat hall)
  · exact .inr ⟨isAbsolute_of_initial hne hr, course_initial hr⟩

theorem Adds.isEmpty (h : q.Adds p n) : q.isEmpty = false := by
  rw [Bool.eq_false_iff]
  intro hempty
  have hnil : q.segments = [] := by
    rw [segments, List.isEmpty_iff.1 hempty]
    rfl
  have hlast := h.last
  rw [hnil] at hlast
  cases hlast

/-- The directory that names are added to: for an empty path it is the working directory. -/
def hub (p : Path) : Path := if p.isEmpty then ofName Name.dot else p

theorem hub_of_ne (h : p.isEmpty = false) : p.hub = p := if_neg (by rw [h]; simp)

theorem adds_hub (p : Path) (h : n.Proper) : (p.join (ofName n)).Adds p.hub n := by
  unfold hub
  split
  · next hempty =>
      -- an empty path and a lone dot start from the same place and take no step
      obtain rfl : p = empty := congrArg mk (List.isEmpty_iff.1 hempty)
      obtain ⟨⟨habsolute, hcourse⟩, hlast, hslash, hupper⟩ := adds_join empty h
      exact ⟨⟨habsolute, hcourse⟩, hlast, hslash, fun r hne hr =>
        (hupper r hne hr).imp_left fun hroute => ⟨hroute.absolute, hroute.course⟩⟩
  · exact adds_join p h

/-- Bodies that an anchor can stand before without being taken for something else. -/
def Fits (a : Anchor) (body : List Name) : Prop :=
  (∀ n ∈ body, slash ∉ n) ∧
    (a = .free → ∀ n, body.head? = some n → n ≠ [] ∧ n ≠ Name.dot)

theorem splitSlash_ofSegments {a : Anchor} {body : List Name} (h : Fits a body)
    (hne : body ≠ []) : splitSlash (ofSegments a body).glyphs = a.segments ++ body := by
  obtain ⟨m, ms, rfl⟩ := List.exists_cons_of_ne_nil hne
  have hslash : ∀ k ∈ a.segments ++ m :: ms, slash ∉ k := by
    intro k hk
    rcases List.mem_append.1 hk with hk | hk
    · cases a with
      | root =>
          obtain rfl := List.mem_singleton.1 hk
          exact List.not_mem_nil
      | here =>
          obtain rfl := List.mem_singleton.1 hk
          decide
      | free => cases hk
    · exact h.1 k hk
  cases a <;> exact splitSlash_joinSlash (by simp [Anchor.segments]) hslash

theorem components_ofSegments {a : Anchor} {body : List Name} (h : Fits a body) :
    (ofSegments a body).components = a.components ++ bodyComponents body := by
  cases body with
  | nil => cases a <;> rfl
  | cons m ms =>
      have hsplit := splitSlash_ofSegments h (List.cons_ne_nil m ms)
      cases a with
      | root =>
          rw [components_eq hsplit]
          rfl
      | here =>
          rw [components_eq hsplit]
          rfl
      | free =>
          obtain ⟨hnil, hdot⟩ := h.2 rfl m rfl
          rw [components_eq hsplit, headComponents, if_neg hnil, if_neg hdot,
            ← bodyComponents_append]
          rfl

theorem trimmed_fst (p : Path) : p.trimmed.1 = p.anchored.1 := rfl

theorem trimmed_snd (p : Path) : p.trimmed.2 = p.anchored.2.rdropWhile isBlank := rfl

theorem bodyComponents_rdropWhile (body : List Name) :
    bodyComponents (body.rdropWhile isBlank) = bodyComponents body := by
  have hblank : bodyComponents (body.rtakeWhile isBlank) = [] := by
    rw [bodyComponents, List.filter_eq_nil_iff.2 fun n hn => by simp [List.mem_rtakeWhile_imp hn]]
    rfl
  have hcut : body.rdropWhile isBlank ++ body.rtakeWhile isBlank = body :=
    List.rdropWhile_append_rtakeWhile
  conv_rhs => rw [← hcut]
  rw [bodyComponents_append, hblank, List.append_nil]

/-- What is left of a path's own segments stands before its anchor as they did. -/
theorem fits_anchored (p : Path) {body : List Name} (h : body <+: p.trimmed.2) :
    Fits p.anchored.1 body := by
  have hpre : body <+: p.anchored.2 := h.trans (List.rdropWhile_prefix _ _)
  have hmem : ∀ n ∈ p.anchored.2, slash ∉ n := fun n hn =>
    not_mem_of_mem_splitSlash (by rw [splitSlash_glyphs]; exact List.mem_append_right _ hn)
  refine ⟨fun n hn => hmem n (hpre.subset hn), fun hfree n hhead => ?_⟩
  obtain ⟨rest, rfl⟩ : ∃ rest, body = n :: rest := List.head?_eq_some_iff.1 hhead
  obtain ⟨more, hmore⟩ := hpre
  have hblank : isBlank n = true → p.anchored.2 ≠ [n] := by
    intro hb hone
    rw [trimmed_snd, hone, List.rdropWhile_singleton, if_pos hb] at h
    exact List.not_mem_nil (h.subset (List.mem_cons_self ..))
  unfold anchored at hfree hmore hblank
  split at hfree
  · next hsplit => exact absurd hsplit (splitSlash_ne_nil _)
  · next m hsplit =>
      rw [hsplit] at hmore hblank
      split at hfree
      · cases hfree
      · next hdot =>
          simp only [if_neg hdot, List.cons_append, List.cons.injEq] at hmore hblank
          obtain ⟨rfl, -⟩ := hmore
          refine ⟨?_, hdot⟩
          rintro rfl
          exact hblank rfl rfl
  · next m ms _ hsplit =>
      rw [hsplit] at hmore
      split at hfree
      · cases hfree
      · next hnil =>
          split at hfree
          · cases hfree
          · next hdot =>
              simp only [if_neg hnil, if_neg hdot, List.cons_append, List.cons.injEq] at hmore
              obtain ⟨rfl, -⟩ := hmore
              exact ⟨hnil, hdot⟩

theorem components_trimmed (p : Path) :
    p.components = p.anchored.1.components ++ bodyComponents p.trimmed.2 := by
  rw [trimmed_snd, bodyComponents_rdropWhile, components_anchored]

theorem not_isBlank_of_trimmed {body : List Name} (h : p.trimmed.2 = body ++ [n]) :
    isBlank n = false := by
  rw [trimmed_snd] at h
  have hne : p.anchored.2.rdropWhile isBlank ≠ [] := by simp [h]
  have hlast := List.rdropWhile_last_not isBlank p.anchored.2 hne
  simp only [h, List.getLast_append_singleton] at hlast
  simpa using hlast

theorem bodyComponents_singleton (h : isBlank n = false) :
    bodyComponents [n] = [if n = Name.dotDot then .up else .name n] := by
  simp [bodyComponents, h]

theorem components_parent (h : p.parent? = some q) : q.components = p.components.dropLast := by
  have htrim := components_trimmed p
  rw [← trimmed_fst] at htrim
  have hfits : ∀ {body}, body <+: p.trimmed.2 → Fits p.trimmed.1 body := fits_anchored p
  have hblank : ∀ {body n}, p.trimmed.2 = body ++ [n] → isBlank n = false := not_isBlank_of_trimmed
  unfold parent? at h
  generalize p.trimmed = t at h htrim hfits hblank
  obtain ⟨a, body⟩ := t
  rcases List.eq_nil_or_concat' body with rfl | ⟨body, n, rfl⟩
  · cases a with
    | here =>
        cases h
        rw [htrim]
        rfl
    | root => cases h
    | free => cases h
  · have hn : isBlank n = false := hblank rfl
    have hpre : body.rdropWhile isBlank <+: body ++ [n] :=
      (List.rdropWhile_prefix _ _).trans (List.prefix_append _ _)
    have hq : some (ofSegments a (body.rdropWhile isBlank)) = some q := by
      rw [← h]
      split
      · next heq => simp at heq
      · next heq => simp at heq
      · next heq =>
          cases heq
          rw [List.dropLast_concat]
          rfl
    cases hq
    rw [components_ofSegments (hfits hpre), htrim, bodyComponents_rdropWhile,
      bodyComponents_append, bodyComponents_singleton hn, ← List.append_assoc, List.dropLast_concat]

/-- The directory of an absolute path has an absolute path. -/
theorem isAbsolute_parent (h : p.parent? = some q) (hp : p.isAbsolute = true) :
    q.isAbsolute = true := by
  have hcomponents := components_parent h
  have htrim := components_trimmed p
  rw [isAbsolute_iff] at hp ⊢
  obtain ⟨rest, hrest⟩ : ∃ rest, p.components = .root :: rest := List.head?_eq_some_iff.1 hp
  cases rest with
  | cons c cs => rw [hcomponents, hrest, List.dropLast_cons_cons, List.head?_cons]
  | nil =>
      exfalso
      rw [hrest] at htrim
      unfold parent? at h
      rcases List.eq_nil_or_concat' p.trimmed.2 with hnil | ⟨body, n, hbody⟩
      · rw [← trimmed_fst, hnil] at htrim
        generalize p.trimmed = t at h htrim hnil
        obtain ⟨a, b⟩ := t
        cases hnil
        cases a with
        | root => cases h
        | here => cases htrim
        | free => cases h
      · rw [hbody, bodyComponents_append, bodyComponents_singleton (not_isBlank_of_trimmed hbody),
          ← List.append_assoc] at htrim
        have hlast := congrArg List.getLast? htrim
        rw [List.getLast?_concat] at hlast
        split at hlast <;> cases hlast

theorem isAbsolute_join (p : Path) (h : n.Proper) : (p.join (ofName n)).isAbsolute = p.isAbsolute :=
  isAbsolute_of_concat rfl (components_join p h)

theorem parent_sameAs (p : Path) (h : n.Proper) (hq : (p.join (ofName n)).parent? = some q) :
    q.components = p.components := by
  rw [components_parent hq, components_join p h, List.dropLast_concat]

theorem components_of_mem_go {k : Nat} (h : q ∈ ancestors.go k p) :
    q.components <+: p.components := by
  induction k generalizing p with
  | zero =>
      obtain rfl := List.mem_singleton.1 h
      exact List.prefix_refl _
  | succ k ih =>
      rw [ancestors.go] at h
      split at h
      · obtain rfl := List.mem_singleton.1 h
        exact List.prefix_refl _
      · next parent hparent =>
          rcases List.mem_cons.1 h with rfl | h
          · exact List.prefix_refl _
          · have hpre := ih h
            rw [components_parent hparent] at hpre
            exact hpre.trans (List.dropLast_prefix _)

/-- The paths above a path are where it goes along. -/
theorem components_of_mem_ancestors (h : q ∈ p.ancestors) : q.components <+: p.components :=
  components_of_mem_go h

theorem ancestors_eq_cons (p : Path) : ∃ above, p.ancestors = p :: above := by
  rw [ancestors, ancestors.go]
  split
  · exact ⟨[], rfl⟩
  · exact ⟨_, rfl⟩

/-! ### Another extension -/

/-- A name with another extension. -/
def otherName (n : Name) (ext : String) : Name := (splitDot n).1 ++ .char '.' :: Glyph.ofString ext

theorem splitDot_fst (n : Name) : (splitDot n).1 = n ∨
    ∃ after, n = (splitDot n).1 ++ .char '.' :: after ∧ .char '.' ∉ after := by
  have hcut : n.reverse.takeWhile (· ≠ Glyph.char '.') ++ n.reverse.dropWhile (· ≠ Glyph.char '.') =
      n.reverse := List.takeWhile_append_dropWhile
  have hdot : .char '.' ∉ n.reverse.takeWhile (· ≠ Glyph.char '.') := fun hmem => by
    simpa using List.mem_takeWhile_imp hmem
  unfold splitDot
  generalize n.reverse.takeWhile (· ≠ Glyph.char '.') = after at hcut hdot ⊢
  dsimp only
  split
  · next hlt =>
      right
      cases hd : n.reverse.dropWhile (· ≠ Glyph.char '.') with
      | nil =>
          rw [hd, List.append_nil] at hcut
          rw [hcut, List.length_reverse, List.length_reverse] at hlt
          exact absurd hlt.1 (lt_irrefl _)
      | cons g rest =>
          have hg : g = .char '.' := by
            have hhead := List.head?_dropWhile_not (· ≠ Glyph.char '.') n.reverse
            rw [hd] at hhead
            simpa using hhead
          rw [hd, hg] at hcut
          have hn : n = rest.reverse ++ .char '.' :: after.reverse := by
            rw [← List.reverse_inj, ← hcut]
            simp
          refine ⟨after.reverse, ?_, fun hmem => hdot (List.mem_reverse.1 hmem)⟩
          have hrest : n.reverse.drop (after.reverse.length + 1) = rest := by
            rw [← hcut, List.length_reverse, List.drop_append]
            simp
          rw [hrest]
          exact hn
  · exact .inl rfl

theorem splitDot_fst_ne_nil (h : n ≠ []) : (splitDot n).1 ≠ [] := by
  unfold splitDot
  dsimp only
  split
  · next hlt => exact hlt.2
  · exact h

/-- An extension that holds a dot and at least one more character makes another name. -/
theorem otherName_ne {ext : String} (hdot : '.' ∈ ext.toList) : otherName n ext ≠ n := by
  intro heq
  have hmem : .char '.' ∈ Glyph.ofString ext := List.mem_map_of_mem hdot
  rcases splitDot_fst n with hfst | ⟨after, hn, hafter⟩
  · have hlen := congrArg List.length heq
    rw [otherName, hfst, List.length_append, List.length_cons] at hlen
    omega
  · rw [otherName] at heq
    conv_rhs at heq => rw [hn]
    simp only [List.append_cancel_left_eq, List.cons.injEq, true_and] at heq
    exact hafter (heq ▸ hmem)

theorem otherName_proper (h : n.Proper) {ext : String} (hslash : '/' ∉ ext.toList)
    (hlen : 2 ≤ ext.toList.length) : (otherName n ext).Proper := by
  have hsize : 4 ≤ (otherName n ext).length := by
    have := List.length_pos_of_ne_nil (splitDot_fst_ne_nil h.ne_nil)
    rw [otherName, List.length_append, List.length_cons, Glyph.ofString, List.length_map]
    omega
  refine ⟨?_, ?_, ?_, ?_⟩
  · intro he
    simp [he] at hsize
  · intro he
    simp [he, Name.dot] at hsize
  · intro he
    simp [he, Name.dotDot] at hsize
  · intro hmem
    rcases List.mem_append.1 hmem with hmem | hmem
    · rcases splitDot_fst n with hfst | ⟨after, hn, -⟩
      · exact h.no_slash (hfst ▸ hmem)
      · exact h.no_slash (hn ▸ List.mem_append_left _ hmem)
    · rcases List.mem_cons.1 hmem with hmem | hmem
      · simp at hmem
      · obtain ⟨c, hc, hcs⟩ := List.mem_map.1 hmem
        cases hcs
        exact hslash hc

theorem anchored_concat (h : splitSlash p.glyphs = ns ++ [n]) (hn : n.Proper) :
    ∃ body, p.anchored.2 = body ++ [n] := by
  have hsplit := splitSlash_glyphs p
  rw [h] at hsplit
  rcases List.eq_nil_or_concat' p.anchored.2 with hnil | ⟨body, m, hm⟩
  · rw [hnil, List.append_nil] at hsplit
    have hmem : n ∈ p.anchored.1.segments := by rw [← hsplit]; simp
    cases ha : p.anchored.1 <;> rw [ha] at hmem
    · exact absurd (List.mem_singleton.1 hmem) hn.ne_nil
    · exact absurd (List.mem_singleton.1 hmem) hn.ne_dot
    · exact absurd hmem List.not_mem_nil
  · rw [hm, ← List.append_assoc] at hsplit
    have hlast := congrArg List.getLast? hsplit
    simp only [List.getLast?_concat, Option.some_inj] at hlast
    exact ⟨body, by rw [hm, hlast]⟩

theorem proper_of_trimmed {body : List Name} (h : p.trimmed.2 = body ++ [n]) (hup : n ≠ Name.dotDot) :
    n.Proper := by
  have hblank := not_isBlank_of_trimmed h
  simp only [isBlank, Bool.or_eq_false_iff, beq_eq_false_iff_ne] at hblank
  have hfits : Fits p.anchored.1 (body ++ [n]) := fits_anchored p (h ▸ List.prefix_refl _)
  exact ⟨hblank.1, hblank.2, hup, hfits.1 n (by simp)⟩

/-- Another extension changes the file name and nothing else, and takes what stood after it away. -/
theorem withExtension_of_trimmed {body : List Name} (h : p.trimmed.2 = body ++ [n])
    (hup : n ≠ Name.dotDot) {ext : String} (hext : '/' ∉ ext.toList) (hlen : 2 ≤ ext.toList.length) :
    ∃ front, p.components = front ++ [.name n] ∧
      (p.withExtension ext).components = front ++ [.name (otherName n ext)] ∧
      (p.withExtension ext).segments.getLast? = some (.name (otherName n ext)) ∧
      (p.withExtension ext).endsInSlash = false := by
  have hn := proper_of_trimmed h hup
  have hnew := otherName_proper hn hext hlen
  have heq : p.withExtension ext = ofSegments p.anchored.1 (body ++ [otherName n ext]) := by
    unfold withExtension stem? fileName?
    rw [h, List.getLast?_concat]
    simp only [if_neg hup, Option.map_some, List.dropLast_concat]
    rfl
  have hfits : Fits p.anchored.1 (body ++ [otherName n ext]) := by
    have hold := fits_anchored p (h ▸ List.prefix_append body [n])
    refine ⟨fun k hk => ?_, fun hfree k hk => ?_⟩
    · rcases List.mem_append.1 hk with hk | hk
      · exact hold.1 k hk
      · exact List.mem_singleton.1 hk ▸ hnew.no_slash
    · cases body with
      | nil =>
          cases hk
          exact ⟨hnew.ne_nil, hnew.ne_dot⟩
      | cons m ms => exact hold.2 hfree k hk
  refine ⟨p.anchored.1.components ++ bodyComponents body, ?_, ?_, ?_⟩
  · rw [components_trimmed, h, bodyComponents_append, bodyComponents_proper hn, List.append_assoc]
  · rw [heq, components_ofSegments hfits, bodyComponents_append, bodyComponents_proper hnew,
      List.append_assoc]
  · have hsplit := splitSlash_ofSegments hfits (by simp)
    rw [← List.append_assoc] at hsplit
    rw [heq]
    exact last_of_split hsplit hnew

/-- Another extension changes the last name and nothing else. -/
theorem withExtension_eq (h : p.segments.getLast? = some (.name n)) (hslash : p.endsInSlash = false)
    {ext : String} (hext : '/' ∉ ext.toList) (hlen : 2 ≤ ext.toList.length) :
    ∃ front, p.components = front ++ [.name n] ∧
      (p.withExtension ext).components = front ++ [.name (otherName n ext)] ∧
      (p.withExtension ext).segments.getLast? = some (.name (otherName n ext)) ∧
      (p.withExtension ext).endsInSlash = false := by
  obtain ⟨⟨ns, hns⟩, hn⟩ := split_of_last h hslash
  obtain ⟨body, hbody⟩ := anchored_concat hns hn
  have hblank : isBlank n = false := by simp [isBlank, hn.ne_nil, hn.ne_dot]
  have htrim : p.trimmed.2 = body ++ [n] := by
    rw [trimmed_snd, hbody, List.rdropWhile_concat_neg _ _ _ (by simp [hblank])]
  exact withExtension_of_trimmed htrim hn.ne_dotDot hext hlen

theorem trimmed_of_fileName? (h : p.fileName? = some n) :
    ∃ body, p.trimmed.2 = body ++ [n] ∧ n ≠ Name.dotDot := by
  unfold fileName? at h
  split at h
  · next m hm =>
      split at h
      · cases h
      · next hup =>
          cases h
          exact ⟨_, (List.dropLast_append_getLast? _ hm).symm, hup⟩
  · cases h

/-- A path with a file name is never the same path with an extension that holds a dot. -/
theorem withExtension_not_sameAs (h : p.fileName? = some n) {ext : String} (hext : '/' ∉ ext.toList)
    (hlen : 2 ≤ ext.toList.length) (hdot : '.' ∈ ext.toList) : (p.withExtension ext).sameAs p = false := by
  obtain ⟨body, hbody, hup⟩ := trimmed_of_fileName? h
  obtain ⟨front, hp, hq, -⟩ := withExtension_of_trimmed hbody hup hext hlen
  rw [sameAs, hp, hq, beq_eq_false_iff_ne]
  simpa using otherName_ne hdot

theorem withExtension_of_fileName?_eq_none (h : p.fileName? = none) (ext : String) :
    p.withExtension ext = p := by
  rw [withExtension, stem?, h]
  rfl

/-- A path that has a name is in a directory. -/
theorem parent?_of_fileName? {p : Path} {n : Name} (h : p.fileName? = some n) :
    p.parent? ≠ none := by
  have hbody : p.trimmed.2 ≠ [] := by
    intro hnil
    rw [fileName?, hnil] at h
    cases h
  unfold parent?
  generalize p.trimmed = cut at hbody
  obtain ⟨anchor, body⟩ := cut
  cases body with
  | nil => exact absurd rfl hbody
  | cons first rest => cases anchor <;> simp

/-- A path without a file name and without `..` has no directory of its own. -/
theorem parent?_of_fileName?_eq_none (h : p.fileName? = none) (hup : .up ∉ p.components) :
    p.parent? = none ∨ p.parent? = some empty := by
  have hnil : p.trimmed.2 = [] := by
    rcases List.eq_nil_or_concat' p.trimmed.2 with hnil | ⟨body, m, hbody⟩
    · exact hnil
    · unfold fileName? at h
      rw [hbody, List.getLast?_concat] at h
      have hm : m = Name.dotDot := by
        by_contra hm
        simp [hm] at h
      refine absurd ?_ hup
      rw [components_trimmed, hbody, bodyComponents_append,
        bodyComponents_singleton (not_isBlank_of_trimmed hbody), if_pos hm]
      simp
  unfold parent?
  generalize p.trimmed = t at hnil
  obtain ⟨a, body⟩ := t
  cases hnil
  cases a
  · exact .inl rfl
  · exact .inr rfl
  · exact .inl rfl

end Path

end Sideload
