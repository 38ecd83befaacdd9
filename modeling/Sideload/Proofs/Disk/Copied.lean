import Sideload.Proofs.Disk.Growth

/-!
What a copied tree holds. The copy takes the place of nothing, and no path of the source that is not left
out leads over it; so the source is the same all the time, and each place of the copy is filled with what
the source has there, links resolved.
-/

namespace Sideload

/-- A path some names further down. -/
def Path.joins (p : Path) (names : List Name) : Path := names.foldl (fun q n => q.join (.ofName n)) p

theorem Path.joins_concat (p : Path) (names : List Name) (n : Name) :
    p.joins (names ++ [n]) = (p.joins names).join (.ofName n) := by
  rw [joins, List.foldl_append]
  rfl

/-- The names come last in the path. -/
theorem Path.components_joins (p : Path) {names : List Name} (h : Location.Proper names) :
    (p.joins names).components = p.components ++ names.map .name := by
  induction names using List.reverseRecOn with
  | nil => exact (List.append_nil _).symm
  | append_singleton names n ih =>
      rw [joins_concat, components_join _ (h n (by simp)), ih (h.initial (List.prefix_append _ _))]
      simp

namespace Disk

variable {d d' d'' base : Disk} {p q src dst dir target : Path} {top loc : Location} {n : Name}

/-! ### The tree below a path -/

/-- What there is below a path, links resolved. -/
def tree (d : Disk) (p : Path) : View := fun rel => (d.see (p.joins rel) true).toOption

theorem tree_eq_some_iff {rel : Location} {label : Label} :
    d.tree p rel = some label ↔ d.see (p.joins rel) true = .ok label := by
  unfold tree
  cases d.see (p.joins rel) true with
  | error e => exact ⟨by simp [Except.toOption], by simp⟩
  | ok l => exact ⟨fun h => congrArg Except.ok (Option.some_inj.1 h), fun h => congrArg some (Except.ok.inj h)⟩

theorem size_append (a b : List Glyph) : Glyph.size (a ++ b) = Glyph.size a + Glyph.size b := by
  induction a with
  | nil => simp [Glyph.size]
  | cons g a ih =>
      rw [List.cons_append, Glyph.size, Glyph.size, ih]
      omega

/-- What a path begins with is admitted if the path is. -/
theorem admit?_of_prefix (hne : p.isEmpty = false) (hglyphs : p.glyphs <+: q.glyphs)
    (h : admit? q = .ok ()) : admit? p = .ok () := by
  obtain ⟨rest, hglyphs⟩ := hglyphs
  unfold admit? Path.holdsNul Path.byteSize at h ⊢
  rw [← hglyphs, size_append] at h
  rw [hne]
  split at h
  · cases h
  next hnul =>
  split at h
  · cases h
  split at h
  · cases h
  next hsize =>
  rw [if_neg, if_neg Bool.false_ne_true, if_neg (by omega)]
  intro hmem
  refine hnul ?_
  rw [List.contains_iff_mem] at hmem ⊢
  exact List.mem_append_left rest hmem

theorem admit?_of_join (hne : p.isEmpty = false) (hn : n.Proper)
    (h : admit? (p.join (.ofName n)) = .ok ()) : admit? p = .ok () := by
  obtain ⟨gap, hglyphs⟩ := p.glyphs_join
  exact admit?_of_prefix hne ⟨gap ++ n, by rw [hglyphs n hn, List.append_assoc]⟩ h

/-- Where a name is admitted, every name is that is not longer. -/
theorem admit?_join_of_le {m : Name} (hn : n.Proper) (hm : m.Proper) (hnul : .char '\x00' ∉ m)
    (hsize : m.byteSize ≤ n.byteSize) (h : admit? (p.join (.ofName n)) = .ok ()) :
    admit? (p.join (.ofName m)) = .ok () := by
  obtain ⟨gap, hglyphs⟩ := p.glyphs_join
  have hne := p.isEmpty_join hm
  unfold admit? Path.holdsNul Path.byteSize at h ⊢
  rw [hglyphs n hn, size_append] at h
  rw [hne, hglyphs m hm, size_append]
  unfold Name.byteSize at hsize
  split at h
  · cases h
  next hfree =>
  split at h
  · cases h
  split at h
  · cases h
  next hshort =>
  rw [if_neg, if_neg Bool.false_ne_true, if_neg (by omega)]
  intro hmem
  refine hfree ?_
  rw [List.contains_iff_mem, List.mem_append] at hmem ⊢
  exact .inl (hmem.resolve_right hnul)

theorem Enters.isEmpty (h : d.Enters p loc) : p.isEmpty = false := by
  obtain ⟨hadmits, -⟩ := goal_eq_ok_iff.1 h.goal
  unfold admit? at hadmits
  by_contra hempty
  split at hadmits
  · cases hadmits
  · rw [if_pos (by simpa using hempty)] at hadmits
    cases hadmits

/-- Only a directory has something below it. -/
theorem see_of_join {label : Label} (hne : p.isEmpty = false) (hn : n.Proper)
    (h : d.see (p.join (.ofName n)) true = .ok label) : d.see p true = .ok .dir := by
  obtain ⟨loc, hgoal, -⟩ := see_eq_ok_iff.1 h
  obtain ⟨parent, hslot⟩ := exists_slot_of_goal (p.last_join hn) (p.endsInSlash_join hn) hgoal
  have he := hslot.enters_dir (p.components_join hn) (admit?_of_join hne hn hslot.admits)
  exact see_eq_ok_iff.2 ⟨parent, he.goal, he.dir⟩

theorem isEmpty_joins (hne : p.isEmpty = false) {rel : Location} (hrel : rel.Proper) :
    (p.joins rel).isEmpty = false := by
  induction rel using List.reverseRecOn with
  | nil => exact hne
  | append_singleton rel n ih =>
      rw [Path.joins_concat]
      exact Path.isEmpty_join _ (hrel n (by simp))

/-- Below what is no directory there is nothing. -/
theorem tree_below (hne : src.isEmpty = false) {rel rest : Location} (h : d.tree src rel ≠ some .dir)
    (hrest : rest ≠ []) (hproper : Location.Proper (rel ++ rest)) : d.tree src (rel ++ rest) = none := by
  induction rest using List.reverseRecOn with
  | nil => exact absurd rfl hrest
  | append_singleton rest n ih =>
      rw [← List.append_assoc] at hproper ⊢
      have hfront : Location.Proper (rel ++ rest) := hproper.initial (List.prefix_append _ _)
      by_contra hsome
      obtain ⟨label, hlabel⟩ := Option.ne_none_iff_exists'.1 hsome
      rw [tree_eq_some_iff, Path.joins_concat] at hlabel
      have hdir := tree_eq_some_iff.2
        (see_of_join (isEmpty_joins hne hfront) (hproper n (by simp)) hlabel)
      by_cases hnil : rest = []
      · rw [hnil, List.append_nil] at hdir
        exact h hdir
      · rw [ih hnil hfront] at hdir
        cases hdir

/-! ### What is left out -/

/-- Whether a path of a tree is left out of the copy: it is spelled like the copy or like the directory that
holds the copy. -/
def LeftOut (dst src : Path) (rel : Location) : Bool :=
  (src.joins rel).sameAs dst || dst.parent?.any (src.joins rel).sameAs

/-- Neither a path of a tree nor one above it is left out. -/
def Kept (dst src : Path) (rel : Location) : Prop :=
  ∀ front, front ≠ [] → front <+: rel → LeftOut dst src front = false

instance (dst src : Path) (rel : Location) : Decidable (Kept dst src rel) :=
  decidable_of_iff (∀ front ∈ rel.inits, front ≠ [] → LeftOut dst src front = false) <| by
    simp only [List.mem_inits]
    exact ⟨fun h front hne hfront => h front hfront hne, fun h front hfront hne => h front hne hfront⟩

theorem kept_nil (dst src : Path) : Kept dst src [] :=
  fun _ hne hfront => absurd (List.prefix_nil.1 hfront) hne

theorem Kept.initial {rel front : Location} (h : Kept dst src rel) (hfront : front <+: rel) :
    Kept dst src front :=
  fun _ hne hle => h _ hne (hle.trans hfront)

theorem kept_concat {rel : Location} :
    Kept dst src (rel ++ [n]) ↔ Kept dst src rel ∧ LeftOut dst src (rel ++ [n]) = false := by
  refine ⟨fun h => ⟨h.initial (List.prefix_append _ _), h _ (by simp) (List.prefix_refl _)⟩,
    fun ⟨h, hlast⟩ front hne hfront => ?_⟩
  rcases List.prefix_concat_iff.1 hfront with rfl | hfront
  · exact hlast
  · exact h front hne hfront

/-- What a copy of a tree should have: what there is below the source, links resolved, without what is left
out. -/
def mirror (d : Disk) (dst src : Path) : View :=
  fun rel => if Kept dst src rel then d.tree src rel else none

theorem mirror_of_kept {rel : Location} (h : Kept dst src rel) : d.mirror dst src rel = d.tree src rel :=
  if_pos h

theorem mirror_of_not_kept {rel : Location} (h : ¬ Kept dst src rel) : d.mirror dst src rel = none :=
  if_neg h

/-- Below what is no directory the copy has nothing. -/
theorem mirror_below (hne : src.isEmpty = false) {rel rest : Location}
    (h : d.mirror dst src rel ≠ some .dir) (hrest : rest ≠ []) (hproper : Location.Proper (rel ++ rest)) :
    d.mirror dst src (rel ++ rest) = none := by
  by_cases hkept : Kept dst src (rel ++ rest)
  · rw [mirror_of_kept (hkept.initial (List.prefix_append _ _))] at h
    rw [mirror_of_kept hkept, tree_below hne h hrest hproper]
  · exact mirror_of_not_kept hkept

/-! ### A source that the copy is far from -/

/-- No path of a tree leads over a location. -/
def Far (top : Location) (d : Disk) (src : Path) : Prop :=
  ∀ rel : Location, rel.Proper → ∀ l ∈ d.way (src.joins rel) true, ¬ top <+: l

/-- No path of a tree that is not left out leads over a location. -/
def Clear (top : Location) (d : Disk) (dst src : Path) : Prop :=
  ∀ rel : Location, rel.Proper → Kept dst src rel → ∀ l ∈ d.way (src.joins rel) true, ¬ top <+: l

theorem Far.clear (h : Far top d src) (dst : Path) : Clear top d dst src := fun rel hrel _ => h rel hrel

namespace Clear

variable {rel : Location}

/-- What happens at and below the location does not change the tree. -/
theorem see (h : Clear top base dst src) (hoff : SameOff top base d) (hrel : rel.Proper)
    (hkept : Kept dst src rel) : d.see (src.joins rel) true = base.see (src.joins rel) true :=
  see_congr hoff.cwd fun l hl => hoff.look l (h rel hrel hkept l hl)

theorem way (h : Clear top base dst src) (hoff : SameOff top base d) (hrel : rel.Proper)
    (hkept : Kept dst src rel) : d.way (src.joins rel) true = base.way (src.joins rel) true :=
  way_congr hoff.cwd fun l hl => hoff.look l (h rel hrel hkept l hl)

/-- What a copy should have does not depend on what happens at and below the location. -/
theorem mirror (h : Clear top base dst src) (hoff : SameOff top base d) (hrel : rel.Proper) :
    d.mirror dst src rel = base.mirror dst src rel := by
  by_cases hkept : Kept dst src rel
  · rw [mirror_of_kept hkept, mirror_of_kept hkept]
    exact congrArg Except.toOption (h.see hoff hrel hkept)
  · rw [mirror_of_not_kept hkept, mirror_of_not_kept hkept]

theorem sameOff (h : Clear top base dst src) (hoff : SameOff top base d) : Clear top d dst src :=
  fun rel hrel hkept l hl => h rel hrel hkept l (h.way hoff hrel hkept ▸ hl)

end Clear

namespace Far

variable {rel : Location}

theorem see (h : Far top base src) (hoff : SameOff top base d) (hrel : rel.Proper) :
    d.see (src.joins rel) true = base.see (src.joins rel) true :=
  see_congr hoff.cwd fun l hl => hoff.look l (h rel hrel l hl)

theorem way (h : Far top base src) (hoff : SameOff top base d) (hrel : rel.Proper) :
    d.way (src.joins rel) true = base.way (src.joins rel) true :=
  way_congr hoff.cwd fun l hl => hoff.look l (h rel hrel l hl)

theorem see_self (h : Far top base src) (hoff : SameOff top base d) : d.see src true = base.see src true :=
  h.see hoff (show Location.Proper [] from nofun)

end Far

/-! ### Filling places -/

/-- Some places below a location were filled with what a view has there. -/
structure Toward (v : View) (top : Location) (d d' : Disk) : Prop where
  cwd : d'.cwd = d.cwd
  look : ∀ l, d'.look l = d.look l ∨
    ∃ rel, rel ≠ [] ∧ l = top ++ rel ∧ d'.look l = v rel ∧ v rel ≠ none

/-- Below a location there is nothing but what a view has there. -/
def Right (v : View) (top : Location) (d : Disk) : Prop :=
  ∀ rel, rel ≠ [] → d.look (top ++ rel) = none ∨ d.look (top ++ rel) = v rel

namespace Toward

variable {v : View} {rel : Location}

theorem refl (v : View) (top : Location) (d : Disk) : Toward v top d d := ⟨rfl, fun _ => .inl rfl⟩

theorem trans (h : Toward v top d d') (h' : Toward v top d' d'') : Toward v top d d'' := by
  refine ⟨h'.cwd.trans h.cwd, fun l => ?_⟩
  rcases h'.look l with hsame | hnew
  · rw [hsame]
    exact h.look l
  · exact .inr hnew

/-- One place is filled. -/
theorem of_update (hrel : rel ≠ []) (hcwd : d'.cwd = d.cwd) {label : Label} (hv : v rel = some label)
    (hlook : d'.look = Function.update d.look (top ++ rel) (some label)) : Toward v top d d' := by
  refine ⟨hcwd, fun l => ?_⟩
  by_cases hl : l = top ++ rel
  · refine .inr ⟨rel, hrel, hl, ?_, by rw [hv]; simp⟩
    rw [hlook, hl, Function.update_self, hv]
  · exact .inl (by rw [hlook, Function.update_of_ne hl])

theorem right (h : Toward v top d d') (hr : Right v top d) : Right v top d' := by
  intro rel hrel
  rcases h.look (top ++ rel) with hsame | ⟨rel', -, heq, hnew, -⟩
  · rw [hsame]
    exact hr rel hrel
  · obtain rfl := List.append_cancel_left heq
    exact .inr hnew

/-- What is right stays. -/
theorem done (h : Toward v top d d') (hd : d.look (top ++ rel) = v rel) :
    d'.look (top ++ rel) = v rel := by
  rcases h.look (top ++ rel) with hsame | ⟨rel', -, heq, hnew, -⟩
  · rw [hsame, hd]
  · obtain rfl := List.append_cancel_left heq
    exact hnew

end Toward

/-- A file that is copied into a directory, from where the copy does not reach. -/
theorem look_copyFile (h : d.Enters dir loc) (hq : q.Adds dir n)
    (hlink : ∀ target, d.look (loc ++ [n]) ≠ some (.link target))
    (hfar : ∀ l ∈ d.way src true, l ≠ loc ++ [n]) (hc : d.copyFile src q = .ok d') :
    ∃ content x, d.see src true = .ok (.file content x) ∧ d'.cwd = d.cwd ∧
      d'.look = Function.update d.look (loc ++ [n]) (some (.file content x)) := by
  unfold copyFile at hc
  simp only [bind, Except.bind] at hc
  split at hc
  · cases hc
  next node hstat =>
  split at hc
  next first x =>
    split at hc
    · cases hc
    next empty hempty =>
    split at hc
    · cases hc
    next content hread =>
    obtain ⟨old, hcwd, -, hlook⟩ := look_openFile h hq hlink hempty
    obtain ⟨hfills, -⟩ := openFile_adds h hq hlink hempty
    have hlink' : ∀ target, empty.look (loc ++ [n]) ≠ some (.link target) := by
      rw [hlook, Function.update_self]
      simp
    obtain ⟨old', hcwd', -, hlook'⟩ := look_openFile (hfills.enters h).1 hq hlink' hc
    have hsee : d.see src true = .ok (.file first x) := by
      rw [← stat_label, hstat]
      rfl
    -- emptying the target has not changed the source
    have hsame : empty.see src true = d.see src true :=
      see_congr hcwd fun l hl => by rw [hlook, Function.update_of_ne (hfar l hl)]
    have hcontent : content = first := by
      rw [hsee, ← stat_label] at hsame
      obtain ⟨node', hnode, hlabel⟩ := map_label_eq_ok.1 hsame
      unfold readBytes at hread
      rw [hnode] at hread
      cases node' with
      | file c y =>
          cases hread
          cases hlabel
          rfl
      | link t => cases hlabel
      | dir es => cases hlabel
    refine ⟨content, x, hcontent ▸ hsee, hcwd'.trans hcwd, ?_⟩
    rw [hlook', hlook, Function.update_idem]
  · cases hc

/-- What is listed in a directory is what can be found there. -/
theorem mem_of_list {es : List (Name × Node)} {label : Label} (hl : d.list p = .ok es) (hn : n.Proper)
    (h : d.see (p.join (.ofName n)) true = .ok label) : ∃ node, (n, node) ∈ es := by
  have hlookup : ∀ {es : List (Name × Node)}, Node.lookup? n es ≠ none → ∃ node, (n, node) ∈ es := by
    intro es
    induction es with
    | nil => exact fun h => absurd rfl h
    | cons e es ih =>
        obtain ⟨k, node⟩ := e
        rw [Node.lookup?]
        split
        · next heq =>
            intro _
            exact ⟨node, heq ▸ List.mem_cons_self ..⟩
        · intro h
          obtain ⟨node', hmem⟩ := ih h
          exact ⟨node', List.mem_cons_of_mem _ hmem⟩
  unfold Disk.list stat at hl
  rcases find_eq d p true with ⟨s, hfind, hfits, hgoal⟩ | ⟨e, hfind, -⟩ <;>
    rw [hfind] at hl <;> simp only [bind, Except.bind] at hl
  · cases s with
    | vacant c m => cases hl
    | present c =>
        dsimp only at hl
        split at hl
        next es' hnode =>
          cases hl
          have hdir : d.look c.location = some .dir := by
            rw [Disk.look, Cursor.Fits.look hfits, hnode]
            rfl
          have he : d.Enters p c.location := ⟨hgoal, hdir⟩
          obtain ⟨loc, hgoal', hlook⟩ := see_eq_ok_iff.1 h
          obtain ⟨parent, hslot⟩ := exists_slot_of_goal (p.last_join hn) (p.endsInSlash_join hn) hgoal'
          obtain ⟨rfl, -, -⟩ := he.slot_adds (p.adds_join hn) hslot
          apply hlookup
          intro hnone
          have hvacant : d.look (c.location ++ [n]) = none := by
            rw [look_child_slot hfits, hnode]
            exact Option.map_eq_none_iff.2 hnone
          rw [hslot.goal (p.endsInSlash_join hn) (.inr fun t => by rw [hvacant]; simp),
            if_pos hvacant] at hgoal'
          cases hgoal'
        · cases hl
  · cases hl

theorem see_of_list {es : List (Name × Node)} (hl : d.list p = .ok es) : d.see p true = .ok .dir := by
  unfold Disk.list at hl
  rw [← stat_label]
  cases hstat : d.stat p with
  | error e =>
      rw [hstat] at hl
      cases hl
  | ok node =>
      rw [hstat] at hl
      cases node with
      | dir es' => rfl
      | file c x => cases hl
      | link t => cases hl

end Disk

/-! ### Copying -/

open Disk

section Copy

variable {base : Disk} {src dst target : Path} {top : Location} {w w' : World}

/-- No path of a tree is left out of its copy. -/
def Whole (dst src : Path) : Prop := ∀ rel : Location, rel ≠ [] → rel.Proper →
  ¬ ((src.joins rel).sameAs dst || dst.parent?.any (src.joins rel).sameAs) = true

theorem Whole.mirror (h : Whole dst src) (d : Disk) {rel : Location} (hrel : rel.Proper) :
    d.mirror dst src rel = d.tree src rel :=
  mirror_of_kept fun _ hne hfront => Bool.eq_false_iff.2 (h _ hne (hrel.initial hfront))

theorem see_of_copyEntries {depth count : Nat} {above : List Ancestor} {dir : Path}
    (h : (copyEntries dst depth above dir target).run w = (.ok count, w')) :
    w.disk.see dir true = .ok .dir := by
  cases depth with
  | zero => cases h
  | succ depth =>
      obtain ⟨here, -, h⟩ := Work.run_ask_ok h
      obtain ⟨found, hfound, -⟩ := Work.run_ask_ok h
      exact see_of_list (mapError_eq_ok_iff.1 hfound)

/-- What is known when a directory of the source is going to be copied: it is not left out, the source is as
it was, and the copy holds nothing wrong so far. -/
structure Ready (base : Disk) (dst src : Path) (top : Location) (d : Disk) (rel : Location)
    (target : Path) : Prop where
  proper : rel.Proper
  kept : Kept dst src rel
  sameOff : SameOff top base d
  inside : Within top d target (top ++ rel)
  noLinks : NoLinks top d
  names : d.Proper
  right : Right (base.mirror dst src) top d

namespace Ready

variable {d d' : Disk} {rel : Location} {n : Name}

theorem dir_top (h : Ready base dst src top d rel target) : d.look top = some .dir :=
  look_eq_dir_above h.inside.enters.dir (List.prefix_append _ _)

/-- A copy that grew holds nothing wrong if it grew as it should. -/
theorem grows (h : Ready base dst src top d rel target) (hg : Grows top d d')
    (hright : Right (base.mirror dst src) top d') : Ready base dst src top d' rel target :=
  ⟨h.proper, h.kept, h.sameOff.trans hg.toSameOff, h.inside.grows hg, h.noLinks.grows hg,
    hg.proper h.names, hright⟩

/-- A directory of the source is going to be copied once the directory for it is made. -/
theorem down (h : Ready base dst src top d rel target) (hn : n.Proper)
    (hkept : Kept dst src (rel ++ [n])) (hdir : base.tree src (rel ++ [n]) = some .dir)
    (hmade : ((DiskM.createDirAll (target.join (.ofName n))).run d).1 = .ok ()) :
    Ready base dst src top (d.opened (target.join (.ofName n))) (rel ++ [n]) (target.join (.ofName n)) ∧
      Grows top d (d.opened (target.join (.ofName n))) ∧
      Toward (base.mirror dst src) top d (d.opened (target.join (.ofName n))) := by
  have hq := target.adds_join hn
  have hplace : top ++ rel ++ [n] = top ++ (rel ++ [n]) := List.append_assoc ..
  obtain ⟨hgrows, hwithin⟩ := h.inside.createDirAll_adds h.noLinks hq
  obtain ⟨hfills, -⟩ := createDirAll_adds h.inside.enters hq
    (h.noLinks _ ((List.prefix_append top rel).trans (List.prefix_append _ _)))
  have hin := hwithin hmade
  rw [hplace] at hin hfills
  have hmirror : base.mirror dst src (rel ++ [n]) = some .dir := by rw [mirror_of_kept hkept, hdir]
  have htoward : Toward (base.mirror dst src) top d (d.opened (target.join (.ofName n))) := by
    refine ⟨hfills.cwd, fun l => (hfills.look l).imp_right ?_⟩
    rintro ⟨rfl, -, -⟩
    exact ⟨_, by simp, rfl, by rw [hin.enters.dir, hmirror], by rw [hmirror]; simp⟩
  exact ⟨⟨h.proper.concat hn, hkept, h.sameOff.trans hgrows.toSameOff, hin, h.noLinks.grows hgrows,
    hgrows.proper h.names, htoward.right h.right⟩, hgrows, htoward⟩

/-- What is left out has no place in the copy, and nothing wrong is there. -/
theorem look_leftOut (h : Ready base dst src top d rel target) (hout : LeftOut dst src (rel ++ [n]) = true)
    (rest : Location) : d.look (top ++ (rel ++ n :: rest)) = base.mirror dst src (rel ++ n :: rest) := by
  have hnone : base.mirror dst src (rel ++ n :: rest) = none := by
    refine mirror_of_not_kept fun hkept => ?_
    rw [List.append_cons] at hkept
    cases hout.symm.trans (hkept _ (by simp) (List.prefix_append _ _))
  rcases h.right (rel ++ n :: rest) (by simp) with hvacant | hsame
  · rw [hvacant, hnone]
  · exact hsame

variable (hclear : Clear top base dst src)
include hclear

/-- No path of the source leads over the place of its copy. -/
theorem ne_of_way (h : Ready base dst src top d rel target) (hn : n.Proper)
    (hkept : Kept dst src (rel ++ [n])) :
    ∀ l ∈ d.way (src.joins (rel ++ [n])) true, l ≠ top ++ rel ++ [n] := by
  have hproper := h.proper.concat hn
  rintro l hl rfl
  rw [hclear.way h.sameOff hproper hkept] at hl
  exact hclear _ hproper hkept _ hl ((List.prefix_append top rel).trans (List.prefix_append _ _))

/-- A file that is copied fills its place, and nothing is below it. -/
theorem copyFile (hne : src.isEmpty = false) (h : Ready base dst src top d rel target) (hn : n.Proper)
    (hkept : Kept dst src (rel ++ [n]))
    (hcopied : d.copyFile (src.joins (rel ++ [n])) (target.join (.ofName n)) = .ok d') :
    Grows top d d' ∧ Toward (base.mirror dst src) top d d' ∧ ∀ rest, Location.Proper rest →
      d'.look (top ++ (rel ++ n :: rest)) = base.mirror dst src (rel ++ n :: rest) := by
  have hq := target.adds_join hn
  have hproper := h.proper.concat hn
  have hlink := h.noLinks _ ((List.prefix_append top rel).trans (List.prefix_append _ [n]))
  obtain ⟨content, x, hsee, hcwd, hlook⟩ :=
    look_copyFile h.inside.enters hq hlink (h.ne_of_way hclear hn hkept) hcopied
  rw [hclear.see h.sameOff hproper hkept, ← tree_eq_some_iff, ← mirror_of_kept hkept] at hsee
  rw [List.append_assoc] at hlook
  refine ⟨h.inside.copyFile_adds h.noLinks hq hcopied, .of_update (by simp) hcwd hsee hlook, fun rest hrest => ?_⟩
  rw [List.append_cons]
  by_cases hnil : rest = []
  · rw [hnil, List.append_nil, hsee, hlook, Function.update_self]
  · have hfile : base.mirror dst src (rel ++ [n]) ≠ some .dir := by
      rw [hsee]
      simp
    rw [mirror_below hne hfile hnil, ← List.append_assoc]
    · refine look_eq_none_below ?_ (List.prefix_append _ rest) (by simpa using hnil)
      rw [hlook, Function.update_self]
      simp
    · intro m hm
      rcases List.mem_append.1 hm with hm | hm
      · exact hproper m hm
      · exact hrest m hm

end Ready

/-- The places below a copied directory are filled as they should be. -/
def Filled (base : Disk) (dst src : Path) (top : Location) (rel : Location) (d : Disk) : Prop :=
  ∀ rest, rest ≠ [] → Location.Proper rest →
    d.look (top ++ (rel ++ rest)) = base.mirror dst src (rel ++ rest)

variable (hne : src.isEmpty = false) (hclear : Clear top base dst src)
include hne hclear

/-- A round that succeeds fills the place of its entry and those below. -/
theorem copyRound_ok {depth : Nat} (above : List Ancestor) {rel : Location} {count b : Nat}
    {entry : Name × Node} (hready : Ready base dst src top w.disk rel target) (hname : entry.1.Proper)
    (ih : ∀ {w w' : World} {rel : Location} {target : Path} {count : Nat},
      Ready base dst src top w.disk rel target →
      (copyEntries dst depth above (src.joins rel) target).run w = (.ok count, w') →
      w.Grows top w' ∧ Toward (base.mirror dst src) top w.disk w'.disk ∧
        Filled base dst src top rel w'.disk)
    (hrun : (copyRound dst depth above (src.joins rel) target b entry).run w = (.ok count, w')) :
    w.Grows top w' ∧ Toward (base.mirror dst src) top w.disk w'.disk ∧ ∀ rest, Location.Proper rest →
      w'.disk.look (top ++ (rel ++ entry.1 :: rest)) = base.mirror dst src (rel ++ entry.1 :: rest) := by
  have hproper : Location.Proper (rel ++ [entry.1]) := hready.proper.concat hname
  obtain ⟨isDir, -, hrun⟩ := Work.run_ask_ok hrun
  dsimp only at hrun
  rw [← src.joins_concat, show ((src.joins (rel ++ [entry.1])).sameAs dst ||
    dst.parent?.any (src.joins (rel ++ [entry.1])).sameAs) = LeftOut dst src (rel ++ [entry.1]) from rfl]
    at hrun
  cases hout : LeftOut dst src (rel ++ [entry.1]) with
  | true =>
      rw [hout] at hrun
      cases hrun
      exact ⟨.refl top w, .refl _ top w.disk, fun rest _ => hready.look_leftOut hout rest⟩
  | false =>
  have hkept : Kept dst src (rel ++ [entry.1]) := kept_concat.2 ⟨hready.kept, hout⟩
  rw [hout] at hrun
  cases isDir with
  | true =>
      obtain ⟨u, t, hmake, hrun⟩ := run_bind_ok hrun
      rw [Work.run_onDisk, Prod.mk.injEq] at hmake
      obtain ⟨hmade, rfl⟩ := hmake
      obtain ⟨more, t, hcopy, hrun⟩ := run_bind_ok hrun
      cases hrun
      change (copyEntries dst depth above (src.joins (rel ++ [entry.1])) _).run
        { w with disk := w.disk.opened (target.join (.ofName entry.1)) } = _ at hcopy
      have hgrows := (hready.inside.createDirAll_adds hready.noLinks (target.adds_join hname)).1
      have hdir : base.tree src (rel ++ [entry.1]) = some .dir :=
        tree_eq_some_iff.2 ((hclear.see (hready.sameOff.trans hgrows.toSameOff) hproper hkept).symm.trans
          (see_of_copyEntries hcopy))
      obtain ⟨hready', -, htoward⟩ := hready.down hname hkept hdir hmade
      obtain ⟨hgrows', htoward', hfilled⟩ := ih hready' hcopy
      refine ⟨⟨hgrows.trans hgrows'.disk, hgrows'.now⟩, htoward.trans htoward', fun rest hrest => ?_⟩
      rw [List.append_cons]
      by_cases hnil : rest = []
      · rw [hnil, List.append_nil]
        exact htoward'.done (by rw [hready'.inside.enters.dir, mirror_of_kept hkept, hdir])
      · exact hfilled rest hnil hrest
  | false =>
      obtain ⟨u, t, hlog, hrun⟩ := run_bind_ok hrun
      rw [Work.run_log, Prod.mk.injEq] at hlog
      obtain ⟨-, rfl⟩ := hlog
      obtain ⟨u, t, hcopy, hrun⟩ := run_bind_ok hrun
      cases hrun
      rw [Work.run_change] at hcopy
      dsimp only at hcopy
      split at hcopy
      · next d hcopied =>
          cases hcopy
          obtain ⟨hgrows, hrest⟩ := hready.copyFile hclear hne hname hkept hcopied
          exact ⟨⟨hgrows, rfl⟩, hrest⟩
      · cases hcopy

/-- Copying what is in a directory of the source fills the places below its copy. -/
theorem copyEntries_ok (depth : Nat) (above : List Ancestor) {rel : Location} {count : Nat}
    (hready : Ready base dst src top w.disk rel target)
    (hrun : (copyEntries dst depth above (src.joins rel) target).run w = (.ok count, w')) :
    w.Grows top w' ∧ Toward (base.mirror dst src) top w.disk w'.disk ∧
      Filled base dst src top rel w'.disk := by
  induction depth generalizing above rel target w w' count with
  | zero => cases hrun
  | succ depth ih =>
      rw [copyEntries_succ] at hrun
      obtain ⟨here, -, hrun⟩ := Work.run_ask_ok hrun
      obtain ⟨found, hfound, hrun⟩ := Work.run_ask_ok hrun
      have hlist := mapError_eq_ok_iff.1 hfound
      -- the tree grows, it holds nothing wrong, and every entry is copied when its round is over
      obtain ⟨⟨hgrows, hright⟩, htoward, hdone⟩ := run_foldlM_ok
        (fun s : World => w.Grows top s ∧ Right (base.mirror dst src) top s.disk)
        (fun s t : World => Toward (base.mirror dst src) top s.disk t.disk)
        (fun (e : Name × Node) (s : World) => ∀ rest, Location.Proper rest →
          s.disk.look (top ++ (rel ++ e.1 :: rest)) = base.mirror dst src (rel ++ e.1 :: rest))
        (fun s => .refl _ _ _) (fun s t u => Toward.trans)
        (fun e s t hs hreach rest hrest => hreach.done (hs rest hrest))
        (fun b e he s b' t ⟨hs, hright⟩ hround => by
          obtain ⟨hgrows, htoward, hachieved⟩ := copyRound_ok hne hclear
            (⟨src.joins rel, here⟩ :: above) (hready.grows hs.disk hright)
            (hready.names.list hlist e he) (ih _) hround
          exact ⟨⟨hs.trans hgrows, htoward.right hright⟩, htoward, hachieved⟩)
        ⟨.refl top w, hready.right⟩ hrun
      refine ⟨hgrows, htoward, fun rest hnil hrest => ?_⟩
      obtain ⟨n, rest, rfl⟩ := List.exists_cons_of_ne_nil hnil
      have hn : n.Proper := hrest n (List.mem_cons_self ..)
      have hproper : Location.Proper (rel ++ [n]) := hready.proper.concat hn
      cases htree : base.mirror dst src (rel ++ [n]) with
      | some label =>
          have hkept : Kept dst src (rel ++ [n]) := by
            by_contra hcut
            rw [mirror_of_not_kept hcut] at htree
            cases htree
          rw [mirror_of_kept hkept] at htree
          have hsee := tree_eq_some_iff.1 htree
          rw [← hclear.see hready.sameOff hproper hkept, Path.joins_concat] at hsee
          obtain ⟨node, hmem⟩ := mem_of_list hlist hn hsee
          exact hdone _ hmem rest fun m hm => hrest m (List.mem_cons_of_mem _ hm)
      | none =>
          -- the source has no such entry or it is left out, so the copy has none either
          have hnone : base.mirror dst src (rel ++ n :: rest) = none := by
            rw [List.append_cons]
            by_cases hmore : rest = []
            · rw [hmore, List.append_nil, htree]
            · refine mirror_below hne (by rw [htree]; simp) hmore fun m hm => ?_
              rcases List.mem_append.1 hm with hm | hm
              · exact hproper m hm
              · exact hrest m (List.mem_cons_of_mem _ hm)
          rcases hright (rel ++ n :: rest) (by simp) with hvacant | hsame
          · rw [hvacant, hnone]
          · exact hsame

end Copy

namespace Disk

variable {d base : Disk} {p q src dir : Path} {loc : Location} {n : Name}

/-- What is no link is found whether links are followed at the end or not. -/
theorem see_follow {label : Label} (h : d.see p false = .ok label)
    (hlink : ∀ target, label ≠ .link target) : d.see p true = .ok label := by
  obtain ⟨loc, hgoal, hlook⟩ := see_eq_ok_iff.1 h
  obtain ⟨hadmits, hbegin, links, hend⟩ := goal_eq_ok_iff.1 hgoal
  refine see_eq_ok_iff.2 ⟨loc, goal_eq_ok_iff.2 ⟨hadmits, hbegin, links, ?_⟩, hlook⟩
  refine View.seek_follow hend fun target htarget => hlink target ?_
  rw [Goal.location_present, hlook] at htarget
  exact Option.some_inj.1 htarget

/-- Where a path leads somewhere, there is something if a link at the end is not followed. -/
theorem see_of_follow {label : Label} (h : d.see p true = .ok label) :
    ∃ label', d.see p false = .ok label' := by
  obtain ⟨loc, hgoal, -⟩ := see_eq_ok_iff.1 h
  obtain ⟨hadmits, hbegins, links, hend⟩ := goal_eq_ok_iff.1 hgoal
  cases hstop : (d.trip p false).ending with
  | error e => cases hend.symm.trans (View.seek_follow_of_error hstop)
  | ok found =>
      obtain ⟨left, g⟩ := found
      have hgoal' : d.goal p false = .ok g := goal_eq_ok_iff.2 ⟨hadmits, hbegins, left, hstop⟩
      cases hlook : d.look g.location with
      | some label' =>
          refine ⟨label', ?_⟩
          rw [see, hgoal']
          dsimp only
          rw [hlook]
          rfl
      | none =>
          have hfollow := View.seek_follow hstop fun target => by
            rw [hlook]
            simp
          cases hend.symm.trans hfollow
          exact absurd hlook (ne_none_of_way hgoal _ (present_mem_way hgoal))

/-- A path that goes on from a directory leads over the entry of the next name. -/
theorem Enters.mem_way_of_extends {rest : List Name} (h : d.Enters dir loc) (hext : p.Extends dir (n :: rest))
    (hshort : ¬ n.byteSize > maxName) : loc ++ [n] ∈ d.way p true := by
  obtain ⟨links, hseek⟩ := h.seek
  have horigin : d.origin p = d.origin dir := by rw [origin, origin, hext.absolute]
  have hvisited : loc ++ [n] ∈
      (d.look.seek true maxLinks (d.origin p) (p.course ++ [.here])).visited := by
    rw [hext.course, List.append_assoc, View.seek_append _ _ _ _ _ (by simp), horigin, hseek, Trip.andThen]
    exact List.mem_append_right _ (View.mem_visited_name hshort)
  rw [Path.course_eq, View.seek_filter_here] at hvisited
  refine List.mem_append_right _ ?_
  rw [trip, Path.steps_eq]
  split
  · exact hvisited
  · rw [List.append_nil, ← (View.seek_concat_here _ _ _ _).1]
    exact hvisited

/-- The answer of a classification is whether the path leads to a directory. -/
theorem isDir_of_classify {above : List Ancestor} {node : Node} {b : Bool} (hnode : d.lstat p = .ok node)
    (h : classify d above p node = .ok b) : d.isDir p = b := by
  unfold classify at h
  split at h
  · simp only [bind, Except.bind] at h
    split at h
    · cases h
    next target htarget =>
    unfold isDir
    rw [mapError_eq_ok_iff.1 htarget]
    dsimp only
    split at h
    · next hdir =>
        rw [hdir]
        split at h
        · cases h
        split at h <;> cases h
        rfl
    · next hdir =>
        cases h
        simpa using hdir
  · next hlink =>
      cases h
      have hsee : d.see p true = .ok node.label := by
        refine see_follow (by rw [← lstat_label, hnode]; rfl) fun target htarget => hlink ?_
        cases node with
        | link t => rfl
        | file c x => cases htarget
        | dir es => cases htarget
      have hiff : d.isDir p = true ↔ node.isDir = true := by
        rw [isDir_see, hsee, Except.ok.injEq, Node.isDir_iff]
      exact Bool.eq_iff_iff.2 hiff

end Disk

section Tree

variable {base : Disk} {src dir dst : Path} {loc : Location} {n : Name} {w w' : World}

/-- A tree is copied as a whole if none of its paths is spelled like the copy. -/
theorem whole_of_spelling (hlast : ∃ front m, dst.components = front ++ [.name m] ∧ m.Proper)
    (hspelling : ∀ rel : Location, rel.Proper → (src.joins rel).components ≠ dst.components) :
    Whole dst src := by
  intro rel hrel hproper hsame
  rw [Bool.or_eq_true, Path.sameAs_iff, Option.any_eq_true] at hsame
  rcases hsame with hsame | ⟨q, hparent, hsame⟩
  · exact hspelling rel hproper hsame
  · -- the directory of the copy has the copy below it
    obtain ⟨front, m, hcomponents, hm⟩ := hlast
    rw [Path.sameAs_iff, Path.components_parent hparent, hcomponents, List.dropLast_concat] at hsame
    refine hspelling (rel ++ [m]) (hproper.concat hm) ?_
    rw [Path.joins_concat, Path.components_join _ hm, hsame, hcomponents]

/-- A tree that is far from where it is copied to is copied as a whole. -/
theorem whole_of_far {names : List Name} (h : base.Enters dir loc) (hroute : dst.Extends dir (n :: names))
    (hlast : ∃ front m, dst.components = front ++ [.name m] ∧ m.Proper) (hshort : ¬ n.byteSize > maxName)
    (hfar : Far (loc ++ [n]) base src) : Whole dst src := by
  refine whole_of_spelling hlast fun rel hproper hsame => ?_
  have hroute' : (src.joins rel).Extends dir (n :: names) :=
    ⟨(Path.isAbsolute_congr hsame).trans hroute.absolute, (Path.course_congr hsame).trans hroute.course⟩
  exact hfar _ hproper _ (h.mem_way_of_extends hroute' hshort) (List.prefix_refl _)

/-- A copy whose path goes up is spelled like nothing below a path that goes down only. -/
theorem whole_of_up (hlast : ∃ front m, dst.components = front ++ [.name m] ∧ m.Proper)
    (hup : .up ∈ dst.components) (hsrc : .up ∉ src.components) : Whole dst src := by
  refine whole_of_spelling hlast fun rel hproper hsame => ?_
  rw [← hsame, Path.components_joins src hproper] at hup
  rcases List.mem_append.1 hup with hup | hup
  · exact hsrc hup
  · obtain ⟨m, -, hm⟩ := List.mem_map.1 hup
    cases hm

/-- What is known when a copy begins: its directory was made where there was nothing, and the source is
found as before. -/
structure Begun (d : Disk) (dst src : Path) (top : Location) : Prop where
  enters : d.Enters dst top
  empty : ∀ rel, rel ≠ [] → d.look (top ++ rel) = none
  proper : d.Proper
  source : d.see src true = .ok .dir
  nonempty : src.isEmpty = false
  clear : Clear top d dst src

namespace Begun

variable {d : Disk} {top : Location} {src dst : Path}

theorem noLinks (h : Begun d dst src top) : NoLinks top d := h.enters.noLinks_of_empty h.empty

theorem ready (h : Begun d dst src top) : Ready d dst src top d [] dst := by
  refine ⟨nofun, kept_nil _ _, .refl _ _, ?_, h.noLinks, h.proper, fun rel hrel => .inl (h.empty rel hrel)⟩
  rw [List.append_nil]
  exact h.enters.within_of_empty h.empty

end Begun

/-- A copy that succeeds is one of what is in the source, once its directory is made. -/
theorem run_of_copyTree {count : Nat} (hsrc : (w.disk.opened dst).see src true = .ok .dir)
    (hrun : (copyTree src dst).run w = (.ok count, w')) :
    (copyEntries dst maxPath [] src dst).run { w with disk := w.disk.opened dst } = (.ok count, w') := by
  obtain ⟨u, t, hmake, hrun⟩ := run_bind_ok hrun
  rw [Work.run_onDisk, Prod.mk.injEq] at hmake
  obtain ⟨-, rfl⟩ := hmake
  change (Work.ask _ >>= _ : Work IoError Nat).run { w with disk := w.disk.opened dst } = _ at hrun
  obtain ⟨node, hnode, hrun⟩ := Work.run_ask_ok hrun
  obtain ⟨isDir, hclassify, hrun⟩ := Work.run_ask_ok hrun
  have hisDir : isDir = true := by
    rw [← isDir_of_classify (mapError_eq_ok_iff.1 hnode) hclassify]
    exact isDir_see.2 hsrc
  rw [if_pos hisDir] at hrun
  exact hrun

/-- A directory is copied: its copy is what is below the source with links resolved, without what is left
out, and there are no links in it. -/
theorem copyTree_mirror {count : Nat} {top : Location} (hbegun : Begun (w.disk.opened dst) dst src top)
    (hrun : (copyTree src dst).run w = (.ok count, w')) :
    NoLinks top w'.disk ∧ ∀ rel, Location.Proper rel →
      w'.disk.look (top ++ rel) = (w.disk.opened dst).mirror dst src rel := by
  have hrun := run_of_copyTree hbegun.source hrun
  change (copyEntries dst maxPath [] (src.joins []) dst).run _ = _ at hrun
  obtain ⟨hgrows, htoward, hfilled⟩ := copyEntries_ok hbegun.nonempty hbegun.clear _ _ hbegun.ready hrun
  refine ⟨hbegun.noLinks.grows hgrows.disk, fun rel hrel => ?_⟩
  by_cases hnil : rel = []
  · rw [hnil, List.append_nil, mirror_of_kept (kept_nil _ _), tree_eq_some_iff.2 hbegun.source]
    exact hgrows.disk.dirs _ hbegun.enters.dir
  · exact hfilled rel hnil hrel

/-- A copy begins at a name that a directory does not have. -/
theorem begun_of_gone (hsrc : w.disk.see src true = .ok .dir) (hne : src.isEmpty = false)
    (h : w.disk.Enters dir loc) (hq : dst.Adds dir n) (hgone : Gone (loc ++ [n]) w.disk)
    (hproper : w.disk.Proper) (hclear : Clear (loc ++ [n]) w.disk dst src)
    (hmade : ((DiskM.createDirAll dst).run w.disk).1 = .ok ()) :
    Begun (w.disk.opened dst) dst src (loc ++ [n]) ∧ SameOff (loc ++ [n]) w.disk (w.disk.opened dst) := by
  obtain ⟨hfills, hdir⟩ := createDirAll_adds h hq fun target => by
    rw [hgone _ (List.prefix_refl _)]
    simp
  have hoff := hfills.sameOff
  refine ⟨⟨hdir hmade, fun rel hrel => ?_, hfills.proper hproper, ?_, hne, hclear.sameOff hoff⟩, hoff⟩
  · rcases hfills.look (loc ++ [n] ++ rel) with hsame | ⟨heq, -, -⟩
    · rw [hsame]
      exact hgone _ (List.prefix_append _ _)
    · exact absurd (List.append_right_eq_self.1 heq) hrel
  · exact (hclear.see hoff (show Location.Proper [] from nofun) (kept_nil dst src)).trans hsrc

/-- A directory is copied: its copy is the tree of the source with links resolved, and there are no links
in it. -/
theorem copyTree_ok {count : Nat} (hsrc : w.disk.see src true = .ok .dir)
    (hne : src.isEmpty = false) (h : w.disk.Enters dir loc) (hq : dst.Adds dir n)
    (hgone : Gone (loc ++ [n]) w.disk) (hproper : w.disk.Proper) (hfar : Far (loc ++ [n]) w.disk src)
    (hwhole : Whole dst src) (hrun : (copyTree src dst).run w = (.ok count, w')) :
    NoLinks (loc ++ [n]) w'.disk ∧ ∀ rel, Location.Proper rel →
      w'.disk.look (loc ++ [n] ++ rel) = w.disk.tree src rel := by
  obtain ⟨u, t, hmake, -⟩ := run_bind_ok hrun
  rw [Work.run_onDisk, Prod.mk.injEq] at hmake
  obtain ⟨hbegun, hoff⟩ := begun_of_gone hsrc hne h hq hgone hproper (hfar.clear dst) hmake.1
  obtain ⟨hlinks, hlook⟩ := copyTree_mirror hbegun hrun
  refine ⟨hlinks, fun rel hrel => ?_⟩
  rw [hlook rel hrel, (hfar.clear dst).mirror hoff hrel, hwhole.mirror _ hrel]

end Tree

end Sideload
