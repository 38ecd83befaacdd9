import Sideload.Proofs.Disk.Slot

/-!
What single changes do to the labels. Each of them changes the disk at or below one location, which
the path names, and leaves everything else.
-/

namespace Sideload

namespace Disk

variable {d d' d'' : Disk} {loc l : Location} {p : Path} {parent : Location} {n : Name}

/-- The disks are the same, except perhaps at or below a location. -/
structure SameOff (loc : Location) (d d' : Disk) : Prop where
  cwd : d'.cwd = d.cwd
  look : ∀ l, ¬ loc <+: l → d'.look l = d.look l

namespace SameOff

theorem refl (loc : Location) (d : Disk) : SameOff loc d d := ⟨rfl, fun _ _ => rfl⟩

theorem symm (h : SameOff loc d d') : SameOff loc d' d := ⟨h.cwd.symm, fun l hl => (h.look l hl).symm⟩

theorem trans (h : SameOff loc d d') (h' : SameOff loc d' d'') : SameOff loc d d'' :=
  ⟨h'.cwd.trans h.cwd, fun l hl => (h'.look l hl).trans (h.look l hl)⟩

/-- A change below `loc` is a change below everything above `loc`. -/
theorem mono {above : Location} (h : SameOff loc d d') (hle : above <+: loc) :
    SameOff above d d' :=
  ⟨h.cwd, fun l hl => h.look l fun hloc => hl (hle.trans hloc)⟩

end SameOff

/-! ### Putting and dropping entries -/

theorem sameOff_put (d : Disk) (c : Cursor) (n : Name) (m : Node) :
    SameOff (c.location ++ [n]) d (d.put c n m) :=
  ⟨rfl, fun _ hl => Node.look_insert_elsewhere d.root m hl⟩

theorem sameOff_drop (d : Disk) (c : Cursor) (n : Name) :
    SameOff (c.location ++ [n]) d (d.drop c n) :=
  ⟨rfl, fun _ hl => Node.look_remove_elsewhere d.root hl⟩

theorem look_put {c : Cursor} (h : d.look c.location = some .dir) (n : Name) (m : Node)
    (rest : Location) : (d.put c n m).look (c.location ++ n :: rest) = m.look rest :=
  Node.look_insert h n m rest

theorem look_drop {c : Cursor} (h : d.look c.location = some .dir)
    (hl : c.location ++ [n] <+: l) : (d.drop c n).look l = none :=
  Node.look_remove h hl

theorem look_eq_none_below (h : d.look loc ≠ some .dir) (hl : loc <+: l) (hne : l ≠ loc) :
    d.look l = none := by
  obtain ⟨rest, rfl⟩ := hl
  exact Node.look_append_eq_none h fun hnil => hne (by rw [hnil, List.append_nil])

/-- A new entry without anything below it. -/
theorem look_put_leaf {c : Cursor} {m : Node} (h : d.look c.location = some .dir)
    (hold : d.look (c.location ++ [n]) ≠ some .dir) (hnew : ∀ k rest, m.look (k :: rest) = none) :
    (d.put c n m).look =
      Function.update d.look (c.location ++ [n]) (some m.label) := by
  funext l
  by_cases hl : l = c.location ++ [n]
  · rw [hl, Function.update_self, look_put h n m [], Node.look_nil]
  · rw [Function.update_of_ne hl]
    by_cases hpre : c.location ++ [n] <+: l
    · rw [look_eq_none_below hold hpre hl]
      obtain ⟨rest, rfl⟩ := Node.prefix_concat_iff.1 hpre
      cases rest with
      | nil => exact absurd rfl hl
      | cons k rest => rw [look_put h, hnew]
    · exact (sameOff_put d c n m).look l hpre

/-- Taking an entry out takes out everything below it. -/
theorem look_drop_eq {c : Cursor} (h : d.look c.location = some .dir) (n : Name) (l : Location) :
    (d.drop c n).look l = if c.location ++ [n] <+: l then none else d.look l := by
  split
  · next hl => exact look_drop h hl
  · next hl => exact (sameOff_drop d c n).look l hl

/-! ### Single changes -/

theorem look_child_slot {c : Cursor} (hc : c.Fits d.root) (n : Name) :
    d.look (c.location ++ [n]) = (c.node.child? n).map Node.label := hc.look_child n

theorem makeDir_ok (h : d.makeDir p = .ok d') : ∃ parent n, d.Slot p parent n ∧
    d.look (parent ++ [n]) = none ∧ d'.cwd = d.cwd ∧
      d'.look = Function.update d.look (parent ++ [n]) (some .dir) := by
  unfold makeDir at h
  cases hplace : d.place p with
  | error e =>
      rw [hplace] at h
      cases h
  | ok spot =>
      rw [hplace] at h
      simp only [bind, Except.bind] at h
      split at h
      · next n hlast =>
          obtain ⟨hslot, hfits, -⟩ := slot_of_place hplace hlast
          split at h
          · cases h
          · next hfree =>
              cases h
              have hnone : d.look (spot.parent.location ++ [n]) = none := by
                rw [look_child_slot hfits, Option.map_eq_none_iff]
                simpa using hfree
              refine ⟨spot.parent.location, n, hslot, hnone, rfl, ?_⟩
              exact look_put_leaf hslot.dir (by rw [hnone]; simp) fun k rest => rfl
      · cases h

/-- A file that is written is the one that the path leads to, links followed. -/
theorem openFile_ok {change : Option (ByteArray × Bool) → ByteArray × Bool}
    (h : d.openFile p change = .ok d') : ∃ g old, d.goal p true = .ok g ∧
      d.look g.location = old.map (fun f : ByteArray × Bool => Label.file f.1 f.2) ∧
      p.endsInSlash = false ∧ SameOff g.location d d' ∧
      d'.look =
        Function.update d.look g.location (some (.file (change old).1 (change old).2)) := by
  unfold openFile at h
  by_cases hslash : p.endsInSlash = true
  · rw [if_pos hslash] at h
    cases hplace : d.place p with
    | error e =>
        rw [hplace] at h
        cases h
    | ok spot =>
        rw [hplace] at h
        cases h
  · rw [if_neg hslash] at h
    have hno : p.endsInSlash = false := by simpa using hslash
    rcases find_eq d p true with ⟨s, hfind, hfits, hgoal⟩ | ⟨e, hfind, -⟩
    · rw [hfind] at h
      simp only [bind, Except.bind] at h
      cases s with
      | vacant c n =>
          cases h
          have hnone := look_eq_none_of_goal hgoal
          refine ⟨.vacant c.location n, none, hgoal, hnone, hno, sameOff_put d c n _, ?_⟩
          exact look_put_leaf (dir_of_goal hgoal) (by rw [hnone]; simp) fun k rest => rfl
      | present c =>
          obtain ⟨node, above⟩ := c
          simp only at h
          split at h
          · next content x n up rest =>
              cases h
              obtain ⟨hup, hchild⟩ := hfits.above
              have hloc : (⟨.file content x, (n, up) :: rest⟩ : Cursor).location =
                  (⟨up, rest⟩ : Cursor).location ++ [n] := Cursor.location_down ⟨up, rest⟩ n _
              have hlook : d.look ((⟨up, rest⟩ : Cursor).location ++ [n]) =
                  some (.file content x) := by
                rw [look_child_slot hup, hchild]
                rfl
              simp only [Spot.goal, hloc] at hgoal
              refine ⟨_, some (content, x), hgoal, hlook, hno, sameOff_put d ⟨up, rest⟩ n _, ?_⟩
              have hdir : d.look (⟨up, rest⟩ : Cursor).location = some .dir :=
                Node.look_eq_dir_of_append (List.cons_ne_nil n []) (by rw [← look, hlook]; simp)
              exact look_put_leaf hdir (by rw [hlook]; simp) fun k rest => rfl
          · cases h
    · rw [hfind] at h
      cases h

/-- A file that is taken away is the entry that the path names. -/
theorem removeFile_ok (h : d.removeFile p = .ok d') : ∃ parent n label, d.Slot p parent n ∧
    d.look (parent ++ [n]) = some label ∧ label ≠ .dir ∧ p.endsInSlash = false ∧
      d'.cwd = d.cwd ∧ ∀ l, d'.look l = if parent ++ [n] <+: l then none else d.look l := by
  unfold removeFile at h
  cases hplace : d.place p with
  | error e =>
      rw [hplace] at h
      cases h
  | ok spot =>
      rw [hplace] at h
      simp only [bind, Except.bind] at h
      split at h
      · next n hlast =>
          obtain ⟨hslot, hfits, hslash⟩ := slot_of_place hplace hlast
          split at h
          · cases h
          · next m hm =>
              split at h
              · cases h
              · next hdir =>
                  split at h
                  · cases h
                  · next hno =>
                      cases h
                      refine ⟨spot.parent.location, n, m.label, hslot, ?_, ?_, ?_, rfl, ?_⟩
                      · rw [look_child_slot hfits, hm]
                        rfl
                      · exact fun hlabel => hdir (Node.isDir_iff.2 hlabel)
                      · rw [← hslash]
                        simpa using hno
                      · exact look_drop_eq hslot.dir n
      · cases h

/-- A directory that is taken away is empty. -/
theorem removeDir_ok (h : d.removeDir p = .ok d') : ∃ parent n, d.Slot p parent n ∧
    d.look (parent ++ [n]) = some .dir ∧ (∀ k rest, d.look (parent ++ n :: k :: rest) = none) ∧
      d'.cwd = d.cwd ∧ ∀ l, d'.look l = if parent ++ [n] <+: l then none else d.look l := by
  unfold removeDir at h
  cases hplace : d.place p with
  | error e =>
      rw [hplace] at h
      cases h
  | ok spot =>
      rw [hplace] at h
      simp only [bind, Except.bind] at h
      split at h
      · next n hlast =>
          obtain ⟨hslot, hfits, hslash⟩ := slot_of_place hplace hlast
          split at h
          · cases h
          · next hm =>
              cases h
              have hget : d.root.get? (spot.parent.location ++ [n]) = some (.dir []) := by
                rw [Node.get?_append, hfits.get?, Option.bind_some, Node.get?_cons, hm]
                rfl
              refine ⟨spot.parent.location, n, hslot, ?_, fun k rest => ?_, rfl,
                look_drop_eq hslot.dir n⟩
              · rw [look_child_slot hfits, hm]
                rfl
              · have hbelow := Node.look_append hget (k :: rest)
                rwa [List.append_assoc, List.singleton_append] at hbelow
          · cases h
          · cases h
      · cases h
      · cases h
      · cases h

/-- The labels at and below one location, moved to another one. -/
def moved (v : View) (old new : Location) : View := fun l =>
  if new <+: l then v (old ++ l.drop new.length)
  else if old <+: l then none
  else v l

theorem replaceFault?_dir {node m : Node} (hm : m.label = .dir)
    (h : replaceFault? node (some m) = none) : node.isDir = true := by
  obtain ⟨es, rfl⟩ := Node.label_eq_dir_iff.1 hm
  cases es with
  | nil => simpa [replaceFault?] using h
  | cons e es =>
      simp only [replaceFault?] at h
      split at h <;> cases h

/-- Taking a node out of its place and putting it in another one. -/
theorem look_move {old new : Cursor} {n' : Name} {node : Node}
    (hold : d.look old.location = some .dir) (hnew : d.look new.location = some .dir)
    (hnode : d.root.get? (old.location ++ [n]) = some node)
    (hbelow : ¬ old.location ++ [n] <+: new.location ++ [n']) :
    ((d.drop old n).put new n' node).look =
      moved d.look (old.location ++ [n]) (new.location ++ [n']) := by
  have hkept : (d.drop old n).look new.location = some .dir := by
    rw [look_drop_eq hold, if_neg fun hpre => hbelow (hpre.trans (List.prefix_append _ _)), hnew]
  funext l
  unfold moved
  split
  · next hl =>
      obtain ⟨rest, rfl⟩ := hl
      rw [List.drop_left, List.append_assoc, List.singleton_append, look_put hkept]
      exact (Node.look_append hnode rest).symm
  · next hl => rw [(sameOff_put _ new n' node).look l hl, look_drop_eq hold]

/-- An entry that is renamed takes along everything below it. -/
theorem rename_ok {src dst : Path} (h : d.rename src dst = .ok d') : ∃ parent n parent' n',
    d.Slot src parent n ∧ d.Slot dst parent' n' ∧ d.look (parent ++ [n]) ≠ none ∧ d'.cwd = d.cwd ∧
      (d.look (parent ++ [n]) ≠ some .dir →
        src.endsInSlash = false ∧ dst.endsInSlash = false) ∧
      ((parent ++ [n] = parent' ++ [n'] ∧ d' = d) ∨
        (¬ parent ++ [n] <+: parent' ++ [n'] ∧ ¬ parent' ++ [n'] <+: parent ++ [n] ∧
          (d.look (parent ++ [n]) ≠ some .dir → d.look (parent' ++ [n']) ≠ some .dir) ∧
          d'.look = moved d.look (parent ++ [n]) (parent' ++ [n']))) := by
  unfold rename at h
  cases hsrc : d.place src with
  | error e =>
      rw [hsrc] at h
      cases h
  | ok old =>
      cases hdst : d.place dst with
      | error e =>
          rw [hsrc, hdst] at h
          cases h
      | ok new =>
          rw [hsrc, hdst] at h
          simp only [bind, Except.bind] at h
          split at h
          · next n n' hlast hlast' =>
              obtain ⟨hslot, hfits, hslash⟩ := slot_of_place hsrc hlast
              obtain ⟨hslot', hfits', hslash'⟩ := slot_of_place hdst hlast'
              split at h
              · cases h
              · next node hnode =>
                  have hlook : d.look (old.parent.location ++ [n]) = some node.label := by
                    rw [look_child_slot hfits, hnode]
                    rfl
                  split at h
                  · cases h
                  next hslashes =>
                  refine ⟨_, n, _, n', hslot, hslot', by rw [hlook]; simp, ?_⟩
                  have hno : d.look (old.parent.location ++ [n]) ≠ some .dir →
                      src.endsInSlash = false ∧ dst.endsInSlash = false := by
                    intro hdir
                    have hisDir : node.isDir = false := by
                      rw [Bool.eq_false_iff]
                      exact fun hd => hdir (by rw [hlook, Node.isDir_iff.1 hd])
                    simpa [hisDir, hslash, hslash'] using hslashes
                  split at h
                  · next hsame =>
                      cases h
                      exact ⟨rfl, hno, .inl ⟨hsame, rfl⟩⟩
                  next hne =>
                  split at h
                  · cases h
                  next hbelow =>
                  split at h
                  · cases h
                  next habove =>
                  split at h
                  · cases h
                  next hfault =>
                  cases h
                  simp only [isWithin, List.isPrefixOf_iff_prefix] at hbelow habove
                  refine ⟨rfl, hno, .inr ⟨hbelow, habove, ?_, ?_⟩⟩
                  · intro hdir hdir'
                    rw [look_child_slot hfits', Option.map_eq_some_iff] at hdir'
                    obtain ⟨m, hm, hlabel⟩ := hdir'
                    rw [hm] at hfault
                    have hisDir := replaceFault?_dir hlabel hfault
                    exact hdir (by rw [hlook, Node.isDir_iff.1 hisDir])
                  · have hget : d.root.get? (old.parent.location ++ [n]) = some node := by
                      rw [Node.get?_append, hfits.get?, Option.bind_some, Node.get?_cons, hnode]
                      simp
                    exact look_move hslot.dir hslot'.dir hget hbelow
          · cases h

/-- A file or a link that is renamed replaces what has the new name. -/
theorem rename_leaf {src dst : Path} {parent' : Location} {n' : Name} (h : d.rename src dst = .ok d')
    (hsrc : d.Slot src parent n) (hdst : d.Slot dst parent' n')
    (hne : parent ++ [n] ≠ parent' ++ [n']) (hleaf : d.look (parent ++ [n]) ≠ some .dir) :
    d'.cwd = d.cwd ∧ d.look (parent' ++ [n']) ≠ some .dir ∧ d'.look =
      Function.update (Function.update d.look (parent ++ [n]) none) (parent' ++ [n'])
        (d.look (parent ++ [n])) := by
  obtain ⟨_, _, _, _, hsrc', hdst', -, hcwd, -, hcases⟩ := rename_ok h
  obtain ⟨rfl, rfl⟩ := hsrc'.unique hsrc
  obtain ⟨rfl, rfl⟩ := hdst'.unique hdst
  rcases hcases with ⟨hsame, -⟩ | ⟨-, -, htype, hlook⟩
  · exact absurd hsame hne
  refine ⟨hcwd, htype hleaf, funext fun l => ?_⟩
  have hbelow : ∀ {loc : Location}, d.look loc ≠ some .dir → ∀ {rest : Location}, rest ≠ [] →
      d.look (loc ++ rest) = none := fun hloc _ hrest => Node.look_append_eq_none hloc hrest
  rw [hlook, moved]
  split
  · next hl =>
      obtain ⟨rest, rfl⟩ := hl
      rw [List.drop_left]
      by_cases hrest : rest = []
      · rw [hrest, List.append_nil, List.append_nil, Function.update_self]
      · rw [hbelow hleaf hrest, Function.update_of_ne (by simpa using hrest)]
        by_cases hold : parent' ++ [n'] ++ rest = parent ++ [n]
        · rw [hold, Function.update_self]
        · rw [Function.update_of_ne hold, hbelow (htype hleaf) hrest]
  · next hl =>
      have hl' : l ≠ parent' ++ [n'] := fun he => hl (he ▸ List.prefix_refl _)
      rw [Function.update_of_ne hl']
      split
      · next hpre =>
          obtain ⟨rest, rfl⟩ := hpre
          by_cases hrest : rest = []
          · rw [hrest, List.append_nil, Function.update_self]
          · rw [Function.update_of_ne (by simpa using hrest), hbelow hleaf hrest]
      · next hpre =>
          have hl'' : l ≠ parent ++ [n] := fun he => hpre (he ▸ List.prefix_refl _)
          rw [Function.update_of_ne hl'']

/-- An entry can be renamed to a free name that is not below it. -/
theorem rename_isOk {src dst : Path} {parent' : Location} {n' : Name} (hsrc : d.Slot src parent n)
    (hdst : d.Slot dst parent' n') (hslash : src.endsInSlash = false) (hslash' : dst.endsInSlash = false)
    (hthere : d.look (parent ++ [n]) ≠ none) (hfree : d.look (parent' ++ [n']) = none)
    (hbelow : ¬ parent ++ [n] <+: parent' ++ [n']) : ∃ d', d.rename src dst = .ok d' := by
  obtain ⟨c, hplace, rfl, hfits⟩ := hsrc.place
  obtain ⟨c', hplace', rfl, hfits'⟩ := hdst.place
  have hnone : c'.node.child? n' = none := by
    rw [look_child_slot hfits'] at hfree
    exact Option.map_eq_none_iff.1 hfree
  obtain ⟨node, hnode⟩ : ∃ node, c.node.child? n = some node := by
    rw [look_child_slot hfits] at hthere
    exact Option.ne_none_iff_exists'.1 fun hnone => hthere (by rw [hnone]; rfl)
  have hwithin : isWithin (c'.location ++ [n']) (c.location ++ [n]) = false := by
    rw [Bool.eq_false_iff, isWithin, Ne, List.isPrefixOf_iff_prefix]
    exact hbelow
  have hwithin' : isWithin (c.location ++ [n]) (c'.location ++ [n']) = false := by
    rw [Bool.eq_false_iff, isWithin, Ne, List.isPrefixOf_iff_prefix]
    exact fun habove => look_ne_none_above hthere habove hfree
  have hne : c.location ++ [n] ≠ c'.location ++ [n'] := fun hsame =>
    hbelow (hsame ▸ List.prefix_refl _)
  unfold rename
  rw [hplace, hplace']
  simp [bind, Except.bind, hslash, hslash', hnode, hnone, hwithin, hwithin', hne, replaceFault?]

end Disk

end Sideload
