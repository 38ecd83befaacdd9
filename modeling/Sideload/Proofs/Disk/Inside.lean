import Sideload.Proofs.Disk.Replica

/-!
Copying a tree into itself. What keeps the walk out of the copy is how the paths are spelled. Where the copy
lies in the source and is spelled in another way, the walk comes to it, finds there the directories that it
has just made, makes them once more further down, and goes on like this until a path is too long.
-/

namespace Sideload

open Disk

section Inside

variable {dst src target : Path} {here rel : Location} {names : List Name} {m : Name} {w w' : World}

/-- The name that a walk goes on with when it runs in a circle. -/
theorem exists_next (hne : names ≠ []) (h : rel <+: names ++ rel) :
    ∃ m rest, names ++ rel = rel ++ m :: rest := by
  obtain ⟨rest, hrest⟩ := h
  cases rest with
  | nil =>
      have hlength := congrArg List.length hrest
      have hpositive := List.length_pos_iff.2 hne
      simp only [List.append_nil, List.length_append] at hlength
      omega
  | cons m rest => exact ⟨m, rest, hrest.symm⟩

/-- What is known when the walk comes to a directory over and over: the copy has it already. -/
structure Circling (src : Path) (here : Location) (names : List Name) (rel : Location) (target : Path)
    (d : Disk) : Prop where
  inside : Within (here ++ names) d target (here ++ names ++ rel)
  noLinks : NoLinks (here ++ names) d
  proper : d.Proper
  distinct : d.Distinct
  enters : d.Enters (src.joins rel) (here ++ rel)
  again : rel <+: names ++ rel

/-- No round leads out of the circle. -/
theorem Circling.round (dst : Path) (depth : Nat) (above : List Ancestor) (count : Nat) {entry : Name × Node}
    (h : Circling src here names rel target w.disk) (hname : entry.1.Proper) :
    Circling src here names rel target
      ((copyRound dst depth above (src.joins rel) target count entry).run w).2.disk := by
  obtain ⟨hgrows, -⟩ := @copyRound_grows _ dst depth above (src.joins rel) target
    _ w entry count h.inside h.noLinks h.proper hname fun dir target hin hlinks hproper =>
      copyEntries_grows dst depth above dir target _ hin hlinks hproper
  exact ⟨h.inside.grows hgrows, h.noLinks.grows hgrows, hgrows.proper h.proper,
    stable_distinct.copyRound (stable_distinct.copyEntries dst depth above) _ _ count entry w h.distinct,
    hgrows.enters h.noLinks h.enters, h.again⟩

/-- The round for the name that the walk goes on with does not come to its end. -/
theorem Circling.round_ne_ok (hwhole : Whole dst src) (hproper : rel.Proper) {depth b count : Nat}
    {above : List Ancestor} {entry : Name × Node} (h : Circling src here names rel target w.disk)
    (hentry : entry.2.label = .dir) (hnext : ∃ rest, names ++ rel = rel ++ entry.1 :: rest)
    (hname : entry.1.Proper)
    (ih : ∀ {w w' : World} {target : Path} {count : Nat},
      Circling src here names (rel ++ [entry.1]) target w.disk →
      (copyEntries dst depth above (src.joins (rel ++ [entry.1])) target).run w ≠ (.ok count, w'))
    (hrun : (copyRound dst depth above (src.joins rel) target b entry).run w = (.ok count, w')) : False := by
  have hq := target.adds_join hname
  obtain ⟨rest, hrest⟩ := hnext
  -- the entry is a directory on the way to the copy, so it is gone into
  have hdir : w.disk.look (here ++ rel ++ [entry.1]) = some .dir := by
    refine look_eq_dir_above h.inside.enters.dir ⟨rest, ?_⟩
    rw [List.append_assoc here names rel, hrest]
    simp
  obtain ⟨isDir, hclass, hrun⟩ := Work.run_ask_ok hrun
  dsimp only at hrun
  have hisDir : isDir = true := by
    obtain ⟨name, node⟩ := entry
    cases node with
    | dir es =>
        cases hclass
        rfl
    | file content x => cases hentry
    | link p => cases hentry
  have hkept : (((src.joins rel).join (.ofName entry.1)).sameAs dst ||
      dst.parent?.any ((src.joins rel).join (.ofName entry.1)).sameAs) = false := by
    rw [← Path.joins_concat]
    exact Bool.eq_false_iff.2 (hwhole _ (by simp) (hproper.concat hname))
  rw [hisDir, hkept] at hrun
  obtain ⟨u, t, hmake, hrun⟩ := run_bind_ok hrun
  rw [Work.run_onDisk, Prod.mk.injEq] at hmake
  obtain ⟨hmade, rfl⟩ := hmake
  obtain ⟨more, t, hcopy, -⟩ := run_bind_ok hrun
  rw [← Path.joins_concat] at hcopy
  obtain ⟨hgrown, hin⟩ := h.inside.createDirAll_adds h.noLinks hq
  refine ih ⟨?_, h.noLinks.grows hgrown, h.proper.opened _, h.distinct.opened _, ?_, ?_⟩ hcopy
  · rw [← List.append_assoc]
    exact hin hmade
  · obtain ⟨loc, hto, hlook⟩ := see_eq_ok_iff.1 (see_of_copyEntries hcopy)
    have henters := hgrown.enters h.noLinks h.enters
    have hext := Path.extends_join (src.joins rel) hname
    rw [Path.joins_concat] at hto
    obtain rfl := henters.child ⟨hto, hlook⟩ hext (by rw [hgrown.dirs _ hdir]; nofun)
    rw [Path.joins_concat, ← List.append_assoc]
    exact ⟨hto, hlook⟩
  · rw [← List.append_assoc, hrest]
    exact ⟨rest ++ [entry.1], by simp⟩

/-- Copying what is in a directory that the walk comes to over and over does not succeed. -/
theorem copyEntries_circling (hwhole : Whole dst src) (hne : names ≠ []) (depth : Nat)
    (above : List Ancestor) (hproper : rel.Proper) {count : Nat}
    (h : Circling src here names rel target w.disk) :
    (copyEntries dst depth above (src.joins rel) target).run w ≠ (.ok count, w') := by
  intro hrun
  induction depth generalizing above rel target w w' count with
  | zero => cases hrun
  | succ depth ih =>
      rw [copyEntries_succ] at hrun
      obtain ⟨loc, -, hrun⟩ := Work.run_ask_ok hrun
      obtain ⟨found, hfound, hrun⟩ := Work.run_ask_ok hrun
      have hlist := mapError_eq_ok_iff.1 hfound
      obtain ⟨m, rest, hrest⟩ := exists_next hne h.again
      have hthere : w.disk.look (here ++ rel ++ [m]) = some .dir := by
        refine look_eq_dir_above h.inside.enters.dir ⟨rest, ?_⟩
        rw [List.append_assoc here names rel, hrest]
        simp
      obtain ⟨node, hmem⟩ := exists_mem_list h.enters hlist (by rw [hthere]; nofun)
      have hnode : node.label = .dir := by
        have hlook := look_of_list h.enters hlist h.distinct hmem
        exact Option.some_inj.1 (hlook.symm.trans hthere)
      -- every other entry leaves the walk where it is, and this one is never done with
      obtain ⟨-, -, hdone⟩ := run_foldlM_ok (fun s => Circling src here names rel target s.disk)
        (fun _ _ => True) (fun e _ => e ≠ (m, node)) (fun _ => trivial) (fun _ _ _ _ _ => trivial)
        (fun _ _ _ hdone _ => hdone)
        (fun b e he s b' t hs hround => by
          have hname := h.proper.list hlist e he
          have hstays := hs.round dst depth (⟨src.joins rel, loc⟩ :: above) b hname
          rw [hround] at hstays
          refine ⟨hstays, trivial, ?_⟩
          rintro rfl
          exact hs.round_ne_ok hwhole hproper hnode ⟨rest, hrest⟩ hname
            (fun hcircling hcopy => ih _ (hproper.concat hname) hcircling hcopy) hround)
        h hrun
      exact hdone _ hmem rfl

/-- A copy that lies in the source never succeeds if no path below the source is spelled like it or like
the directory that holds it. -/
theorem copyTree_inside (hwhole : Whole dst src) (hne : names ≠ [])
    (hsrc : (w.disk.opened dst).Enters src here)
    (hdst : (w.disk.opened dst).Enters dst (here ++ names))
    (hempty : ∀ rel, rel ≠ [] → (w.disk.opened dst).look (here ++ names ++ rel) = none)
    (hproper : w.disk.Proper) (hdistinct : w.disk.Distinct) (count : Nat) :
    ((copyTree src dst).run w).1 ≠ .ok count := by
  intro hok
  have hrun := run_of_copyTree (see_eq_ok_iff.2 ⟨here, hsrc.goal, hsrc.dir⟩)
    (Prod.ext hok rfl : (copyTree src dst).run w = (.ok count, _))
  refine @copyEntries_circling dst src dst here [] names _ _ hwhole hne maxPath [] nofun _ ⟨?_, ?_, hproper.opened dst,
    hdistinct.opened dst, ?_, List.nil_prefix⟩ hrun
  · rw [List.append_nil]
    exact hdst.within_of_empty hempty
  · exact hdst.noLinks_of_empty hempty
  · rw [List.append_nil]
    exact hsrc

end Inside

/-- An empty directory, and nothing else. -/
def bareWorld : World := .holding [(Glyph.ofString "s", .dir [])]

/-- An empty directory is copied into itself on a way that leads over a missing directory: there is nothing
where the copy is going to be, the directory above what is missing is not below the source, and no link stops
the walk. -/
theorem copyTree_inside_bareWorld :
    bareWorld.disk.see (.ofString "/s") true = .ok .dir ∧
    bareWorld.disk.see (.ofString "/x/../s/n") false = .error (.os .noEntry) ∧
    bareWorld.disk.look [Glyph.ofString "x"] = none ∧
    (∀ rel, Location.Proper rel → ¬ bareWorld.disk.Enters ((Path.ofString "/s").joins rel) []) ∧
    (∀ f e, ¬ bareWorld.disk.Fault (.ofString "/x/../s/n") (.ofString "/s") f e) ∧
    ∀ count, ((copyTree (.ofString "/s") (.ofString "/x/../s/n")).run bareWorld).1 ≠ .ok count := by
  have hlinks : bareWorld.disk.root.every (fun _ label => !label.isLink) = true := by decide
  have hsrc : bareWorld.disk.Enters (.ofString "/s") [Glyph.ofString "s"] := ⟨by cbv, by cbv⟩
  refine ⟨by cbv, by cbv, by cbv, fun rel hrel hto => ?_, not_fault_of_linkless hlinks, ?_⟩
  · cases hsrc.joins_of_linkless hlinks hrel hto
  · have hget : (bareWorld.disk.opened (.ofString "/x/../s/n")).root.get?
        [Glyph.ofString "s", Glyph.ofString "n"] = some (.dir []) := by cbv
    refine @copyTree_inside _ _ [Glyph.ofString "s"] [Glyph.ofString "n"] _ ?_ (by simp) ⟨by cbv, by cbv⟩
      ⟨by cbv, by cbv⟩ (fun rel hrel => ?_) (proper_of_every (fun n hn => by cases hn) (by decide))
      (Node.distinct_empty.setEntry Node.distinct_empty _)
    · have hcomponents : (Path.ofString "/x/../s/n").components = [.root, .name (Glyph.ofString "x"), .up,
          .name (Glyph.ofString "s")] ++ [.name (Glyph.ofString "n")] := by cbv
      refine whole_of_up ⟨_, _, hcomponents, by decide⟩ (hcomponents ▸ by decide) ?_
      rw [show (Path.ofString "/s").components = [.root, .name (Glyph.ofString "s")] by cbv]
      decide
    · obtain ⟨n, rest, rfl⟩ := List.exists_cons_of_ne_nil hrel
      exact (Node.look_append hget (n :: rest)).trans (Node.look_cons ..)

end Sideload
