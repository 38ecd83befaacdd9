import Sideload.Proofs.Disk.Growth
import Sideload.Proofs.Installer.Plan

/-!
Building beside the destination. Nothing changes but the staging entry of the package directory, and
that entry is gone if the build fails.
-/

namespace Sideload

open Disk

variable {target staging : Path} {loc : Location} {n : Name} {w : World}

theorem packageMarker_proper : Name.Proper (Glyph.ofString packageMarker) :=
  ⟨by decide, by decide, by decide, by decide⟩

/-- A package grows where its tree is copied to. -/
theorem stage_tree_grows {source : Path} {top place : Location} {w₀ : World}
    (hgrows : w₀.Grows top ((copyTree source staging).run w).2)
    (hin : ∀ count t, (copyTree source staging).run w = (.ok count, t) →
      Within top t.disk staging place) (hlinks : NoLinks top w₀.disk) :
    w₀.Grows top ((stage source staging .copy true).run w).2 := by
  refine run_bind_keeps hgrows fun count t ht hs => ?_
  have hwithin : Within top t.disk staging place := by
    rw [Work.run_orFail, Prod.mk.injEq, mapError_eq_ok_iff] at ht
    exact hin count t (Prod.ext ht.1 ht.2)
  refine run_bind_keeps hs fun d' t' ht' hs' => ?_
  rw [Work.run_disk] at ht'
  cases ht'
  simp only
  split
  · exact hs'.log
  · refine run_bind_keeps (hs'.trans ?_) fun _ _ _ ht =>
      run_bind_keeps ht.log fun _ _ _ ht => ht.log
    refine World.Grows.change (f := (·.write (staging.child packageMarker) .empty)) fun d hd => ?_
    exact hwithin.write_adds (hlinks.grows hs.disk) (staging.adds_join packageMarker_proper) hd

/-- What is built at a free name of a directory changes nothing else. -/
theorem stage_grows (source : Path) (mode : Mode) (isDir : Bool) (h : w.disk.Enters target loc)
    (hq : staging.Adds target n) (hgone : Gone (loc ++ [n]) w.disk) (hproper : w.disk.Proper) :
    w.Grows (loc ++ [n]) ((stage source staging mode isDir).run w).2 := by
  have hlink : ∀ target, w.disk.look (loc ++ [n]) ≠ some (.link target) := fun target => by
    rw [hgone _ (List.prefix_refl _)]
    simp
  match mode, isDir with
  | .copy, true =>
      obtain ⟨hgrows, hin⟩ := copyTree_grows source h hq hgone hproper
      have hcopied : ∀ count t, (copyTree source staging).run w = (.ok count, t) →
          Within (loc ++ [n]) t.disk staging (loc ++ [n]) := by
        intro count t ht
        rw [ht] at hin
        exact hin count rfl
      refine stage_tree_grows hgrows hcopied fun l hl target => ?_
      rw [hgone l hl]
      simp
  | .copy, false =>
      refine run_bind_keeps ?_ fun _ _ _ ht => ht.log
      refine World.Grows.change (f := (·.copyFile source staging)) fun d hd => ?_
      exact (copyFile_adds h hq hlink hd).1.grows (List.prefix_refl _)
  | .editable, _ =>
      unfold stage
      cases source.parent? with
      | none => exact .refl _ w
      | some parent =>
          refine run_bind_keeps ?_ fun _ _ _ ht => ht.log
          refine World.Grows.change (f := (·.writeText staging s!"{parent.display}\n")) fun d hd => ?_
          exact (write_adds h hq hlink hd).grows (List.prefix_refl _)

/-- What building was, if it succeeded. -/
theorem stage_cases {source : Path} {mode : Mode} {isDir : Bool} {w' : World}
    (h : (stage source staging mode isDir).run w = (.ok (), w')) :
    (mode = .copy ∧ isDir = true ∧ ∃ count t, (copyTree source staging).run w = (.ok count, t) ∧
      ((t.disk.exists_ (staging.child packageMarker) = true ∧ w'.disk = t.disk) ∨
        (t.disk.exists_ (staging.child packageMarker) = false ∧
          t.disk.write (staging.child packageMarker) .empty = .ok w'.disk))) ∨
    (mode = .copy ∧ isDir = false ∧ w.disk.copyFile source staging = .ok w'.disk) ∨
    (mode = .editable ∧ ∃ parent, source.parent? = some parent ∧
      w.disk.writeText staging s!"{parent.display}\n" = .ok w'.disk) := by
  match mode, isDir with
  | .copy, true =>
      obtain ⟨count, t, hcopy, h⟩ := run_bind_ok h
      rw [Work.run_orFail, Prod.mk.injEq, mapError_eq_ok_iff] at hcopy
      obtain ⟨d, t', hd, h⟩ := run_bind_ok h
      rw [Work.run_disk] at hd
      cases hd
      refine .inl ⟨rfl, rfl, count, t, Prod.ext hcopy.1 hcopy.2, ?_⟩
      dsimp only at h
      split at h
      · next hthere =>
          cases h
          exact .inl ⟨hthere, rfl⟩
      · next hnot =>
          obtain ⟨u, t', hwrite, h⟩ := run_bind_ok h
          rw [Work.run_change_orFail] at hwrite
          split at hwrite
          · next d hd =>
              cases hwrite
              cases h
              exact .inr ⟨hnot, hd⟩
          · cases hwrite
  | .copy, false =>
      obtain ⟨u, t, hcopy, h⟩ := run_bind_ok h
      rw [Work.run_change_orFail] at hcopy
      split at hcopy
      · next d hd =>
          cases hcopy
          cases h
          exact .inr (.inl ⟨rfl, rfl, hd⟩)
      · cases hcopy
  | .editable, _ =>
      unfold stage at h
      cases hparent : source.parent? with
      | none =>
          rw [hparent] at h
          cases h
      | some parent =>
          rw [hparent] at h
          obtain ⟨u, t, hwrite, h⟩ := run_bind_ok h
          rw [Work.run_change_orFail] at hwrite
          split at hwrite
          · next d hd =>
              cases hwrite
              cases h
              exact .inr (.inr ⟨rfl, parent, rfl, hd⟩)
          · cases hwrite

/-- What was built is there. -/
theorem stage_there {source : Path} {mode : Mode} {isDir : Bool} {w' : World}
    (h : w.disk.Enters target loc) (hq : staging.Adds target n) (hgone : Gone (loc ++ [n]) w.disk)
    (hproper : w.disk.Proper) (hrun : (stage source staging mode isDir).run w = (.ok (), w')) :
    w'.disk.look (loc ++ [n]) ≠ none := by
  have hlink : ∀ target, w.disk.look (loc ++ [n]) ≠ some (.link target) := fun target => by
    rw [hgone _ (List.prefix_refl _)]
    simp
  rcases stage_cases hrun with ⟨rfl, rfl, count, t, hcopy, hmarked⟩ | ⟨-, -, hcopied⟩ | ⟨-, parent, -, hwrite⟩
  · obtain ⟨hgrows, hin⟩ := copyTree_grows source h hq hgone hproper
    rw [hcopy] at hgrows hin
    have hwithin := hin count rfl
    have hlinks : NoLinks (loc ++ [n]) t.disk := by
      refine NoLinks.grows (fun l hl target => ?_) hgrows.disk
      rw [hgone l hl]
      simp
    have hdir : w'.disk.look (loc ++ [n]) = some .dir := by
      rcases hmarked with ⟨-, hsame⟩ | ⟨-, hwrite⟩
      · rw [hsame]
        exact hwithin.enters.dir
      · exact (hwithin.write_adds hlinks (staging.adds_join packageMarker_proper) hwrite).dirs _
          hwithin.enters.dir
    rw [hdir]
    simp
  · obtain ⟨-, content, x, hfile⟩ := copyFile_adds h hq hlink hcopied
    rw [hfile]
    simp
  · unfold writeText write at hwrite
    obtain ⟨-, content, x, hfile⟩ := openFile_adds h hq hlink hwrite
    rw [hfile]
    simp

/-- The way to a directory does not lead over what the directory does not have. -/
theorem Disk.Enters.way_of_gone {d : Disk} (h : d.Enters target loc) (hgone : Gone (loc ++ [n]) d) :
    ∀ l ∈ d.way target true, ¬ loc ++ [n] <+: l :=
  fun l hl hpre => h.look_ne_none hl (hgone l hpre)

/-- A directory whose way does not lead over an entry is found whatever happens there. -/
theorem Disk.Enters.sameOff {d d' : Disk} {top : Location} (h : d.Enters target loc)
    (hsame : SameOff top d d') (hway : ∀ l ∈ d.way target true, ¬ top <+: l) :
    d'.Enters target loc ∧ d'.way target true = d.way target true :=
  h.congr hsame.cwd fun l hl => hsame.look l (hway l hl)

/-- What is left of a build: everything but the staging entry is as it was. There is something if the build
succeeded, and nothing if it failed. -/
structure Leaves (top : Location) (w : World) (run : Except Failure Unit × World) : Prop where
  now : run.2.now = w.now
  proper : run.2.disk.Proper
  sameOff : SameOff top w.disk run.2.disk
  gone : ∀ f, run.1 = .error f → Gone top run.2.disk
  there : run.1 = .ok () → run.2.disk.look top ≠ none

/-- The package directory with a free place for what is going to be built. Nothing else differs from the
disk as it was when the directory was made. -/
structure Cleared (target staging : Path) (loc : Location) (n : Name) (base d : Disk) : Prop where
  enters : d.Enters target loc
  slot : d.Slot staging loc n
  gone : Gone (loc ++ [n]) d
  proper : d.Proper
  sameOff : SameOff (loc ++ [n]) base d

theorem stageOrClean_ok {source : Path} {mode : Mode} {isDir : Bool} {w' : World}
    (h : (stageOrClean source staging mode isDir).run w = (.ok (), w')) :
    (stage source staging mode isDir).run w = (.ok (), w') := by
  rw [stageOrClean, run_bind, Work.run_attempt] at h
  rcases hstage : (stage source staging mode isDir).run w with ⟨f | u, t⟩
  · rw [hstage] at h
    obtain ⟨a, t', -, h⟩ := run_bind_ok h
    cases a <;> cases h
  · rw [hstage] at h
    cases h
    rfl

theorem run_stageOrClean_of_ok {source : Path} {mode : Mode} {isDir : Bool} {w' : World}
    (h : (stage source staging mode isDir).run w = (.ok (), w')) :
    (stageOrClean source staging mode isDir).run w = (.ok (), w') := by
  rw [stageOrClean, run_bind, Work.run_attempt, h]
  rfl

theorem Cleared.leaves {base : Disk} (h : Cleared target staging loc n base w.disk) (source : Path)
    (mode : Mode) (isDir : Bool) (hq : staging.Adds target n) :
    Leaves (loc ++ [n]) { w with disk := base } ((stageOrClean source staging mode isDir).run w) := by
  have hgrows := stage_grows source mode isDir h.enters hq h.gone h.proper
  rw [stageOrClean, run_bind, Work.run_attempt]
  rcases hstage : (stage source staging mode isDir).run w with ⟨f | u, t⟩ <;> rw [hstage] at hgrows
  · have hway := h.enters.way_of_gone h.gone
    obtain ⟨ht, hway'⟩ := h.enters.sameOff hgrows.disk.toSameOff hway
    obtain ⟨hslot', happroach⟩ := ht.slot hq.route h.slot.admits h.slot.last h.slot.short
    obtain ⟨b, hok, hshrinks, hclean⟩ := DiskM.removeArtifact_of_slot hslot' hq.slash
      (by rwa [happroach, hway'])
    dsimp only
    rw [run_bind, Work.run_attempt, Work.run_onDisk, hok]
    exact ⟨hgrows.now, (hgrows.disk.proper h.proper).shrinks hshrinks,
      (h.sameOff.trans hgrows.disk.toSameOff).trans hshrinks.toSameOff, fun _ _ => hclean, nofun⟩
  · exact ⟨hgrows.now, hgrows.disk.proper h.proper, h.sameOff.trans hgrows.disk.toSameOff, nofun,
      fun _ => stage_there h.enters hq h.gone h.proper hstage⟩

namespace Plan

/-- The name of what is built. -/
def stagingEntry (plan : Plan) : Name := Glyph.ofString (stagingName plan.name)

theorem adds_staging {plan : Plan} (hvalid : IsIdentifier plan.name) :
    plan.staging.Adds plan.target.hub plan.stagingEntry :=
  plan.target.adds_hub (stagingName_proper hvalid)

end Plan

theorem run_build (plan : Plan) (w : World) : (build plan).run w =
    match ((DiskM.createDirAll plan.target).run w.disk).1 with
    | .error e => (.error (.ofIo plan.target e), { w with disk := w.disk.opened plan.target })
    | .ok () => match (DiskM.removeArtifact plan.staging).run (w.disk.opened plan.target) with
      | (.error e, d) => (.error (.ofIo plan.staging e), { w with disk := d })
      | (.ok _, d) =>
        (stageOrClean plan.source plan.staging plan.mode plan.isDir).run { w with disk := d } := by
  rw [build, run_bind, Work.run_orFail, Work.run_onDisk]
  cases ((DiskM.createDirAll plan.target).run w.disk).1 with
  | error e => rfl
  | ok u =>
      dsimp only [Except.mapError]
      rw [run_bind, Work.run_orFail, Work.run_onDisk]
      dsimp only
      unfold opened
      rcases (DiskM.removeArtifact plan.staging).run
        ((DiskM.createDirAll plan.target).run w.disk).2 with ⟨e | b, d⟩
      · rfl
      · rfl

/-- A package directory that was made is there. An empty path stands for the working directory. -/
theorem Disk.enters_hub {d : Disk} (hcwd : target.isEmpty = true → d.look d.cwd = some .dir)
    (hrun : ((DiskM.createDirAll target).run d).1 = .ok ()) :
    ∃ loc, (d.opened target).Enters target.hub loc := by
  cases hempty : target.isEmpty with
  | false =>
      rw [target.hub_of_ne hempty]
      exact isDir_iff.1 ((DiskM.createDirAll_spec _ d).2.2 hrun hempty)
  | true =>
      have hhub : target.hub = .ofName Name.dot := if_pos hempty
      rw [opened_of_isEmpty hempty, hhub]
      have horigin : d.origin (.ofName Name.dot) = d.cwd := rfl
      refine ⟨d.cwd, goal_eq_ok_iff.2 ⟨rfl, by rw [horigin, hcwd hempty], maxLinks, ?_⟩, hcwd hempty⟩
      show (d.look.seek true maxLinks d.cwd [.here]).ending = _
      rw [View.seek_here, View.seek_nil]

/-- A build in a package directory that can be made starts with a free place in it. -/
theorem build_of_slot {plan : Plan} {loc : Location} (hvalid : IsIdentifier plan.name)
    (hproper : w.disk.Proper) (hmade : ((DiskM.createDirAll plan.target).run w.disk).1 = .ok ())
    (he : (w.disk.opened plan.target).Enters plan.target.hub loc)
    (hslot : (w.disk.opened plan.target).Slot plan.staging loc plan.stagingEntry)
    (hway : ∀ l ∈ (w.disk.opened plan.target).way plan.target.hub true, ¬ loc ++ [plan.stagingEntry] <+: l) :
    ∃ d, d = ((DiskM.removeArtifact plan.staging).run (w.disk.opened plan.target)).2 ∧
      Cleared plan.target.hub plan.staging loc plan.stagingEntry (w.disk.opened plan.target) d ∧
      (build plan).run w =
        (stageOrClean plan.source plan.staging plan.mode plan.isDir).run { w with disk := d } := by
  have hq := plan.adds_staging hvalid
  obtain ⟨-, -, happroach⟩ := he.slot_adds hq hslot
  obtain ⟨b, hok, hshrinks, hgone⟩ := DiskM.removeArtifact_of_slot hslot hq.slash (by rwa [happroach])
  obtain ⟨he', -⟩ := he.sameOff hshrinks.toSameOff hway
  obtain ⟨hslot', -⟩ := he'.slot hq.route hslot.admits hslot.last hslot.short
  refine ⟨_, rfl, ⟨he', hslot', hgone, (hproper.opened plan.target).shrinks hshrinks,
    hshrinks.toSameOff⟩, ?_⟩
  rw [run_build, hmade]
  generalize (DiskM.removeArtifact plan.staging).run (w.disk.opened plan.target) = removed at hok
  obtain ⟨answer, d⟩ := removed
  dsimp only at hok
  subst hok
  rfl

section Build

variable {plan : Plan} (hvalid : IsIdentifier plan.name)
  (hcwd : plan.target.isEmpty = true → w.disk.look w.disk.cwd = some .dir) (hproper : w.disk.Proper)
  (hway : ∀ loc, (w.disk.opened plan.target).Enters plan.target.hub loc →
    loc ++ [plan.stagingEntry] ∉ (w.disk.opened plan.target).way plan.target.hub true)
include hvalid hcwd hproper hway

/-- A build stops with the package directory made as far as possible, or it starts with a free place in
the package directory. -/
theorem build_starts :
    (∃ f, (build plan).run w = (.error f, { w with disk := w.disk.opened plan.target })) ∨
    ∃ loc d, (w.disk.opened plan.target).Enters plan.target.hub loc ∧
      Cleared plan.target.hub plan.staging loc plan.stagingEntry (w.disk.opened plan.target) d ∧
      (build plan).run w =
        (stageOrClean plan.source plan.staging plan.mode plan.isDir).run { w with disk := d } := by
  cases hmade : ((DiskM.createDirAll plan.target).run w.disk).1 with
  | error e =>
      rw [run_build, hmade]
      exact .inl ⟨_, rfl⟩
  | ok u =>
      obtain ⟨loc, he⟩ := enters_hub hcwd hmade
      rcases he.slot_or_fault (plan.adds_staging hvalid) with ⟨hslot, -⟩ | ⟨e, hsee, hmissing⟩
      · obtain ⟨d, -, hcleared, hrun⟩ := build_of_slot hvalid hproper hmade he hslot
          fun l hl hpre => hway loc he (prefix_of_way hl hpre)
        exact .inr ⟨loc, d, he, hcleared, hrun⟩
      · rw [run_build, hmade]
        dsimp only
        rw [DiskM.removeArtifact_of_error hsee, hmissing]
        exact .inl ⟨_, rfl⟩

/-- How far a build comes: it stops with the package directory made as far as possible, or it builds in
the package directory. -/
theorem build_cases :
    (∃ f, (build plan).run w = (.error f, { w with disk := w.disk.opened plan.target })) ∨
    ∃ loc, (w.disk.opened plan.target).Enters plan.target.hub loc ∧
      Leaves (loc ++ [plan.stagingEntry]) { w with disk := w.disk.opened plan.target }
        ((build plan).run w) := by
  refine (build_starts hvalid hcwd hproper hway).imp_right ?_
  rintro ⟨loc, d, he, hcleared, hrun⟩
  refine ⟨loc, he, ?_⟩
  rw [hrun]
  exact hcleared.leaves (w := { w with disk := d }) plan.source plan.mode plan.isDir
    (plan.adds_staging hvalid)

end Build

end Sideload
