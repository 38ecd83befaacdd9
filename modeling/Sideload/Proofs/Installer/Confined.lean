import Sideload.Proofs.Disk.Copied
import Sideload.Proofs.Disk.Severed
import Sideload.Proofs.Installer.Settle

/-!
How far a build reaches. Whatever links there are, and wherever the build stops, nothing changes but what
is at or below the staging entry of the package directory. This holds also where the package directory is
reached over its own staging entry: taking that away cuts the way to the directory, and what is built then
comes to lie where the entry was.
-/

namespace Sideload

open Disk

variable {base d d' : Disk} {dir target source staging p : Path} {loc parent place l : Location}
  {n m : Name} {w : World} {mode : Mode} {isDir : Bool}

/-- The directory of a name that is joined to a path is where the path leads. -/
theorem Disk.Slot.enters_hub (h : d.Slot (target.join (.ofName m)) parent m) (hm : m.Proper) :
    d.Enters target.hub parent := by
  cases hempty : target.isEmpty with
  | false =>
      rw [target.hub_of_ne hempty]
      exact h.enters_dir (target.components_join hm) (admit?_of_join hempty hm h.admits)
  | true =>
      obtain rfl : target = .empty := congrArg Path.mk (List.isEmpty_iff.1 hempty)
      have hhub : Path.empty.hub = .ofName Name.dot := rfl
      have horigin : d.origin (Path.empty.join (.ofName m)) = d.cwd := by
        rw [origin, Path.isAbsolute_join _ hm]
        rfl
      have hbegins := h.begins
      rw [horigin] at hbegins
      obtain ⟨loc, he⟩ : ∃ loc, d.Enters Path.empty.hub loc := by
        have hrun : ((DiskM.createDirAll Path.empty).run d).1 = .ok () := rfl
        exact enters_hub (fun _ => hbegins) hrun
      obtain ⟨rfl, -, -⟩ := he.slot_adds (Path.empty.adds_hub hm) h
      exact he

/-! ### Where nothing can be made -/

/-- A file is written in a directory that is there. -/
theorem Disk.exists_slot_of_openFile {change : Option (ByteArray × Bool) → ByteArray × Bool}
    (hlast : p.segments.getLast? = some (.name n)) (h : d.openFile p change = .ok d') :
    ∃ parent, d.Slot p parent n := by
  obtain ⟨g, old, hgoal, -, hslash, -⟩ := openFile_ok h
  exact exists_slot_of_goal hlast hslash hgoal

/-- A file is not built where there is no directory for it. -/
theorem stage_blocked (hlast : staging.segments.getLast? = some (.name n))
    (hno : ∀ parent, ¬ w.disk.Slot staging parent n) (hleaf : mode = .copy → isDir = false) :
    ∃ f, (stage source staging mode isDir).run w = (.error f, w) := by
  have hopen : ∀ {change d}, w.disk.openFile staging change ≠ .ok d := by
    intro change d hd
    obtain ⟨parent, hslot⟩ := exists_slot_of_openFile hlast hd
    exact hno parent hslot
  have hfails : ∀ (f : Disk → Except IoError Disk) (k : Unit → Work Failure Unit) (g : IoError → Failure),
      (∀ d, f w.disk ≠ .ok d) → ∃ f', ((Work.change f).orFail g >>= k).run w = (.error f', w) := by
    intro f k g hf
    rw [run_bind, Work.run_change_orFail]
    cases hd : f w.disk with
    | error e => exact ⟨_, rfl⟩
    | ok d => exact absurd hd (hf d)
  match mode, isDir with
  | .copy, true => exact absurd (hleaf rfl) (by simp)
  | .copy, false =>
      refine hfails (·.copyFile source staging) _ _ fun d hd => ?_
      unfold copyFile at hd
      simp only [bind, Except.bind] at hd
      split at hd
      · cases hd
      · split at hd
        · split at hd
          · cases hd
          · next empty hempty => exact hopen hempty
        · cases hd
  | .editable, _ =>
      unfold stage
      cases source.parent? with
      | none => exact ⟨_, rfl⟩
      | some parent =>
          refine hfails (·.writeText staging s!"{parent.display}\n") _ _ fun d hd => ?_
          unfold writeText write at hd
          exact hopen hd

/-- Where a path does not start from a directory, no directory is made. -/
theorem Disk.opened_nowhere (h : d.look (d.origin p) ≠ some .dir) (hne : p.isEmpty = false) :
    d.opened p = d ∧ ∃ e, ((DiskM.createDirAll p).run d).1 = .error e := by
  have hopened : d.opened p = d := by
    refine @DiskM.createDirAll_keeps (· = d) p (fun q hq d₁ d₂ hd hm => ?_) d rfl
    subst hd
    obtain ⟨parent, k, hslot, -⟩ := makeDir_ok hm
    have horigin : d₁.origin q = d₁.origin p := by
      rw [origin, origin, Path.isAbsolute_of_initial hslot.isEmpty (Path.components_of_mem_ancestors hq)]
    exact absurd (horigin ▸ hslot.begins) h
  refine ⟨hopened, ?_⟩
  cases hrun : ((DiskM.createDirAll p).run d).1 with
  | error e => exact ⟨e, rfl⟩
  | ok u =>
      obtain ⟨loc, he⟩ := isDir_iff.1 ((DiskM.createDirAll_spec p d).2.2 hrun hne)
      rw [show ((DiskM.createDirAll p).run d).2 = d from hopened] at he
      obtain ⟨-, hbegins, -⟩ := goal_eq_ok_iff.1 he.goal
      exact absurd hbegins h

/-- A build that fails takes away what is at the staging path. -/
theorem stageOrClean_error {f : Failure} {t : World}
    (h : (stage source staging mode isDir).run w = (.error f, t)) :
    ((stageOrClean source staging mode isDir).run w).1 = .error f ∧
      ((stageOrClean source staging mode isDir).run w).2.disk =
        ((DiskM.removeArtifact staging).run t.disk).2 := by
  rw [stageOrClean, run_bind, Work.run_attempt, h]
  dsimp only
  rw [run_bind, Work.run_attempt, Work.run_onDisk]
  rcases (DiskM.removeArtifact staging).run t.disk with ⟨e | b, d⟩
  · exact ⟨rfl, rfl⟩
  · exact ⟨rfl, rfl⟩

/-! ### Confined changes -/

/-- Nothing differs from `base` but what is at or below the entry `n` of the directory `loc`. The path of
the directory leads to where it led, or to something in that entry, or nowhere. -/
structure Confined (dir : Path) (loc : Location) (n : Name) (base d : Disk) : Prop where
  proper : d.Proper
  sameOff : SameOff (loc ++ [n]) base d
  enters : ∀ l, d.Enters dir l → l = loc ∨ loc ++ [n] <+: l

namespace Confined

/-- An entry of a directory that is not reached over it may change. -/
theorem of_way (he : base.Enters dir loc) (hway : ∀ l ∈ base.way dir true, ¬ loc ++ [n] <+: l)
    (hproper : d.Proper) (hoff : SameOff (loc ++ [n]) base d) : Confined dir loc n base d :=
  ⟨hproper, hoff, fun _ hl => .inl ((he.sameOff hoff hway).1.unique hl)⟩

theorem shrinks (h : Confined dir loc n base d) (hs : Shrinks place d d')
    (hplace : loc ++ [n] <+: place) : Confined dir loc n base d' := by
  refine ⟨h.proper.shrinks hs, h.sameOff.trans (hs.toSameOff.mono hplace), fun l hl => h.enters l ?_⟩
  exact (hl.congr hs.cwd.symm fun k hk => hs.look_of_ne_none (hl.look_ne_none hk)).1

/-- A name of the directory is an entry of the directory where it was, or it lies in the entry. -/
theorem slot (h : Confined target.hub loc n base d)
    (hslot : d.Slot (target.join (.ofName m)) parent m) :
    parent = loc ∨ loc ++ [n] <+: parent :=
  h.enters parent (hslot.enters_hub hslot.proper)

/-- Removing what is at the path of the entry. -/
theorem removeArtifact (h : Confined target.hub loc n base d) (hn : n.Proper) :
    Confined target.hub loc n base
      ((DiskM.removeArtifact (target.join (.ofName n))).run d).2 := by
  rcases DiskM.removeArtifact_cases (target.join (.ofName n)) d with ⟨place, hgoal⟩ | ⟨e, -, hrun⟩
  · obtain ⟨hshrinks, -, -⟩ := DiskM.removeArtifact_spec hgoal
    refine h.shrinks hshrinks ?_
    obtain ⟨parent, hslot⟩ := exists_slot_of_goal (target.last_join hn) (target.endsInSlash_join hn) hgoal
    have hplace : place = parent ++ [n] := by
      rw [hslot.goal (target.endsInSlash_join hn) (.inl rfl)] at hgoal
      split at hgoal
      · cases hgoal
      · cases hgoal
        rfl
    rw [hplace]
    rcases h.slot hslot with rfl | hbelow
    · exact List.prefix_refl _
    · exact hbelow.trans (List.prefix_append _ _)
  · rw [hrun]
    exact h

end Confined

/-! ### Building where the way was cut -/

/-- What is built after the staging entry was taken away, if the way to the directory led over it. -/
theorem Disk.Severed.stage (h : Severed target loc n base w.disk) (hup : .up ∉ target.components)
    (hq : staging.Adds target n) (hcomponents : staging.components = target.components ++ [.name n])
    (hproper : w.disk.Proper) :
    Confined target loc n base ((stage source staging mode isDir).run w).2.disk := by
  have hmade := h.regrown_opened hup hcomponents
  have hconfined : ∀ {d}, d.Proper → Regrown target (loc ++ [n]) w.disk d → Confined target loc n base d :=
    fun hd hr => ⟨hd, h.sameOff_of_regrown hr, fun l hl => .inr (h.below_of_enters hup hr hl)⟩
  by_cases htree : mode = .copy ∧ isDir = true
  · obtain ⟨rfl, rfl⟩ := htree
    cases hrun : ((DiskM.createDirAll staging).run w.disk).1 with
    | error e =>
        rw [Sideload.stage, run_bind, Work.run_orFail, copyTree_unmade source hrun]
        exact hconfined (hproper.opened staging) hmade
    | ok u =>
        -- the directories are there again, so the package grows in them
        obtain ⟨tl, hdir, hentry⟩ := h.within_entry hup hcomponents hq hmade
          ((DiskM.createDirAll_spec _ _).2.2 hrun hq.isEmpty)
        have hlinks := h.noLinks hmade
        have hcopied := copyTree_within source hrun hentry hlinks hproper
        have hgrows := stage_tree_grows hcopied (fun count t ht => hentry.grows (by rw [ht] at hcopied; exact hcopied.disk))
          hlinks
        have hin := hdir.grows hgrows.disk
        refine ⟨hgrows.disk.proper (hproper.opened staging),
          (h.sameOff_of_regrown hmade).trans hgrows.disk.toSameOff, fun l hl => .inr ?_⟩
        rw [hin.enters.unique hl]
        exact hin.below
  · obtain ⟨f, hsame⟩ : ∃ f, (Sideload.stage source staging mode isDir).run w = (.error f, w) := by
      refine stage_blocked hq.last (fun parent hslot => ?_) fun hmode => ?_
      · obtain ⟨hadmits, -⟩ := goal_eq_ok_iff.1 h.enters.goal
        have he := hslot.enters_dir hcomponents hadmits
        have hbelow := h.below_of_enters hup h.regrown he
        cases he.dir.symm.trans (h.gone _ hbelow)
      · cases isDir with
        | true => exact absurd ⟨hmode, rfl⟩ htree
        | false => rfl
    rw [hsame]
    exact hconfined hproper h.regrown

/-! ### Builds -/

theorem stageOrClean_confined (hn : n.Proper)
    (h : Confined target.hub loc n base
      ((stage source (target.join (.ofName n)) mode isDir).run w).2.disk) :
    Confined target.hub loc n base
      ((stageOrClean source (target.join (.ofName n)) mode isDir).run w).2.disk := by
  rcases hstage : (stage source (target.join (.ofName n)) mode isDir).run w with ⟨f | u, t⟩ <;>
    rw [hstage] at h
  · rw [(stageOrClean_error hstage).2]
    exact h.removeArtifact hn
  · have hrun : (stageOrClean source (target.join (.ofName n)) mode isDir).run w = (.ok u, t) := by
      rw [stageOrClean, run_bind, Work.run_attempt, hstage]
      rfl
    rw [hrun]
    exact h

variable {plan : Plan}

/-- What a build does: it stops with the package directory made as far as possible, or everything it
changes is in the staging entry. -/
def Builds (plan : Plan) (w : World) (run : Except Failure Unit × World) : Prop :=
  (∃ f, run.1 = .error f ∧ run.2.disk = w.disk.opened plan.target) ∨
    ∃ loc, (w.disk.opened plan.target).Enters plan.target.hub loc ∧
      Confined plan.target.hub loc plan.stagingEntry (w.disk.opened plan.target) run.2.disk

/-- An empty path that stands for no directory is nothing to build in. -/
theorem build_nowhere (hvalid : IsIdentifier plan.name) (hempty : plan.target.isEmpty = true)
    (hcwd : w.disk.look w.disk.cwd ≠ some .dir) : Builds plan w ((build plan).run w) := by
  have hq := plan.adds_staging hvalid
  have hopened := opened_of_isEmpty hempty w.disk
  have hbegins : w.disk.look (w.disk.origin plan.staging) ≠ some .dir := by
    rw [origin, hq.route.absolute, Path.hub, if_pos hempty]
    exact hcwd
  have hnowhere : ∀ place, w.disk.goal plan.staging false ≠ .ok (.present place) := fun place hgoal =>
    hbegins (goal_eq_ok_iff.1 hgoal).2.1
  have hremove : ((DiskM.removeArtifact plan.staging).run w.disk).2 = w.disk := by
    rcases DiskM.removeArtifact_cases plan.staging w.disk with ⟨place, hgoal⟩ | ⟨e, -, hrun⟩
    · exact absurd hgoal (hnowhere place)
    · rw [hrun]
  obtain ⟨hunmade, e, hfails⟩ := opened_nowhere hbegins hq.isEmpty
  obtain ⟨f, t, hstage, ht⟩ : ∃ f t,
      (stage plan.source plan.staging plan.mode plan.isDir).run w = (.error f, t) ∧ t.disk = w.disk := by
    by_cases htree : plan.mode = .copy ∧ plan.isDir = true
    · rw [htree.1, htree.2, stage, run_bind, Work.run_orFail, copyTree_unmade _ hfails]
      exact ⟨_, _, rfl, hunmade⟩
    · have hblocked : ∃ f, (stage plan.source plan.staging plan.mode plan.isDir).run w = (.error f, w) :=
        stage_blocked hq.last (fun parent hslot => hbegins hslot.begins)
          fun hmode => Bool.eq_false_iff.2 fun hdir => htree ⟨hmode, hdir⟩
      obtain ⟨f, hrun⟩ := hblocked
      exact ⟨f, w, hrun, rfl⟩
  left
  rw [run_build, hopened]
  cases ((DiskM.createDirAll plan.target).run w.disk).1 with
  | error e => exact ⟨_, rfl, rfl⟩
  | ok u =>
      dsimp only
      rcases hrun : (DiskM.removeArtifact plan.staging).run w.disk with ⟨e | b, d⟩ <;>
        rw [hrun] at hremove <;> dsimp only at hremove ⊢ <;> subst hremove
      · exact ⟨_, rfl, rfl⟩
      · obtain ⟨hanswer, hdisk⟩ := stageOrClean_error hstage
        exact ⟨f, hanswer, by rw [hdisk, ht, hrun]⟩

/-- The path of a directory has no `..`, or the directory is there and is not reached over its entry `n`. -/
def Straight (d : Disk) (target : Path) (n : Name) : Prop :=
  .up ∉ target.components ∨
    ∃ loc, d.Enters target.hub loc ∧ loc ++ [n] ∉ d.way target.hub true

/-- The path of a directory has no `..`, or once the directory is made it is not reached over its entry
`n`. -/
def Direct (d : Disk) (target : Path) (n : Name) : Prop :=
  .up ∉ target.components ∨ ∀ loc, (d.opened target).Enters target.hub loc →
    loc ++ [n] ∉ (d.opened target).way target.hub true

theorem Straight.direct (h : Straight d target n) : Direct d target n := by
  refine h.imp_right ?_
  rintro ⟨loc, he, hnot⟩ loc' he'
  obtain ⟨hopened, hsame⟩ := (opens_opened d target).enters he
  obtain rfl := hopened.unique he'
  rwa [hsame]

/-- A directory that is reached over its own entry is no entry of the working directory. -/
theorem Disk.Enters.not_isEmpty (he : d.Enters target.hub loc)
    (hway : loc ++ [n] ∈ d.way target.hub true) : target.isEmpty = false := by
  rw [Bool.eq_false_iff]
  intro hempty
  have hhub : target.hub = .ofName Name.dot := if_pos hempty
  rw [hhub] at he hway
  have htrip : d.trip (.ofName Name.dot) true = ⟨[], .ok (maxLinks, .present d.cwd)⟩ := by
    show d.look.seek true maxLinks d.cwd [.here] = _
    rw [View.seek_here, View.seek_nil]
  obtain ⟨-, -, links, hend⟩ := goal_eq_ok_iff.1 he.goal
  rw [htrip] at hend
  cases hend
  rw [way, htrip, List.append_nil] at hway
  have hlen := ((List.mem_inits _ _).1 hway).length_le
  rw [List.length_append, List.length_singleton] at hlen
  exact absurd hlen (Nat.not_succ_le_self _)

/-- A build that has to take away the entry over which its package directory is reached. -/
theorem build_severs (hvalid : IsIdentifier plan.name) (hproper : w.disk.Proper)
    (hup : .up ∉ plan.target.components) (he : (w.disk.opened plan.target).Enters plan.target.hub loc)
    (hway : loc ++ [plan.stagingEntry] ∈ (w.disk.opened plan.target).way plan.target.hub true) :
    Builds plan w ((build plan).run w) := by
  have hq := plan.adds_staging hvalid
  have hname := stagingName_proper hvalid
  have hhub := plan.target.hub_of_ne (he.not_isEmpty hway)
  have hthere := he.look_ne_none hway
  have hopened := hproper.opened plan.target
  rw [run_build]
  cases ((DiskM.createDirAll plan.target).run w.disk).1 with
  | error e => exact .inl ⟨_, rfl, rfl⟩
  | ok u =>
      dsimp only
      rcases he.slot_or_fault hq with ⟨hslot, -⟩ | ⟨e, hsee, hmissing⟩
      · right
        refine ⟨loc, he, ?_⟩
        generalize w.disk.opened plan.target = base at he hway hthere hopened hslot ⊢
        have hgoal := hslot.goal hq.slash (.inl rfl)
        rw [if_neg hthere] at hgoal
        have hstart : Confined plan.target.hub loc plan.stagingEntry base base :=
          ⟨hopened, .refl _ _, fun _ hl => .inl (he.unique hl)⟩
        obtain ⟨hshrinks, hfound, hgone⟩ := DiskM.removeArtifact_spec hgoal
        have hconfined := hstart.shrinks hshrinks (List.prefix_refl _)
        generalize (DiskM.removeArtifact plan.staging).run base = removed at hshrinks hfound hgone hconfined ⊢
        match removed with
        | (.error e, d) => exact hconfined
        | (.ok false, d) => exact absurd rfl hfound
        | (.ok true, d) =>
            have hsevered : Severed plan.target.hub loc plan.stagingEntry base d :=
              ⟨he, hway, hshrinks.toSameOff, hgone rfl⟩
            refine @stageOrClean_confined _ plan.target _ _ _ { w with disk := d } _ _ hname ?_
            rw [hhub] at hsevered hq ⊢
            exact @Severed.stage _ _ _ _ _ _ { w with disk := d } _ _ hsevered hup hq
              (plan.target.components_join hname) hconfined.proper
      · rw [DiskM.removeArtifact_of_error hsee, hmissing]
        exact .inl ⟨_, rfl, rfl⟩

/-- Every build is confined to the staging entry of its package directory. -/
theorem build_confined (hvalid : IsIdentifier plan.name) (hproper : w.disk.Proper)
    (hs : Direct w.disk plan.target plan.stagingEntry) : Builds plan w ((build plan).run w) := by
  by_cases hcwd : plan.target.isEmpty = true ∧ w.disk.look w.disk.cwd ≠ some .dir
  · exact build_nowhere hvalid hcwd.1 hcwd.2
  have hbegins : plan.target.isEmpty = true → w.disk.look w.disk.cwd = some .dir := fun hempty => by
    by_contra hnot
    exact hcwd ⟨hempty, hnot⟩
  by_cases hway : ∃ loc, (w.disk.opened plan.target).Enters plan.target.hub loc ∧
      loc ++ [plan.stagingEntry] ∈ (w.disk.opened plan.target).way plan.target.hub true
  · obtain ⟨loc, he, hmem⟩ := hway
    exact build_severs hvalid hproper (hs.resolve_right fun hnot => hnot loc he hmem) he hmem
  · have haside : ∀ loc, (w.disk.opened plan.target).Enters plan.target.hub loc →
        loc ++ [plan.stagingEntry] ∉ (w.disk.opened plan.target).way plan.target.hub true :=
      fun loc he hmem => hway ⟨loc, he, hmem⟩
    rcases build_cases hvalid hbegins hproper haside with ⟨f, hrun⟩ | ⟨loc, he, hleaves⟩
    · exact .inl ⟨f, by rw [hrun], by rw [hrun]⟩
    · exact .inr ⟨loc, he, .of_way he (fun l hl hpre => haside loc he (prefix_of_way hl hpre))
        hleaves.proper hleaves.sameOff⟩

/-! ### Settling -/

section Settle

variable {start : Disk} {name? : Option String} {prior : Option Entry}

/-- Settling what was built changes nothing but the staging entry, the new artifact and what was at the
path of the replaced artifact. -/
theorem Confined.settle_off
    (h : Confined plan.target.hub loc plan.stagingEntry (start.opened plan.target) w.disk)
    (hplan : Planned start target source mode name? prior plan)
    (hstaging : ¬ loc ++ [plan.stagingEntry] <+: l)
    (hdest : w.disk.Slot plan.dest loc plan.artifactEntry → (plan.clear w.disk).1 = .ok () →
      ¬ loc ++ [plan.artifactEntry] <+: l) :
    ((settle plan).run w).2.disk.look l = (plan.clear w.disk).2.look l := by
  obtain ⟨-, ⟨f, -, hdisk, -⟩ | ⟨-, hclear, hr⟩⟩ := settle_cases plan w
  · rw [hdisk]
  · obtain ⟨parent, n, parent', m, hsrc, hdst, -, -, -, hcases⟩ := rename_ok hr
    rcases hcases with ⟨-, hsame⟩ | ⟨-, -, -, hmoved⟩
    · rw [hsame]
    have hjoin := hplan.dest_eq_join
    rw [← hplan.target_eq] at hjoin
    obtain rfl : n = plan.stagingEntry := by
      have := hsrc.last.symm.trans (plan.adds_staging hplan.valid).last
      simpa using this
    obtain rfl : m = plan.artifactEntry := by
      have := hdst.last.symm.trans hplan.adds_dest.last
      simpa using this
    obtain ⟨hsrc', -⟩ := plan.slot_of_clear hsrc
    obtain ⟨hdst', -⟩ := plan.slot_of_clear hdst
    have hold : ¬ parent ++ [plan.stagingEntry] <+: l := by
      intro hpre
      rcases h.slot hsrc' with rfl | hbelow
      · exact hstaging hpre
      · exact hstaging ((hbelow.trans (List.prefix_append _ _)).trans hpre)
    have hnew : ¬ parent' ++ [plan.artifactEntry] <+: l := by
      intro hpre
      rcases h.slot (hjoin ▸ hdst') with rfl | hbelow
      · exact hdest hdst' hclear hpre
      · exact hstaging ((hbelow.trans (List.prefix_append _ _)).trans hpre)
    rw [hmoved, moved, if_neg hnew, if_neg hold]

/-- Removing the replaced artifact leaves what is not at or below its place. -/
theorem Plan.look_clear (plan : Plan) {d : Disk}
    (h : ∀ old place, plan.prior = some old → d.goal old.artifact false = .ok (.present place) →
      ¬ place <+: l) : (plan.clear d).2.look l = d.look l := by
  rcases plan.clear_cases d with hsame | ⟨old, place, hold, hgoal, hshrinks, -⟩
  · rw [hsame]
  · exact hshrinks.look l (h old place hold hgoal)

/-- So it leaves what was there and is not replaced: nothing was at the place of the new artifact, but the
replaced one. -/
theorem Confined.settle
    (h : Confined plan.target.hub loc plan.stagingEntry (start.opened plan.target) w.disk)
    (hplan : Planned start target source mode name? prior plan)
    (he : (start.opened plan.target).Enters plan.target.hub loc)
    (hs : Straight start plan.target plan.stagingEntry)
    (hname : ∀ old, plan.prior = some old → old.artifact.EndsInName) (hl : start.look l ≠ none)
    (hstaging : ¬ loc ++ [plan.stagingEntry] <+: l)
    (hprior : ∀ old place, plan.prior = some old →
      w.disk.goal old.artifact false = .ok (.present place) → ¬ place <+: l) :
    ((settle plan).run w).2.disk.look l = start.look l := by
  have hopened := (opens_opened start plan.target).look_of_ne_none hl
  have hbuilt : w.disk.look l = start.look l := (h.sameOff.look l hstaging).trans hopened
  rw [h.settle_off hplan hstaging ?_, plan.look_clear hprior, hbuilt]
  intro hdst hclear hpre
  -- the plan has found the place free, or it knew the artifact that is there
  have hthere : w.disk.look (loc ++ [plan.artifactEntry]) ≠ none :=
    look_ne_none_above (hbuilt ▸ hl) hpre
  have hnot : ¬ loc ++ [plan.stagingEntry] <+: loc ++ [plan.artifactEntry] := by
    rw [List.prefix_append_right_inj, List.cons_prefix_cons]
    exact fun heq => hplan.artifactEntry_ne heq.1.symm
  have hup : start.isDir target.hub = false → .up ∉ target.components := by
    intro hno
    rw [← hplan.target_eq] at hno ⊢
    refine hs.resolve_right ?_
    rintro ⟨place, hplace, -⟩
    rw [isDir_iff.2 ⟨place, hplace⟩] at hno
    cases hno
  have hjoin := hplan.dest_eq_join
  rw [hplan.target_eq] at he
  rcases hplan.free_or_recorded hplan.dest_mem (hplan.target_eq ▸ hplan.adds_dest) hup he hdst.admits
    hdst.short with hfree | hrecorded
  · rw [h.sameOff.look _ hnot, hplan.target_eq, hfree] at hthere
    exact hthere rfl
  · rw [← hplan.prior_eq, Option.any_eq_true] at hrecorded
    obtain ⟨old, hold, hsame⟩ := hrecorded
    exact hprior old _ hold
      (plan.goal_of_clear hold hclear (hname old hold) hjoin hsame hdst hthere) hpre

end Settle

end Sideload
