import Sideload.Proofs.Disk.Canonical
import Sideload.Proofs.Disk.Inside
import Sideload.Proofs.Installer.Kept
import Sideload.Proofs.Installer.Result
import Sideload.Proofs.Installer.Stable

/-!
Package directories inside the source. A directory is copied into a package directory that lies in it. If
the path of the package directory goes on from the canonical path of the source, the package directory is
left out of the copy, so nothing that was installed there is copied, and what is installed again and again
stays the same.
-/

namespace Sideload

open Disk

variable {d d' : Disk} {target : Path} {name : String} {s : Location} {names : List Name} {w : World}

/-! ### Where the package directory is -/

/-- The paths and names of a copy into a package directory are not too long. -/
structure Fits (target : Path) (name : String) (s : Location) (names : List Name) : Prop where
  source : admit? (pathOf s) = .ok ()
  dest : admit? (target.child name) = .ok ()
  marker : admit? ((stagingPath target name).child packageMarker) = .ok ()
  short : ∀ n ∈ s ++ names, ¬ n.byteSize > maxName
  artifact : ¬ Name.byteSize (Glyph.ofString name) > maxName
  staging : ¬ Name.byteSize (Glyph.ofString (stagingName name)) > maxName

/-- A package directory inside a source: its path goes on from the canonical path of the source, no path of
the source that is not left out leads over it, and no link stops the copy. -/
structure Nested (d : Disk) (target : Path) (name : String) (s : Location) (names : List Name) : Prop where
  proper : d.Proper
  distinct : d.Distinct
  valid : IsIdentifier name
  below : names ≠ []
  there : d.look (s ++ names) = some .dir
  spelled : target.components = (pathOf s).components ++ names.map .name
  clear : Clear (s ++ names) d (stagingPath target name) (pathOf s)
  sound : ∀ f e, ¬ d.Fault (stagingPath target name) (pathOf s) f e
  room : d.Room (stagingPath target name) (pathOf s)
  fits : Fits target name s names

namespace Nested

variable (h : Nested d target name s names)
include h

theorem proper_place : Location.Proper (s ++ names) := h.proper.look _ (by rw [h.there]; simp)

theorem proper_source : s.Proper := h.proper_place.initial (List.prefix_append _ _)

theorem proper_names : Location.Proper names := fun n hn => h.proper_place n (List.mem_append_right _ hn)

theorem components_target : target.components = .root :: (s ++ names).map .name := by
  rw [h.spelled, components_pathOf h.proper_source]
  simp

theorem absolute : target.isAbsolute = true := by
  rw [Path.isAbsolute_iff, h.components_target]
  rfl

theorem nonempty : target.isEmpty = false := Path.isEmpty_of_isAbsolute h.absolute

theorem up_not_mem : .up ∉ target.components := by
  rw [h.components_target]
  simp

theorem adds_staging : (stagingPath target name).Adds target (Glyph.ofString (stagingName name)) :=
  target.adds_join (stagingName_proper h.valid)

theorem proper_artifact : Name.Proper (Glyph.ofString name) := artifactName_proper h.valid target .copy true

theorem admits_staging : admit? (stagingPath target name) = .ok () :=
  admit?_of_join (h.adds_staging.isEmpty) packageMarker_proper h.fits.marker

/-- The path of the package directory goes straight down to it. -/
theorem enters : d.Enters target (s ++ names) ∧ ∀ l ∈ d.way target true, l <+: s ++ names :=
  enters_straight h.components_target (admit?_of_join h.nonempty h.proper_artifact h.fits.dest)
    h.fits.short h.there

theorem way_apart (n : Name) : ∀ l ∈ d.way target true, ¬ s ++ names ++ [n] <+: l := fun l hl hpre => by
  have hlength := (hpre.trans (h.enters.2 l hl)).length_le
  rw [List.length_append, List.length_singleton] at hlength
  omega

theorem enters_source : d.Enters (pathOf s) s :=
  (enters_straight (components_pathOf h.proper_source) h.fits.source
    (fun n hn => h.fits.short n (List.mem_append_left _ hn))
    (look_eq_dir_above h.there (List.prefix_append _ _))).1

theorem exists_parent : ∃ q, (stagingPath target name).parent? = some q ∧ q.components = target.components := by
  obtain ⟨front, m, hfront⟩ := (List.eq_nil_or_concat' (s ++ names)).resolve_left
    (by simp [h.below])
  have hcourse : (stagingPath target name).course = front.map .name ++ [.name m] ++
      [.name (Glyph.ofString (stagingName name))] := by
    rw [h.adds_staging.route.course, Path.course_of_names h.components_target, hfront]
    simp
  obtain ⟨q, hparent, -⟩ := Path.parent_of_course hcourse
  exact ⟨q, hparent, Path.parent_sameAs target (stagingName_proper h.valid) hparent⟩

/-- What is left out of the copy is the package directory, and the copy in it. -/
theorem leftOut_iff {rel : Location} (hrel : rel.Proper) :
    LeftOut (stagingPath target name) (pathOf s) rel = true ↔
      rel = names ∨ rel = names ++ [Glyph.ofString (stagingName name)] := by
  have hinj : ∀ {a b : Location}, (pathOf s).components ++ a.map .name = (pathOf s).components ++ b.map .name ↔
      a = b := fun {a b} => by
    rw [List.append_cancel_left_eq, (List.map_injective_iff.2 fun m n heq => by cases heq; rfl).eq_iff]
  obtain ⟨q, hparent, hq⟩ := h.exists_parent
  have hdst : (stagingPath target name).components =
      (pathOf s).components ++ (names ++ [Glyph.ofString (stagingName name)]).map .name := by
    rw [stagingPath_eq, Path.child_eq, Path.components_join _ (stagingName_proper h.valid), h.spelled]
    simp
  rw [LeftOut, Bool.or_eq_true, Path.sameAs_iff, hparent, Option.any_some, Path.sameAs_iff,
    Path.components_joins _ hrel, hdst, hq, h.spelled, hinj, hinj, or_comm]

/-- Nothing in the package directory is to be copied. -/
theorem mirror_names (base : Disk) (rest : Location) :
    base.mirror (stagingPath target name) (pathOf s) (names ++ rest) = none := by
  refine mirror_of_not_kept fun hkept => ?_
  have hout := hkept names h.below (List.prefix_append _ _)
  rw [(h.leftOut_iff h.proper_names).2 (.inl rfl)] at hout
  cases hout

/-! ### Changes in the package directory -/

/-- What happens in the package directory does not change what there is to be copied. -/
theorem alike (hoff : SameOff (s ++ names) d d') (hthere : d'.look (s ++ names) = some .dir) :
    Alike (stagingPath target name) (pathOf s) d d' := by
  refine ⟨hoff.cwd, fun rel hrel hkept l hl => hoff.look l (h.clear rel hrel hkept l hl),
    fun rel here hrel hkept he n => ?_, fun rel here n link hrel hkept he hlink => ?_⟩
  · by_cases hpre : s ++ names <+: here ++ [n]
    · rcases List.prefix_concat_iff.1 hpre with heq | hpre
      · rw [← heq, hthere, h.there]
      · exact absurd hpre (h.clear rel hrel hkept here (he.mem_way (List.prefix_refl _)))
    · exact hoff.look _ hpre
  · have hn : n.Proper := h.proper.look (here ++ [n]) (by rw [hlink]; simp) n (by simp)
    rw [Bool.eq_false_iff]
    intro hout
    rcases (h.leftOut_iff (hrel.concat hn)).1 hout with heq | heq
    · -- the package directory is no link
      have hfront : s ++ rel <+: s ++ names := by
        rw [← heq, ← List.append_assoc]
        exact List.prefix_append _ _
      have hcomponents : ((pathOf s).joins rel).components = .root :: (s ++ rel).map .name := by
        rw [Path.components_joins _ hrel, components_pathOf h.proper_source]
        simp
      have hstraight := (enters_straight hcomponents (goal_eq_ok_iff.1 he.goal).1
        (fun m hm => h.fits.short m (hfront.subset hm)) (look_eq_dir_above h.there hfront)).1
      have hhere : here = s ++ rel := hstraight.unique he
      rw [hhere, List.append_assoc, heq, h.there] at hlink
      cases hlink
    · obtain ⟨rfl, -⟩ := List.append_inj' heq rfl
      cases (hkept rel h.below (List.prefix_refl _)).symm.trans ((h.leftOut_iff hrel).2 (.inl rfl))

/-- The package directory stays inside the source whatever happens in it. -/
theorem keeps (hoff : SameOff (s ++ names) d d') (hthere : d'.look (s ++ names) = some .dir)
    (hproper : d'.Proper) (hdistinct : d'.Distinct) : Nested d' target name s names := by
  have halike := (h.alike hoff hthere).symm
  exact ⟨hproper, hdistinct, h.valid, h.below, hthere, h.spelled, h.clear.sameOff hoff,
    fun f e hfault => h.sound f e (halike.fault hproper hfault),
    fun rel n label hmeets => h.room rel n label (halike.meets hproper hmeets), h.fits⟩

end Nested

/-! ### Building -/

/-- A directory has a marker, or it can be given one. -/
theorem exists_marked {dir : Path} {top : Location} (h : d.Enters dir top) (hlinks : NoLinks top d)
    (hadmits : admit? (dir.child packageMarker) = .ok ()) :
    d.exists_ (dir.child packageMarker) = true ∨
      d.exists_ (dir.child packageMarker) = false ∧ ∃ d', d.write (dir.child packageMarker) .empty = .ok d' := by
  have hq : (dir.child packageMarker).Adds dir markerName := dir.adds_join packageMarker_proper
  have hslot := (h.slot hq.route hadmits hq.last (by decide)).1
  cases hthere : d.exists_ (dir.child packageMarker) with
  | true => exact .inl rfl
  | false =>
      refine .inr ⟨rfl, hslot.openFile_isOk hq.slash (.inl ?_) _⟩
      by_contra hne
      rw [(exists_adds hslot hq (hlinks _ (List.prefix_append _ _))).2 hne] at hthere
      cases hthere

/-- A directory that can be copied and marked is built. -/
theorem stage_isOk {source staging : Path} {count : Nat} {t : World}
    (hcopy : (copyTree source staging).run w = (.ok count, t))
    (hmarked : t.disk.exists_ (staging.child packageMarker) = true ∨
      t.disk.exists_ (staging.child packageMarker) = false ∧
        ∃ d', t.disk.write (staging.child packageMarker) .empty = .ok d') :
    ∃ w', (stage source staging .copy true).run w = (.ok (), w') := by
  have hcopied : ((copyTree source staging).orFail (Failure.ofIo staging)).run w = (.ok count, t) := by
    rw [Work.run_orFail, hcopy]
    rfl
  unfold stage
  rw [run_bind_of_ok hcopied, run_bind_of_ok (Work.run_disk t)]
  dsimp only
  rcases hmarked with hthere | ⟨hnot, d', hwrite⟩
  · rw [hthere]
    exact ⟨_, rfl⟩
  · rw [hnot]
    dsimp only
    have hwritten : ((Work.change (·.write (staging.child packageMarker) .empty)).orFail
        (Failure.ofIo (staging.child packageMarker))).run t = (.ok (), { t with disk := d' }) := by
      rw [Work.run_change_orFail, hwrite]
    rw [run_bind_of_ok hwritten]
    exact ⟨_, rfl⟩

namespace Nested

/-- What is built in a package directory inside the source. -/
theorem builds {base : Disk} (h : Nested base target name s names)
    (hcleared : Cleared target (stagingPath target name) (s ++ names) (Glyph.ofString (stagingName name)) base
      w.disk) (hdistinct : w.disk.Distinct) :
    ∃ w', (stage (pathOf s) (stagingPath target name) .copy true).run w = (.ok (), w') ∧
      Holds (s ++ names ++ [Glyph.ofString (stagingName name)])
        (packaged (base.mirror (stagingPath target name) (pathOf s))) w'.disk := by
  have habove : s ++ names <+: s ++ names ++ [Glyph.ofString (stagingName name)] := List.prefix_append _ _
  have hq := h.adds_staging
  have hoff := hcleared.sameOff.mono habove
  have hnow := h.keeps hoff hcleared.enters.dir hcleared.proper hdistinct
  have hmade := hcleared.slot.createDirAll_isOk hq.isEmpty (.inl (hcleared.gone _ (List.prefix_refl _)))
  have hsource := hnow.enters_source
  obtain ⟨hbegun, hopened⟩ := begun_of_gone (see_eq_ok_iff.2 ⟨s, hsource.goal, hsource.dir⟩) hsource.isEmpty
    hcleared.enters hq hcleared.gone hcleared.proper
    (fun rel hrel hkept l hl hpre => hnow.clear rel hrel hkept l hl (habove.trans hpre)) hmade
  have hopened' := hopened.mono habove
  have hbegin := hnow.keeps hopened' (look_eq_dir_above hbegun.enters.dir habove) hbegun.proper
    (hdistinct.opened _)
  have htells := copyTree_tells hmade hbegun hbegin.room hdistinct
  cases hrun : (copyTree (pathOf s) (stagingPath target name)).run w with
  | mk r t =>
  rw [hrun] at htells
  cases r with
  | error e =>
      obtain ⟨f, hfault⟩ := htells
      exact absurd hfault (hbegin.sound f e)
  | ok count =>
      obtain ⟨hgrows, hin⟩ := copyTree_grows (pathOf s) hcleared.enters hq hcleared.gone hcleared.proper
      rw [hrun] at hin
      have hwithin := hin count rfl
      obtain ⟨hlinks, hlook⟩ := copyTree_mirror hbegun hrun
      obtain ⟨w', hstage⟩ := stage_isOk hrun (exists_marked hwithin.enters hlinks h.fits.marker)
      refine ⟨w', hstage, ?_⟩
      rcases stage_cases hstage with ⟨-, -, count', t', hcopy, hmarked⟩ | ⟨-, hfile, -⟩ | ⟨hmode, -⟩
      · cases hrun.symm.trans hcopy
        refine marked hwithin.enters hlinks (fun rel hrel => ?_) ?_
        · rw [hlook rel hrel, hnow.clear.mirror hopened' hrel, h.clear.mirror hoff hrel]
        · exact hmarked
      · cases hfile
      · cases hmode

end Nested

/-! ### Installing -/

variable {plan : Plan} {source : Path} {name? : Option String} {prior : Option Entry} {start : Disk}

/-- The name of a copied directory is that of the module. -/
theorem Planned.artifactEntry_eq (h : Planned d target source .copy name? prior plan)
    (hdir : plan.isDir = true) : plan.artifactEntry = Glyph.ofString plan.name := by
  rw [Plan.artifactEntry, h.mode_eq, hdir]
  rfl

theorem Planned.dest_eq_child (h : Planned d target source .copy name? prior plan)
    (hdir : plan.isDir = true) : plan.dest = target.child plan.name := by
  rw [h.dest_eq_join, h.artifactEntry_eq hdir]
  rfl

/-- The artifact that is replaced was installed in the package directory, or it is gone. -/
structure Replaceable (plan : Plan) (loc : Location) (d : Disk) : Prop extends Settleable plan d where
  installed : ∀ old, plan.prior = some old → old.WasInstalled
  inside : ∀ old, plan.prior = some old → ∀ place, d.goal old.artifact false = .ok (.present place) →
    loc <+: place

namespace Nested

/-- The artifact that is recorded where the copy is going to be can be replaced. -/
theorem replaceable {base : Disk} (h : Nested base target plan.name s names)
    (hplan : Planned start target source .copy name? prior plan) (hdir : plan.isDir = true)
    (hprior : ∀ old, prior = some old → old.WasInstalled ∧ old.artifact.sameAs plan.dest = true) :
    Replaceable plan (s ++ names) base := by
  have hdest := hplan.dest_eq_child hdir
  have hentry := hplan.artifactEntry_eq hdir
  have hhub : plan.target.hub = target := by rw [hplan.target_eq, target.hub_of_ne h.nonempty]
  have hadds := hplan.adds_dest
  rw [hhub] at hadds
  rw [← hplan.prior_eq] at hprior
  -- the entry of the recorded artifact
  have hslot : ∀ old, plan.prior = some old → old.artifact.endsInSlash = false ∧
      base.Slot old.artifact (s ++ names) plan.artifactEntry ∧
      base.approach old.artifact = base.way target true := by
    intro old hold
    obtain ⟨hinstalled, hsame⟩ := hprior old hold
    have hcomponents := Path.sameAs_iff.1 hsame
    obtain ⟨hslash, d₀, parent₀, n, hslot₀⟩ := hinstalled.slot
    have hlast : n = plan.artifactEntry := by
      have hcourse := Path.last_course hslot₀.last
      rw [Path.course_congr hcomponents, Path.last_course hadds.last] at hcourse
      cases hcourse
      rfl
    subst hlast
    exact ⟨hslash, h.enters.1.slot ⟨(Path.isAbsolute_congr hcomponents).trans hadds.route.absolute,
      (Path.course_congr hcomponents).trans hadds.route.course⟩ hslot₀.admits hslot₀.last hslot₀.short⟩
  have hplace : ∀ old, plan.prior = some old → ∀ place, base.goal old.artifact false = .ok (.present place) →
      place = s ++ names ++ [plan.artifactEntry] := by
    intro old hold place hgoal
    obtain ⟨hslash, hslot, -⟩ := hslot old hold
    rw [hslot.goal hslash (.inl rfl)] at hgoal
    split at hgoal
    · cases hgoal
    · cases hgoal
      rfl
  refine ⟨⟨by rw [hdest]; exact h.fits.dest, by rw [hentry]; exact h.fits.artifact, ?_, ?_, ?_, ?_⟩,
    fun old hold => (hprior old hold).1, fun old hold place hgoal =>
      hplace old hold place hgoal ▸ List.prefix_append _ _⟩
  · intro old hold e hsee
    obtain ⟨hslash, hslot, -⟩ := hslot old hold
    rw [hslot.see hslash (.inl rfl)] at hsee
    cases hlook : base.look (s ++ names ++ [plan.artifactEntry]) <;> rw [hlook] at hsee <;> cases hsee
    rfl
  · intro old hold place hgoal
    obtain ⟨-, -, happroach⟩ := hslot old hold
    obtain rfl := hplace old hold place hgoal
    rw [happroach, hhub]
    exact ⟨h.way_apart _, h.way_apart _⟩
  · intro loc he
    rw [hhub] at he ⊢
    obtain rfl := h.enters.1.unique he
    exact h.way_apart _
  · intro loc he old hold l hl hpre
    rw [hhub] at he
    obtain rfl := h.enters.1.unique he
    obtain ⟨hslash, hslot, happroach⟩ := hslot old hold
    rcases hslot.way_unfollowed hslash l hl with hl | rfl
    · exact h.way_apart _ l (happroach ▸ hl) hpre
    · rw [List.prefix_append_right_inj, List.cons_prefix_cons] at hpre
      exact hplan.artifactEntry_ne hpre.1.symm

/-- A source is installed into a package directory inside it. -/
theorem installs (h : Nested (w.disk.opened target) target plan.name s names)
    (hplanned : planInstall w.disk target source .copy name? prior = .ok plan)
    (hsource : plan.source = pathOf s) (hdir : plan.isDir = true)
    (hmade : ((DiskM.createDirAll target).run w.disk).1 = .ok ()) (hproper : w.disk.Proper)
    (hdistinct : w.disk.Distinct) (hs : Replaceable plan (s ++ names) (w.disk.opened target)) :
    ∃ w', (installInto target source .copy name? prior).run w = (.ok (plan.entry w.now), w') ∧
      SameOff (s ++ names) (w.disk.opened target) w'.disk ∧ Nested w'.disk target plan.name s names ∧
      Holds (s ++ names ++ [Glyph.ofString plan.name])
        (packaged ((w.disk.opened target).mirror (stagingPath target plan.name) (pathOf s))) w'.disk := by
  have hplan := planned hplanned
  obtain rfl := hplan.target_eq
  have hhub := plan.target.hub_of_ne h.nonempty
  have henters : (w.disk.opened plan.target).Enters plan.target.hub (s ++ names) := by
    rw [hhub]
    exact h.enters.1
  have hway : ∀ l ∈ (w.disk.opened plan.target).way plan.target.hub true,
      ¬ s ++ names ++ [plan.stagingEntry] <+: l := by
    rw [hhub]
    exact h.way_apart _
  have hstaging := plan.adds_staging hplan.valid
  obtain ⟨d, hd, hcleared, hbuild⟩ := build_of_slot hplan.valid hproper hmade henters
    (henters.slot hstaging.route h.admits_staging hstaging.last h.fits.staging).1 hway
  have hd' : d.Distinct := hd ▸
    stable_distinct.removeArtifact plan.staging ⟨w.disk.opened plan.target, w.now, w.log⟩ h.distinct
  -- what is built in the package directory
  have hcleared' := hcleared
  rw [hhub] at hcleared'
  obtain ⟨w₁, hstage, hholds⟩ := @Nested.builds _ _ _ _ { w with disk := d } _ h hcleared' hd'
  have hclean : (stageOrClean plan.source plan.staging plan.mode plan.isDir).run { w with disk := d } =
      (.ok (), w₁) := by
    rw [hsource, hplan.mode_eq, hdir]
    exact run_stageOrClean_of_ok hstage
  have hleaves := @Cleared.leaves _ _ _ _ { w with disk := d } _ hcleared plan.source plan.mode plan.isDir
    hstaging
  rw [hclean] at hleaves
  have hbuilt : Built plan (s ++ names) (w.disk.opened plan.target) w₁.disk :=
    ⟨henters, hway, hleaves.sameOff⟩
  -- it is moved to its place
  obtain ⟨w', hsettle, hok, hr⟩ := hbuilt.settles hs.toSettleable hplan rfl h.up_not_mem hs.installed
    (hleaves.there rfl) h.admits_staging h.fits.staging
  rw [show w₁.now = w.now from hleaves.now] at hsettle
  have hrun : (installInto plan.target source .copy name? prior).run w = (.ok (plan.entry w.now), w') := by
    rcases installInto_cases plan.target source .copy name? prior w with
      ⟨f, hfault, -⟩ | ⟨plan', hplan', hcases⟩
    · cases hfault.symm.trans hplanned
    · cases hplan'.symm.trans hplanned
      rcases hcases with ⟨f, w₂, hfail, -⟩ | ⟨w₂, hbuilt', hinstall⟩
      · cases hfail.symm.trans (hbuild.trans hclean)
      · cases hbuilt'.symm.trans (hbuild.trans hclean)
        exact hinstall.trans hsettle
  have hprior := hs.prior _ henters
  have hmoved := hbuilt.moved hplan hr
  have hoff : SameOff (s ++ names) (w.disk.opened plan.target) w'.disk := by
    refine ⟨hmoved.cwd.trans ((plan.cwd_clear w₁.disk).trans hleaves.sameOff.cwd), fun l hl => ?_⟩
    have hin : ∀ n, ¬ s ++ names ++ [n] <+: l := fun n hpre => hl ((List.prefix_append _ _).trans hpre)
    rw [hmoved.look_elsewhere (hin _) (hin _), hbuilt.look_clear hprior fun old place hold hgoal hpre =>
      hl ((hs.inside old hold place hgoal).trans hpre)]
    exact hleaves.sameOff.look l (hin _)
  have hthere : w'.disk.look (s ++ names) = some .dir := by
    have hin : ∀ n, ¬ s ++ names ++ [n] <+: s ++ names := fun n hpre => by simpa using hpre.length_le
    rw [hmoved.look_elsewhere (hin _) (hin _), hbuilt.look_clear hprior fun old place hold hgoal hpre =>
      (hs.aside old hold place hgoal).2 _ (henters.mem_way (List.prefix_refl _)) hpre]
    rw [hleaves.sameOff.look _ (hin _), h.there]
  have hafter := stable_proper.installInto plan.target source .copy name? prior w hproper
  have hafter' := stable_distinct.installInto plan.target source .copy name? prior w hdistinct
  rw [hrun] at hafter hafter'
  refine ⟨w', hrun, hoff, h.keeps hoff hthere hafter hafter', ?_⟩
  rw [← hplan.artifactEntry_eq hdir]
  exact hbuilt.holds hplan hholds hprior hok hr

end Nested

/-! ### Installing again -/

/-- An entry of a directory that is its own canonical path is planned once more. -/
theorem planInstall_recorded {e : Entry} {derived : String} (hmode : e.mode = .copy)
    (hsource : resolveSource d e.source = .ok e.source) (hdir : d.isDir e.source = true)
    (hderived : deriveName d e.source = .ok derived) (hvalid : IsIdentifier e.name)
    (hartifact : e.artifact = target.child e.name) :
    planInstall d target e.source e.mode (some e.name) (some e) =
      .ok ⟨e.name, derived, e.source, true, .copy, target, e.artifact, some e⟩ := by
  have hdest : destination target e.source e.name e.mode true = e.artifact := by
    rw [hartifact, hmode]
    rfl
  have hclear : conflict? d (candidates target e.artifact e.name e.mode) (some e) = none := by
    refine List.find?_eq_none.2 fun p hp => ?_
    rw [hmode] at hp
    obtain rfl := List.mem_singleton.1 hp
    simp [Path.sameAs]
  unfold planInstall
  rw [hsource]
  simp only [bind, Except.bind]
  rw [hderived]
  simp only [Option.getD_some]
  rw [validateName_eq_ok_iff.2 hvalid]
  simp only [hdir]
  rw [hdest, hclear, hmode]
  rfl

/-- An entry of a source that was installed in a package directory inside it. -/
structure Inner (base : Disk) (target : Path) (s : Location) (names : List Name) (e : Entry) (d : Disk) :
    Prop where
  sameOff : SameOff (s ++ names) base d
  nested : Nested d target e.name s names
  source_eq : e.source = pathOf s
  mode_eq : e.mode = .copy
  artifact_eq : e.artifact = target.child e.name
  installed : e.WasInstalled
  derived : ∃ derived, deriveName d e.source = .ok derived

/-- The source without the package directory was copied into the package directory, and nothing else
changed outside of it. -/
structure Settled (base : Disk) (target : Path) (s : Location) (names : List Name) (e : Entry) (d : Disk) :
    Prop extends Inner base target s names e d where
  holds : Holds (s ++ names ++ [Glyph.ofString e.name])
    (packaged (base.mirror (stagingPath target e.name) (pathOf s))) d
  /-- Nothing that was in the package directory is in the artifact. -/
  outside : ∀ rest, rest ≠ [] → d.look (s ++ names ++ [Glyph.ofString e.name] ++ (names ++ rest)) = none

/-- A copy of the source without the package directory has nothing where the package directory was. -/
theorem Inner.settled {base : Disk} {e : Entry} (h : Inner base target s names e d)
    (hholds : Holds (s ++ names ++ [Glyph.ofString e.name])
      (packaged (base.mirror (stagingPath target e.name) (pathOf s))) d) : Settled base target s names e d := by
  refine ⟨h, hholds, fun rest hrest => ?_⟩
  by_contra hthere
  have hproper : Location.Proper (names ++ rest) := fun n hn =>
    h.nested.proper.look _ hthere n (List.mem_append_right _ hn)
  have hmarker : names ++ rest ≠ [markerName] := fun heq => by
    have hlength := congrArg List.length heq
    have hnames := List.length_pos_iff.2 h.nested.below
    have hrest' := List.length_pos_iff.2 hrest
    rw [List.length_append, List.length_singleton] at hlength
    omega
  rw [hholds.look _ hproper, packaged, if_neg hmarker, h.nested.mirror_names] at hthere
  exact hthere rfl

/-- The name of a directory is taken from its path. -/
theorem deriveName_congr {p : Path} (h : d'.isDir p = d.isDir p) : deriveName d' p = deriveName d p := by
  unfold deriveName
  rw [h]

/-- Whatever happened in the package directory, the entry can be installed again, and then its artifact is
the same again. -/
theorem Inner.renews {base : Disk} {e : Entry} (h : Inner base target s names e w.disk)
    (hrecorded : (target.child e.name).parent? = some target) :
    ∃ w', (renew e).run w = (.ok { e with installedAt := w.now }, w') ∧
      Settled base target s names { e with installedAt := w.now } w'.disk := by
  have hsource := h.nested.enters_source
  have hisDir : ∀ {d'}, Nested d' target e.name s names → d'.isDir e.source = true := fun h' => by
    rw [h.source_eq]
    exact isDir_iff.2 ⟨s, h'.enters_source⟩
  obtain ⟨derived, hderived⟩ := h.derived
  have hplan := @planInstall_recorded w.disk target e derived h.mode_eq
    (by rw [h.source_eq]; exact resolveSource_eq_ok_iff.2 ⟨s, hsource.goal, rfl⟩)
    (hisDir h.nested) hderived h.nested.valid h.artifact_eq
  have hmade := h.nested.enters.1.run_createDirAll h.nested.nonempty
  have hopened : w.disk.opened target = w.disk := congrArg Prod.snd hmade
  have hknown := planned hplan
  rw [h.mode_eq] at hplan hknown
  have hs := h.nested.replaceable hknown rfl fun old hold => by
    cases hold
    exact ⟨h.installed, Path.sameAs_iff.2 rfl⟩
  have hentry : Plan.entry ⟨e.name, derived, e.source, true, .copy, target, e.artifact, some e⟩ w.now =
      { e with installedAt := w.now } := by
    rw [Plan.entry, ← h.mode_eq]
  obtain ⟨w', hrun, hoff, hnested, hholds⟩ := Nested.installs (hopened.symm ▸ h.nested) hplan h.source_eq rfl
    (congrArg Prod.fst hmade) h.nested.proper h.nested.distinct (hopened.symm ▸ hs)
  rw [hopened] at hoff hholds
  rw [hentry] at hrun
  have hrenew : (renew e).run w = (.ok { e with installedAt := w.now }, w') := by
    have htarget : e.targetDir? = some target := by
      rw [Entry.targetDir?, h.artifact_eq, hrecorded]
    rw [renew, htarget]
    dsimp only
    rw [← hrun, h.mode_eq]
  refine ⟨w', hrenew, Inner.settled ⟨h.sameOff.trans hoff, hnested, h.source_eq, h.mode_eq, h.artifact_eq,
    ⟨_, _, _, _, _, w, w', hrun⟩, derived, ?_⟩ ⟨hholds.noLinks, fun rel hrel => ?_⟩⟩
  · exact (deriveName_congr ((hisDir hnested).trans (hisDir h.nested).symm)).trans hderived
  · rw [hholds.look rel hrel, packaged, packaged, h.nested.clear.mirror h.sameOff.symm hrel]

/-- What may happen between two installs: nothing outside of the package directory, and anything in it. -/
structure Meanwhile (top : Location) (d d' : Disk) : Prop where
  sameOff : SameOff top d d'
  there : d'.look top = some .dir
  proper : d'.Proper
  distinct : d'.Distinct

/-- The entries and worlds that come from an entry by installing it again and again, with changes in the
package directory in between. -/
inductive Renewed (top : Location) (e : Entry) (w : World) : Entry → World → Prop
  | start : Renewed top e w e w
  | meanwhile {e' : Entry} {w' w'' : World} (h : Renewed top e w e' w') (hm : Meanwhile top w'.disk w''.disk) :
      Renewed top e w e' w''
  | renew {e' e'' : Entry} {w' w'' : World} (h : Renewed top e w e' w')
      (hrun : (renew e').run w' = (.ok e'', w'')) : Renewed top e w e'' w''

/-- An entry stays what it is, however often it is installed again and whatever happens in between. -/
theorem Inner.renewed {base : Disk} {e e' : Entry} {w' : World} (h : Inner base target s names e w.disk)
    (hrecorded : (target.child e.name).parent? = some target) (hr : Renewed (s ++ names) e w e' w') :
    (∃ now, e' = { e with installedAt := now }) ∧ Inner base target s names e' w'.disk := by
  induction hr with
  | start => exact ⟨⟨e.installedAt, rfl⟩, h⟩
  | @meanwhile e' w' w'' hr hm ih =>
      obtain ⟨hsame, hinner⟩ := ih
      have hnested := hinner.nested.keeps hm.sameOff hm.there hm.proper hm.distinct
      obtain ⟨derived, hderived⟩ := hinner.derived
      refine ⟨hsame, hinner.sameOff.trans hm.sameOff, hnested, hinner.source_eq, hinner.mode_eq,
        hinner.artifact_eq, hinner.installed, derived, ?_⟩
      rw [← hderived]
      refine deriveName_congr ?_
      rw [hinner.source_eq, isDir_iff.2 ⟨s, hnested.enters_source⟩,
        isDir_iff.2 ⟨s, hinner.nested.enters_source⟩]
  | @renew e' e'' w' w'' hr hrun ih =>
      obtain ⟨⟨now, rfl⟩, hinner⟩ := ih
      obtain ⟨w₁, hrenew, hsettled⟩ := hinner.renews hrecorded
      cases hrun.symm.trans hrenew
      exact ⟨⟨_, rfl⟩, hsettled.toInner⟩

/-- A directory is installed into a package directory inside it whose path goes on from the canonical path of
the source. The install succeeds, and the artifact is the source without the package directory. However often
the entry is installed again, and whatever happens in the package directory in between, it succeeds and the
artifact is the same again. -/
theorem installInto_nested (hplanned : planInstall w.disk target source .copy name? prior = .ok plan)
    (hsource : plan.source = pathOf s) (hdir : plan.isDir = true)
    (hmade : ((DiskM.createDirAll target).run w.disk).1 = .ok ()) (hproper : w.disk.Proper)
    (hdistinct : w.disk.Distinct) (h : Nested (w.disk.opened target) target plan.name s names)
    (hs : Replaceable plan (s ++ names) (w.disk.opened target))
    (hrecorded : (target.child plan.name).parent? = some target) :
    ∃ w₁, (installInto target source .copy name? prior).run w = (.ok (plan.entry w.now), w₁) ∧
      Settled (w.disk.opened target) target s names (plan.entry w.now) w₁.disk ∧
      ∀ e' w', Renewed (s ++ names) (plan.entry w.now) w₁ e' w' →
        ∃ w'', (renew e').run w' = (.ok (plan.entry w'.now), w'') ∧
          Settled (w.disk.opened target) target s names (plan.entry w'.now) w''.disk := by
  have hplan := planned hplanned
  obtain ⟨w₁, hrun, hoff, hnested, hholds⟩ := h.installs hplanned hsource hdir hmade hproper hdistinct hs
  have hderived : deriveName w₁.disk plan.source = .ok plan.derived := by
    rw [← hplan.derived]
    refine deriveName_congr ?_
    rw [← hplan.isDir_eq, hdir, hsource]
    exact isDir_iff.2 ⟨s, hnested.enters_source⟩
  have hinner : Inner (w.disk.opened target) target s names (plan.entry w.now) w₁.disk :=
    ⟨hoff, hnested, hsource, hplan.mode_eq, hplan.dest_eq_child hdir, ⟨_, _, _, _, _, w, w₁, hrun⟩, _, hderived⟩
  refine ⟨w₁, hrun, hinner.settled hholds, fun e' w' hr => ?_⟩
  obtain ⟨⟨now, rfl⟩, hinner'⟩ := hinner.renewed hrecorded hr
  exact hinner'.renews hrecorded

/-- A package with a package directory in it, where a module is installed already. -/
def hostWorld : World := .holding
  [(Glyph.ofString "s", .dir [(Glyph.ofString "a.py", .file .empty false),
    (Glyph.ofString "t", .dir [(Glyph.ofString "a.py", .file .empty false)])])]

def hostPlan : Plan where
  name := "s"
  derived := "s"
  source := .ofString "/s"
  isDir := true
  mode := .copy
  target := .ofString "/s/t"
  dest := .ofString "/s/t/s"
  prior := none

def hostInstall : Work Failure Entry := installInto (.ofString "/s/t") (.ofString "/s") .copy none none

theorem hostWorld_linkless : hostWorld.disk.root.every (fun _ label => !label.isLink) = true := by decide

/-- The walk over the package meets its two entries and goes no deeper. -/
theorem hostWorld_meets {rel : Location} {n : Name} {label : Label}
    (h : hostWorld.disk.Meets (stagingPath (.ofString "/s/t") "s") (pathOf [Glyph.ofString "s"]) rel n label) :
    rel = [] ∧ (n = Glyph.ofString "a.py" ∨ n = Glyph.ofString "t") := by
  have htop : ∀ {here : Location}, hostWorld.disk.Enters (pathOf [Glyph.ofString "s"]) here →
      here = [Glyph.ofString "s"] := fun hin => Enters.unique ⟨by cbv, by cbv⟩ hin
  have honly : ∀ {n : Name} {label : Label}, hostWorld.disk.look ([Glyph.ofString "s"] ++ [n]) = some label →
      n = Glyph.ofString "a.py" ∨ n = Glyph.ofString "t" := by
    intro n label hentry
    have hall : hostWorld.disk.root.every (fun k _ => decide (k = Glyph.ofString "s" ∨
        k = Glyph.ofString "a.py" ∨ k = Glyph.ofString "t")) = true := by decide
    rcases of_decide_eq_true (Node.of_every hall hentry) with rfl | hn
    · have hnone : hostWorld.disk.look ([Glyph.ofString "s"] ++ [Glyph.ofString "s"]) = none := by cbv
      cases hnone.symm.trans hentry
    · exact hn
  obtain ⟨hvisits, here, hin, hentry⟩ := h
  have hrel : rel = [] := by
    induction hvisits generalizing here n label with
    | top => rfl
    | @down rel here' loc m label' hvisits hin' hentry' hkept hto hopen ih =>
        obtain rfl := ih here' hin' hentry'
        obtain rfl := htop hin'
        rcases honly hentry' with rfl | rfl
        · have hdir := isDir_iff.2 ⟨loc, hto⟩
          rw [show hostWorld.disk.isDir ((pathOf [Glyph.ofString "s"]).joins ([] ++ [Glyph.ofString "a.py"])) =
            false by cbv] at hdir
          cases hdir
        · rw [show LeftOut (stagingPath (.ofString "/s/t") "s") (pathOf [Glyph.ofString "s"])
            ([] ++ [Glyph.ofString "t"]) = true by cbv] at hkept
          cases hkept
  subst hrel
  obtain rfl := htop hin
  exact ⟨rfl, honly hentry⟩

theorem hostWorld_nested :
    Nested hostWorld.disk (.ofString "/s/t") "s" [Glyph.ofString "s"] [Glyph.ofString "t"] := by
  have hfile : ∀ content x, (Node.file content x).Distinct := fun _ _ => Node.distinct_of_not_dir rfl
  refine ⟨proper_of_every (fun n hn => by cases hn) (by decide), ?_,
    show nameFault? _ = none by decide, by simp, by cbv, by cbv,
    fun rel hrel hkept l hl hpre => ?_, not_fault_of_linkless hostWorld_linkless, fun rel n label hmeets => ?_,
    ⟨by cbv, by cbv, by cbv, by decide, by decide, by decide⟩⟩
  · have hinner := (Node.distinct_empty.setEntry (hfile .empty false) (Glyph.ofString "a.py")).setEntry
      (Node.distinct_empty.setEntry (hfile .empty false) (Glyph.ofString "a.py")) (Glyph.ofString "t")
    exact Node.distinct_empty.setEntry hinner (Glyph.ofString "s")
  · have hle := way_joins_of_linkless hostWorld_linkless (by cbv) (by cbv)
      (show _ = [Glyph.ofString "s"].map Step.name by cbv) hrel hl
    have hnames := (List.prefix_append_right_inj _).1 (hpre.trans hle)
    have hkept' := hkept _ (by simp) hnames
    rw [show LeftOut (stagingPath (.ofString "/s/t") "s") (pathOf [Glyph.ofString "s"]) [Glyph.ofString "t"] =
      true by cbv] at hkept'
    cases hkept'
  · obtain ⟨rfl, rfl | rfl⟩ := hostWorld_meets hmeets
    · exact ⟨by decide, by decide, by cbv, by cbv⟩
    · exact ⟨by decide, by decide, by cbv, by cbv⟩

/-- The package is installed in its own package directory and stays the same when it is installed again. -/
theorem installInto_nested_hostWorld : ∃ w₁, hostInstall.run hostWorld = (.ok (hostPlan.entry sampleMoment), w₁) ∧
    w₁.disk.look [Glyph.ofString "s", Glyph.ofString "t", Glyph.ofString "s", Glyph.ofString "t",
      Glyph.ofString "a.py"] = none ∧
    ∀ e' w', Renewed [Glyph.ofString "s", Glyph.ofString "t"] (hostPlan.entry sampleMoment) w₁ e' w' →
      ((renew e').run w').1.isOk = true := by
  have hplan : planInstall hostWorld.disk (.ofString "/s/t") (.ofString "/s") .copy none none = .ok hostPlan := by
    cbv
  have hmade := hostWorld_nested.enters.1.run_createDirAll hostWorld_nested.nonempty
  have hopened : hostWorld.disk.opened (.ofString "/s/t") = hostWorld.disk := congrArg Prod.snd hmade
  have hnested := hopened.symm ▸ hostWorld_nested
  obtain ⟨w₁, hrun, hsettled, hagain⟩ := installInto_nested hplan (by cbv) rfl (congrArg Prod.fst hmade)
    hostWorld_nested.proper hostWorld_nested.distinct hnested
    (hnested.replaceable (planned hplan) rfl fun old hold => by cases hold) (by cbv)
  refine ⟨w₁, hrun, hsettled.outside [Glyph.ofString "a.py"] (by simp), fun e' w' hr => ?_⟩
  obtain ⟨w'', hrenew, -⟩ := hagain e' w' hr
  rw [hrenew]
  rfl

/-- A package that is its own package directory. -/
def selfWorld : World := .holding [(Glyph.ofString "s", .dir [(Glyph.ofString "a.py", .file .empty false)])]

def selfInstall : Work Failure Entry := installInto (.ofString "/s") (.ofString "/s") .copy none none

def selfEntry : Entry := ⟨"s", .ofString "/s", .copy, .ofString "/s/s", sampleMoment⟩

/-- Where the package directory is the source, it is not left out: what is copied when the package is
installed again has the earlier artifact in it. -/
theorem renew_grows :
    (selfInstall.run selfWorld).1 = .ok selfEntry ∧
    (selfInstall.run selfWorld).2.disk.look [Glyph.ofString "s", Glyph.ofString "s", Glyph.ofString "s"] = none ∧
    ((renew selfEntry).run (selfInstall.run selfWorld).2).1 = .ok selfEntry ∧
    ((renew selfEntry).run (selfInstall.run selfWorld).2).2.disk.look
      [Glyph.ofString "s", Glyph.ofString "s", Glyph.ofString "s", Glyph.ofString "a.py"] =
        some (.file .empty false) :=
  ⟨by cbv, by cbv, by cbv, by cbv⟩

end Sideload
