import Sideload.Proofs.Shelf.Owned

/-!
Placing one module on two disks. Where the source is the same and so is what belongs to the module, the module
is built, the artifact that it replaces goes, and the new one comes to its place on both disks alike.
-/

namespace Sideload

open Disk

/-- A plan in a package directory that can be made, which is not reached over what the plan changes there. -/
structure Site (target : Path) (loc : Location) (plan : Plan) (d : Disk) : Prop where
  proper : d.Proper
  absolute : target.isAbsolute = true
  straight : .up ∉ target.components
  components : plan.target.components = target.components
  made : ((DiskM.createDirAll plan.target).run d).1 = .ok ()
  enters : (d.opened plan.target).Enters target loc
  within : (d.opened plan.target).Enters plan.target loc
  clear : loc ++ [plan.stagingEntry] ∉ (d.opened plan.target).way target true
  prior : ∀ old, plan.prior = some old → old.name = plan.name ∧ ∃ m, old.Destined target m ∧
    loc ++ [m] ∉ (d.opened plan.target).way target true

variable {base d d' : Disk} {region : Location → Prop} {target dir source : Path} {loc : Location} {mode : Mode}
  {name? : Option String} {prior : Option Entry} {plan : Plan} {w w' : World}

namespace Site

variable (h : Site target loc plan d)
include h

theorem hub : plan.target.hub = plan.target :=
  Path.hub_of_ne (Path.isEmpty_of_isAbsolute ((Path.isAbsolute_congr h.components).trans h.absolute))

theorem way_subset : ∀ l ∈ (d.opened plan.target).way plan.target true,
    l ∈ (d.opened plan.target).way target true :=
  h.enters.way_subset h.within (Path.isAbsolute_congr h.components)
    (Path.course_congr h.components ▸ List.prefix_refl _)

theorem receives : Receives d plan loc where
  proper := h.proper
  made := h.made
  enters := h.hub.symm ▸ h.within
  way l hl hpre := by
    rw [h.hub] at hl
    exact h.clear (prefix_of_way (h.way_subset l hl) hpre)

/-- The directory while work is done for the module. -/
theorem now (hw : WorksFor target loc plan.name (d.opened plan.target) d') :
    d'.Enters target loc ∧ d'.way target true = (d.opened plan.target).way target true ∧
      d'.Enters plan.target loc := by
  obtain ⟨he, hway⟩ := hw.enters h.enters fun _ hl => hl
  exact ⟨he, hway, (hw.enters h.within h.way_subset).1⟩

omit h in
/-- Building works for the module. -/
theorem works_build {w : World} (h : Site target loc plan w.disk) (hvalid : IsIdentifier plan.name)
    (hsrc : Avoids (Owned loc plan.name) (w.disk.opened plan.target) plan.source)
    (hdir : plan.isDir = true → (w.disk.opened plan.target).see plan.source true = .ok .dir) :
    WorksFor target loc plan.name (w.disk.opened plan.target) ((build plan).run w).2.disk := by
  have hfar : Avoids (AtOrBelow (loc ++ [plan.stagingEntry])) (w.disk.opened plan.target) plan.source :=
    fun l hl hpre => hsrc l hl ⟨_, plan.staging_entry hvalid, hpre⟩
  have hagrees : (build plan).Agrees (Twin _ _ fun _ => True) w w :=
    build_agrees hvalid h.receives h.receives ⟨.refl _ _, .refl _ _, fun _ _ => rfl⟩ (fun _ _ => trivial)
      (fun _ hl => hl) (fun _ => hfar) hdir
  exact .of_differs hagrees.2.left fun l hl => ⟨_, plan.staging_entry hvalid, h.clear, hl⟩

/-- The replaced artifact can be taken away. -/
theorem works_clear (hw : WorksFor target loc plan.name (d.opened plan.target) d') :
    (plan.clear d').1 = .ok () ∧ WorksFor target loc plan.name d' (plan.clear d').2 := by
  unfold Plan.clear
  cases hold : plan.prior with
  | none => exact ⟨rfl, .refl _ _ _ _⟩
  | some old =>
      obtain ⟨hname, m, hm, haside⟩ := h.prior old hold
      obtain ⟨he, hway, -⟩ := h.now hw
      obtain ⟨hslot, happroach⟩ := hm.slot he
      obtain ⟨b, hok, -⟩ := DiskM.removeArtifact_of_slot hslot hm.slash fun l hl hpre =>
        haside (hway ▸ prefix_of_way (happroach ▸ hl) hpre)
      dsimp only
      rw [hok]
      exact ⟨rfl, .of_differs (hslot.removeArtifact_differs hm.slash) fun l hl =>
        ⟨m, hname ▸ hm.moduleEntry, hway ▸ haside, hl⟩⟩

/-- The replaced artifact is taken away alike. -/
theorem clear_agrees {s' : Disk} (h' : Site target loc plan s')
    (hw : WorksFor target loc plan.name (d.opened plan.target) d')
    {c' : Disk} (hw' : WorksFor target loc plan.name (s'.opened plan.target) c')
    (htwin : Twin base region (Owned loc plan.name) d' c') (hregion : ∀ l, Owned loc plan.name l → region l) :
    Twin base region (Owned loc plan.name) (plan.clear d').2 (plan.clear c').2 := by
  unfold Plan.clear
  cases hold : plan.prior with
  | none => exact htwin
  | some old =>
      obtain ⟨hname, m, hm, haside⟩ := h.prior old hold
      obtain ⟨-, m', hm', haside'⟩ := h'.prior old hold
      obtain rfl := hm.unique hm'
      obtain ⟨he, hway, -⟩ := h.now hw
      obtain ⟨he', hway', -⟩ := h'.now hw'
      obtain ⟨hslot, happroach⟩ := hm.slot he
      obtain ⟨hslot', happroach'⟩ := hm.slot he'
      have hown : ∀ l, loc ++ [m] <+: l → Owned loc plan.name l := fun l hl =>
        ⟨m, hname ▸ hm.moduleEntry, hl⟩
      exact (htwin.removeArtifact hslot hslot' hm.slash
        (fun l hl hpre => haside (hway ▸ prefix_of_way (happroach ▸ hl) hpre))
        (fun l hl hpre => haside' (hway' ▸ prefix_of_way (happroach' ▸ hl) hpre)) hown
        fun l hl => hregion l (hown l hl)).2

/-- What was built is there when the replaced artifact is gone, and its place is free. -/
theorem ready (hplan : Planned d plan.target source mode name? prior plan)
    (hw : WorksFor target loc plan.name (d.opened plan.target) d') (hbuilt : Built plan loc (d.opened plan.target) d')
    (hthere : d'.look (loc ++ [plan.stagingEntry]) ≠ none)
    (hslot : (d.opened plan.target).Slot plan.staging loc plan.stagingEntry) :
    (plan.clear d').2.Slot plan.staging loc plan.stagingEntry ∧
      (plan.clear d').2.look (loc ++ [plan.stagingEntry]) ≠ none ∧
      ((plan.clear d').2.Slot plan.dest loc plan.artifactEntry →
        (plan.clear d').2.look (loc ++ [plan.artifactEntry]) = none) := by
  obtain ⟨hclear, hcleared⟩ := h.works_clear hw
  obtain ⟨-, -, hin⟩ := h.now (hw.trans hcleared h.enters)
  have hq := plan.adds_staging hplan.valid
  rw [h.hub] at hq
  refine ⟨(hin.slot hq.route hslot.admits hslot.last hslot.short).1, ?_, fun hdest => ?_⟩
  · rw [plan.look_clear fun old place hold hgoal hpre => ?_]
    · exact hthere
    obtain ⟨-, m, hm, -⟩ := h.prior old hold
    have hgoal' := (hm.slot (h.now hw).1).1.goal hm.slash (.inl rfl)
    rw [hgoal] at hgoal'
    split at hgoal' <;> cases hgoal'
    exact hm.ne_staging _ (Location.entry_unique hpre (List.prefix_refl _))
  · refine hbuilt.freed hplan (fun _ => h.components ▸ h.straight) (fun old hold => ?_) hplan.dest_mem
      hplan.dest_eq_join (artifactName_proper hplan.valid _ _ _) hplan.artifactEntry_ne hdest.admits hdest.short hclear
    obtain ⟨-, m, hm, -⟩ := h.prior old hold
    exact hm.endsInName

end Site

theorem Disk.Slot.rename_refused {src dst : Path} {parent : Location} {n : Name} {e : IoError}
    (h : d.Slot src parent n) (hdst : d.place dst = .error e) : d.rename src dst = .error e := by
  obtain ⟨c, hplace, -⟩ := h.place
  rw [rename, hplace, hdst]
  rfl

/-- What was moved to a free place is there as it was. -/
theorem Disk.look_renamed {src dst : Path} {n m : Name} (hsrc : d.Slot src loc n) (hdst : d.Slot dst loc m)
    (hne : n ≠ m) (hr : d.rename src dst = .ok d') : d'.look = moved d.look (loc ++ [n]) (loc ++ [m]) := by
  obtain ⟨parent, k, parent', k', hsrc', hdst', -, -, -, hmoved⟩ := rename_ok hr
  obtain ⟨rfl, rfl⟩ := hsrc.unique hsrc'
  obtain ⟨rfl, rfl⟩ := hdst.unique hdst'
  rcases hmoved with ⟨hsame, -⟩ | ⟨-, -, -, hlook⟩
  · exact absurd (by simpa using hsame) hne
  · exact hlook

/-- An artifact is moved to its place alike, or it cannot be moved there on either disk. -/
theorem rename_agrees {target p q : Path} {name : String} {n m : Name} (hin : d.Enters target loc)
    (hin' : d'.Enters target loc) (hwithin : d.Enters dir loc) (hwithin' : d'.Enters dir loc) (hq : q.Adds dir m)
    (hn : ModuleEntry name n) (hm : ModuleEntry name m) (hne : n ≠ m) (hslot : d.Slot p loc n)
    (hslot' : d'.Slot p loc n) (hslash : p.endsInSlash = false) (hthere : d.look (loc ++ [n]) ≠ none)
    (hthere' : d'.look (loc ++ [n]) ≠ none) (hclear : loc ++ [n] ∉ d.way target true)
    (hclear' : loc ++ [n] ∉ d'.way target true)
    (hfree : d.Slot q loc m → d.look (loc ++ [m]) = none) (hfree' : d'.Slot q loc m → d'.look (loc ++ [m]) = none)
    (htwin : Twin base region (Owned loc name) d d') (hregion : ∀ l, Owned loc name l → region l) :
    (∃ e, d.rename p q = .error e ∧ d'.rename p q = .error e) ∨
    ∃ d₁ d₁', d.rename p q = .ok d₁ ∧ d'.rename p q = .ok d₁' ∧ Twin base region (Owned loc name) d₁ d₁' ∧
      WorksFor target loc name d d₁ ∧ WorksFor target loc name d' d₁' := by
  rcases slot_or_refused hq with hdst | ⟨e, -, hrefused⟩
  · have hbelow : ¬ loc ++ [n] <+: loc ++ [m] := fun hpre =>
      hne (Location.entry_unique hpre (List.prefix_refl _))
    obtain ⟨d₁, hr⟩ := rename_isOk hslot (hdst hwithin) hslash hq.slash hthere (hfree (hdst hwithin)) hbelow
    obtain ⟨d₁', hr'⟩ := rename_isOk hslot' (hdst hwithin') hslash hq.slash hthere' (hfree' (hdst hwithin')) hbelow
    have hdiffers := rename_differs hslot (hdst hwithin) hr
    have hdiffers' := rename_differs hslot' (hdst hwithin') hr'
    -- a place where nothing is has not been passed on the way to the directory
    have haside : ∀ {d : Disk}, d.Enters target loc → loc ++ [n] ∉ d.way target true → d.look (loc ++ [m]) = none →
        ∀ l, AtOrBelow (loc ++ [n]) l ∨ AtOrBelow (loc ++ [m]) l →
          ∃ k, ModuleEntry name k ∧ loc ++ [k] ∉ d.way target true ∧ loc ++ [k] <+: l := by
      rintro d he hclear hfree l (hl | hl)
      · exact ⟨n, hn, hclear, hl⟩
      · exact ⟨m, hm, fun hmem => he.look_ne_none hmem hfree, hl⟩
    refine .inr ⟨d₁, d₁', hr, hr', ⟨htwin.left.trans (hdiffers.mono ?_), htwin.right.trans (hdiffers'.mono ?_), ?_⟩,
      .of_differs hdiffers (haside hin hclear (hfree (hdst hwithin))),
      .of_differs hdiffers' (haside hin' hclear' (hfree' (hdst hwithin')))⟩
    · rintro l (hl | hl)
      · exact hregion l ⟨n, hn, hl⟩
      · exact hregion l ⟨m, hm, hl⟩
    · rintro l (hl | hl)
      · exact hregion l ⟨n, hn, hl⟩
      · exact hregion l ⟨m, hm, hl⟩
    · intro l hl
      rw [look_renamed hslot (hdst hwithin) hne hr, look_renamed hslot' (hdst hwithin') hne hr']
      unfold moved
      split
      · exact htwin.same _ ⟨n, hn, List.prefix_append _ _⟩
      · split
        · rfl
        · exact htwin.same l hl
  · exact .inl ⟨e, hslot.rename_refused (hrefused hwithin).1, hslot'.rename_refused (hrefused hwithin').1⟩

theorem settle_refused {e : IoError} (hclear : (plan.clear w.disk).1 = .ok ())
    (hr : (plan.clear w.disk).2.rename plan.staging plan.dest = .error e) :
    ((settle plan).run w).1 = .error (.ofIo plan.dest e) := by
  obtain ⟨hdisk, -, hok⟩ := run_discardPrior plan w
  have hdiscard : (discardPrior plan).run w = (.ok (), ((discardPrior plan).run w).2) :=
    Prod.ext (hok.2 hclear) rfl
  rw [settle, run_bind_of_ok hdiscard, run_bind, Work.run_change_orFail, hdisk, hr]

/-- How a plan is carried out: the answer, but for the time of the entry, and the disk that is left. -/
def Carries (plan : Plan) (w : World) (out : Except Failure Unit) (d : Disk) : Prop :=
  ∃ w₁ : World, (build plan >>= fun _ => settle plan).run w = (out.map fun _ => plan.entry w.now, w₁) ∧
    w₁.now = w.now ∧ w₁.disk = d

theorem Carries.of_build {f : Failure} (h : ((build plan).run w).1 = .error f) :
    Carries plan w (.error f) ((build plan).run w).2.disk :=
  ⟨_, run_bind_of_error (Prod.ext h rfl) _, (stable_now w.now).build plan w rfl, rfl⟩

/-- Settling after a build that succeeded, once the replaced artifact could be taken away. -/
theorem Carries.of_settle (hbuild : ((build plan).run w).1 = .ok ())
    (hd : ((build plan).run w).2.disk = d) (hclear : (plan.clear d).1 = .ok ()) :
    (∀ e, (plan.clear d).2.rename plan.staging plan.dest = .error e →
      Carries plan w (.error (.ofIo plan.dest e)) (plan.clear d).2) ∧
    ∀ d₁, (plan.clear d).2.rename plan.staging plan.dest = .ok d₁ → Carries plan w (.ok ()) d₁ := by
  have hnow := (stable_now w.now).build plan w rfl
  have hrun : (build plan >>= fun _ => settle plan).run w = (settle plan).run ((build plan).run w).2 :=
    run_bind_of_ok (Prod.ext hbuild rfl) _
  unfold Carries
  rw [hrun]
  generalize ((build plan).run w).2 = t at hd hnow
  subst hd
  obtain ⟨hsettled, hcases⟩ := settle_cases plan t
  constructor
  · intro e hr
    refine ⟨_, Prod.ext (settle_refused hclear hr) rfl, hsettled.trans hnow, ?_⟩
    rcases hcases with ⟨-, -, hdisk, -⟩ | ⟨-, -, hmoved⟩
    · exact hdisk
    · cases hr.symm.trans hmoved
  · intro d₁ hr
    rcases hcases with ⟨f, -, -, hno⟩ | ⟨hanswer, -, hmoved⟩
    · exact absurd hr (hno hclear _)
    · refine ⟨_, Prod.ext (hanswer.trans ?_) rfl, hsettled.trans hnow, ?_⟩
      · rw [hnow]
        rfl
      · exact Except.ok.inj (hmoved.symm.trans hr)

/-- A plan is carried out alike on two disks with the same source and the same things at the names of the
module, and it changes nothing else. -/
theorem placing_agrees (h : Site target loc plan w.disk) (h' : Site target loc plan w'.disk)
    (hplan : Planned w.disk plan.target source mode name? prior plan)
    (hplan' : Planned w'.disk plan.target source mode name? prior plan)
    (htwin : Twin base region (Owned loc plan.name) (w.disk.opened plan.target) (w'.disk.opened plan.target))
    (hregion : ∀ l, Owned loc plan.name l → region l) (hsrc : Avoids region base plan.source)
    (hdir : plan.isDir = true → base.see plan.source true = .ok .dir) :
    ∃ out d d', Carries plan w out d ∧ Carries plan w' out d' ∧ Twin base region (Owned loc plan.name) d d' ∧
      WorksFor target loc plan.name (w.disk.opened plan.target) d ∧
      WorksFor target loc plan.name (w'.disk.opened plan.target) d' := by
  have hvalid := hplan.valid
  have hstaging : ∀ l, loc ++ [plan.stagingEntry] <+: l → Owned loc plan.name l := fun l hl =>
    ⟨_, plan.staging_entry hvalid, hl⟩
  obtain ⟨hanswer, hbuilt⟩ := build_agrees hvalid h.receives h'.receives htwin hstaging
    (fun l hl => hregion l (hstaging l hl)) (fun _ => hsrc) hdir
  have hworks : ∀ {w : World}, Site target loc plan w.disk → Differs region base (w.disk.opened plan.target) →
      WorksFor target loc plan.name (w.disk.opened plan.target) ((build plan).run w).2.disk := by
    intro w h hdiffers
    have hfar := hsrc.of_differs hdiffers
    refine h.works_build hvalid (fun l hl hown => hfar l hl (hregion l hown)) fun hd => ?_
    rw [hsrc.see hdiffers, hdir hd]
  have hw := hworks h htwin.left
  have hw' := hworks h' htwin.right
  cases hbuild : ((build plan).run w).1 with
  | error f => exact ⟨.error f, _, _, .of_build hbuild, .of_build (hanswer.trans hbuild), hbuilt, hw, hw'⟩
  | ok u =>
      have hbuild' := hanswer.trans hbuild
      obtain ⟨hb, hthere, hslot⟩ := h.receives.built hvalid hbuild
      obtain ⟨hb', hthere', hslot'⟩ := h'.receives.built hvalid hbuild'
      obtain ⟨hclear, hcleared⟩ := h.works_clear hw
      obtain ⟨hclear', hcleared'⟩ := h'.works_clear hw'
      obtain ⟨hs, hhere, hfree⟩ := h.ready hplan hw hb hthere hslot
      obtain ⟨hs', hhere', hfree'⟩ := h'.ready hplan' hw' hb' hthere' hslot'
      have hall := hw.trans hcleared h.enters
      have hall' := hw'.trans hcleared' h'.enters
      obtain ⟨he, hway, hin⟩ := h.now hall
      obtain ⟨he', hway', hin'⟩ := h'.now hall'
      have hq := hplan.adds_dest
      rw [h.hub] at hq
      rcases rename_agrees he he' hin hin' hq (plan.staging_entry hvalid) (plan.artifact_entry hvalid)
        hplan.artifactEntry_ne.symm hs hs' (plan.adds_staging hvalid).slash hhere hhere' (hway ▸ h.clear)
        (hway' ▸ h'.clear) hfree hfree' (h.clear_agrees h' hw hw' hbuilt hregion) hregion with
        ⟨e, hr, hr'⟩ | ⟨d₁, d₁', hr, hr', hmoved, hdone, hdone'⟩
      · exact ⟨_, _, _, (Carries.of_settle hbuild rfl hclear).1 e hr,
          (Carries.of_settle hbuild' rfl hclear').1 e hr',
          h.clear_agrees h' hw hw' hbuilt hregion, hall, hall'⟩
      · exact ⟨_, _, _, (Carries.of_settle hbuild rfl hclear).2 _ hr, (Carries.of_settle hbuild' rfl hclear').2 _ hr',
          hmoved, hall.trans hdone h.enters, hall'.trans hdone' h'.enters⟩

end Sideload
