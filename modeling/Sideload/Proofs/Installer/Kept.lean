import Sideload.Proofs.Disk.Check
import Sideload.Proofs.Installer.Settle

/-!
What an install that fails leaves behind. Planning changes nothing, and a build that fails takes away what
it built. After that nothing fails any more, if the destination is a name that a file can have and the
replaced artifact can be removed where it is.
-/

namespace Sideload

open Disk

variable {plan : Plan} {loc : Location} {d d' start : Disk} {target source : Path} {mode : Mode}
  {name? : Option String} {prior : Option Entry} {w w' : World} {f : Failure}

/-! ### Entries that were installed -/

/-- The entry was the answer of an install, no matter when and where. -/
def Entry.WasInstalled (e : Entry) : Prop :=
  ∃ target source mode name? prior w w',
    (installInto target source mode name? prior).run w = (.ok e, w')

/-- The path of an installed artifact is that of a file in a directory. -/
theorem Entry.WasInstalled.slot {e : Entry} (h : e.WasInstalled) : e.artifact.endsInSlash = false ∧
    ∃ d parent n, Disk.Slot d e.artifact parent n := by
  obtain ⟨target, source, mode, name?, prior, w, w', hrun⟩ := h
  rcases installInto_cases target source mode name? prior w with
    ⟨f, -, hfail⟩ | ⟨plan, hplan, ⟨f, w₁, -, hfail⟩ | ⟨w₁, -, hsettle⟩⟩
  · rw [hfail] at hrun
    cases hrun
  · rw [hfail] at hrun
    cases hrun
  rw [hsettle] at hrun
  obtain ⟨-, ⟨f, hfail, -⟩ | ⟨hanswer, -, hr⟩⟩ := settle_cases plan w₁
  · rw [hrun] at hfail
    cases hfail
  rw [hrun] at hanswer
  cases hanswer
  obtain ⟨-, -, parent, n, -, hslot, -⟩ := rename_ok hr
  exact ⟨(planned hplan).adds_dest.slash, _, parent, n, hslot⟩

theorem Entry.WasInstalled.endsInName {e : Entry} (h : e.WasInstalled) : e.artifact.EndsInName :=
  ⟨h.slot.1, h.slot.2.elim fun _ ⟨_, n, hslot⟩ => ⟨n, hslot.last⟩⟩

/-! ### Settling without a failure -/

/-- What it takes to settle on the disk on which the package directory was made: a destination that a file
can have, and a replaced artifact that can be removed while the package directory and what was built in it
stay. -/
structure Settleable (plan : Plan) (d : Disk) : Prop where
  admits : admit? plan.dest = .ok ()
  short : ¬ plan.artifactEntry.byteSize > maxName
  /-- What stands in the way to the replaced artifact is at most that something is missing. -/
  found : ∀ old, plan.prior = some old → ∀ e, d.see old.artifact false = .error e → e.isMissing = true
  /-- The replaced artifact does not lie on the way to itself or to the package directory. -/
  aside : ∀ old, plan.prior = some old → ∀ place, d.goal old.artifact false = .ok (.present place) →
    (∀ l ∈ d.approach old.artifact, ¬ place <+: l) ∧ ∀ l ∈ d.way plan.target.hub true, ¬ place <+: l
  /-- Nothing of this is reached over the place where the artifact is built. -/
  target : ∀ loc, d.Enters plan.target.hub loc → ∀ l ∈ d.way plan.target.hub true,
    ¬ loc ++ [plan.stagingEntry] <+: l
  prior : ∀ loc, d.Enters plan.target.hub loc → ∀ old, plan.prior = some old →
    ∀ l ∈ d.way old.artifact false, ¬ loc ++ [plan.stagingEntry] <+: l

/-- The way to the directory of a name is the beginning of the way to the name. -/
theorem Disk.Slot.approach_subset {p : Path} {parent : Location} {n : Name} (h : d.Slot p parent n)
    (hslash : p.endsInSlash = false) (follow : Bool) : ∀ l ∈ d.approach p, l ∈ d.way p follow := by
  obtain ⟨links, hend⟩ := h.enters
  intro l hl
  rcases List.mem_append.1 hl with hl | hl
  · exact List.mem_append_left _ hl
  · refine List.mem_append_right _ ?_
    rw [trip_eq_lead h.last hslash, Trip.andThen, hend]
    exact List.mem_append_left _ hl

/-- Nothing but the way to its directory and the entry itself is on the way to an entry. -/
theorem Disk.Slot.way_unfollowed {p : Path} {parent : Location} {n : Name} (h : d.Slot p parent n)
    (hslash : p.endsInSlash = false) : ∀ l ∈ d.way p false, l ∈ d.approach p ∨ l = parent ++ [n] := by
  obtain ⟨links, hend⟩ := h.enters
  intro l hl
  rw [way, trip_eq_lead h.last hslash, Trip.andThen, hend] at hl
  simp only [Goal.location_present, List.mem_append] at hl
  rw [View.seek_name h.short (.inl rfl)] at hl
  rcases hl with hl | hl | hl
  · exact .inl (List.mem_append_left _ hl)
  · exact .inl (List.mem_append_right _ hl)
  · exact .inr (List.mem_singleton.1 hl)

namespace Built

variable {base : Disk} (h : Built plan loc base d) (hs : Settleable plan base)
include h hs

/-- The replaced artifact is removed. -/
theorem clear_isOk (hprior : ∀ old, plan.prior = some old → old.WasInstalled) :
    (plan.clear d).1 = .ok () := by
  unfold Plan.clear
  cases hold : plan.prior with
  | none => rfl
  | some old =>
      have hway := hs.prior loc h.enters old hold
      have hlook : ∀ l ∈ base.way old.artifact false, d.look l = base.look l := fun l hl =>
        h.sameOff.look l (hway l hl)
      have hslash := (hprior old hold).slot.1
      obtain ⟨-, d₀, parent₀, n, hslot₀⟩ := (hprior old hold).slot
      dsimp only
      rcases DiskM.removeArtifact_cases old.artifact d with ⟨place, hgoal⟩ | ⟨e, hsee, hrun⟩
      · rw [h.goal_prior hway] at hgoal
        obtain ⟨parent, hslot⟩ := exists_slot_of_goal hslot₀.last hslash hgoal
        obtain ⟨hslot', happroach⟩ := hslot.congr h.sameOff.cwd fun l hl =>
          hlook l (hslot.approach_subset hslash false l hl)
        have hthere : base.look (parent ++ [n]) ≠ none ∧ place = parent ++ [n] := by
          have hgoal' := hslot.goal hslash (.inl rfl)
          rw [hgoal] at hgoal'
          split at hgoal'
          · cases hgoal'
          · next hne =>
              cases hgoal'
              exact ⟨hne, rfl⟩
        obtain ⟨hthere, rfl⟩ := hthere
        obtain ⟨label, hlabel⟩ := Option.ne_none_iff_exists'.1 hthere
        rw [← hlook _ (present_mem_way hgoal)] at hlabel
        rw [DiskM.removeArtifact_isOk hslot' hslash
          (happroach ▸ (hs.aside old hold _ hgoal).1) hlabel]
        rfl
      · rw [see_congr h.sameOff.cwd hlook] at hsee
        rw [hrun, hs.found old hold e hsee]
        rfl

/-- Removing the replaced artifact leaves the way to the package directory and what was built in it. -/
theorem aside_of_clear : (plan.clear d).2.Enters plan.target.hub loc ∧
    (plan.clear d).2.look (loc ++ [plan.stagingEntry]) = d.look (loc ++ [plan.stagingEntry]) := by
  rcases plan.clear_cases d with hsame | ⟨old, place, hold, hgoal, hshrinks, -⟩
  · rw [hsame]
    exact ⟨h.now.1, rfl⟩
  · have hway := hs.prior loc h.enters old hold
    rw [h.goal_prior hway] at hgoal
    have haside := (hs.aside old hold place hgoal).2
    refine ⟨(h.now.1.sameOff hshrinks.toSameOff fun l hl => ?_).1, hshrinks.look _ fun hpre => ?_⟩
    · rw [h.now.2] at hl
      exact haside l hl
    · rcases List.prefix_concat_iff.1 hpre with heq | habove
      · exact hway place (present_mem_way hgoal) (heq ▸ List.prefix_refl _)
      · exact haside loc (h.enters.mem_way (List.prefix_refl loc)) habove

/-- Afterwards the name of the artifact is free. -/
theorem free_of_clear (hplan : Planned start target source mode name? prior plan)
    (hbase : base = start.opened target) (hup : .up ∉ target.components)
    (hprior : ∀ old, plan.prior = some old → old.WasInstalled) :
    (plan.clear d).2.look (loc ++ [plan.artifactEntry]) = none := by
  subst hbase
  exact h.freed hplan (fun _ => hup) (fun old hold => (hprior old hold).endsInName) hplan.dest_mem
    hplan.dest_eq_join (artifactName_proper hplan.valid _ _ _) hplan.artifactEntry_ne hs.admits hs.short
    (h.clear_isOk hs hprior)

/-- What was built is moved to its place. -/
theorem rename_isOk (hplan : Planned start target source mode name? prior plan)
    (hbase : base = start.opened target) (hup : .up ∉ target.components)
    (hprior : ∀ old, plan.prior = some old → old.WasInstalled)
    (hthere : d.look (loc ++ [plan.stagingEntry]) ≠ none) (hadmits : admit? plan.staging = .ok ())
    (hshort : ¬ plan.stagingEntry.byteSize > maxName) :
    ∃ d', (plan.clear d).2.rename plan.staging plan.dest = .ok d' := by
  obtain ⟨he, hbuilt⟩ := h.aside_of_clear hs
  have hstaging := plan.adds_staging hplan.valid
  have hdest := hplan.adds_dest
  refine Disk.rename_isOk (he.slot hstaging.route hadmits hstaging.last hshort).1
    (he.slot hdest.route hs.admits hdest.last hs.short).1 hstaging.slash hdest.slash (by rwa [hbuilt])
    (h.free_of_clear hs hplan hbase hup hprior) ?_
  rw [List.prefix_append_right_inj, List.cons_prefix_cons]
  exact fun heq => hplan.artifactEntry_ne heq.1.symm

end Built

/-- What was built is settled. -/
theorem Built.settles {base : Disk} (h : Built plan loc base w.disk) (hs : Settleable plan base)
    (hplan : Planned start target source mode name? prior plan) (hbase : base = start.opened target)
    (hup : .up ∉ target.components) (hprior : ∀ old, plan.prior = some old → old.WasInstalled)
    (hthere : w.disk.look (loc ++ [plan.stagingEntry]) ≠ none) (hadmits : admit? plan.staging = .ok ())
    (hshort : ¬ plan.stagingEntry.byteSize > maxName) :
    ∃ w', (settle plan).run w = (.ok (plan.entry w.now), w') ∧ (plan.clear w.disk).1 = .ok () ∧
      (plan.clear w.disk).2.rename plan.staging plan.dest = .ok w'.disk := by
  have hclear := h.clear_isOk hs hprior
  obtain ⟨d', hmove⟩ := h.rename_isOk hs hplan hbase hup hprior hthere hadmits hshort
  obtain ⟨-, ⟨f, -, -, hfails⟩ | ⟨hok, -, hr⟩⟩ := settle_cases plan w
  · exact absurd hmove (hfails hclear d')
  · exact ⟨_, Prod.ext hok rfl, hclear, hr⟩

/-! ### Installs that fail -/

/-- What there is after an install that failed: what there was, or what there was when the package directory
was made, without what an earlier install may have left at the staging entry. -/
def Kept (target : Path) (staging : Name) (d d' : Disk) : Prop :=
  d' = d ∨ d' = d.opened target ∨ ∃ loc, (d.opened target).Enters target.hub loc ∧
    SameOff (loc ++ [staging]) (d.opened target) d' ∧ Gone (loc ++ [staging]) d'

/-- What was at the place of an artifact is still there, and at most directories are new there. -/
def Untouched (p : Path) (d d' : Disk) : Prop :=
  ∀ place, d.goal p false = .ok (.present place) → d'.goal p false = .ok (.present place) ∧
    ∀ l, place <+: l → d'.look l = d.look l ∨ d.look l = none ∧ d'.look l = some .dir

theorem Disk.Opens.untouched (h : Opens d d') (p : Path) : Untouched p d d' := by
  intro place hgoal
  refine ⟨?_, fun l _ => h.look l⟩
  rw [← hgoal]
  exact goal_congr h.cwd fun l hl => h.look_of_ne_none (ne_none_of_way hgoal l hl)

/-- The replaced artifact is untouched by a build. -/
theorem Built.untouched (h : Built plan loc (start.opened target) d)
    (hs : Settleable plan (start.opened target)) {old : Entry} (hold : plan.prior = some old) :
    Untouched old.artifact start d := by
  intro place hgoal
  obtain ⟨hopened, hlook⟩ := (opens_opened start target).untouched _ place hgoal
  have hway := hs.prior loc h.enters old hold
  refine ⟨(h.goal_prior hway).trans hopened, fun l hl => ?_⟩
  rw [h.sameOff.look l fun hstaging => ?_]
  · exact hlook l hl
  -- otherwise the artifact would lie at, below or above the staging entry
  rcases List.prefix_or_prefix_of_prefix hl hstaging with habove | hbelow
  · rcases List.prefix_concat_iff.1 habove with heq | habove
    · exact hway place (present_mem_way hopened) (heq ▸ List.prefix_refl _)
    · exact (hs.aside old hold place hopened).2 loc (h.enters.mem_way (List.prefix_refl loc)) habove
  · exact hway place (present_mem_way hopened) hbelow

/-- An install that fails keeps what there was, if it fails while it plans or if its plan can be settled. -/
theorem installInto_keeps (hproper : w.disk.Proper)
    (hcwd : target.isEmpty = true → w.disk.look w.disk.cwd = some .dir) (hup : .up ∉ target.components)
    (hprior : ∀ old, prior = some old → old.WasInstalled)
    (hs : ∀ plan, planInstall w.disk target source mode name? prior = .ok plan →
      Settleable plan (w.disk.opened target))
    (hrun : (installInto target source mode name? prior).run w = (.error f, w')) :
    w' = w ∨ ∃ plan, planInstall w.disk target source mode name? prior = .ok plan ∧
      Kept target plan.stagingEntry w.disk w'.disk ∧
      ∀ old, prior = some old → Untouched old.artifact w.disk w'.disk := by
  rcases installInto_cases target source mode name? prior w with
    ⟨f', -, hfail⟩ | ⟨plan, hplan, hcases⟩
  · rw [hfail] at hrun
    cases hrun
    exact .inl rfl
  refine .inr ⟨plan, hplan, ?_⟩
  have hsettles := hs plan hplan
  have hknown := planned hplan
  obtain rfl := hknown.target_eq
  rcases build_starts hknown.valid hcwd hproper
    (fun loc he hl => hsettles.target loc he _ hl (List.prefix_refl _)) with
    ⟨f', hfail⟩ | ⟨loc, d, he, hcleared, hstage⟩
  · have hopened : w'.disk = w.disk.opened plan.target := by
      rcases hcases with ⟨f'', w₁, hbuild, hinstall⟩ | ⟨w₁, hbuild, -⟩
      · rw [hinstall] at hrun
        rw [hfail] at hbuild
        cases hbuild
        cases hrun
        rfl
      · rw [hfail] at hbuild
        cases hbuild
    exact ⟨.inr (.inl hopened), fun old _ => hopened ▸ (opens_opened _ _).untouched _⟩
  have hleaves := hcleared.leaves (w := { w with disk := d }) plan.source plan.mode plan.isDir
    (plan.adds_staging hknown.valid)
  rw [← hstage] at hleaves
  rcases hcases with ⟨f'', w₁, hbuild, hinstall⟩ | ⟨w₁, hbuild, hsettle⟩ <;> rw [hbuild] at hleaves
  · rw [hinstall] at hrun
    cases hrun
    have hbuilt : Built plan loc (w.disk.opened plan.target) w'.disk :=
      ⟨he, hsettles.target loc he, hleaves.sameOff⟩
    exact ⟨.inr (.inr ⟨loc, he, hleaves.sameOff, hleaves.gone _ rfl⟩), fun old hold =>
      hbuilt.untouched hsettles (hknown.prior_eq.trans hold)⟩
  · -- nothing fails any more
    have hbuilt : Built plan loc (w.disk.opened plan.target) w₁.disk :=
      ⟨he, hsettles.target loc he, hleaves.sameOff⟩
    have hinstalled : ∀ old, plan.prior = some old → old.WasInstalled := fun old hold =>
      hprior old (hknown.prior_eq.symm.trans hold)
    obtain ⟨w₂, hok, -⟩ := hbuilt.settles hsettles hknown rfl hup hinstalled (hleaves.there rfl)
      hcleared.slot.admits hcleared.slot.short
    rw [hsettle, hok] at hrun
    cases hrun

/-- A package directory with a copy of a module, whose source is now a directory with a link that leads
nowhere. -/
def brokenWorld : World := .holding
  [(Glyph.ofString "m", .dir [(Glyph.ofString "a.py", .link (.ofString "gone.py"))]),
    (Glyph.ofString "site", .dir [(Glyph.ofString "m.py", .file .empty false)])]

def copiedEntry : Entry := ⟨"m", .ofString "/m.py", .copy, .ofString "/site/m.py", sampleMoment⟩

theorem copiedEntry_wasInstalled : copiedEntry.WasInstalled := by
  refine ⟨.ofString "/site", .ofString "/m.py", .copy, none, none,
    .holding [(Glyph.ofString "m.py", .file .empty false)], _, Prod.ext ?_ rfl⟩
  cbv

def brokenInstall : Work Failure Entry :=
  installInto (.ofString "/site") (.ofString "/m") .copy none (some copiedEntry)

def brokenPlan : Plan where
  name := "m"
  derived := "m"
  source := .ofString "/m"
  isDir := true
  mode := .copy
  target := .ofString "/site"
  dest := .ofString "/site/m"
  prior := some copiedEntry

theorem brokenPlan_settleable : Settleable brokenPlan brokenWorld.disk := by
  have hunique : ∀ loc, brokenWorld.disk.Enters (.ofString "/site") loc → loc = [Glyph.ofString "site"] :=
    fun loc he => Enters.unique ⟨by cbv, by cbv⟩ he
  have hcopied : brokenWorld.disk.goal (.ofString "/site/m.py") false =
      .ok (.present [Glyph.ofString "site", Glyph.ofString "m.py"]) := by cbv
  have hway : brokenWorld.disk.way (.ofString "/site/m.py") false =
      [[], [Glyph.ofString "site"], [Glyph.ofString "site", Glyph.ofString "m.py"]] := by cbv
  have hsite : brokenWorld.disk.way (.ofString "/site") true = [[], [Glyph.ofString "site"]] := by cbv
  have happroach : brokenWorld.disk.approach (.ofString "/site/m.py") = [[], [Glyph.ofString "site"]] := by
    cbv
  refine ⟨by decide, by decide, ?_, ?_, ?_, ?_⟩
  · rintro old hold e hsee
    cases hold
    have hfound : brokenWorld.disk.see (.ofString "/site/m.py") false = .ok (.file .empty false) := by cbv
    cases hfound.symm.trans hsee
  · rintro old hold place hgoal
    cases hold
    cases hcopied.symm.trans hgoal
    constructor
    · show ∀ l ∈ brokenWorld.disk.approach (.ofString "/site/m.py"), _
      rw [happroach]
      decide
    · show ∀ l ∈ brokenWorld.disk.way (.ofString "/site") true, _
      rw [hsite]
      decide
  · intro loc he
    obtain rfl := hunique loc he
    show ∀ l ∈ brokenWorld.disk.way (.ofString "/site") true, _
    rw [hsite]
    decide
  · intro loc he old hold
    obtain rfl := hunique loc he
    cases hold
    show ∀ l ∈ brokenWorld.disk.way (.ofString "/site/m.py") false, _
    rw [hway]
    decide

/-- The copy of the directory fails, and the copy of the module stays. -/
theorem installInto_keeps_copied :
    (brokenInstall.run brokenWorld).1.isOk = false ∧
      Untouched (.ofString "/site/m.py") brokenWorld.disk (brokenInstall.run brokenWorld).2.disk := by
  have hfail : (brokenInstall.run brokenWorld).1.isOk = false := by cbv
  refine ⟨hfail, ?_⟩
  have hproper : brokenWorld.disk.Proper := proper_of_every (fun n hn => by cases hn) (by decide)
  have hopened : brokenWorld.disk.opened (.ofString "/site") = brokenWorld.disk := by cbv
  have hplan : planInstall brokenWorld.disk (.ofString "/site") (.ofString "/m") .copy none
      (some copiedEntry) = .ok brokenPlan := by cbv
  rcases hrun : brokenInstall.run brokenWorld with ⟨f | e, w'⟩
  · rcases installInto_keeps hproper (fun hempty => absurd hempty (by decide)) (by decide)
      (fun old hold => by
        cases hold
        exact copiedEntry_wasInstalled)
      (fun plan h => by
        cases hplan.symm.trans h
        rw [hopened]
        exact brokenPlan_settleable) hrun with rfl | ⟨plan, -, -, huntouched⟩
    · exact (Opens.refl _).untouched _
    · exact huntouched copiedEntry rfl
  · rw [hrun] at hfail
    cases hfail

/-- An installed package, and a source for another install of its name. -/
def nestedWorld : World := .holding
  [(Glyph.ofString "m.py", .file .empty false),
    (Glyph.ofString "a", .dir [(Glyph.ofString "m", .dir [(Glyph.ofString "__init__.py", .file .empty false)])])]

def nestedEntry : Entry := ⟨"m", .ofString "/p/m", .copy, .ofString "/a/m", sampleMoment⟩

def nestedInstall : Work Failure Entry :=
  installInto (.ofString "/a/m/sub") (.ofString "/m.py") .copy none (some nestedEntry)

theorem nestedEntry_wasInstalled : nestedEntry.WasInstalled := by
  refine ⟨.ofString "/a", .ofString "/p/m", .copy, none, none,
    .holding [(Glyph.ofString "p", .dir [(Glyph.ofString "m", .dir [])])], _, Prod.ext ?_ rfl⟩
  cbv

/-- An install into a directory of the artifact that it replaces fails when it has removed that artifact. -/
theorem installInto_loses_nested : nestedEntry.WasInstalled ∧
    (nestedInstall.run nestedWorld).1.isOk = false ∧
    nestedWorld.disk.occupied (.ofString "/a/m") = true ∧
    (nestedInstall.run nestedWorld).2.disk.occupied (.ofString "/a/m") = false :=
  ⟨nestedEntry_wasInstalled, by cbv, by cbv, by cbv⟩

end Sideload
