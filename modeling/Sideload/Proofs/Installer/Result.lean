import Sideload.Proofs.Disk.Check
import Sideload.Proofs.Installer.Product
import Sideload.Proofs.Installer.Settle

/-!
What an install that succeeds leaves behind. The answer describes the source as it was found, the artifact
is what the module consists of, and nothing else differs from the disk on which the package directory was
made, but that the artifact of the replaced entry is gone.
-/

namespace Sideload

open Disk

/-- Neither the package directory nor a copied source nor the replaced artifact is reached over a
location. -/
structure Apart (top : Location) (d : Disk) (target source : Path) (mode : Mode) (prior : Option Entry) :
    Prop where
  target : ∀ l ∈ d.way target.hub true, ¬ top <+: l
  source : mode = .copy → Far top d source
  prior : ∀ old, prior = some old → ∀ l ∈ d.way old.artifact false, ¬ top <+: l

namespace Entry

/-- The names that an entry is built under and has in its package directory. -/
def stagingEntry (e : Entry) : Name := Glyph.ofString (stagingName e.name)

def artifactEntry (e : Entry) (isDir : Bool) : Name :=
  Glyph.ofString (artifactName e.source e.name e.mode isDir)

end Entry

/-- The artifact of an entry was put into a package directory at `loc` of the disk `d`. -/
structure Placed (target : Path) (prior : Option Entry) (e : Entry) (loc : Location) (n : Name)
    (d d' : Disk) : Prop where
  enters : d.Enters target.hub loc
  found : ∀ follow, d'.goal e.artifact follow = .ok (.present (loc ++ [n]))
  holds : Holds (loc ++ [n]) (product d e.source e.mode) d'
  unstaged : d'.occupied (stagingPath target e.name) = false
  gone : Gone (loc ++ [e.stagingEntry]) d'
  /-- Where the replaced artifact was there is nothing, unless its path leads over the new one. -/
  replaced : ∀ old, prior = some old → ∀ place, d'.goal old.artifact false = .ok (.present place) →
    ∃ l ∈ d'.way old.artifact false, loc ++ [n] <+: l
  elsewhere : ∀ l, ¬ loc ++ [e.stagingEntry] <+: l → ¬ loc ++ [n] <+: l →
    (∀ old place, prior = some old → d.goal old.artifact false = .ok (.present place) →
      ¬ place <+: l) → d'.look l = d.look l

variable {plan : Plan} {loc : Location} {base d d' : Disk} {target source : Path} {mode : Mode}
  {name? : Option String} {prior : Option Entry} {start : Disk}

/-- Taking the old artifact away leaves everything that is not at or below it. -/
theorem Built.look_clear (h : Built plan loc base d)
    (hprior : ∀ old, plan.prior = some old → ∀ l ∈ base.way old.artifact false,
      ¬ loc ++ [plan.stagingEntry] <+: l) {l : Location}
    (hl : ∀ old place, plan.prior = some old → base.goal old.artifact false = .ok (.present place) →
      ¬ place <+: l) : (plan.clear d).2.look l = d.look l := by
  rcases plan.clear_cases d with hsame | ⟨old, place, hold, hgoal, hshrinks, -⟩
  · rw [hsame]
  · rw [h.goal_prior (hprior old hold)] at hgoal
    exact hshrinks.look l (hl old place hold hgoal)

/-- The artifact is what was built. -/
theorem Built.holds {v : View} (h : Built plan loc base d)
    (hplan : Planned start target source mode name? prior plan)
    (hholds : Holds (loc ++ [plan.stagingEntry]) v d)
    (hprior : ∀ old, plan.prior = some old → ∀ l ∈ base.way old.artifact false,
      ¬ loc ++ [plan.stagingEntry] <+: l)
    (hok : (plan.clear d).1 = .ok ())
    (hr : (plan.clear d).2.rename plan.staging plan.dest = .ok d') :
    Holds (loc ++ [plan.artifactEntry]) v d' := by
  have hmoved := h.moved hplan hr
  -- the replaced artifact is neither above the staging entry, which is still there, nor below it
  have hbuilt : ∀ rel, (plan.clear d).2.look (loc ++ [plan.stagingEntry] ++ rel) =
      d.look (loc ++ [plan.stagingEntry] ++ rel) := by
    intro rel
    rcases plan.clear_cases d with hsame | ⟨old, place, hold, hgoal, hshrinks, hempty⟩
    · rw [hsame]
    · rw [h.goal_prior (hprior old hold)] at hgoal
      refine hshrinks.look _ fun hpre => ?_
      rcases List.prefix_or_prefix_of_prefix hpre (List.prefix_append _ rel) with habove | hbelow
      · exact hmoved.built (hempty hok _ habove)
      · exact hprior old hold place (present_mem_way hgoal) hbelow
  refine ⟨?_, fun rel hrel => ?_⟩
  · rintro l ⟨rel, rfl⟩
    rw [hmoved.look_artifact, hbuilt]
    exact hholds.noLinks _ (List.prefix_append _ rel)
  · rw [hmoved.look_artifact, hbuilt]
    exact hholds.look rel hrel

/-- Settling what was built. -/
theorem Built.placed (h : Built plan loc base d) (hplan : Planned start target source mode name? prior plan)
    (hholds : Holds (loc ++ [plan.stagingEntry]) (product base plan.source plan.mode) d)
    (hprior : ∀ old, prior = some old → ∀ l ∈ base.way old.artifact false,
      ¬ loc ++ [plan.stagingEntry] <+: l)
    (hway : ∀ l ∈ base.way plan.target.hub true, ¬ loc ++ [plan.artifactEntry] <+: l)
    (hok : (plan.clear d).1 = .ok ())
    (hr : (plan.clear d).2.rename plan.staging plan.dest = .ok d') (now : Moment) :
    Placed plan.target prior (plan.entry now) loc plan.artifactEntry base d' := by
  rw [← hplan.prior_eq] at hprior
  have hmoved := h.moved hplan hr
  have hne := hplan.artifactEntry_ne
  have hgone := hmoved.gone_staging hne
  have hholds' := h.holds hplan hholds hprior hok hr
  obtain ⟨he, hwayNow⟩ := h.cleared hplan hmoved.dest
  obtain ⟨he', -⟩ := he.congr hmoved.cwd fun l hl => by
    rw [hwayNow] at hl
    exact hmoved.look_elsewhere (h.way l hl) (hway l hl)
  have hdest := hplan.adds_dest
  obtain ⟨hslot, -⟩ := he'.slot hdest.route hmoved.dest.admits hdest.last hmoved.dest.short
  have hthere : d'.look (loc ++ [plan.artifactEntry]) ≠ none := by
    have hsame := hmoved.look_artifact []
    rw [List.append_nil, List.append_nil] at hsame
    rw [hsame]
    exact hmoved.built
  refine ⟨h.enters, fun follow => ?_, hholds', ?_, hgone, ?_, fun l hstaging hart hl => ?_⟩
  · rw [show (plan.entry now).artifact = plan.dest from rfl,
      hslot.goal hdest.slash (.inr (hholds'.noLinks _ (List.prefix_refl _))), if_neg hthere]
  · by_contra hthere
    obtain ⟨place, hgoal, -⟩ := occupied_iff.1 (by simpa using hthere)
    have hq := plan.adds_staging hplan.valid
    obtain ⟨parent, hslot'⟩ := exists_slot_of_goal hq.last hq.slash hgoal
    obtain ⟨rfl, -, -⟩ := he'.slot_adds hq hslot'
    have hvacant := hslot'.goal hq.slash (.inl rfl)
    rw [if_pos (hgone _ (List.prefix_refl _))] at hvacant
    exact nomatch hgoal.symm.trans hvacant
  · intro old hold place hgoal
    by_contra hnot
    push Not at hnot
    refine plan.absent_of_clear (hplan.prior_eq.trans hold) hok place ?_
    rw [← hgoal]
    refine goal_congr hmoved.cwd.symm fun l hl => ?_
    refine (hmoved.look_elsewhere (fun hstaging => ?_) (hnot l hl)).symm
    exact ne_none_of_way hgoal l hl (hgone l hstaging)
  · rw [hmoved.look_elsewhere hstaging hart, h.look_clear hprior (hplan.prior_eq ▸ hl)]
    exact h.sameOff.look l hstaging

/-- The entry that an install answers with describes what was found on the disk `d`. -/
structure Describes (d : Disk) (target source : Path) (mode : Mode) (name? : Option String) (now : Moment)
    (e : Entry) : Prop where
  source : resolveSource d source = .ok e.source
  name : name? = some e.name ∨ name? = none ∧ deriveName d e.source = .ok e.name
  valid : validateName e.name = .ok ()
  mode_eq : e.mode = mode
  artifact : e.artifact = destination target e.source e.name mode (d.isDir e.source)
  installedAt : e.installedAt = now

theorem Planned.describes (h : Planned d target source mode name? prior plan) (now : Moment) :
    Describes d target source mode name? now (plan.entry now) := by
  refine ⟨h.resolved, ?_, validateName_eq_ok_iff.2 h.valid, h.mode_eq, ?_, rfl⟩
  · have hnamed := h.named
    cases name? with
    | none => exact .inr ⟨rfl, h.derived.trans (congrArg Except.ok hnamed.symm)⟩
    | some name => exact .inl (congrArg some hnamed.symm)
  · show plan.dest = destination target plan.source plan.name mode (d.isDir plan.source)
    rw [h.dest_eq, h.isDir_eq]

/-- An install that succeeds answers with the source as it was found, under the name that was given or
derived. Its artifact is found at its destination and is what the module consists of; the staging path and
the replaced artifact are absent, that one unless its path leads over the new artifact. Everything else is
as it was when the package directory was made, which makes directories only. -/
theorem installInto_places {w w' : World} {e : Entry} (hproper : w.disk.Proper)
    (hcwd : target.isEmpty = true → w.disk.look w.disk.cwd = some .dir)
    (hapart : ∀ loc, (w.disk.opened target).Enters target.hub loc →
      Apart (loc ++ [e.stagingEntry]) (w.disk.opened target) target e.source mode prior)
    (hway : ∀ loc, (w.disk.opened target).Enters target.hub loc →
      ∀ l ∈ (w.disk.opened target).way target.hub true,
        ¬ loc ++ [e.artifactEntry (w.disk.isDir e.source)] <+: l)
    (hrun : (installInto target source mode name? prior).run w = (.ok e, w')) :
    Describes w.disk target source mode name? w.now e ∧
      Opens w.disk (w.disk.opened target) ∧ NewOn target.ancestors w.disk (w.disk.opened target) ∧
      ∃ loc, Placed target prior e loc (e.artifactEntry (w.disk.isDir e.source))
        (w.disk.opened target) w'.disk := by
  rcases installInto_cases target source mode name? prior w with
    ⟨f, -, hfail⟩ | ⟨plan, hplan, ⟨f, w₁, -, hfail⟩ | ⟨w₁, hbuild, hsettle⟩⟩
  · rw [hfail] at hrun
    cases hrun
  · rw [hfail] at hrun
    cases hrun
  replace hplan := planned hplan
  rw [hsettle] at hrun
  obtain ⟨-, ⟨f, hfail, -⟩ | ⟨hanswer, hok, hr⟩⟩ := settle_cases plan w₁
  · rw [hrun] at hfail
    cases hfail
  rw [hrun] at hanswer hr
  cases hanswer
  obtain rfl := hplan.target_eq
  obtain rfl := hplan.mode_eq
  rcases build_starts hplan.valid hcwd hproper
    (fun loc he hl => (hapart loc he).target _ hl (List.prefix_refl _)) with
    ⟨f, hfail⟩ | ⟨loc, d, he, hcleared, hstage⟩
  · rw [hfail] at hbuild
    cases hbuild
  rw [hstage] at hbuild
  have hleaves := hcleared.leaves (w := { w with disk := d }) plan.source plan.mode plan.isDir
    (plan.adds_staging hplan.valid)
  rw [hbuild] at hleaves
  have hholds := stageOrClean_holds (w := { w with disk := d }) hplan (opens_opened w.disk plan.target)
    hcleared (hapart loc he).source hbuild
  have hbuilt : Built plan loc (w.disk.opened plan.target) w₁.disk :=
    ⟨he, (hapart loc he).target, hleaves.sameOff⟩
  refine ⟨?_, opens_opened _ _, newOn_opened _ _, loc, ?_⟩
  · rw [show w₁.now = w.now from hleaves.now]
    exact hplan.describes w.now
  · have hname : (plan.entry w₁.now).artifactEntry (w.disk.isDir plan.source) = plan.artifactEntry := by
      rw [← hplan.isDir_eq]
      rfl
    have hplaced := hbuilt.placed hplan hholds (hapart loc he).prior
      (fun l hl => hname ▸ hway loc he l hl) hok hr w₁.now
    rwa [← hname] at hplaced

/-- A package with one file, and a package directory with a module that it is going to replace. -/
def packageWorld : World := .holding
  [(Glyph.ofString "src", .dir [(Glyph.ofString "m", .dir [(Glyph.ofString "a.py", .file .empty false)])]),
    (Glyph.ofString "site", .dir [(Glyph.ofString "m.py", .file .empty false)])]

def olderEntry : Entry := ⟨"m", .ofString "/m.py", .copy, .ofString "/site/m.py", sampleMoment⟩

def packageEntry : Entry := ⟨"m", .ofString "/src/m", .copy, .ofString "/site/m", sampleMoment⟩

def packageInstall : Work Failure Entry :=
  installInto (.ofString "/site") (.ofString "/src/m") .copy none (some olderEntry)

/-- The package takes the place of the module: nothing that the install needs is reached over the place
where it is built. -/
theorem installInto_places_package :
    Placed (.ofString "/site") (some olderEntry) packageEntry [Glyph.ofString "site"]
      (Glyph.ofString "m") packageWorld.disk (packageInstall.run packageWorld).2.disk := by
  have hopened : packageWorld.disk.opened (.ofString "/site") = packageWorld.disk := by cbv
  have hunique : ∀ loc, (packageWorld.disk.opened (.ofString "/site")).Enters (.ofString "/site") loc →
      loc = [Glyph.ofString "site"] := by
    intro loc he
    rw [hopened] at he
    exact Enters.unique ⟨by cbv, by cbv⟩ he
  have hproper : packageWorld.disk.Proper := proper_of_every (fun n hn => by cases hn) (by decide)
  have htarget : packageWorld.disk.way (.ofString "/site") true =
      [[], [Glyph.ofString "site"]] := by cbv
  have holder : packageWorld.disk.way olderEntry.artifact false =
      [[], [Glyph.ofString "site"], [Glyph.ofString "site", Glyph.ofString "m.py"]] := by cbv
  have hfar : Far [Glyph.ofString "site", Glyph.ofString ".nopkg_m.partial"] packageWorld.disk
      (.ofString "/src/m") :=
    far_of_linkless (by decide) (by decide) (by decide)
      (show _ = [Glyph.ofString "src", Glyph.ofString "m"].map Step.name by cbv) (by decide)
  have hisDir : packageWorld.disk.isDir packageEntry.source = true := by cbv
  have hrun : packageInstall.run packageWorld = (.ok packageEntry, (packageInstall.run packageWorld).2) :=
    Prod.ext (by cbv) rfl
  have hapart : Apart [Glyph.ofString "site", packageEntry.stagingEntry] packageWorld.disk
      (.ofString "/site") packageEntry.source .copy (some olderEntry) := by
    refine ⟨?_, fun _ => hfar, ?_⟩
    · show ∀ l ∈ packageWorld.disk.way (.ofString "/site") true, _
      rw [htarget]
      decide
    · rintro old hold
      cases hold
      rw [holder]
      decide
  obtain ⟨-, -, -, loc, hplaced⟩ := installInto_places hproper (fun hempty => absurd hempty (by decide))
    (fun loc he => by
      obtain rfl := hunique loc he
      rw [hopened]
      exact hapart)
    (fun loc he => by
      obtain rfl := hunique loc he
      rw [hopened, hisDir]
      show ∀ l ∈ packageWorld.disk.way (.ofString "/site") true, _
      rw [htarget]
      decide) hrun
  obtain rfl := hunique loc hplaced.enters
  rwa [hopened, hisDir] at hplaced

/-- A package directory that is a link at the place where the package is going to be built. -/
def detourWorld : World := .holding
  [(Glyph.ofString "src", .dir [(Glyph.ofString "m", .dir [(Glyph.ofString "a.py", .file .empty false)])]),
    (Glyph.ofString "site", .dir [(Glyph.ofString ".nopkg_m.partial", .link (.ofString ".")),
      (Glyph.ofString "keep.txt", .file .empty false)])]

def detourInstall : Work Failure Entry :=
  installInto (.ofString "/site/.nopkg_m.partial") (.ofString "/src/m") .copy none none

/-- An install that replaces an entry whose artifact is where the new one has a file. -/
def innerInstall : Work Failure Entry :=
  installInto (.ofString "/site") (.ofString "/src/m") .copy none
    (some { olderEntry with artifact := .ofString "/site/m/a.py" })

/-- Where the package directory is reached over its own staging path, an install that succeeds hides the
files that were in it: the link is removed as what an earlier install left. And the path of the replaced
artifact is not absent if the new artifact has something there. -/
theorem installInto_hides :
    ((detourInstall.run detourWorld).1 =
        .ok { packageEntry with artifact := .ofString "/site/.nopkg_m.partial/m" } ∧
      detourWorld.disk.occupied (.ofString "/site/.nopkg_m.partial/keep.txt") = true ∧
      (detourInstall.run detourWorld).2.disk.occupied
        (.ofString "/site/.nopkg_m.partial/keep.txt") = false) ∧
    (innerInstall.run packageWorld).1 = .ok packageEntry ∧
    (innerInstall.run packageWorld).2.disk.occupied (.ofString "/site/m/a.py") = true :=
  ⟨⟨by cbv, by cbv, by cbv⟩, by cbv, by cbv⟩

end Sideload
