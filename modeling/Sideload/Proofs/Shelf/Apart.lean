import Sideload.Proofs.Registry.Home
import Sideload.Proofs.Shelf.Managed

/-!
Registries apart from the work on the files. A call reaches the staging entry and the entry of the artifact
in its package directory, and the place of the recorded artifact. A registry none of whose places is reached
stands after the work as it stood before.
-/

namespace Sideload

open Disk

variable {shelf : Shelf} {c : Change} {w w' : World} {r : Registry} {plan : Plan} {loc l : Location}
  {d : Disk} {home : Home}

/-! ### Working directories -/

theorem cwd_settle (plan : Plan) (w : World) : ((settle plan).run w).2.disk.cwd = w.disk.cwd := by
  rw [← plan.cwd_clear w.disk]
  obtain ⟨-, ⟨f, -, hdisk, -⟩ | ⟨-, -, hr⟩⟩ := settle_cases plan w
  · rw [hdisk]
  · obtain ⟨-, -, -, -, -, -, -, hcwd, -⟩ := rename_ok hr
    exact hcwd

namespace Change

/-- What a call may change apart from making its package directory: what is at or below the staging entry or
the entry of the new artifact, and what is at or below the place of the recorded artifact. -/
inductive Reaches (shelf : Shelf) (w : World) (c : Change) (l : Location) : Prop
  | placed {r : Registry} {plan : Plan} {loc : Location} {k : Name} (hplans : c.Plans shelf w.disk r plan)
      (henters : (w.disk.opened plan.target).Enters plan.target.hub loc)
      (hk : k = plan.stagingEntry ∨ k = plan.artifactEntry) (hl : loc ++ [k] <+: l)
  | recorded {name : String} {r : Registry} {e : Entry} {place : Location}
      (hname : Concerns w.disk name c) (hread : Registry.read w.disk shelf.registryPath = .ok r)
      (hget : r.get? name = some e)
      (hplace : (c.prepared shelf w).goal e.artifact false = .ok (.present place)) (hl : place <+: l)

/-- A call that stays apart from the registry. Its package directory is reached directly, nothing that is
looked up or written for the registry is reached, and making the package directory makes no directory where
the registry or its draft is. -/
structure Apart (shelf : Shelf) (home : Home) (w : World) (c : Change) : Prop where
  proper : w.disk.Proper
  direct : ∀ r plan, c.Plans shelf w.disk r plan → Direct w.disk plan.target plan.stagingEntry
  places : ∀ l ∈ home.places w.disk, ¬ c.Reaches shelf w l
  names : ∀ r plan, c.Plans shelf w.disk r plan → ∀ l, l = home.file ∨ l = home.draft →
    (w.disk.opened plan.target).look l ≠ some .dir

/-- What a call does before it saves changes nothing but what it reaches, on the disk as it was or with the
package directory made. -/
theorem fileWork_unreached (hproper : w.disk.Proper)
    (hdirect : ∀ r plan, c.Plans shelf w.disk r plan → Direct w.disk plan.target plan.stagingEntry) :
    ∃ d, (d = w.disk ∨ ∃ r plan, c.Plans shelf w.disk r plan ∧ d = w.disk.opened plan.target) ∧
      ((c.fileWork shelf).run w).2.disk.cwd = d.cwd ∧
      ∀ l, ¬ c.Reaches shelf w l → ((c.fileWork shelf).run w).2.disk.look l = d.look l := by
  rcases c.fileWork_cases shelf w with hsame | ⟨r, plan, w₀, w₁, answer, hplans, hdisk, hbuild,
    hprepared, hfinal⟩ | ⟨name, r, e, rfl, hread, hget, hfinal⟩
  · exact ⟨w.disk, .inl rfl, by rw [hsame], fun l _ => by rw [hsame]⟩
  · refine ⟨w.disk.opened plan.target, .inr ⟨r, plan, hplans, rfl⟩, ?_⟩
    obtain ⟨haims, hname⟩ := hplans.aims
    obtain ⟨source, mode, name?, prior, hknown⟩ := haims.planned
    have hbuilds := build_confined (w := w₀) hknown.valid (hdisk ▸ hproper) (hdisk ▸ hdirect r plan hplans)
    rw [hbuild, Builds, hdisk] at hbuilds
    rcases hbuilds with ⟨f, hfails, hmade⟩ | ⟨loc, he, hconfined⟩
    · obtain hfinal | ⟨hok, -⟩ := hfinal
      · exact ⟨by rw [hfinal, hmade], fun l _ => by rw [hfinal, hmade]⟩
      · cases hok.symm.trans hfails
    · have hbuilt : ∀ l, ¬ (Reaches shelf w c l) → w₁.disk.look l = (w.disk.opened plan.target).look l :=
        fun l hl => hconfined.sameOff.look l fun hpre => hl (.placed hplans he (.inl rfl) hpre)
      obtain hfinal | ⟨-, hfinal⟩ := hfinal
      · exact ⟨by rw [hfinal, hconfined.sameOff.cwd], fun l hl => by rw [hfinal, hbuilt l hl]⟩
      · refine ⟨by rw [hfinal, cwd_settle, hconfined.sameOff.cwd], fun l hl => ?_⟩
        rw [hfinal, hconfined.settle_off hknown (fun hpre => hl (.placed hplans he (.inl rfl) hpre))
          (fun _ _ hpre => hl (.placed hplans he (.inr rfl) hpre)), plan.look_clear, hbuilt l hl]
        intro old place hold hgoal hpre
        exact hl (.recorded hname haims.read (haims.prior.symm.trans hold) (hprepared ▸ hgoal) hpre)
  · refine ⟨w.disk, .inl rfl, ?_⟩
    rw [hfinal]
    rcases DiskM.removeArtifact_cases e.artifact w.disk with ⟨place, hgoal⟩ | ⟨f, -, hsame⟩
    · obtain ⟨hshrinks, -⟩ := DiskM.removeArtifact_spec hgoal
      exact ⟨hshrinks.cwd, fun l hl => hshrinks.look l fun hpre =>
        hl (.recorded .uninstall hread hget hgoal hpre)⟩
    · exact ⟨by rw [hsame], fun l _ => by rw [hsame]⟩

/-- A registry apart from a call is where and what it was when the call comes to save. -/
theorem Apart.housed (hc : c.Apart shelf home w) (h : Housed w.disk shelf.registryPath home) :
    Housed ((c.fileWork shelf).run w).2.disk shelf.registryPath home ∧
      ((c.fileWork shelf).run w).2.disk.look home.file = w.disk.look home.file := by
  obtain ⟨d, hd, hcwd, hlook⟩ := fileWork_unreached hc.proper hc.direct
  have hfile : home.file ∈ home.places w.disk := by simp [Home.places]
  have hdraft : home.draft ∈ home.places w.disk := by simp [Home.places]
  have hopens : Opens w.disk d := by
    obtain rfl | ⟨r, plan, -, rfl⟩ := hd
    · exact .refl _
    · exact opens_opened _ _
  have hnames : ∀ l, l = home.file ∨ l = home.draft → d.look l ≠ some .dir := by
    intro l hl
    obtain rfl | ⟨r, plan, hplans, rfl⟩ := hd
    · obtain rfl | rfl := hl
      · exact h.leaf
      · exact h.draft.ne_dir
    · exact hc.names r plan hplans l hl
  obtain ⟨hhoused, -, hsame⟩ := h.of_places (hcwd.trans hopens.cwd)
    (fun l hl => by
      rw [hlook l (hc.places l hl)]
      exact hopens.look l)
    (by
      rw [hlook _ (hc.places _ hfile)]
      exact hnames _ (.inl rfl))
    (by
      rw [hlook _ (hc.places _ hdraft)]
      exact hnames _ (.inr rfl))
  exact ⟨hhoused, hsame⟩

end Change

end Sideload
