import Sideload.Proofs.Installer.Plan
import Sideload.Proofs.Run

/-!
What placing a module does. The artifact that is replaced is removed, and the new one is renamed to its
destination; the answer is the entry of the plan.
-/

namespace Sideload

namespace Plan

/-- The entry of a module that was placed at a given time. -/
def entry (plan : Plan) (now : Moment) : Entry :=
  ⟨plan.name, plan.source, plan.mode, plan.dest, now⟩

/-- The removal of the artifact that is replaced. -/
def clear (plan : Plan) (d : Disk) : Except IoError Unit × Disk :=
  match plan.prior with
  | none => (.ok (), d)
  | some old =>
    let run := (DiskM.removeArtifact old.artifact).run d
    (run.1.map fun _ => (), run.2)

end Plan

theorem run_discardPrior (plan : Plan) (w : World) :
    ((discardPrior plan).run w).2.disk = (plan.clear w.disk).2 ∧
      ((discardPrior plan).run w).2.now = w.now ∧
      (((discardPrior plan).run w).1 = .ok () ↔ (plan.clear w.disk).1 = .ok ()) := by
  unfold discardPrior Plan.clear
  cases plan.prior with
  | none => exact ⟨rfl, rfl, fun _ => rfl, fun _ => rfl⟩
  | some old =>
      dsimp only
      rw [run_bind, Work.run_orFail, Work.run_onDisk]
      rcases (DiskM.removeArtifact old.artifact).run w.disk with ⟨e | removed, d⟩
      · exact ⟨rfl, rfl, nofun, nofun⟩
      · cases removed <;> exact ⟨rfl, rfl, fun _ => rfl, fun _ => rfl⟩

theorem run_warnOtherName (plan : Plan) (w : World) :
    ∃ w', w.Quiet w' ∧ (warnOtherName plan).run w = (.ok (), w') := by
  unfold warnOtherName
  split
  · refine ⟨_, ?_, Work.run_log w _ _ _⟩
    exact ⟨rfl, rfl⟩
  · exact ⟨w, .refl w, rfl⟩

/-- How far settling comes: the old artifact is removed, and then the new one is moved. -/
theorem settle_cases (plan : Plan) (w : World) :
    ((settle plan).run w).2.now = w.now ∧
      ((∃ f, ((settle plan).run w).1 = .error f ∧
        ((settle plan).run w).2.disk = (plan.clear w.disk).2 ∧
        ((plan.clear w.disk).1 = .ok () →
          ∀ d, (plan.clear w.disk).2.rename plan.staging plan.dest ≠ .ok d)) ∨
      (((settle plan).run w).1 = .ok (plan.entry w.now) ∧ (plan.clear w.disk).1 = .ok () ∧
        (plan.clear w.disk).2.rename plan.staging plan.dest =
          .ok ((settle plan).run w).2.disk)) := by
  obtain ⟨hdisk, hnow, hok⟩ := run_discardPrior plan w
  unfold settle
  rw [run_bind]
  generalize (discardPrior plan).run w = cleared at hdisk hnow hok
  rcases cleared with ⟨e | u, w₁⟩
  · exact ⟨hnow, .inl ⟨e, rfl, hdisk, fun hclear => nomatch hok.2 hclear⟩⟩
  · dsimp only at hdisk hnow hok ⊢
    rw [run_bind, Work.run_change_orFail, ← hdisk, ← hnow]
    cases hmove : w₁.disk.rename plan.staging plan.dest with
    | error e => exact ⟨rfl, .inl ⟨_, rfl, rfl, fun _ d => nofun⟩⟩
    | ok d =>
        obtain ⟨w₂, hquiet, hrun⟩ := run_warnOtherName plan { w₁ with disk := d }
        dsimp only
        rw [run_bind_of_ok hrun]
        refine ⟨hquiet.now, .inr ⟨?_, hok.1 rfl, ?_⟩⟩
        · have hanswer : (.ok (plan.entry w₂.now) : Except Failure Entry) =
              .ok (plan.entry w₁.now) := by rw [hquiet.now]
          exact hanswer
        · exact congrArg Except.ok hquiet.disk.symm

/-- An install is planned, or nothing happens; what is planned is built. -/
theorem prepare_cases (target source : Path) (mode : Mode) (name? : Option String)
    (prior : Option Entry) (w : World) :
    (∃ f, planInstall w.disk target source mode name? prior = .error f ∧
      (prepare target source mode name? prior).run w = (.error f, w)) ∨
    ∃ plan, planInstall w.disk target source mode name? prior = .ok plan ∧
      (prepare target source mode name? prior).run w =
        (((build plan).run w).1.map fun _ => plan, ((build plan).run w).2) := by
  have hrun : (prepare target source mode name? prior).run w =
      match planInstall w.disk target source mode name? prior with
      | .error f => (.error f, w)
      | .ok plan => (((build plan).run w).1.map fun _ => plan, ((build plan).run w).2) := by
    unfold prepare
    rw [run_bind, Work.run_disk]
    dsimp only
    rw [run_bind, Work.run_ofExcept]
    cases planInstall w.disk target source mode name? prior with
    | error f => rfl
    | ok plan =>
        dsimp only
        rw [run_bind]
        rcases (build plan).run w with ⟨e | u, w'⟩ <;> rfl
  rw [hrun]
  cases hplan : planInstall w.disk target source mode name? prior with
  | error f => exact .inl ⟨f, rfl, rfl⟩
  | ok plan => exact .inr ⟨plan, rfl, rfl⟩

/-- How far an install comes: it stops before it changes anything, or while it builds, or it settles. -/
theorem installInto_cases (target source : Path) (mode : Mode) (name? : Option String)
    (prior : Option Entry) (w : World) :
    (∃ f, planInstall w.disk target source mode name? prior = .error f ∧
      (installInto target source mode name? prior).run w = (.error f, w)) ∨
    ∃ plan, planInstall w.disk target source mode name? prior = .ok plan ∧
      ((∃ f w₁, (build plan).run w = (.error f, w₁) ∧
        (installInto target source mode name? prior).run w = (.error f, w₁)) ∨
      ∃ w₁, (build plan).run w = (.ok (), w₁) ∧
        (installInto target source mode name? prior).run w = (settle plan).run w₁) := by
  unfold installInto
  rw [run_bind]
  rcases prepare_cases target source mode name? prior w with ⟨f, hfault, hrun⟩ | ⟨plan, hplan, hrun⟩
  · rw [hrun]
    exact .inl ⟨f, hfault, rfl⟩
  · refine .inr ⟨plan, hplan, ?_⟩
    rw [hrun]
    rcases (build plan).run w with ⟨f | u, w₁⟩
    · exact .inl ⟨f, w₁, rfl, rfl⟩
    · exact .inr ⟨w₁, rfl, rfl⟩

/-- Installs the source of an entry once more in place of its artifact. -/
def renew (e : Entry) : Work Failure Entry := do
  let some target := e.targetDir? | throw (.invalidEntry e.name (.noTargetDir e.artifact))
  installInto target e.source e.mode (some e.name) (some e)

end Sideload
