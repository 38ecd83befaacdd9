import Sideload.Proofs.Installer.Run
import Sideload.Proofs.Registry.File
import Sideload.Shelf

/-!
What the operations of a shelf are made of. An install or an update reads the registry and plans on the
disk as it is; then it builds, settles and saves. An uninstall reads, removes and saves.
-/

namespace Sideload

variable {w w' : World}

namespace Shelf

variable {shelf : Shelf} {r : Registry} {plan : Plan}

/-- An operation that stops before it changes anything, or goes on to build a plan. -/
def Prepares (w : World) (run : Except Failure (Registry × Plan) × World)
    (good : Registry → Plan → Prop) : Prop :=
  (∃ f, run.1 = .error f ∧ w.Quiet run.2) ∨
    ∃ r plan w₀, good r plan ∧ w.Quiet w₀ ∧
      run = (((build plan).run w₀).1.map fun _ => (r, plan), ((build plan).run w₀).2)

theorem run_require (r : Registry) (name : String) (w : World) :
    (require r name).run w = (match r.get? name with
      | some e => .ok e
      | none => .error (.notFound name), w) := by
  unfold require
  cases r.get? name <;> rfl

/-- Preparing after a quiet start. -/
theorem prepares_of_prepare {target source : Path} {mode : Mode} {name? : Option String}
    {prior : Option Entry} {w₀ : World} (hquiet : w.Quiet w₀) (r : Registry)
    {good : Registry → Plan → Prop}
    (hgood : ∀ plan, Planned w.disk target source mode name? prior plan → good r plan) :
    Prepares w ((prepare target source mode name? prior >>= fun plan =>
      pure (r, plan) : Work Failure (Registry × Plan)).run w₀) good := by
  rcases prepare_cases target source mode name? prior w₀ with ⟨f, -, hrun⟩ | ⟨plan, hplan, hrun⟩
  · rw [run_bind_of_error hrun]
    exact .inl ⟨f, rfl, hquiet⟩
  · right
    refine ⟨r, plan, w₀, hgood plan (hquiet.disk ▸ planned hplan), hquiet, ?_⟩
    rw [run_bind, hrun]
    rcases (build plan).run w₀ with ⟨e | u, w₁⟩ <;> rfl

theorem prepareInstall_cases (shelf : Shelf) (target source : Path) (mode : Mode)
    (name? : Option String) (w : World) :
    Prepares w ((shelf.prepareInstall target source mode name?).run w) fun r plan =>
      Registry.read w.disk shelf.registryPath = .ok r ∧ ∃ real name,
        Planned w.disk target real mode (some name) (r.get? name) plan := by
  obtain ⟨hanswer, hquiet⟩ := Registry.run_load shelf.registryPath w
  unfold prepareInstall
  rw [run_bind]
  generalize (Registry.load shelf.registryPath).run w = loaded at hanswer hquiet
  obtain ⟨answer, w₀⟩ := loaded
  dsimp only at hanswer hquiet
  subst hanswer
  cases hread : Registry.read w.disk shelf.registryPath with
  | error f => exact .inl ⟨f, rfl, hquiet⟩
  | ok r =>
      dsimp only
      rw [run_bind, Work.run_disk]
      dsimp only
      rw [run_bind, Work.run_ofExcept]
      cases hsource : resolveSource w₀.disk source with
      | error f => exact .inl ⟨f, rfl, hquiet⟩
      | ok real =>
          dsimp only
          cases name? with
          | some name =>
              exact prepares_of_prepare hquiet r fun plan hplan => ⟨rfl, real, name, hplan⟩
          | none =>
              dsimp only
              rw [run_bind, Work.run_ofExcept]
              cases hname : deriveName w₀.disk real with
              | error f => exact .inl ⟨f, rfl, hquiet⟩
              | ok name =>
                  exact prepares_of_prepare hquiet r fun plan hplan => ⟨rfl, real, name, hplan⟩

theorem prepareUpdate_cases (shelf : Shelf) (name : String) (w : World) :
    Prepares w ((shelf.prepareUpdate name).run w) fun r plan =>
      Registry.read w.disk shelf.registryPath = .ok r ∧ ∃ current target,
        r.get? name = some current ∧ current.targetDir? = some target ∧
          Planned w.disk target current.source current.mode (some current.name) (some current)
            plan := by
  obtain ⟨hanswer, hquiet⟩ := Registry.run_load shelf.registryPath w
  unfold prepareUpdate
  rw [run_bind]
  generalize (Registry.load shelf.registryPath).run w = loaded at hanswer hquiet
  obtain ⟨answer, w₀⟩ := loaded
  dsimp only at hanswer hquiet
  subst hanswer
  cases hread : Registry.read w.disk shelf.registryPath with
  | error f => exact .inl ⟨f, rfl, hquiet⟩
  | ok r =>
      dsimp only
      rw [run_bind, run_require]
      cases hget : r.get? name with
      | none => exact .inl ⟨_, rfl, hquiet⟩
      | some current =>
          dsimp only
          rw [run_bind, Work.run_disk]
          dsimp only
          by_cases hsource : (!w₀.disk.exists_ current.source) = true
          · rw [if_pos hsource]
            exact .inl ⟨_, rfl, hquiet⟩
          · rw [if_neg hsource]
            cases htarget : current.targetDir? with
            | none => exact .inl ⟨_, rfl, hquiet⟩
            | some target =>
                exact prepares_of_prepare hquiet r fun plan hplan =>
                  ⟨rfl, current, target, hget, htarget, hplan⟩

theorem run_upsert (r : Registry) (e : Entry) (w : World) :
    ∃ w', w.Quiet w' ∧ (r.upsert e : Work Failure Registry).run w = (.ok (r.insert e), w') := by
  unfold Registry.upsert
  split
  · refine ⟨_, ?_, rfl⟩
    exact ⟨rfl, rfl⟩
  · exact ⟨w, .refl w, rfl⟩

/-- How far committing comes: it stops before the artifact is in place, or the registry is saved with
the new entry. -/
theorem commit_cases (shelf : Shelf) (r : Registry) (plan : Plan) (w : World) :
    (∃ f w₁, (settle plan >>= fun e => (r.upsert e : Work Failure Registry)).run w = (.error f, w₁) ∧
      (shelf.commit r plan).run w = (.error f, w₁) ∧ w₁.now = w.now ∧ w₁.disk = (plan.clear w.disk).2) ∨
    ∃ w₁, (plan.clear w.disk).1 = .ok () ∧ w₁.now = w.now ∧
      (plan.clear w.disk).2.rename plan.staging plan.dest = .ok w₁.disk ∧
      (settle plan >>= fun e => (r.upsert e : Work Failure Registry)).run w =
        (.ok (r.insert (plan.entry w.now)), w₁) ∧
      (shelf.commit r plan).run w =
        ((((r.insert (plan.entry w.now)).save shelf.registryPath).run w₁).1.map
          fun _ => plan.entry w.now,
        (((r.insert (plan.entry w.now)).save shelf.registryPath).run w₁).2) := by
  obtain ⟨hnow, hsettle⟩ := settle_cases plan w
  unfold commit
  rcases hrun : (settle plan).run w with ⟨answer, w₁⟩
  rw [hrun] at hnow hsettle
  rcases hsettle with ⟨f, hanswer, hdisk, -⟩ | ⟨hanswer, hclear, hmove⟩
  · dsimp only at hanswer
    subst hanswer
    exact .inl ⟨f, w₁, run_bind_of_error hrun _, run_bind_of_error hrun _, hnow, hdisk⟩
  · dsimp only at hanswer hnow hmove
    subst hanswer
    obtain ⟨w₂, hquiet, hupsert⟩ := run_upsert r (plan.entry w.now) w₁
    refine .inr ⟨w₂, hclear, hquiet.now.trans hnow, by rw [hmove, hquiet.disk], ?_, ?_⟩
    · rw [run_bind_of_ok hrun, hupsert]
    · rw [run_bind_of_ok hrun, run_bind_of_ok hupsert, run_bind]
      rcases ((r.insert (plan.entry w.now)).save shelf.registryPath).run w₂ with ⟨e | u, w₃⟩ <;> rfl

/-- How far an install or an update comes: it stops before it changes anything, or while it builds, or
it commits. -/
def Places (shelf : Shelf) (w : World) (run : Except Failure Entry × World)
    (good : Registry → Plan → Prop) : Prop :=
  (∃ f, run.1 = .error f ∧ w.Quiet run.2) ∨
    ∃ r plan w₀, good r plan ∧ w.Quiet w₀ ∧
      ((∃ f, (build plan).run w₀ = (.error f, run.2) ∧ run.1 = .error f) ∨
      ∃ w₁, (build plan).run w₀ = (.ok (), w₁) ∧ run.1 = ((shelf.commit r plan).run w₁).1 ∧
        ((shelf.commit r plan).run w₁).2.Quiet run.2)

theorem install_cases (shelf : Shelf) (target source : Path) (mode : Mode) (name? : Option String)
    (w : World) : Places shelf w ((shelf.install target source mode name?).run w) fun r plan =>
      Registry.read w.disk shelf.registryPath = .ok r ∧ ∃ real name,
        Planned w.disk target real mode (some name) (r.get? name) plan := by
  have hprepared := prepareInstall_cases shelf target source mode name? w
  unfold install
  rw [run_bind]
  generalize (shelf.prepareInstall target source mode name?).run w = prepared at hprepared
  rcases hprepared with ⟨f, hanswer, hquiet⟩ | ⟨r, plan, w₀, hgood, hquiet, rfl⟩
  · obtain ⟨answer, w₀⟩ := prepared
    dsimp only at hanswer
    subst hanswer
    exact .inl ⟨f, rfl, hquiet⟩
  · refine .inr ⟨r, plan, w₀, hgood, hquiet, ?_⟩
    rcases (build plan).run w₀ with ⟨f | u, w₁⟩
    · exact .inl ⟨f, rfl, rfl⟩
    · exact .inr ⟨w₁, rfl, rfl, .refl _⟩

theorem update_cases (shelf : Shelf) (name : String) (w : World) :
    Places shelf w ((shelf.update name).run w) fun r plan =>
      Registry.read w.disk shelf.registryPath = .ok r ∧ ∃ current target,
        r.get? name = some current ∧ current.targetDir? = some target ∧
          Planned w.disk target current.source current.mode (some current.name) (some current)
            plan := by
  have hprepared := prepareUpdate_cases shelf name w
  unfold update
  rw [run_bind]
  generalize (shelf.prepareUpdate name).run w = prepared at hprepared
  rcases hprepared with ⟨f, hanswer, hquiet⟩ | ⟨r, plan, w₀, hgood, hquiet, rfl⟩
  · obtain ⟨answer, w₀⟩ := prepared
    dsimp only at hanswer
    subst hanswer
    exact .inl ⟨f, rfl, hquiet⟩
  · refine .inr ⟨r, plan, w₀, hgood, hquiet, ?_⟩
    rcases (build plan).run w₀ with ⟨f | u, w₁⟩
    · exact .inl ⟨f, rfl, rfl⟩
    · refine .inr ⟨w₁, rfl, ?_⟩
      dsimp only [Except.map]
      rw [run_bind]
      rcases (shelf.commit r plan).run w₁ with ⟨f | e, w₂⟩
      · exact ⟨rfl, .refl _⟩
      · exact ⟨rfl, rfl, rfl⟩

/-- What an uninstall answers when the entry was forgotten. -/
def removalAnswer (e : Entry) : Except IoError Bool → Except Failure Removal
  | .ok removed => .ok ⟨e, removed⟩
  | .error cause => .error (.cleanup e.name e.artifact (.file cause))

/-- How far an uninstall comes: it stops before it changes anything, or it removes the artifact as far as
it can and saves the registry without the entry. -/
theorem uninstall_cases (shelf : Shelf) (name : String) (w : World) :
    (∃ f, ((shelf.uninstall name).run w).1 = .error f ∧ w.Quiet ((shelf.uninstall name).run w).2 ∧
      (Registry.read w.disk shelf.registryPath = .error f ∨
        ∃ r, Registry.read w.disk shelf.registryPath = .ok r ∧ r.get? name = none ∧ f = .notFound name)) ∨
    ∃ r e w₁, Registry.read w.disk shelf.registryPath = .ok r ∧ r.get? name = some e ∧
      w₁.now = w.now ∧ w₁.disk = ((DiskM.removeArtifact e.artifact).run w.disk).2 ∧
      ((∃ f, ((r.erase name).save shelf.registryPath).run w₁ =
          (.error f, ((shelf.uninstall name).run w).2) ∧
        ((shelf.uninstall name).run w).1 = .error f) ∨
      ∃ w₂, ((r.erase name).save shelf.registryPath).run w₁ = (.ok (), w₂) ∧
        w₂.Quiet ((shelf.uninstall name).run w).2 ∧
        ((shelf.uninstall name).run w).1 =
          removalAnswer e ((DiskM.removeArtifact e.artifact).run w.disk).1) := by
  obtain ⟨hanswer, hquiet⟩ := Registry.run_load shelf.registryPath w
  unfold uninstall
  rw [run_bind]
  generalize (Registry.load shelf.registryPath).run w = loaded at hanswer hquiet
  obtain ⟨answer, w₀⟩ := loaded
  dsimp only at hanswer hquiet
  subst hanswer
  cases hread : Registry.read w.disk shelf.registryPath with
  | error f => exact .inl ⟨f, rfl, hquiet, .inl rfl⟩
  | ok r =>
      dsimp only
      rw [run_bind, run_require]
      cases hget : r.get? name with
      | none => exact .inl ⟨_, rfl, hquiet, .inr ⟨r, rfl, hget, rfl⟩⟩
      | some e =>
          dsimp only
          rw [run_bind, Work.run_attempt, Work.run_onDisk]
          dsimp only
          refine .inr ⟨r, e, ⟨((DiskM.removeArtifact e.artifact).run w₀.disk).2, w₀.now, w₀.log⟩,
            rfl, hget, hquiet.now, by rw [hquiet.disk], ?_⟩
          rw [hquiet.disk, run_bind]
          generalize ((DiskM.removeArtifact e.artifact).run w.disk) = removed
          rcases ((r.erase name).save shelf.registryPath).run _ with ⟨f | u, w₂⟩
          · exact .inl ⟨f, rfl, rfl⟩
          · refine .inr ⟨w₂, rfl, ?_⟩
            rcases removed with ⟨cause | there, d⟩
            · exact ⟨⟨rfl, rfl⟩, rfl⟩
            · cases there <;> exact ⟨⟨rfl, rfl⟩, rfl⟩

theorem run_list (shelf : Shelf) (w : World) :
    ((shelf.list).run w).1 =
      (Registry.read w.disk shelf.registryPath).map Registry.entries ∧
      w.Quiet ((shelf.list).run w).2 := by
  obtain ⟨hanswer, hquiet⟩ := Registry.run_load shelf.registryPath w
  unfold list
  rw [run_bind]
  generalize (Registry.load shelf.registryPath).run w = loaded at hanswer hquiet
  obtain ⟨answer, w₀⟩ := loaded
  dsimp only at hanswer hquiet
  subst hanswer
  cases Registry.read w.disk shelf.registryPath <;> exact ⟨rfl, hquiet⟩

theorem run_info (shelf : Shelf) (name : String) (w : World) :
    ((shelf.info name).run w).1 = ((Registry.read w.disk shelf.registryPath).bind fun r =>
      match r.get? name with
      | some e => .ok e
      | none => .error (.notFound name)) ∧
      w.Quiet ((shelf.info name).run w).2 := by
  obtain ⟨hanswer, hquiet⟩ := Registry.run_load shelf.registryPath w
  unfold info
  rw [run_bind]
  generalize (Registry.load shelf.registryPath).run w = loaded at hanswer hquiet
  obtain ⟨answer, w₀⟩ := loaded
  dsimp only at hanswer hquiet
  subst hanswer
  cases Registry.read w.disk shelf.registryPath with
  | error f => exact ⟨rfl, hquiet⟩
  | ok r =>
      dsimp only
      rw [run_require]
      exact ⟨rfl, hquiet⟩

end Shelf

end Sideload
