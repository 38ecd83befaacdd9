import Sideload.Proofs.Shelf.Run

/-!
The calls that change a shelf. Each of them works on the files first and saves the registry last; what it
has done to the files by then is told here for all of them together.
-/

namespace Sideload

/-- A call that changes a shelf. -/
inductive Change where
  | install (target source : Path) (mode : Mode) (name? : Option String)
  | update (name : String)
  | uninstall (name : String)

namespace Change

/-- What a call answers if it succeeds. -/
def Answer : Change → Type
  | install .. => Entry
  | update _ => Entry
  | uninstall _ => Removal

def run (shelf : Shelf) : (c : Change) → Work Failure c.Answer
  | install target source mode name? => shelf.install target source mode name?
  | update name => shelf.update name
  | uninstall name => shelf.uninstall name

/-- What a call does before it saves. It gives the registry that is going to be saved. -/
def fileWork (shelf : Shelf) : Change → Work Failure Registry
  | install target source mode name? => do
    let (r, plan) ← shelf.prepareInstall target source mode name?
    r.upsert (← settle plan)
  | update name => do
    let (r, plan) ← shelf.prepareUpdate name
    r.upsert (← settle plan)
  | uninstall name => do
    let r ← Registry.load shelf.registryPath
    let entry ← Shelf.require r name
    let _ ← (Work.onDisk (DiskM.removeArtifact entry.artifact)).attempt
    return r.erase name

/-- What is left of an uninstall after the save. -/
def report (name : String) (entry : Entry) : Except IoError Bool → Work Failure Removal
  | .ok removed => do
    if removed then
      Work.log .info .shelf s!"Uninstalled '{name}' from {entry.artifact.quoted}"
    else
      Work.log .warn .shelf s!"'{name}' was already missing at {entry.artifact.quoted}"
    return ⟨entry, removed⟩
  | .error e => do
    Work.log .warn .shelf s!"Failed to delete {entry.artifact.quoted}: {e.message}"
    throw (.cleanup entry.name entry.artifact (.file e))

/-- Every call is its work on the files, a save, and something that leaves the disk alone. -/
theorem run_eq (shelf : Shelf) (c : Change) : ∃ (β : Type) (work : Work Failure (Registry × β))
    (rest : β → Work Failure c.Answer),
    c.run shelf = (work >>= fun x => x.1.save shelf.registryPath >>= fun _ => rest x.2) ∧
      c.fileWork shelf = (work >>= fun x => pure x.1) ∧
      ∀ b (w : World), w.Quiet ((rest b).run w).2 := by
  cases c with
  | install target source mode name? =>
      refine ⟨Entry, shelf.prepareInstall target source mode name? >>= fun x => settle x.2 >>= fun e =>
        x.1.upsert e >>= fun r => pure (r, e), fun e => pure e, ?_, ?_, fun _ w => .refl w⟩
      · simp only [run, Shelf.install, Shelf.commit, bind_assoc, pure_bind]
        rfl
      · simp [fileWork]
  | update name =>
      refine ⟨Entry, shelf.prepareUpdate name >>= fun x => settle x.2 >>= fun e =>
        x.1.upsert e >>= fun r => pure (r, e), fun e => do
          Work.log .info .shelf s!"Updated '{name}' from {e.source.quoted}"
          return e, ?_, ?_, fun _ _ => ⟨rfl, rfl⟩⟩
      · simp only [run, Shelf.update, Shelf.commit, bind_assoc, pure_bind]
        rfl
      · simp [fileWork]
  | uninstall name =>
      refine ⟨Entry × Except IoError Bool, Registry.load shelf.registryPath >>= fun r =>
        Shelf.require r name >>= fun e => (Work.onDisk (DiskM.removeArtifact e.artifact)).attempt >>=
          fun removal => pure (r.erase name, e, removal), fun x => report name x.1 x.2, ?_, ?_, ?_⟩
      · simp only [run, Shelf.uninstall, bind_assoc, pure_bind]
        rfl
      · simp [fileWork]
      · rintro ⟨entry, e | removed⟩ w
        · exact ⟨rfl, rfl⟩
        · cases removed <;> exact ⟨rfl, rfl⟩

/-- How far a call comes: its work on the files fails, or the save does, or nothing. -/
theorem run_cases (shelf : Shelf) (c : Change) (w : World) :
    (∃ f, (c.fileWork shelf).run w = (.error f, ((c.run shelf).run w).2) ∧
      ((c.run shelf).run w).1 = .error f) ∨
    ∃ r w₁, (c.fileWork shelf).run w = (.ok r, w₁) ∧
      ((∃ f w₂, (r.save shelf.registryPath).run w₁ = (.error f, w₂) ∧
        (c.run shelf).run w = (.error f, w₂)) ∨
      ∃ w₂, (r.save shelf.registryPath).run w₁ = (.ok (), w₂) ∧ w₂.Quiet ((c.run shelf).run w).2) := by
  obtain ⟨β, work, rest, hrun, hwork, hquiet⟩ := c.run_eq shelf
  rw [hrun, hwork, run_bind, run_bind]
  rcases work.run w with ⟨f | ⟨r, b⟩, w₁⟩
  · exact .inl ⟨f, rfl, rfl⟩
  · refine .inr ⟨r, w₁, rfl, ?_⟩
    dsimp only
    rw [run_bind]
    rcases (r.save shelf.registryPath).run w₁ with ⟨f | u, w₂⟩
    · exact .inl ⟨f, w₂, rfl, rfl⟩
    · exact .inr ⟨w₂, rfl, hquiet b w₂⟩

/-! ### The work on the files -/

variable {shelf : Shelf} {c : Change} {w : World}

/-- The name that a call is about, and the package directory that an install or an update works in. -/
inductive Into (r : Registry) : Change → Path → Prop
  | install (target source : Path) (mode : Mode) (name? : Option String) :
      Into r (.install target source mode name?) target
  | update {name : String} {e : Entry} {target : Path} (hget : r.get? name = some e)
      (htarget : e.targetDir? = some target) : Into r (.update name) target

/-- The plan of an install or an update: it replaces the entry that its name has in the registry. -/
structure Aims (d : Disk) (shelf : Shelf) (c : Change) (r : Registry) (plan : Plan) : Prop where
  read : Registry.read d shelf.registryPath = .ok r
  into : Into r c plan.target
  prior : plan.prior = r.get? plan.name
  planned : ∃ source mode name? prior, Planned d plan.target source mode name? prior plan

/-- How far an install or an update comes before it saves: it stops before it changes anything, or while
it builds, or while it settles, or the artifact is in its place. -/
def Settles (w : World) (run : Except Failure Registry × World) (good : Registry → Plan → Prop) :
    Prop :=
  (∃ f, run.1 = .error f ∧ w.Quiet run.2) ∨
    ∃ r plan w₀, good r plan ∧ w.Quiet w₀ ∧
      ((∃ f, (build plan).run w₀ = (.error f, run.2) ∧ run.1 = .error f) ∨
      ∃ w₁, (build plan).run w₀ = (.ok (), w₁) ∧ run.2.now = w₁.now ∧
        ((∃ f, run.1 = .error f ∧ run.2.disk = (plan.clear w₁.disk).2) ∨
        (run.1 = .ok (r.insert (plan.entry w₁.now)) ∧ (plan.clear w₁.disk).1 = .ok () ∧
          (plan.clear w₁.disk).2.rename plan.staging plan.dest = .ok run.2.disk)))

theorem settles_of_prepares {prepared : Work Failure (Registry × Plan)}
    {good : Registry → Plan → Prop} (h : Shelf.Prepares w (prepared.run w) good) :
    Settles w ((prepared >>= fun x => settle x.2 >>= fun e => x.1.upsert e).run w) good := by
  rw [run_bind]
  generalize prepared.run w = start at h
  rcases h with ⟨f, hanswer, hquiet⟩ | ⟨r, plan, w₀, hgood, hquiet, rfl⟩
  · obtain ⟨answer, w₀⟩ := start
    dsimp only at hanswer
    subst hanswer
    exact .inl ⟨f, rfl, hquiet⟩
  · refine .inr ⟨r, plan, w₀, hgood, hquiet, ?_⟩
    rcases (build plan).run w₀ with ⟨f | u, w₁⟩
    · exact .inl ⟨f, rfl, rfl⟩
    · refine .inr ⟨w₁, rfl, ?_⟩
      obtain ⟨hnow, hsettle⟩ := settle_cases plan w₁
      dsimp only [Except.map]
      rw [run_bind]
      generalize (settle plan).run w₁ = settled at hnow hsettle
      obtain ⟨answer, w₂⟩ := settled
      rcases hsettle with ⟨f, hanswer, hdisk, -⟩ | ⟨hanswer, hclear, hmove⟩
      · dsimp only at hanswer
        subst hanswer
        exact ⟨hnow, .inl ⟨f, rfl, hdisk⟩⟩
      · dsimp only at hanswer hnow hmove
        subst hanswer
        obtain ⟨w₃, hquiet', hupsert⟩ := Shelf.run_upsert r (plan.entry w₁.now) w₂
        dsimp only
        rw [hupsert]
        exact ⟨hquiet'.now.trans hnow, .inr ⟨rfl, hclear, by rw [hmove, hquiet'.disk]⟩⟩

theorem install_settles (shelf : Shelf) (target source : Path) (mode : Mode) (name? : Option String)
    (w : World) : Settles w ((fileWork shelf (.install target source mode name?)).run w)
      (Aims w.disk shelf (.install target source mode name?)) := by
  refine settles_of_prepares ?_
  refine (Shelf.prepareInstall_cases shelf target source mode name? w).imp_right ?_
  rintro ⟨r, plan, w₀, ⟨hread, real, name, hplan⟩, hrest⟩
  refine ⟨r, plan, w₀, ?_, hrest⟩
  have htarget := hplan.target_eq
  have hname : plan.name = name := hplan.named
  exact ⟨hread, htarget ▸ .install .., hplan.prior_eq.trans (by rw [hname]), real, mode, some name, _,
    htarget ▸ hplan⟩

theorem update_settles (shelf : Shelf) (name : String) (w : World) :
    Settles w ((fileWork shelf (.update name)).run w) (Aims w.disk shelf (.update name)) := by
  refine settles_of_prepares ?_
  refine (Shelf.prepareUpdate_cases shelf name w).imp_right ?_
  rintro ⟨r, plan, w₀, ⟨hread, current, target, hget, htarget, hplan⟩, hrest⟩
  refine ⟨r, plan, w₀, ?_, hrest⟩
  have hname : plan.name = name := hplan.named.trans (Registry.name_of_get? hget)
  refine ⟨hread, hplan.target_eq ▸ .update hget htarget, hplan.prior_eq.trans (by rw [hname, hget]),
    current.source, current.mode, some current.name, some current, ?_⟩
  rw [hplan.target_eq]
  exact hplan

/-- How far an uninstall comes before it saves: it stops before it changes anything, or it removes the
artifact as far as it can. -/
theorem uninstall_removes (shelf : Shelf) (name : String) (w : World) :
    (∃ f w₁, (fileWork shelf (.uninstall name)).run w = (.error f, w₁) ∧ w.Quiet w₁) ∨
    ∃ r e w₁, Registry.read w.disk shelf.registryPath = .ok r ∧ r.get? name = some e ∧
      (fileWork shelf (.uninstall name)).run w = (.ok (r.erase name), w₁) ∧ w₁.now = w.now ∧
      w₁.disk = ((DiskM.removeArtifact e.artifact).run w.disk).2 := by
  obtain ⟨hanswer, hquiet⟩ := Registry.run_load shelf.registryPath w
  unfold fileWork
  rw [run_bind]
  generalize (Registry.load shelf.registryPath).run w = loaded at hanswer hquiet
  obtain ⟨answer, w₀⟩ := loaded
  dsimp only at hanswer hquiet
  subst hanswer
  cases hread : Registry.read w.disk shelf.registryPath with
  | error f => exact .inl ⟨f, w₀, rfl, hquiet⟩
  | ok r =>
      dsimp only
      rw [run_bind, Shelf.run_require]
      cases hget : r.get? name with
      | none => exact .inl ⟨_, w₀, rfl, hquiet⟩
      | some e =>
          dsimp only
          rw [run_bind, Work.run_attempt, Work.run_onDisk]
          exact .inr ⟨r, e, _, rfl, hget, rfl, hquiet.now, by rw [← hquiet.disk]⟩

end Change

end Sideload
