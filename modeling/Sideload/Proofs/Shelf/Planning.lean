import Sideload.Proofs.Installer.Stable
import Sideload.Proofs.Shelf.Change

/-!
Planning. Every call reads the disk before it changes anything; what it reads and plans is a function of
the disk, and what it does then is given by the answer of that function.
-/

namespace Sideload

variable {α β : Type}

theorem bind_eq_ok_iff {ε : Type} {x : Except ε α} {f : α → Except ε β} {b : β} :
    (x >>= f) = .ok b ↔ ∃ a, x = .ok a ∧ f a = .ok b := by
  cases x with
  | error e => exact ⟨nofun, by rintro ⟨a, ha, -⟩; cases ha⟩
  | ok a => exact ⟨fun h => ⟨a, rfl, h⟩, by rintro ⟨a', ha, h⟩; cases ha; exact h⟩

theorem bind_eq_error_iff {ε : Type} {x : Except ε α} {f : α → Except ε β} {e : ε} :
    (x >>= f) = .error e ↔ x = .error e ∨ ∃ a, x = .ok a ∧ f a = .error e := by
  cases x with
  | error e' =>
      constructor
      · intro h
        cases h
        exact .inl rfl
      · rintro (h | ⟨a, ha, -⟩)
        · cases h
          rfl
        · cases ha
  | ok a =>
      refine ⟨fun h => .inr ⟨a, rfl, h⟩, ?_⟩
      rintro (h | ⟨a', ha, h⟩)
      · cases h
      · cases ha
        exact h

/-- Work that reads the disk, and goes on with what it has read. -/
def Work.Reads (m : Work Failure β) (planned : Disk → Except Failure α) (next : α → Work Failure β) :
    Prop :=
  ∀ w : World, ∃ w₀, w.Quiet w₀ ∧ m.run w = (Work.ofExcept (planned w.disk) >>= next).run w₀

namespace Work.Reads

variable {m : Work Failure β} {planned : Disk → Except Failure α} {next : α → Work Failure β}

theorem bind {γ : Type} (h : m.Reads planned next) (k : β → Work Failure γ) :
    (m >>= k).Reads planned fun a => next a >>= k := by
  intro w
  obtain ⟨w₀, hquiet, hrun⟩ := h w
  refine ⟨w₀, hquiet, ?_⟩
  rw [← bind_assoc, run_bind, hrun, run_bind (Work.ofExcept (planned w.disk) >>= next)]

/-- What cannot be planned is not done. -/
theorem of_error (h : m.Reads planned next) {w : World} {f : Failure} (hf : planned w.disk = .error f) :
    (m.run w).1 = .error f ∧ w.Quiet (m.run w).2 := by
  obtain ⟨w₀, hquiet, hrun⟩ := h w
  rw [hrun, hf]
  exact ⟨rfl, hquiet⟩

theorem of_ok (h : m.Reads planned next) {w : World} {a : α} (ha : planned w.disk = .ok a) :
    ∃ w₀, w.Quiet w₀ ∧ m.run w = (next a).run w₀ := by
  obtain ⟨w₀, hquiet, hrun⟩ := h w
  rw [ha] at hrun
  exact ⟨w₀, hquiet, hrun⟩

/-- All that the reading leaves behind is in the log. -/
theorem run_of_ok (h : m.Reads planned next) {w : World} {a : α} (ha : planned w.disk = .ok a) :
    ∃ log, m.run w = (next a).run ⟨w.disk, w.now, log⟩ := by
  obtain ⟨⟨d, now, log⟩, ⟨hdisk, hnow⟩, hrun⟩ := h.of_ok ha
  cases hdisk
  cases hnow
  exact ⟨log, hrun⟩

/-- What has succeeded was planned. -/
theorem of_run (h : m.Reads planned next) {w w₁ : World} {b : β} (hrun : m.run w = (.ok b, w₁)) :
    ∃ a w₀, planned w.disk = .ok a ∧ w.Quiet w₀ ∧ (next a).run w₀ = (.ok b, w₁) := by
  cases hplanned : planned w.disk with
  | error f =>
      have hanswer := (h.of_error hplanned).1
      rw [hrun] at hanswer
      cases hanswer
  | ok a =>
      obtain ⟨w₀, hquiet, hsame⟩ := h.of_ok hplanned
      exact ⟨a, w₀, rfl, hquiet, hsame ▸ hrun⟩

end Work.Reads

theorem Registry.load_reads (path : Path) :
    (Registry.load path).Reads (fun d => Registry.read d path) pure := by
  intro w
  obtain ⟨hanswer, hquiet⟩ := Registry.run_load path w
  refine ⟨_, hquiet, ?_⟩
  rw [bind_pure, Work.run_ofExcept]
  exact Prod.ext hanswer rfl

/-- Reading goes on as long as nothing but questions is asked. -/
theorem Work.Reads.extend {γ : Type} {m : Work Failure α} {planned : Disk → Except Failure α}
    {k : α → Work Failure β} {planned' : α → Disk → Except Failure γ} {next : γ → Work Failure β}
    (h : m.Reads planned pure) (hk : ∀ a, (k a).Reads (planned' a) next) :
    (m >>= k).Reads (fun d => planned d >>= fun a => planned' a d) next := by
  intro w
  obtain ⟨w₀, hquiet, hrun⟩ := h w
  rw [bind_pure, Work.run_ofExcept] at hrun
  dsimp only
  cases hplanned : planned w.disk with
  | error f =>
      rw [hplanned] at hrun
      exact ⟨w₀, hquiet, run_bind_of_error hrun k⟩
  | ok a =>
      rw [hplanned] at hrun
      obtain ⟨w₁, hquiet', hrun'⟩ := hk a w₀
      refine ⟨w₁, hquiet.trans hquiet', ?_⟩
      rw [run_bind_of_ok hrun k, hrun', hquiet.disk]
      rfl

theorem prepare_reads (target source : Path) (mode : Mode) (name? : Option String)
    (prior : Option Entry) : (prepare target source mode name? prior).Reads
      (fun d => planInstall d target source mode name? prior)
      fun plan => build plan >>= fun _ => pure plan := by
  intro w
  refine ⟨w, .refl w, ?_⟩
  unfold prepare
  rw [run_bind_of_ok (Work.run_disk w)]

theorem installInto_reads (target source : Path) (mode : Mode) (name? : Option String)
    (prior : Option Entry) : (installInto target source mode name? prior).Reads
      (fun d => planInstall d target source mode name? prior)
      fun plan => build plan >>= fun _ => settle plan := by
  have h := (prepare_reads target source mode name? prior).bind settle
  simp only [bind_assoc, pure_bind] at h
  exact h

namespace Shelf

/-- The entry of a name, which has to be there. -/
def recorded (r : Registry) (name : String) : Except Failure Entry :=
  match r.get? name with
  | some e => .ok e
  | none => .error (.notFound name)

/-- The name of an install: the one that is asked for, or else that of the source. -/
def nameOf (d : Disk) (source : Path) : Option String → Except Failure String
  | some name => .ok name
  | none => deriveName d source

/-- What an install reads and plans. -/
def plannedInstall (shelf : Shelf) (target source : Path) (mode : Mode) (name? : Option String)
    (d : Disk) : Except Failure (Registry × Plan) := do
  let r ← Registry.read d shelf.registryPath
  let real ← resolveSource d source
  let name ← nameOf d real name?
  return (r, ← planInstall d target real mode (some name) (r.get? name))

/-- The package directory in which an entry can be installed again. -/
def targetOf (d : Disk) (name : String) (e : Entry) : Except Failure Path :=
  if !d.exists_ e.source then .error (.sourceNotFound e.source)
  else match e.targetDir? with
    | some target => .ok target
    | none => .error (.invalidEntry name (.noTargetDir e.artifact))

/-- What an update reads and plans. -/
def plannedUpdate (shelf : Shelf) (name : String) (d : Disk) : Except Failure (Registry × Plan) := do
  let r ← Registry.read d shelf.registryPath
  let current ← recorded r name
  let target ← targetOf d name current
  return (r, ← planInstall d target current.source current.mode (some current.name) (some current))

/-- What an uninstall reads. -/
def plannedRemoval (shelf : Shelf) (name : String) (d : Disk) : Except Failure (Registry × Entry) := do
  let r ← Registry.read d shelf.registryPath
  return (r, ← recorded r name)

/-- A plan together with the registry that it is made for. -/
theorem prepare_pair_reads (r : Registry) (target source : Path) (mode : Mode) (name? : Option String)
    (prior : Option Entry) :
    (prepare target source mode name? prior >>= fun plan =>
      pure (r, plan) : Work Failure (Registry × Plan)).Reads
      (fun d => planInstall d target source mode name? prior >>= fun plan => pure (r, plan))
      fun x => build x.2 >>= fun _ => pure x := by
  intro w
  refine ⟨w, .refl w, ?_⟩
  rw [prepare, bind_assoc, run_bind_of_ok (Work.run_disk w), bind_assoc]
  dsimp only
  cases planInstall w.disk target source mode name? prior with
  | error f => rfl
  | ok plan =>
      rw [run_bind_of_ok (Work.run_ofExcept w _), bind_assoc, pure_bind]
      rfl

theorem prepareInstall_reads (shelf : Shelf) (target source : Path) (mode : Mode)
    (name? : Option String) : (shelf.prepareInstall target source mode name?).Reads
      (shelf.plannedInstall target source mode name?)
      fun x => build x.2 >>= fun _ => pure x := by
  refine (Registry.load_reads shelf.registryPath).extend fun r w => ?_
  rw [run_bind_of_ok (Work.run_disk w)]
  dsimp only
  cases resolveSource w.disk source with
  | error f => exact ⟨w, .refl w, rfl⟩
  | ok real =>
      rw [run_bind_of_ok (Work.run_ofExcept w _)]
      match name? with
      | some name => exact prepare_pair_reads r target real mode (some name) (r.get? name) w
      | none =>
          show ∃ w₀, w.Quiet w₀ ∧ ((Work.ofExcept (deriveName w.disk real) >>= fun name =>
            prepare target real mode (some name) (r.get? name) >>= fun plan =>
              pure (r, plan) : Work Failure (Registry × Plan)).run w) =
            (Work.ofExcept (deriveName w.disk real >>= fun name =>
              planInstall w.disk target real mode (some name) (r.get? name) >>= fun plan =>
                pure (r, plan)) >>= _).run w₀
          cases deriveName w.disk real with
          | error f => exact ⟨w, .refl w, rfl⟩
          | ok name => exact prepare_pair_reads r target real mode (some name) (r.get? name) w

theorem prepareUpdate_reads (shelf : Shelf) (name : String) : (shelf.prepareUpdate name).Reads
    (shelf.plannedUpdate name) fun x => build x.2 >>= fun _ => pure x := by
  refine (Registry.load_reads shelf.registryPath).extend fun r w => ?_
  rw [run_bind, run_require]
  dsimp only
  unfold recorded
  cases r.get? name with
  | none => exact ⟨w, .refl w, rfl⟩
  | some current =>
      dsimp only
      rw [run_bind_of_ok (Work.run_disk w)]
      show ∃ w₀, w.Quiet w₀ ∧ _ = (Work.ofExcept (targetOf w.disk name current >>= fun target =>
        planInstall w.disk target current.source current.mode (some current.name) (some current) >>=
          fun plan => pure (r, plan)) >>= _).run w₀
      unfold targetOf
      by_cases hsource : (!w.disk.exists_ current.source) = true
      · rw [if_pos hsource, if_pos hsource]
        exact ⟨w, .refl w, rfl⟩
      · rw [if_neg hsource, if_neg hsource]
        cases current.targetDir? with
        | none => exact ⟨w, .refl w, rfl⟩
        | some target =>
            exact prepare_pair_reads r target current.source current.mode (some current.name)
              (some current) w

theorem install_reads (shelf : Shelf) (target source : Path) (mode : Mode) (name? : Option String) :
    (shelf.install target source mode name?).Reads (shelf.plannedInstall target source mode name?)
      fun x => build x.2 >>= fun _ => shelf.commit x.1 x.2 := by
  have h := (shelf.prepareInstall_reads target source mode name?).bind fun x => shelf.commit x.1 x.2
  simp only [bind_assoc, pure_bind] at h
  exact h

theorem update_reads (shelf : Shelf) (name : String) : (shelf.update name).Reads
    (shelf.plannedUpdate name) fun x => build x.2 >>= fun _ => shelf.commit x.1 x.2 >>= fun e => do
      Work.log .info .shelf s!"Updated '{name}' from {e.source.quoted}"
      return e := by
  have h := (shelf.prepareUpdate_reads name).bind fun x => shelf.commit x.1 x.2 >>= fun e => do
    Work.log .info .shelf s!"Updated '{name}' from {e.source.quoted}"
    return e
  simp only [bind_assoc, pure_bind] at h
  exact h

/-- An update installs the entry again, and then remembers it. -/
theorem update_renews {shelf : Shelf} {name : String} {w : World} {r : Registry} {e : Entry}
    (hread : Registry.read w.disk shelf.registryPath = .ok r) (hget : r.get? name = some e)
    (hsource : w.disk.exists_ e.source = true) :
    ∃ w₀, w.Quiet w₀ ∧ (shelf.update name).run w = (renew e >>= fun entry => do
      let r ← r.upsert entry
      r.save shelf.registryPath
      Work.log .info .shelf s!"Updated '{name}' from {entry.source.quoted}"
      return entry).run w₀ := by
  obtain ⟨w₀, hquiet, hload⟩ := (Registry.load_reads shelf.registryPath).of_ok hread
  refine ⟨w₀, hquiet, ?_⟩
  have hrequire : (require r name : Work Failure Entry).run w₀ = (.ok e, w₀) := by rw [run_require, hget]
  have hname := Registry.name_of_get? hget
  unfold update prepareUpdate
  rw [bind_assoc, run_bind_of_ok hload, bind_assoc, run_bind_of_ok hrequire, bind_assoc,
    run_bind_of_ok (Work.run_disk w₀), hquiet.disk, hsource]
  unfold renew
  cases e.targetDir? with
  | none =>
      rw [hname]
      rfl
  | some target =>
      dsimp only
      rw [if_neg (by simp)]
      simp only [commit, installInto, bind_assoc, pure_bind]

/-- What an uninstall does once it has the entry. -/
def removal (shelf : Shelf) (name : String) (r : Registry) (e : Entry) : Work Failure Removal := do
  let removed ← (Work.onDisk (DiskM.removeArtifact e.artifact)).attempt
  (r.erase name).save shelf.registryPath
  Change.report name e removed

theorem uninstall_reads (shelf : Shelf) (name : String) : (shelf.uninstall name).Reads
    (shelf.plannedRemoval name) fun x => shelf.removal name x.1 x.2 := by
  refine (Registry.load_reads shelf.registryPath).extend fun r w => ?_
  rw [run_bind, run_require]
  dsimp only
  unfold recorded
  cases r.get? name with
  | none => exact ⟨w, .refl w, rfl⟩
  | some e => exact ⟨w, .refl w, rfl⟩

/-! ### What was planned -/

variable {shelf : Shelf} {d : Disk} {r : Registry} {plan : Plan} {target source : Path} {mode : Mode}
  {name? : Option String} {name : String}

theorem get?_of_recorded {e : Entry} (h : recorded r name = .ok e) : r.get? name = some e := by
  unfold recorded at h
  split at h
  · next hget =>
      cases h
      exact hget
  · cases h

theorem targetDir?_of_targetOf {e : Entry} (h : targetOf d name e = .ok target) :
    e.targetDir? = some target := by
  unfold targetOf at h
  split at h
  · cases h
  · split at h
    · next hdir =>
        cases h
        exact hdir
    · cases h

theorem plannedInstall_eq_ok
    (h : shelf.plannedInstall target source mode name? d = .ok (r, plan)) :
    Registry.read d shelf.registryPath = .ok r ∧ ∃ real name, resolveSource d source = .ok real ∧
      nameOf d real name? = .ok name ∧
        planInstall d target real mode (some name) (r.get? name) = .ok plan := by
  obtain ⟨r', hread, h⟩ := bind_eq_ok_iff.1 h
  obtain ⟨real, hsource, h⟩ := bind_eq_ok_iff.1 h
  obtain ⟨name, hname, h⟩ := bind_eq_ok_iff.1 h
  obtain ⟨plan', hplan, h⟩ := bind_eq_ok_iff.1 h
  cases h
  exact ⟨hread, real, name, hsource, hname, hplan⟩

theorem plannedInstall_of_read {real : Path} (hread : Registry.read d shelf.registryPath = .ok r)
    (hsource : resolveSource d source = .ok real) (hname : nameOf d real name? = .ok name)
    (hplan : planInstall d target real mode (some name) (r.get? name) = .ok plan) :
    shelf.plannedInstall target source mode name? d = .ok (r, plan) :=
  bind_eq_ok_iff.2 ⟨r, hread, bind_eq_ok_iff.2 ⟨real, hsource, bind_eq_ok_iff.2
    ⟨name, hname, bind_eq_ok_iff.2 ⟨plan, hplan, rfl⟩⟩⟩⟩

theorem plannedUpdate_eq_ok (h : shelf.plannedUpdate name d = .ok (r, plan)) :
    Registry.read d shelf.registryPath = .ok r ∧ ∃ e target, r.get? name = some e ∧
      e.targetDir? = some target ∧
        planInstall d target e.source e.mode (some name) (some e) = .ok plan := by
  obtain ⟨r', hread, h⟩ := bind_eq_ok_iff.1 h
  obtain ⟨e, hrecorded, h⟩ := bind_eq_ok_iff.1 h
  obtain ⟨target, htarget, h⟩ := bind_eq_ok_iff.1 h
  obtain ⟨plan', hplan, h⟩ := bind_eq_ok_iff.1 h
  cases h
  have hget := get?_of_recorded hrecorded
  rw [Registry.name_of_get? hget] at hplan
  exact ⟨hread, e, target, hget, targetDir?_of_targetOf htarget, hplan⟩

theorem plannedUpdate_of_read {e : Entry} (hread : Registry.read d shelf.registryPath = .ok r)
    (hget : r.get? name = some e) (hthere : d.exists_ e.source = true) (htarget : e.targetDir? = some target)
    (hplan : planInstall d target e.source e.mode (some name) (some e) = .ok plan) :
    shelf.plannedUpdate name d = .ok (r, plan) := by
  have hrecorded : recorded r name = .ok e := by rw [recorded, hget]
  have hinto : targetOf d name e = .ok target := by
    unfold targetOf
    rw [hthere, htarget]
    rfl
  rw [← Registry.name_of_get? hget] at hplan
  exact bind_eq_ok_iff.2 ⟨r, hread, bind_eq_ok_iff.2 ⟨e, hrecorded, bind_eq_ok_iff.2
    ⟨target, hinto, bind_eq_ok_iff.2 ⟨plan, hplan, rfl⟩⟩⟩⟩

theorem plannedRemoval_of_get? {e : Entry} (hread : Registry.read d shelf.registryPath = .ok r)
    (hget : r.get? name = some e) : shelf.plannedRemoval name d = .ok (r, e) := by
  have hrecorded : recorded r name = .ok e := by rw [recorded, hget]
  exact bind_eq_ok_iff.2 ⟨r, hread, bind_eq_ok_iff.2 ⟨e, hrecorded, rfl⟩⟩

theorem plannedRemoval_eq_ok {e : Entry} (h : shelf.plannedRemoval name d = .ok (r, e)) :
    Registry.read d shelf.registryPath = .ok r ∧ r.get? name = some e := by
  obtain ⟨r', hread, h⟩ := bind_eq_ok_iff.1 h
  obtain ⟨e', hrecorded, h⟩ := bind_eq_ok_iff.1 h
  cases h
  exact ⟨hread, get?_of_recorded hrecorded⟩

end Shelf

/-! ### The module that a call is about -/

namespace Change

/-- The name of the module that a call is about. -/
inductive Concerns (d : Disk) (name : String) : Change → Prop
  | install {target source real : Path} {mode : Mode} {name? : Option String}
      (hsource : resolveSource d source = .ok real) (hname : Shelf.nameOf d real name? = .ok name) :
      Concerns d name (.install target source mode name?)
  | update : Concerns d name (.update name)
  | uninstall : Concerns d name (.uninstall name)

/-- What an install or an update does before it saves. -/
def placing (x : Registry × Plan) : Work Failure Registry := do
  build x.2
  x.1.upsert (← settle x.2)

/-- What an uninstall does before it saves. -/
def removing (name : String) (x : Registry × Entry) : Work Failure Registry := do
  let _ ← (Work.onDisk (DiskM.removeArtifact x.2.artifact)).attempt
  return x.1.erase name

theorem fileWork_install_reads (shelf : Shelf) (target source : Path) (mode : Mode)
    (name? : Option String) : (fileWork shelf (.install target source mode name?)).Reads
      (shelf.plannedInstall target source mode name?) placing := by
  have h := (shelf.prepareInstall_reads target source mode name?).bind fun x =>
    settle x.2 >>= fun e => (x.1.upsert e : Work Failure Registry)
  simp only [bind_assoc, pure_bind] at h
  exact h

theorem fileWork_update_reads (shelf : Shelf) (name : String) :
    (fileWork shelf (.update name)).Reads (shelf.plannedUpdate name) placing := by
  have h := (shelf.prepareUpdate_reads name).bind fun x =>
    settle x.2 >>= fun e => (x.1.upsert e : Work Failure Registry)
  simp only [bind_assoc, pure_bind] at h
  exact h

theorem fileWork_uninstall_reads (shelf : Shelf) (name : String) :
    (fileWork shelf (.uninstall name)).Reads (shelf.plannedRemoval name) (removing name) := by
  refine (Registry.load_reads shelf.registryPath).extend fun r w => ?_
  rw [run_bind, Shelf.run_require]
  unfold Shelf.recorded
  cases r.get? name with
  | none => exact ⟨w, .refl w, rfl⟩
  | some e => exact ⟨w, .refl w, rfl⟩

/-- The registry that is going to be saved has the entry that was placed. -/
theorem placing_ok {r r' : Registry} {plan : Plan} {w w₁ : World}
    (h : (placing (r, plan)).run w = (.ok r', w₁)) : r' = r.insert (plan.entry w.now) := by
  obtain ⟨u, t, hbuild, h⟩ := run_bind_ok h
  obtain ⟨e, t', hsettle, h⟩ := run_bind_ok h
  have hclock := (stable_now w.now).build plan w rfl
  rw [hbuild] at hclock
  have hcases := (settle_cases plan t).2
  rw [hsettle] at hcases
  obtain ⟨w₂, -, hupsert⟩ := Shelf.run_upsert r e t'
  rw [hupsert] at h
  cases h
  rcases hcases with ⟨f, herror, -⟩ | ⟨hok, -⟩
  · cases herror
  · cases hok
    rw [show t.now = w.now from hclock]

/-- The registry that is going to be saved differs from the one that was read in the module that the call
is about. -/
theorem fileWork_ok {shelf : Shelf} {c : Change} {w w₁ : World} {r' : Registry}
    (h : (c.fileWork shelf).run w = (.ok r', w₁)) : ∃ r name,
      Registry.read w.disk shelf.registryPath = .ok r ∧ Concerns w.disk name c ∧
        (r' = r.erase name ∨ ∃ e : Entry, e.name = name ∧ r' = r.insert e) := by
  cases c with
  | install target source mode name? =>
      obtain ⟨⟨r, plan⟩, w₀, hplanned, -, hrun⟩ := (fileWork_install_reads shelf _ _ _ _).of_run h
      obtain ⟨hread, real, name, hsource, hname, hplan⟩ := Shelf.plannedInstall_eq_ok hplanned
      exact ⟨r, name, hread, .install hsource hname, .inr ⟨_, (planned hplan).named, placing_ok hrun⟩⟩
  | update name =>
      obtain ⟨⟨r, plan⟩, w₀, hplanned, -, hrun⟩ := (fileWork_update_reads shelf name).of_run h
      obtain ⟨hread, e, target, hget, htarget, hplan⟩ := Shelf.plannedUpdate_eq_ok hplanned
      exact ⟨r, name, hread, .update, .inr ⟨_, (planned hplan).named, placing_ok hrun⟩⟩
  | uninstall name =>
      obtain ⟨⟨r, e⟩, w₀, hplanned, -, hrun⟩ := (fileWork_uninstall_reads shelf name).of_run h
      obtain ⟨hread, hget⟩ := Shelf.plannedRemoval_eq_ok hplanned
      obtain ⟨a, t, -, hrun⟩ := run_bind_ok hrun
      cases hrun
      exact ⟨r, name, hread, .uninstall, .inl rfl⟩

end Change

end Sideload
