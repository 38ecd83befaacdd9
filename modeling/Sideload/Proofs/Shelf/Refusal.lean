import Sideload.Proofs.Shelf.Planning
import Sideload.Proofs.Shelf.Readable

/-!
Refusals. Whatever can be refused is refused while a call is planned: a source that is not there, a place
that is taken, a registry that is no registry, a name that is unknown or unfit. What fails later has other
names, so after a refusal the disk is as it was.
-/

namespace Sideload

variable {α β : Type}

/-! ### What is refused -/

/-- Failures by which a request is refused: there is no such source or module, the name is unfit, the
place is taken, or the registry cannot be read. -/
def Failure.isRefusal : Failure → Bool
  | sourceNotFound _ => true
  | conflict .. => true
  | corrupt .. => true
  | notFound _ => true
  | invalidName .. => true
  | _ => false

theorem Failure.isRefusal_ofIo (path : Path) (e : IoError) : (Failure.ofIo path e).isRefusal = false := by
  unfold ofIo
  split <;> rfl

/-- Work that refuses nothing. -/
def Work.Accepts (m : Work Failure α) : Prop :=
  ∀ (w : World) (f : Failure), (m.run w).1 = .error f → f.isRefusal = false

namespace Work.Accepts

theorem pure (a : α) : (Pure.pure a : Work Failure α).Accepts := fun _ _ => nofun

theorem throw {f : Failure} (h : f.isRefusal = false) : (throw f : Work Failure α).Accepts := by
  intro w f' hf
  cases hf
  exact h

theorem log (level : Log.Level) (topic : Log.Topic) (text : String) :
    (Work.log level topic text : Work Failure Unit).Accepts := fun _ _ => nofun

theorem now : (Work.now : Work Failure Moment).Accepts := fun _ _ => nofun

theorem disk : (Work.disk : Work Failure Disk).Accepts := fun _ _ => nofun

theorem attempt {ε : Type} (m : Work ε α) : (m.attempt : Work Failure (Except ε α)).Accepts :=
  fun _ _ => nofun

/-- A file operation that fails is no refusal. -/
theorem orFail (m : Work IoError α) (path : Path) : (m.orFail (.ofIo path)).Accepts := by
  intro w f hf
  rw [run_orFail] at hf
  revert hf
  rcases (m.run w).1 with e | a
  · intro hf
    cases hf
    exact Failure.isRefusal_ofIo path e
  · exact nofun

theorem bind {m : Work Failure α} {k : α → Work Failure β} (hm : m.Accepts)
    (hk : ∀ a, (k a).Accepts) : (m >>= k).Accepts := by
  intro w f hf
  rw [run_bind] at hf
  rcases hrun : m.run w with ⟨e | a, w'⟩
  · rw [hrun] at hf
    cases hf
    exact hm w f (by rw [hrun])
  · rw [hrun] at hf
    exact hk a w' f hf

end Work.Accepts

open Work

theorem parent?_of_deriveName {d : Disk} {source : Path} {name : String}
    (h : deriveName d source = .ok name) : source.parent? ≠ none := by
  have hname : ∃ n, source.fileName? = some n := by
    unfold deriveName at h
    cases hfile : source.fileName? with
    | some n => exact ⟨n, rfl⟩
    | none =>
        rw [Path.stem?, hfile] at h
        split at h <;> simp at h
  obtain ⟨n, hn⟩ := hname
  exact Path.parent?_of_fileName? hn

theorem stage_accepts {source : Path} (hparent : source.parent? ≠ none) (staging : Path) (mode : Mode)
    (isDir : Bool) : (stage source staging mode isDir).Accepts := by
  match mode, isDir with
  | .copy, true =>
      refine (Accepts.orFail _ _).bind fun count => Accepts.disk.bind fun d => ?_
      split
      · exact .log _ _ _
      · exact (Accepts.orFail _ _).bind fun _ => (Accepts.log _ _ _).bind fun _ => .log _ _ _
  | .copy, false => exact (Accepts.orFail _ _).bind fun _ => .log _ _ _
  | .editable, _ =>
      unfold stage
      obtain ⟨parent, hp⟩ := Option.ne_none_iff_exists'.1 hparent
      rw [hp]
      exact (Accepts.orFail _ _).bind fun _ => .log _ _ _

theorem build_accepts {plan : Plan} (hparent : plan.source.parent? ≠ none) : (build plan).Accepts := by
  refine (Accepts.orFail _ _).bind fun _ => (Accepts.orFail _ _).bind fun _ => ?_
  intro w f hf
  -- what `stageOrClean` throws is what `stage` failed with
  rw [stageOrClean, run_bind, run_attempt] at hf
  rcases hstage : (stage plan.source plan.staging plan.mode plan.isDir).run w with ⟨e | u, w'⟩
  · rw [hstage] at hf
    obtain rfl : e = f := by
      dsimp only at hf
      rw [run_bind, run_attempt] at hf
      dsimp only at hf
      split at hf <;> cases hf <;> rfl
    exact stage_accepts hparent _ _ _ w e (by rw [hstage])
  · rw [hstage] at hf
    cases hf

theorem settle_accepts (plan : Plan) : (settle plan).Accepts := by
  have hdiscard : (discardPrior plan).Accepts := by
    unfold discardPrior
    split
    · exact .pure ()
    · refine (Accepts.orFail _ _).bind fun removed => ?_
      split
      · exact .log _ _ _
      · exact .pure ()
  have hwarn : (warnOtherName plan).Accepts := by
    unfold warnOtherName
    split
    · exact .log _ _ _
    · exact .pure ()
  exact hdiscard.bind fun _ => (Accepts.orFail _ _).bind fun _ => hwarn.bind fun _ =>
    (Accepts.log _ _ _).bind fun _ => Accepts.now.bind fun _ => .pure _

theorem Registry.save_accepts (r : Registry) (path : Path) : (r.save path).Accepts := by
  unfold save
  split
  · exact .throw rfl
  · have hhost : (makeHost path).Accepts := by
      unfold makeHost
      split
      · exact .orFail _ _
      · exact .pure ()
    exact hhost.bind fun _ => ((Accepts.orFail _ _).bind fun _ => .orFail _ _).bind fun _ => .log _ _ _

namespace Shelf

theorem commit_accepts (shelf : Shelf) (r : Registry) (plan : Plan) : (shelf.commit r plan).Accepts := by
  have hupsert : ∀ e, (r.upsert e : Work Failure Registry).Accepts := by
    intro e
    unfold Registry.upsert
    split
    · exact (Accepts.log _ _ _).bind fun _ => .pure _
    · exact .pure _
  exact (settle_accepts plan).bind fun e => (hupsert e).bind fun r' =>
    (r'.save_accepts shelf.registryPath).bind fun _ => .pure e

theorem removal_accepts (shelf : Shelf) (name : String) (r : Registry) (e : Entry) :
    (shelf.removal name r e).Accepts := by
  refine (Accepts.attempt _).bind fun removed => ((r.erase name).save_accepts _).bind fun _ => ?_
  rcases removed with cause | removed
  · exact (Accepts.log _ _ _).bind fun _ => .throw rfl
  · cases removed
    · exact (Accepts.log _ _ _).bind fun _ => .pure _
    · exact (Accepts.log _ _ _).bind fun _ => .pure _

end Shelf

/-! ### What stands in the way -/

/-- Something stands at a path where an install of the given name would have to put its artifact, or where
it would hide the module, and it is not the artifact that is replaced. -/
def Obstructed (d : Disk) (target source : Path) (mode : Mode) (name? : Option String)
    (prior : Option Entry) (name : String) (p : Path) : Prop :=
  ∃ real derived, resolveSource d source = .ok real ∧ deriveName d real = .ok derived ∧
    name = name?.getD derived ∧
    p ∈ candidates target (destination target real name mode (d.isDir real)) name mode ∧
    d.occupied p = true ∧ prior.any (·.artifact.sameAs p) = false

theorem Obstructed.name_eq {d : Disk} {target source : Path} {mode : Mode} {prior : Option Entry}
    {name n : String} {p : Path} (h : Obstructed d target source mode (some n) prior name p) :
    name = n := by
  obtain ⟨_, _, _, _, hname, _⟩ := h
  exact hname

theorem conflict?_eq_some {d : Disk} {paths : List Path} {prior : Option Entry} {p : Path}
    (h : conflict? d paths prior = some p) :
    p ∈ paths ∧ d.occupied p = true ∧ prior.any (·.artifact.sameAs p) = false := by
  have hfound := List.find?_some h
  rw [Bool.and_eq_true, Bool.not_eq_true'] at hfound
  exact ⟨List.mem_of_find?_eq_some h, hfound⟩

theorem resolveSource_ne_conflict {d : Disk} {source : Path} {name : String} {p : Path} :
    resolveSource d source ≠ .error (.conflict name p) := by
  unfold resolveSource
  split
  · rcases d.canonical source with e | real
    · show Except.error (Failure.ofIo source e) ≠ _
      unfold Failure.ofIo
      split <;> simp
    · exact nofun
  · exact nofun

theorem Registry.read_ne_conflict {d : Disk} {path p : Path} {name : String} :
    Registry.read d path ≠ .error (.conflict name p) := by
  unfold read
  split
  · next e _ =>
      split
      · exact nofun
      · unfold Failure.ofIo
        split <;> simp
  · next content _ => cases ofText content <;> exact nofun

theorem deriveName_ne_conflict {d : Disk} {source : Path} {name : String} {p : Path} :
    deriveName d source ≠ .error (.conflict name p) := by
  unfold deriveName
  dsimp only
  split <;> exact nofun

variable {d : Disk} {target source : Path} {mode : Mode} {name? : Option String}
  {prior : Option Entry} {name : String} {p : Path}

/-- The only conflict that an install is refused for is that something stands in its way. -/
theorem obstructed_of_conflict
    (h : planInstall d target source mode name? prior = .error (.conflict name p)) :
    Obstructed d target source mode name? prior name p := by
  obtain hsource | ⟨real, hsource, h⟩ := bind_eq_error_iff.1 h
  · exact absurd hsource resolveSource_ne_conflict
  obtain hderived | ⟨derived, hderived, h⟩ := bind_eq_error_iff.1 h
  · exact absurd hderived deriveName_ne_conflict
  obtain hvalid | ⟨-, -, h⟩ := bind_eq_error_iff.1 h
  · unfold validateName at hvalid
    split at hvalid <;> cases hvalid
  dsimp only at h
  split at h
  · next taken htaken =>
      cases h
      exact ⟨real, derived, hsource, hderived, rfl, conflict?_eq_some htaken⟩
  · cases h

/-- What is planned has nothing in its way. -/
theorem Planned.not_obstructed {plan : Plan} (h : Planned d target source mode name? prior plan) :
    ¬ Obstructed d target source mode name? prior name p := by
  rintro ⟨real, derived, hsource, hderived, rfl, hmem, hoccupied, hforeign⟩
  obtain rfl : plan.source = real := Except.ok.inj (h.resolved.symm.trans hsource)
  obtain rfl : plan.derived = derived := Except.ok.inj (h.derived.symm.trans hderived)
  have hname : plan.name = name?.getD plan.derived := h.named
  rw [← hname, ← h.isDir_eq, ← h.dest_eq] at hmem
  have hclear := List.find?_eq_none.1 h.clear p hmem
  rw [hoccupied, hforeign] at hclear
  exact hclear rfl

namespace Change

/-- Something stands in the way of a call. -/
inductive Obstructed (shelf : Shelf) (d : Disk) (name : String) (p : Path) : Change → Prop
  | install {target source real : Path} {mode : Mode} {name? : Option String} {r : Registry}
      (hread : Registry.read d shelf.registryPath = .ok r) (hsource : resolveSource d source = .ok real)
      (hname : Shelf.nameOf d real name? = .ok name)
      (h : Sideload.Obstructed d target real mode (some name) (r.get? name) name p) :
      Obstructed shelf d name p (.install target source mode name?)
  | update {target : Path} {r : Registry} {e : Entry}
      (hread : Registry.read d shelf.registryPath = .ok r) (hget : r.get? name = some e)
      (htarget : e.targetDir? = some target)
      (h : Sideload.Obstructed d target e.source e.mode (some name) (some e) name p) :
      Obstructed shelf d name p (.update name)

end Change

/-- What there is to say of a run that may be refused: a refusal leaves the disk as it was, a conflict is
about something that stands in the way, and nothing stands in the way of a run that succeeds. -/
structure Refuses (w : World) (run : Except Failure β × World) (taken : String → Path → Prop) :
    Prop where
  unchanged : ∀ f, run.1 = .error f → f.isRefusal = true → run.2.disk = w.disk
  conflict : ∀ name p, run.1 = .error (.conflict name p) → taken name p
  free : ∀ b, run.1 = .ok b → ∀ name p, ¬ taken name p

/-- Work that refuses nothing once it has a plan refuses only what it could not plan. -/
theorem Work.Reads.refuses {m : Work Failure β} {planned : Disk → Except Failure α}
    {next : α → Work Failure β} {w : World} {taken : String → Path → Prop} (h : m.Reads planned next)
    (hnext : ∀ a, planned w.disk = .ok a → (next a).Accepts)
    (hconflict : ∀ name p, planned w.disk = .error (.conflict name p) → taken name p)
    (hfree : ∀ a, planned w.disk = .ok a → ∀ name p, ¬ taken name p) :
    Refuses w (m.run w) taken := by
  cases hplanned : planned w.disk with
  | error f =>
      obtain ⟨hanswer, hquiet⟩ := h.of_error hplanned
      refine ⟨fun _ _ _ => hquiet.disk, fun name p hf => hconflict name p ?_, fun b hb => ?_⟩
      · cases hanswer.symm.trans hf
        exact hplanned
      · rw [hanswer] at hb
        cases hb
  | ok a =>
      obtain ⟨w₀, -, hrun⟩ := h.of_ok hplanned
      rw [hrun]
      refine ⟨fun f hf href => ?_, fun name p hf => ?_, fun _ _ => hfree a hplanned⟩
      · rw [hnext a hplanned w₀ f hf] at href
        cases href
      · cases hnext a hplanned w₀ _ hf

theorem refuses_installInto (target source : Path) (mode : Mode) (name? : Option String)
    (prior : Option Entry) (w : World) :
    Refuses w ((installInto target source mode name? prior).run w)
      (Obstructed w.disk target source mode name? prior) := by
  refine (installInto_reads target source mode name? prior).refuses (fun plan hplan => ?_)
    (fun _ _ => obstructed_of_conflict) fun plan hplan _ _ => (planned hplan).not_obstructed
  exact (build_accepts (parent?_of_deriveName (planned hplan).derived)).bind fun _ =>
    settle_accepts plan

namespace Shelf

variable {shelf : Shelf}

theorem obstructed_of_plannedInstall {p : Path}
    (h : shelf.plannedInstall target source mode name? d = .error (.conflict name p)) :
    Change.Obstructed shelf d name p (.install target source mode name?) := by
  obtain hread | ⟨r, hread, h⟩ := bind_eq_error_iff.1 h
  · exact absurd hread Registry.read_ne_conflict
  obtain hsource | ⟨real, hsource, h⟩ := bind_eq_error_iff.1 h
  · exact absurd hsource resolveSource_ne_conflict
  obtain hname | ⟨n, hname, h⟩ := bind_eq_error_iff.1 h
  · unfold nameOf at hname
    split at hname
    · cases hname
    · exact absurd hname deriveName_ne_conflict
  obtain hplan | ⟨plan, -, h⟩ := bind_eq_error_iff.1 h
  · have hobstructed := obstructed_of_conflict hplan
    obtain rfl := hobstructed.name_eq
    exact .install hread hsource hname hobstructed
  · cases h

theorem obstructed_of_plannedUpdate {n : String} {p : Path}
    (h : shelf.plannedUpdate n d = .error (.conflict name p)) :
    Change.Obstructed shelf d name p (.update n) := by
  obtain hread | ⟨r, hread, h⟩ := bind_eq_error_iff.1 h
  · exact absurd hread Registry.read_ne_conflict
  obtain hrecorded | ⟨e, hrecorded, h⟩ := bind_eq_error_iff.1 h
  · unfold recorded at hrecorded
    split at hrecorded <;> cases hrecorded
  obtain htarget | ⟨target, htarget, h⟩ := bind_eq_error_iff.1 h
  · unfold targetOf at htarget
    split at htarget
    · cases htarget
    · split at htarget <;> cases htarget
  obtain hplan | ⟨plan, -, h⟩ := bind_eq_error_iff.1 h
  · have hget := get?_of_recorded hrecorded
    have hobstructed := obstructed_of_conflict hplan
    rw [Registry.name_of_get? hget] at hobstructed
    obtain rfl := hobstructed.name_eq
    exact .update hread hget (targetDir?_of_targetOf htarget) hobstructed
  · cases h

end Shelf

namespace Change

theorem refuses_run (shelf : Shelf) (c : Change) (w : World) :
    Refuses w ((c.run shelf).run w) fun name p => Obstructed shelf w.disk name p c := by
  cases c with
  | install target source mode name? =>
      refine (shelf.install_reads target source mode name?).refuses (fun x hx => ?_)
        (fun _ _ => Shelf.obstructed_of_plannedInstall) fun x hx n p => ?_
      · obtain ⟨-, real, name, -, -, hplan⟩ := Shelf.plannedInstall_eq_ok hx
        exact (build_accepts (parent?_of_deriveName (planned hplan).derived)).bind fun _ =>
          shelf.commit_accepts x.1 x.2
      · obtain ⟨hread, real, name, hsource, hname, hplan⟩ := Shelf.plannedInstall_eq_ok hx
        rintro (⟨hread', hsource', hname', hobstructed⟩ | _)
        cases hread.symm.trans hread'
        cases hsource.symm.trans hsource'
        cases hname.symm.trans hname'
        exact (planned hplan).not_obstructed hobstructed
  | update name =>
      refine (shelf.update_reads name).refuses (fun x hx => ?_)
        (fun _ _ => Shelf.obstructed_of_plannedUpdate) fun x hx n p => ?_
      · obtain ⟨-, e, target, -, -, hplan⟩ := Shelf.plannedUpdate_eq_ok hx
        exact (build_accepts (parent?_of_deriveName (planned hplan).derived)).bind fun _ =>
          (shelf.commit_accepts x.1 x.2).bind fun e => (Accepts.log _ _ _).bind fun _ => .pure e
      · obtain ⟨hread, e, target, hget, htarget, hplan⟩ := Shelf.plannedUpdate_eq_ok hx
        rintro (_ | ⟨hread', hget', htarget', hobstructed⟩)
        cases hread.symm.trans hread'
        cases hget.symm.trans hget'
        cases htarget.symm.trans htarget'
        exact (planned hplan).not_obstructed hobstructed
  | uninstall name =>
      refine (shelf.uninstall_reads name).refuses (fun x _ => shelf.removal_accepts name x.1 x.2)
        (fun n p h => ?_) fun _ _ _ _ => nofun
      obtain hread | ⟨r, -, h⟩ := bind_eq_error_iff.1 h
      · exact absurd hread Registry.read_ne_conflict
      obtain hrecorded | ⟨e, -, h⟩ := bind_eq_error_iff.1 h
      · unfold Shelf.recorded at hrecorded
        split at hrecorded <;> cases hrecorded
      · cases h

end Change

/-- Refusals have no effect, and a conflict is what it says: this holds of every call on a shelf and of
every install into a package directory, whatever entry it replaces. -/
theorem refusals_have_no_effect (w : World) :
    (∀ (shelf : Shelf) (c : Change),
      Refuses w ((c.run shelf).run w) fun name p => c.Obstructed shelf w.disk name p) ∧
    ∀ (target source : Path) (mode : Mode) (name? : Option String) (prior : Option Entry),
      Refuses w ((installInto target source mode name? prior).run w)
        (Obstructed w.disk target source mode name? prior) :=
  ⟨fun shelf c => c.refuses_run shelf w, fun target source mode name? prior =>
    refuses_installInto target source mode name? prior w⟩

/-- Something that belongs to no entry stands where the module would go. -/
def takenWorld : World := .holding
  [(Glyph.ofString "m.py", .file .empty false),
    (Glyph.ofString "site", .dir [(Glyph.ofString "m.py", .file .empty true)])]

def takenInstall : Change := .install (.ofString "/site") (.ofString "/m.py") .copy none

/-- The install is refused, and the disk is as it was. -/
theorem refused_taken :
    ((takenInstall.run Shelf.sampleShelf).run takenWorld).1 =
      .error (.conflict "m" (.ofString "/site/m.py")) ∧
    ((takenInstall.run Shelf.sampleShelf).run takenWorld).2.disk = takenWorld.disk := by
  have hrun : ((takenInstall.run Shelf.sampleShelf).run takenWorld).1 =
      .error (.conflict "m" (.ofString "/site/m.py")) := by cbv
  have hrefuses := (refusals_have_no_effect takenWorld).1 Shelf.sampleShelf takenInstall
  exact ⟨hrun, hrefuses.unchanged _ hrun rfl⟩

end Sideload
