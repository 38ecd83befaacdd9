import Sideload.Proofs.Shelf.Akin

/-!
One call on two disks that are alike for its module. Up to the save of the registry it does the same on both.
-/

namespace Sideload

open Disk

variable {shelf : Shelf} {home : Home} {target dir source : Path} {loc : Location} {d d₁ u : Disk} {r r' : Registry}
  {name : String} {e : Entry} {mode : Mode} {name? : Option String} {plan : Plan} {w v : World} {α : Type}
  {run run' : Except Failure α × World} {f : Failure}

/-! ### How a call goes on -/

namespace Change

/-- The sources that a call goes by: the given one, or the recorded one. -/
inductive Draws (book : Book) : Change → Path → Prop
  | install (target source : Path) (mode : Mode) (name? : Option String) :
      Draws book (.install target source mode name?) source
  | update {name : String} {e : Entry} (hget : book name = some e) : Draws book (.update name) e.source

/-- A call that is about one module, if it comes to a module at all. -/
def IsAbout (d : Disk) (name : String) (c : Change) : Prop := ∀ k, Concerns d k c → k = name

/-- An answer without the time of the entry that was placed. -/
def undated : (c : Change) → c.Answer → c.Answer
  | install .., e => Entry.undated e
  | update _, e => Entry.undated e
  | uninstall _, o => o

end Change

/-- A run that fails before it saves, and leaves a disk behind. -/
def Halts (run : Except Failure α × World) (f : Failure) (d : Disk) : Prop := run.1 = .error f ∧ run.2.disk = d

/-- A run that comes to saving a registry, and answers so if the save succeeds. -/
def Saves (path : Path) (run : Except Failure α × World) (r : Registry) (a : Except Failure α) (d : Disk) : Prop :=
  ∃ w₁ : World, w₁.disk = d ∧ run.2.disk = ((r.save path).run w₁).2.disk ∧
    run.1 = ((r.save path).run w₁).1.bind fun _ => a

theorem Work.Reads.halts {β : Type} {m : Work Failure β} {planned : Disk → Except Failure α} {next : α → Work Failure β}
    (h : m.Reads planned next) (hf : planned w.disk = .error f) : Halts (m.run w) f w.disk :=
  ⟨(h.of_error hf).1, (h.of_error hf).2.disk⟩

/-- The same change of two registries: an entry is put there, with one time or another, or is erased. -/
inductive Registry.Alters (name : String) (r r' : Registry) : Registry → Registry → Prop
  | put {e f : Entry} (hname : e.name = name) (hsame : f.undated = e.undated) (he : e.Readable) (hf : f.Readable) :
      Alters name r r' (r.insert e) (r'.insert f)
  | erase : Alters name r r' (r.erase name) (r'.erase name)

namespace Registry.Alters

variable {other : String} {r₁ r₁' : Registry} (h : Alters name r r' r₁ r₁')
include h

theorem symm : Alters name r' r r₁' r₁ := by
  cases h with
  | put hname hsame he hf => exact .put ((Entry.name_of_undated hsame).trans hname) hsame.symm hf he
  | erase => exact .erase

/-- The registry that is saved comes back once it has a text. -/
theorem comesBack (hr : r'.ComesBack) {s : String} (hs : r₁'.text = .ok s) : r₁'.ComesBack := by
  refine ⟨s, hs, (ofText_text_iff hs).2 fun e he => ?_⟩
  cases h with
  | put hname hsame he₁ hf =>
      rcases mem_insert he with rfl | ⟨he, -⟩
      · exact hf
      · exact hr.readable e he
  | erase => exact hr.readable e (mem_erase he).1

theorem others (hother : other ≠ name) : r₁'.get? other = r'.get? other := by
  cases h.symm with
  | put hname => exact (get?_insert ..).trans (if_neg fun heq => hother (heq.symm.trans hname))
  | erase => exact (get?_erase ..).trans (if_neg hother)

theorem alike : (r₁'.get? name).map Entry.undated = (r₁.get? name).map Entry.undated := by
  cases h with
  | put hname hsame =>
      rw [get?_insert, get?_insert, if_pos hname, if_pos ((Entry.name_of_undated hsame).trans hname)]
      exact congrArg some hsame
  | erase => rw [get?_erase, get?_erase, if_pos rfl, if_pos rfl]

/-- Two registries that are changed alike are saved, or both are not. -/
theorem save_agrees {path : Path} (hr : r.ComesBack) (hr' : r'.ComesBack) (hh : Homed w.disk path home)
    (hh' : Homed v.disk path home) (hfile : w.disk.look home.file ≠ some .dir)
    (hfile' : v.disk.look home.file ≠ some .dir)
    (hdraft : v.disk.look home.draft = some .dir ↔ w.disk.look home.draft = some .dir) :
    ((r₁'.save path).run v).1 = ((r₁.save path).run w).1 := by
  have htexts : (∃ s s', r₁.text = .ok s ∧ r₁'.text = .ok s') ∨
      ∃ fault, r₁.text = .error fault ∧ r₁'.text = .error fault := by
    cases h with
    | put hname hsame => exact text_insert_agrees hr hr' hsame
    | erase =>
        obtain ⟨s, hs⟩ := hr.text_erase name
        obtain ⟨s', hs'⟩ := hr'.text_erase name
        exact .inl ⟨s, s', hs, hs'⟩
  rcases htexts with ⟨s, s', hs, hs'⟩ | ⟨fault, hs, hs'⟩
  · exact Registry.save_agrees hh hh' hfile hfile' hdraft hs hs'
  · unfold save
    rw [hs, hs']
    rfl

end Registry.Alters

theorem Carries.proper {out : Except Failure Unit} (h : Carries plan w out d) (hproper : w.disk.Proper) : d.Proper := by
  obtain ⟨w₁, hrun, -, rfl⟩ := h
  have hkeeps := (Work.Keeps.bind (stable_proper.build plan) fun _ => stable_proper.settle plan) w hproper
  rwa [hrun] at hkeeps

/-- Building and then committing is building and settling, and then remembering. -/
theorem build_commit (shelf : Shelf) (r : Registry) (plan : Plan) :
    (build plan >>= fun _ => shelf.commit r plan) = ((build plan >>= fun _ => settle plan) >>= fun entry =>
      r.upsert entry >>= fun r => r.save shelf.registryPath >>= fun _ => pure entry) := by
  rw [bind_assoc]
  rfl

theorem Carries.halts (h : Carries plan w (.error f) d) :
    Halts ((build plan >>= fun _ => shelf.commit r plan).run w) f d := by
  obtain ⟨w₁, hrun, -, hdisk⟩ := h
  rw [build_commit, run_bind_of_error hrun]
  exact ⟨rfl, hdisk⟩

theorem Carries.saves (h : Carries plan w (.ok ()) d) :
    Saves shelf.registryPath ((build plan >>= fun _ => shelf.commit r plan).run w) (r.insert (plan.entry w.now))
      (.ok (plan.entry w.now)) d := by
  obtain ⟨w₁, hrun, -, hdisk⟩ := h
  obtain ⟨w₂, hquiet, hupsert⟩ := Shelf.run_upsert r (plan.entry w.now) w₁
  rw [build_commit, run_bind_of_ok hrun, run_bind_of_ok hupsert, run_bind]
  refine ⟨w₂, hquiet.disk.trans hdisk, ?_⟩
  rcases ((r.insert (plan.entry w.now)).save shelf.registryPath).run w₂ with ⟨f | u, w₃⟩ <;> exact ⟨rfl, rfl⟩

/-! ### Planning -/

namespace Shelf

/-- A plan for a module that is the same on two disks. -/
structure Shared (home : Home) (target : Path) (loc : Location) (d : Disk) (r : Registry) (name : String) (u : Disk)
    (plan : Plan) : Prop where
  named : plan.name = name
  into : Addresses target r name plan.target
  planned : ∃ source mode name?, Planned d plan.target source mode name? (r.get? name) plan ∧
    Planned u plan.target source mode name? (r.get? name) plan
  source : Avoids (Grounds home loc d) d plan.source

namespace Akin

variable (b : shelf.Basis home target loc d r) (a : shelf.Akin home target loc d r name u)
include b a

/-- The same install is planned, or the same failure comes of planning it. -/
theorem shared_plan (mode : Mode) (hinto : Addresses target r name dir) (h : Aloof (Grounds home loc d) d source) :
    (∃ f, planInstall d dir source mode (some name) (r.get? name) = .error f ∧
      planInstall u dir source mode (some name) (r.get? name) = .error f) ∨
    ∃ plan, planInstall d dir source mode (some name) (r.get? name) = .ok plan ∧
      planInstall u dir source mode (some name) (r.get? name) = .ok plan ∧
        Shared home target loc d r name u plan := by
  have hsame : planInstall u dir source mode (some name) (r.get? name) =
      planInstall d dir source mode (some name) (r.get? name) :=
    planInstall_agrees h (a.differs_disk b) fun s hs => a.taken b hinto hs
  cases hplan : planInstall d dir source mode (some name) (r.get? name) with
  | error f => exact .inl ⟨f, rfl, hsame.trans hplan⟩
  | ok plan =>
      have hplan' := hsame.trans hplan
      have hp := planned hplan
      have htarget := hp.target_eq
      refine .inr ⟨plan, rfl, hplan', hp.named, htarget ▸ hinto, ?_, h.avoids hp.resolved⟩
      rw [htarget]
      exact ⟨source, mode, some name, hp, planned hplan'⟩

theorem shared_install (hread : Registry.read u shelf.registryPath = .ok r') (hget : r'.get? name = r.get? name)
    (habout : (Change.install target source mode name?).IsAbout d name) (h : Aloof (Grounds home loc d) d source) :
    (∃ f, shelf.plannedInstall target source mode name? d = .error f ∧
      shelf.plannedInstall target source mode name? u = .error f) ∨
    ∃ plan, shelf.plannedInstall target source mode name? d = .ok (r, plan) ∧
      shelf.plannedInstall target source mode name? u = .ok (r', plan) ∧ Shared home target loc d r name u plan := by
  have hdiffers := a.differs_disk b
  unfold plannedInstall
  rw [b.read, hread, h.resolveSource hdiffers]
  simp only [bind, Except.bind, pure, Except.pure]
  cases hreal : resolveSource d source with
  | error f => exact .inl ⟨f, rfl, rfl⟩
  | ok real =>
      have hname : nameOf u real name? = nameOf d real name? := by
        cases name? with
        | some name => rfl
        | none => exact deriveName_congr (isDir_congr ((h.avoids hreal).see hdiffers))
      dsimp only
      rw [hname]
      cases hk : nameOf d real name? with
      | error f => exact .inl ⟨f, rfl, rfl⟩
      | ok k =>
          obtain rfl := habout k (.install hreal hk)
          dsimp only
          rw [hget]
          rcases a.shared_plan b mode .target (h.resolved b.proper hreal) with ⟨f, hf, hf'⟩ | ⟨plan, hp, hp', hs⟩
          · rw [hf, hf']
            exact .inl ⟨f, rfl, rfl⟩
          · rw [hp, hp']
            exact .inr ⟨plan, rfl, rfl, hs⟩

theorem shared_update (hread : Registry.read u shelf.registryPath = .ok r') (hget : r'.get? name = r.get? name)
    (h : ∀ e, r.get? name = some e → Aloof (Grounds home loc d) d e.source) :
    (∃ f, shelf.plannedUpdate name d = .error f ∧ shelf.plannedUpdate name u = .error f) ∨
    ∃ plan, shelf.plannedUpdate name d = .ok (r, plan) ∧
      shelf.plannedUpdate name u = .ok (r', plan) ∧ Shared home target loc d r name u plan := by
  unfold plannedUpdate recorded
  rw [b.read, hread]
  simp only [bind, Except.bind, pure, Except.pure]
  rw [hget]
  cases hentry : r.get? name with
  | none => exact .inl ⟨_, rfl, rfl⟩
  | some e =>
      have hsource := h e hentry
      dsimp only
      unfold targetOf
      rw [hsource.exists_ (a.differs_disk b)]
      cases d.exists_ e.source with
      | false => exact .inl ⟨_, rfl, rfl⟩
      | true =>
          cases hdir : e.targetDir? with
          | none => exact .inl ⟨_, rfl, rfl⟩
          | some dir =>
              simp only [Bool.not_true, Bool.false_eq_true, if_false]
              rw [(b.destined hentry).1, ← hentry]
              rcases a.shared_plan b e.mode (.recorded hentry hdir) hsource with
                ⟨f, hf, hf'⟩ | ⟨plan, hp, hp', hs⟩
              · rw [hf, hf']
                exact .inl ⟨f, rfl, rfl⟩
              · rw [hp, hp']
                exact .inr ⟨plan, rfl, rfl, hs⟩

end Akin

/-! ### Work on the files -/

/-- What the work of a call for a module leaves of two disks that are alike for it. -/
structure Tandem (home : Home) (target : Path) (loc : Location) (name : String) (d u d₁ u₁ : Disk) : Prop where
  twin : Twin d (Grounds home loc d) (Owned loc name) d₁ u₁
  left : WorksFor target loc name (d.opened target) d₁
  right : WorksFor target loc name (u.opened target) u₁
  proper : d₁.Proper
  proper' : u₁.Proper

/-- Two runs that halt alike with their work on the files, or come to saving registries that are changed alike. -/
inductive Concurs (path : Path) (name : String) (alike : α → α → Prop) (r r' : Registry)
    (run run' : Except Failure α × World) (d u : Disk) : Prop
  | halts {f : Failure} (h : Halts run f d) (h' : Halts run' f u)
  | saves {r₁ r₁' : Registry} {a a' : Except Failure α} (halters : Registry.Alters name r r' r₁ r₁')
      (halike : (∃ f, a = .error f ∧ a' = .error f) ∨ ∃ x x', a = .ok x ∧ a' = .ok x' ∧ alike x x')
      (h : Saves path run r₁ a d) (h' : Saves path run' r₁' a' u)

/-- What is only logged afterwards makes no difference. -/
theorem Concurs.congr {path : Path} {alike : α → α → Prop} {again again' : Except Failure α × World}
    (h : Concurs path name alike r r' run run' d u) (ha : again.1 = run.1 ∧ again.2.disk = run.2.disk)
    (ha' : again'.1 = run'.1 ∧ again'.2.disk = run'.2.disk) : Concurs path name alike r r' again again' d u := by
  cases h with
  | halts h h' => exact .halts ⟨ha.1.trans h.1, ha.2.trans h.2⟩ ⟨ha'.1.trans h'.1, ha'.2.trans h'.2⟩
  | saves halters halike h h' =>
      obtain ⟨w₁, hdisk, hrun, hanswer⟩ := h
      obtain ⟨v₁, hdisk', hrun', hanswer'⟩ := h'
      exact .saves halters halike ⟨w₁, hdisk, ha.2.trans hrun, ha.1.trans hanswer⟩
        ⟨v₁, hdisk', ha'.2.trans hrun', ha'.1.trans hanswer'⟩

theorem run_say (m : Work Failure Entry) (say : Entry → String) (w : World) :
    ((m >>= fun e => do
      Work.log .info .shelf (say e)
      return e).run w).1 = (m.run w).1 ∧
    ((m >>= fun e => do
      Work.log .info .shelf (say e)
      return e).run w).2.disk = (m.run w).2.disk := by
  rw [run_bind]
  rcases m.run w with ⟨f | e, w₁⟩ <;> exact ⟨rfl, rfl⟩

end Shelf

/-- The entry that a plan comes to can be read again from the registry. -/
theorem Planned.readable {prior : Option Entry} (h : Planned d target source mode name? prior plan)
    (habsolute : target.isAbsolute = true) {now : Moment} (hyear : 0 ≤ now.date.year ∧ now.date.year ≤ 9999) :
    (plan.entry now).Readable :=
  (Entry.Sourced.readable_iff ⟨h.valid, h.source_absolute⟩).2 ⟨h.isAbsolute_dest.trans habsolute, hyear⟩

namespace Shelf

namespace Akin

variable (b : shelf.Basis home target loc d r) (a : shelf.Akin home target loc d r name u)
include b a

/-- A plan that is shared is carried out alike. -/
theorem concurs_of_plan (r' : Registry) (hs : Shared home target loc d r name u plan) (hw : w.disk = d) (hv : v.disk = u)
    (hyear : 0 ≤ w.now.date.year ∧ w.now.date.year ≤ 9999) (hyear' : 0 ≤ v.now.date.year ∧ v.now.date.year ≤ 9999) :
    ∃ d₁ u₁, Tandem home target loc name d u d₁ u₁ ∧ Concurs shelf.registryPath name
      (fun e f : Entry => f.undated = e.undated) r r' ((build plan >>= fun _ => shelf.commit r plan).run w)
        ((build plan >>= fun _ => shelf.commit r' plan).run v) d₁ u₁ := by
  obtain ⟨source, mode, name?, hp, hp'⟩ := hs.planned
  have hvalid : IsIdentifier name := hs.named ▸ hp.valid
  have hsite := a.site b hs.into hs.named hvalid hp.prior_eq
  have hsite₀ := (b.refl name).site b hs.into hs.named hvalid hp.prior_eq
  have htwin := a.twin b hs.into
  have hopened := (a.addresses b hs.into).2.2.1
  have hopened₀ := ((b.refl name).addresses b hs.into).2.2.1
  subst hw hv
  obtain ⟨rfl⟩ := hs.named
  obtain ⟨out, d₁, u₁, hcarries, hcarries', htwin₁, hworks, hworks'⟩ := placing_agrees hsite₀ hsite hp hp' htwin
    (fun l hl => .of_owned hl) hs.source fun hdir => isDir_see.1 (hp.isDir_eq ▸ hdir)
  rw [hopened₀] at hworks
  rw [hopened] at hworks'
  refine ⟨d₁, u₁, ⟨htwin₁, hworks, hworks', hcarries.proper b.proper, hcarries'.proper a.proper⟩, ?_⟩
  cases out with
  | error f => exact .halts hcarries.halts hcarries'.halts
  | ok _ =>
      have habsolute : plan.target.isAbsolute = true :=
        (Path.isAbsolute_congr (a.addresses b hs.into).1).trans b.absolute
      exact .saves (.put (e := plan.entry w.now) (f := plan.entry v.now) rfl rfl (hp.readable habsolute hyear)
        (hp.readable habsolute hyear'))
        (.inr ⟨plan.entry w.now, plan.entry v.now, rfl, rfl, rfl⟩) hcarries.saves hcarries'.saves

/-- The artifact of a module is taken away alike, and its entry is erased. -/
theorem concurs_of_removal (hread : Registry.read u shelf.registryPath = .ok r') (hget : r'.get? name = some e)
    (hentry : r.get? name = some e) (hw : w.disk = d) (hv : v.disk = u) :
    ∃ d₁ u₁, Tandem home target loc name d u d₁ u₁ ∧ Concurs shelf.registryPath name (fun o o' => o' = o) r r'
      ((shelf.uninstall name).run w) ((shelf.uninstall name).run v) d₁ u₁ := by
  obtain ⟨hname, m, hm, -, haside⟩ := b.destined hentry
  have he := b.of_entry hentry
  have he' := a.enters_of_there b he
  obtain ⟨-, hway⟩ := a.enters b
  rw [b.opened_eq he] at haside hway
  rw [b.opened_eq he'] at hway
  obtain ⟨hslot, happroach⟩ := hm.slot he
  obtain ⟨hslot', happroach'⟩ := hm.slot he'
  have hfar : ∀ l ∈ d.approach e.artifact, ¬ loc ++ [m] <+: l := fun l hl hpre =>
    haside (prefix_of_way (happroach ▸ hl) hpre)
  have hfar' : ∀ l ∈ u.approach e.artifact, ¬ loc ++ [m] <+: l := fun l hl hpre =>
    haside (hway ▸ prefix_of_way (happroach' ▸ hl) hpre)
  have hentry_name : ModuleEntry name m := hname ▸ hm.moduleEntry
  have hown : ∀ l, loc ++ [m] <+: l → Owned loc name l := fun l hl => ⟨m, hentry_name, hl⟩
  have htwin := a.twin b .target
  rw [b.opened_eq he, b.opened_eq he'] at htwin
  obtain ⟨hanswer, htwin'⟩ := htwin.removeArtifact hslot hslot' hm.slash hfar hfar' hown fun l hl => .of_owned (hown l hl)
  have hworks : WorksFor target loc name d ((DiskM.removeArtifact e.artifact).run d).2 :=
    .of_differs (hslot.removeArtifact_differs hm.slash) fun l hl => ⟨m, hentry_name, haside, hl⟩
  have hworks' : WorksFor target loc name u ((DiskM.removeArtifact e.artifact).run u).2 :=
    .of_differs (hslot'.removeArtifact_differs hm.slash) fun l hl => ⟨m, hentry_name, hway ▸ haside, hl⟩
  have hsaves : ∀ {w : World} {r : Registry}, Registry.read w.disk shelf.registryPath = .ok r →
      r.get? name = some e → Saves shelf.registryPath ((shelf.uninstall name).run w) (r.erase name)
        (removalAnswer e ((DiskM.removeArtifact e.artifact).run w.disk).1)
        ((DiskM.removeArtifact e.artifact).run w.disk).2 := by
    intro w r hread hget
    rcases uninstall_cases shelf name w with
      ⟨f, -, -, hfails | ⟨r₀, hread₀, hnone, -⟩⟩ |
        ⟨r₀, e₀, w₁, hread₀, hget₀, -, hdisk, ⟨f, hsave, hfail⟩ | ⟨w₂, hsave, hquiet, hok⟩⟩
    · cases hread.symm.trans hfails
    · cases hread.symm.trans hread₀
      cases hget.symm.trans hnone
    · cases hread.symm.trans hread₀
      cases hget.symm.trans hget₀
      exact ⟨w₁, hdisk, by rw [hsave], by rw [hsave]; exact hfail⟩
    · cases hread.symm.trans hread₀
      cases hget.symm.trans hget₀
      exact ⟨w₁, hdisk, by rw [hsave]; exact hquiet.disk, by rw [hsave]; exact hok⟩
  subst hw hv
  refine ⟨_, _, ⟨htwin', (b.opened_eq he).symm ▸ hworks, (b.opened_eq he').symm ▸ hworks',
    stable_proper.removeArtifact e.artifact w b.proper, stable_proper.removeArtifact e.artifact v a.proper⟩,
    .saves .erase ?_ (hsaves b.read hentry) (hsaves hread hget)⟩
  rw [hanswer]
  rcases ((DiskM.removeArtifact e.artifact).run w.disk).1 with cause | removed
  · exact .inl ⟨_, rfl, rfl⟩
  · exact .inr ⟨_, _, rfl, rfl, rfl⟩

/-- A call stops before it changes anything on both disks alike, or its work is done alike. -/
theorem concurs {c : Change} (hinto : c.InstallsInto target) (habout : c.IsAbout d name)
    (hdraws : ∀ p, c.Draws r.get? p → Aloof (Grounds home loc d) d p)
    (hread : Registry.read u shelf.registryPath = .ok r') (hget : r'.get? name = r.get? name)
    (hw : w.disk = d) (hv : v.disk = u)
    (hyear : 0 ≤ w.now.date.year ∧ w.now.date.year ≤ 9999) (hyear' : 0 ≤ v.now.date.year ∧ v.now.date.year ≤ 9999) :
    (∃ f, Halts ((c.run shelf).run w) f d ∧ Halts ((c.run shelf).run v) f u) ∨
    ∃ d₁ u₁, Tandem home target loc name d u d₁ u₁ ∧ Concurs shelf.registryPath name
      (fun x y => c.undated y = c.undated x) r r' ((c.run shelf).run w) ((c.run shelf).run v) d₁ u₁ := by
  subst hw hv
  cases c with
  | install dir source mode name? =>
      obtain rfl : dir = target := hinto
      have hreads := shelf.install_reads dir source mode name?
      rcases a.shared_install b hread hget habout (hdraws _ (.install ..)) with ⟨f, hf, hf'⟩ | ⟨plan, hp, hp', hs⟩
      · exact .inl ⟨f, hreads.halts hf, hreads.halts hf'⟩
      · obtain ⟨w₀, hquiet, hrun⟩ := hreads.of_ok hp
        obtain ⟨v₀, hquiet', hrun'⟩ := hreads.of_ok hp'
        rw [← hquiet.now] at hyear
        rw [← hquiet'.now] at hyear'
        obtain ⟨d₁, u₁, htandem, hconcurs⟩ := a.concurs_of_plan b r' hs hquiet.disk hquiet'.disk hyear hyear'
        exact .inr ⟨d₁, u₁, htandem, hconcurs.congr (by rw [← hrun]; exact ⟨rfl, rfl⟩) (by rw [← hrun']; exact ⟨rfl, rfl⟩)⟩
  | update k =>
      obtain rfl := habout k .update
      have hreads := shelf.update_reads k
      rcases a.shared_update b hread hget fun e hentry => hdraws _ (.update hentry) with
        ⟨f, hf, hf'⟩ | ⟨plan, hp, hp', hs⟩
      · exact .inl ⟨f, hreads.halts hf, hreads.halts hf'⟩
      · obtain ⟨w₀, hquiet, hrun⟩ := hreads.of_ok hp
        obtain ⟨v₀, hquiet', hrun'⟩ := hreads.of_ok hp'
        rw [← hquiet.now] at hyear
        rw [← hquiet'.now] at hyear'
        obtain ⟨d₁, u₁, htandem, hconcurs⟩ := a.concurs_of_plan b r' hs hquiet.disk hquiet'.disk hyear hyear'
        have hsay : ∀ (r : Registry) (w : World), _ := fun r w => run_say (build plan >>= fun _ => shelf.commit r plan)
          (fun e => s!"Updated '{k}' from {e.source.quoted}") w
        simp only [bind_assoc] at hsay
        refine .inr ⟨d₁, u₁, htandem, hconcurs.congr ?_ ?_⟩
        · show ((shelf.update k).run w).1 = _ ∧ ((shelf.update k).run w).2.disk = _
          rw [hrun]
          exact hsay r w₀
        · show ((shelf.update k).run v).1 = _ ∧ ((shelf.update k).run v).2.disk = _
          rw [hrun']
          exact hsay r' v₀
  | uninstall k =>
      obtain rfl := habout k .uninstall
      cases hentry : r.get? k with
      | none =>
          have hfails : ∀ {w : World} {r : Registry}, Registry.read w.disk shelf.registryPath = .ok r →
              r.get? k = none → shelf.plannedRemoval k w.disk = .error (.notFound k) := by
            intro w r hread hnone
            unfold plannedRemoval recorded
            rw [hread]
            simp only [bind, Except.bind, pure, Except.pure]
            rw [hnone]
          have hreads := shelf.uninstall_reads k
          exact .inl ⟨_, hreads.halts (hfails b.read hentry), hreads.halts (hfails hread (hget.trans hentry))⟩
      | some e =>
          obtain ⟨d₁, u₁, htandem, hconcurs⟩ := a.concurs_of_removal b hread (hget.trans hentry) hentry rfl rfl
          exact .inr ⟨d₁, u₁, htandem, hconcurs⟩

end Akin

end Shelf

end Sideload
