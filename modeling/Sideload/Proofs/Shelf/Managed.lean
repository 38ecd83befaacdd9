import Sideload.Proofs.Disk.Check
import Sideload.Proofs.Installer.Confined
import Sideload.Proofs.Registry.Owned
import Sideload.Proofs.Shelf.Planning
import Sideload.Proofs.Shelf.Readable

/-!
What a call leaves alone. Whether it succeeds or fails, and wherever it stops, a call about a module
changes nothing that was there but what it manages: the recorded artifact of the module, its staging entry
in the package directory, and the file of the registry with its draft.
-/

namespace Sideload

open Disk Registry

variable {shelf : Shelf} {c : Change} {w : World} {r : Registry} {plan : Plan} {loc l : Location}

namespace Change

/-- The disk on which a call takes the recorded artifact away. -/
def prepared (shelf : Shelf) (w : World) : Change → Disk
  | install target source mode name? =>
    ((shelf.prepareInstall target source mode name?).run w).2.disk
  | update name => ((shelf.prepareUpdate name).run w).2.disk
  | uninstall _ => w.disk

/-- What a call replaces for its module: what is at or below the place of the recorded artifact, and what is
at or below the staging entry of the package directory. -/
inductive Replaces (shelf : Shelf) (w : World) (c : Change) (l : Location) : Prop
  | recorded {name : String} {r : Registry} {e : Entry} {place : Location}
      (hname : Concerns w.disk name c) (hread : Registry.read w.disk shelf.registryPath = .ok r)
      (hget : r.get? name = some e)
      (hplace : (c.prepared shelf w).goal e.artifact false = .ok (.present place)) (hl : place <+: l)
  | staging {name : String} {r : Registry} {target : Path} {loc : Location}
      (hname : Concerns w.disk name c) (hread : Registry.read w.disk shelf.registryPath = .ok r)
      (hinto : Into r c target) (henters : (w.disk.opened target).Enters target.hub loc)
      (hl : loc ++ [Glyph.ofString (stagingName name)] <+: l)

/-- Everything that a call manages: what it replaces, and the files of the registry as it is saved. -/
def Manages (shelf : Shelf) (w : World) (c : Change) (l : Location) : Prop :=
  c.Replaces shelf w l ∨
    Registry.Owns shelf.registryPath ((c.fileWork shelf).run w).2.disk l

/-- What it takes for a call to keep to what it manages. The recorded path ends in a name, as an install
writes it, the path of the package directory is straight, and the draft of the registry is no link. -/
structure Guarded (shelf : Shelf) (w : World) (c : Change) : Prop where
  proper : w.disk.Proper
  straight : ∀ name r target, Concerns w.disk name c →
    Registry.read w.disk shelf.registryPath = .ok r → Into r c target →
      Straight w.disk target (Glyph.ofString (stagingName name))
  recorded : ∀ name r e, Concerns w.disk name c →
    Registry.read w.disk shelf.registryPath = .ok r → r.get? name = some e → e.artifact.EndsInName
  draft : (Registry.hosted ((c.fileWork shelf).run w).2.disk shelf.registryPath).isLink
    (Registry.draftPath shelf.registryPath) = false

/-! ### The work on the files -/

/-- The plan that an install or an update makes on a disk, and the registry that it is made for. -/
inductive Plans (shelf : Shelf) (d : Disk) (r : Registry) (plan : Plan) : Change → Prop
  | install {target source : Path} {mode : Mode} {name? : Option String}
      (h : shelf.plannedInstall target source mode name? d = .ok (r, plan)) :
      Plans shelf d r plan (.install target source mode name?)
  | update {name : String} (h : shelf.plannedUpdate name d = .ok (r, plan)) :
      Plans shelf d r plan (.update name)

theorem Plans.aims {d : Disk} (h : c.Plans shelf d r plan) :
    Aims d shelf c r plan ∧ Concerns d plan.name c := by
  cases h with
  | install h =>
      obtain ⟨hread, real, name, hsource, hname, hplan⟩ := Shelf.plannedInstall_eq_ok h
      have hknown := planned hplan
      obtain rfl := hknown.target_eq
      obtain rfl : plan.name = name := hknown.named
      exact ⟨⟨hread, .install .., hknown.prior_eq, _, _, _, _, hknown⟩, .install hsource hname⟩
  | update h =>
      obtain ⟨hread, e, target, hget, htarget, hplan⟩ := Shelf.plannedUpdate_eq_ok h
      have hknown := planned hplan
      obtain rfl := hknown.target_eq
      obtain rfl : plan.name = _ := hknown.named
      exact ⟨⟨hread, .update hget htarget, by rw [hknown.prior_eq, hget], _, _, _, _, hknown⟩, .update⟩

/-- What an install or an update makes of the disk before it saves: it stops before it changes anything,
or it builds what is planned, and settles what was built. -/
def Works (w : World) (planned : Disk → Except Failure (Registry × Plan)) (prepared d : Disk) : Prop :=
  d = w.disk ∨ ∃ r plan w₀ w₁ answer, planned w.disk = .ok (r, plan) ∧ w₀.disk = w.disk ∧
    (build plan).run w₀ = (answer, w₁) ∧ w₁.disk = prepared ∧
      (d = w₁.disk ∨ answer = .ok () ∧ d = ((settle plan).run w₁).2.disk)

theorem works_of_reads {prepare : Work Failure (Registry × Plan)}
    {planned : Disk → Except Failure (Registry × Plan)}
    (hreads : prepare.Reads planned fun x => build x.2 >>= fun _ => pure x) (w : World) :
    Works w planned (prepare.run w).2.disk ((prepare >>= fun x => settle x.2 >>= fun e =>
      (x.1.upsert e : Work Failure Registry)).run w).2.disk := by
  cases hplan : planned w.disk with
  | error f =>
      obtain ⟨hanswer, hquiet⟩ := hreads.of_error hplan
      rw [run_bind_of_error (Prod.ext hanswer rfl)]
      exact .inl hquiet.disk
  | ok x =>
      obtain ⟨r, plan⟩ := x
      obtain ⟨w₀, hquiet, hrun⟩ := hreads.of_ok hplan
      rw [run_bind] at hrun
      rcases hbuild : (build plan).run w₀ with ⟨f | u, w₁⟩ <;> rw [hbuild] at hrun <;> dsimp only at hrun
      · rw [run_bind, hrun]
        exact .inr ⟨r, plan, w₀, w₁, _, hplan, hquiet.disk, hbuild, rfl, .inl rfl⟩
      · rw [run_bind, hrun]
        refine .inr ⟨r, plan, w₀, w₁, _, hplan, hquiet.disk, hbuild, rfl, .inr ⟨rfl, ?_⟩⟩
        show ((settle plan >>= fun e => (r.upsert e : Work Failure Registry)).run w₁).2.disk = _
        rw [run_bind]
        rcases (settle plan).run w₁ with ⟨f | e, w₂⟩
        · rfl
        · obtain ⟨w₃, hquiet', hupsert⟩ := Shelf.run_upsert r e w₂
          dsimp only
          rw [hupsert, hquiet'.disk]

/-- What a call makes of the disk before it saves. -/
theorem fileWork_cases (shelf : Shelf) (c : Change) (w : World) :
    ((c.fileWork shelf).run w).2.disk = w.disk ∨
    (∃ r plan w₀ w₁ answer, c.Plans shelf w.disk r plan ∧ w₀.disk = w.disk ∧
      (build plan).run w₀ = (answer, w₁) ∧ w₁.disk = c.prepared shelf w ∧
        (((c.fileWork shelf).run w).2.disk = w₁.disk ∨
          answer = .ok () ∧ ((c.fileWork shelf).run w).2.disk = ((settle plan).run w₁).2.disk)) ∨
    ∃ name r e, c = .uninstall name ∧ Registry.read w.disk shelf.registryPath = .ok r ∧
      r.get? name = some e ∧
        ((c.fileWork shelf).run w).2.disk = ((DiskM.removeArtifact e.artifact).run w.disk).2 := by
  cases c with
  | install target source mode name? =>
      rcases works_of_reads (shelf.prepareInstall_reads target source mode name?) w with
        hsame | ⟨r, plan, w₀, w₁, answer, hplan, hrest⟩
      · exact .inl hsame
      · exact .inr (.inl ⟨r, plan, w₀, w₁, answer, .install hplan, hrest⟩)
  | update name =>
      rcases works_of_reads (shelf.prepareUpdate_reads name) w with
        hsame | ⟨r, plan, w₀, w₁, answer, hplan, hrest⟩
      · exact .inl hsame
      · exact .inr (.inl ⟨r, plan, w₀, w₁, answer, .update hplan, hrest⟩)
  | uninstall name =>
      rcases uninstall_removes shelf name w with
        ⟨f, w₁, hrun, hquiet⟩ | ⟨r, e, w₁, hread, hget, hrun, -, hdisk⟩
      · exact .inl (by rw [hrun, hquiet.disk])
      · exact .inr (.inr ⟨name, r, e, rfl, hread, hget, by rw [hrun, hdisk]⟩)

/-- What a call does before it saves leaves what it does not replace. -/
theorem fileWork_leaves (hc : c.Guarded shelf w) (hl : w.disk.look l ≠ none)
    (hother : ¬ c.Replaces shelf w l) : ((c.fileWork shelf).run w).2.disk.look l = w.disk.look l := by
  rcases c.fileWork_cases shelf w with hsame | ⟨r, plan, w₀, w₁, answer, hplans, hdisk, hbuild,
    hprepared, hfinal⟩ | ⟨name, r, e, rfl, hread, hget, hfinal⟩
  · rw [hsame]
  · obtain ⟨haims, hname⟩ := hplans.aims
    obtain ⟨source, mode, name?, prior, hknown⟩ := haims.planned
    have hstraight := hc.straight _ _ _ hname haims.read haims.into
    have hproper := hc.proper
    have hstaging : ∀ loc, (w.disk.opened plan.target).Enters plan.target.hub loc →
        ¬ loc ++ [plan.stagingEntry] <+: l := fun loc he hpre =>
      hother (.staging hname haims.read haims.into he hpre)
    have hopened := (opens_opened w.disk plan.target).look_of_ne_none hl
    rw [← hdisk] at hproper hstraight hknown
    have hbuilds := build_confined hknown.valid hproper hstraight.direct
    rw [hbuild, Builds, hdisk] at hbuilds
    rw [hdisk] at hstraight hknown
    rcases hbuilds with ⟨f, hfails, hmade⟩ | ⟨loc, he, hconfined⟩
    · obtain hfinal | ⟨hok, -⟩ := hfinal
      · rw [hfinal, hmade, hopened]
      · cases hok.symm.trans hfails
    · obtain hfinal | ⟨-, hfinal⟩ := hfinal
      · rw [hfinal, hconfined.sameOff.look l (hstaging loc he), hopened]
      · -- the recorded artifact is looked for on the disk with what was built
        rw [hfinal]
        refine hconfined.settle hknown he hstraight (fun old hold => ?_) hl (hstaging loc he)
          fun old place hold hgoal hpre => ?_
        · exact hc.recorded _ _ old hname haims.read (haims.prior.symm.trans hold)
        · refine hother (.recorded hname haims.read (haims.prior.symm.trans hold) ?_ hpre)
          rw [← hprepared]
          exact hgoal
  · rw [hfinal]
    rcases DiskM.removeArtifact_cases e.artifact w.disk with ⟨place, hgoal⟩ | ⟨f, -, hsame⟩
    · obtain ⟨hshrinks, -⟩ := DiskM.removeArtifact_spec hgoal
      exact hshrinks.look l fun hpre => hother (.recorded .uninstall hread hget hgoal hpre)
    · rw [hsame]

/-- Every call leaves what was there and what it does not manage, whether it succeeds or fails. -/
theorem run_leaves (hc : c.Guarded shelf w) (hl : w.disk.look l ≠ none)
    (hother : ¬ c.Manages shelf w l) : ((c.run shelf).run w).2.disk.look l = w.disk.look l := by
  have hwork := fileWork_leaves hc hl fun h => hother (.inl h)
  have hno : ¬ Registry.Owns shelf.registryPath ((c.fileWork shelf).run w).2.disk l := fun h =>
    hother (.inr h)
  have hdraft := hc.draft
  rcases c.run_cases shelf w with ⟨f, hrun, -⟩ | ⟨r, w₁, hrun, hsave⟩
  · rw [← hwork, hrun]
  · rw [hrun] at hwork hno hdraft
    have hsaved := @Registry.look_of_save _ _ r w₁ hdraft (hwork ▸ hl) hno
    rcases hsave with ⟨f, w₂, hsave, hsame⟩ | ⟨w₂, hsave, hquiet⟩
    · rw [hsame, ← hwork, ← hsaved, hsave]
    · rw [hquiet.disk, ← hwork, ← hsaved, hsave]

/-- No call damages what it does not manage. Whatever the disk and the registry hold, and whether the call
succeeds or fails: a file, a directory or a link that was there is there afterwards, unless it is at or
below the recorded artifact of the module or its staging entry, or it is the file of the registry or its
draft. -/
theorem keeps_unmanaged (shelf : Shelf) (c : Change) (w : World) (hc : c.Guarded shelf w)
    (l : Location) (label : Label) (hl : w.disk.look l = some label)
    (hother : ¬ c.Manages shelf w l) : ((c.run shelf).run w).2.disk.look l = some label := by
  have hthere : w.disk.look l ≠ none := by
    rw [hl]
    exact Option.some_ne_none label
  rw [run_leaves hc hthere hother, hl]

/-! ### A file that belongs to nobody -/

/-- A module, and a package directory in which somebody has put a file of the same name. -/
def foreignWorld : World := .holding
  [(Glyph.ofString "m.py", .file "new".toUTF8 false),
    (Glyph.ofString "site", .dir [(Glyph.ofString "m.py", .file "mine".toUTF8 false)])]

def foreignFile : Location := [Glyph.ofString "site", Glyph.ofString "m.py"]

def installAs (target name : String) : Change :=
  .install (.ofString target) (.ofString "/m.py") .copy (some name)

theorem proper_foreignWorld : foreignWorld.disk.Proper :=
  proper_of_every (fun _ hn => by cases hn) (by decide)

theorem read_foreignWorld : read foreignWorld.disk samplePath = .ok .empty := by cbv

theorem enters_foreignWorld {target : String} (h : target = "/site" ∨ target = "/x/../site") :
    (foreignWorld.disk.opened (.ofString target)).Enters (Path.ofString target).hub
      [Glyph.ofString "site"] := by
  rcases h with rfl | rfl
  · exact ⟨by cbv, by cbv⟩
  · exact ⟨by cbv, by cbv⟩

/-- What is outside the staging entry is not managed, as long as the registry and its draft lead to the
home directory. -/
theorem unmanaged_foreignWorld {target name : String} (h : target = "/site" ∨ target = "/x/../site")
    (hstaging : ¬ [Glyph.ofString "site", Glyph.ofString (stagingName name)] <+: l)
    (hhome : l.head? ≠ some (Glyph.ofString "home"))
    (hfiles : ∀ p, p = samplePath ∨ p = draftPath samplePath →
      ∃ n, (hosted (((installAs target name).fileWork Shelf.sampleShelf).run
        foreignWorld).2.disk samplePath).goal p false = .ok (.vacant [Glyph.ofString "home"] n)) :
    ¬ (installAs target name).Manages Shelf.sampleShelf foreignWorld l := by
  rintro ((⟨-, hread, hget, -, -⟩ | ⟨hconcerns, hread, hinto, henters, hpre⟩) | ⟨-, p, g, hp, hgoal, rfl⟩)
  · cases read_foreignWorld.symm.trans hread
    cases hget
  · obtain ⟨-, hnamed⟩ | _ := hconcerns
    cases hinto
    cases hnamed
    obtain rfl := henters.unique (enters_foreignWorld h)
    exact hstaging hpre
  · obtain ⟨n, hvacant⟩ := hfiles p hp
    cases hvacant.symm.trans hgoal
    exact hhome rfl

theorem guarded_foreignWorld : (installAs "/site" "other").Guarded Shelf.sampleShelf foreignWorld where
  proper := proper_foreignWorld
  straight := by
    intro name r target _ _ hinto
    cases hinto
    exact .inl (by decide)
  recorded := by
    intro name r e _ hread hget
    cases read_foreignWorld.symm.trans hread
    cases hget
  draft := by cbv

theorem unmanaged_other
    (hstaging : ¬ [Glyph.ofString "site", Glyph.ofString (stagingName "other")] <+: l)
    (hhome : l.head? ≠ some (Glyph.ofString "home")) :
    ¬ (installAs "/site" "other").Manages Shelf.sampleShelf foreignWorld l := by
  apply unmanaged_foreignWorld (.inl rfl) hstaging hhome
  rintro p (rfl | rfl)
  · exact ⟨Glyph.ofString "registry.txt", by cbv⟩
  · exact ⟨Glyph.ofString "registry.txt.tmp", by cbv⟩

/-- An install under another name leaves the file alone. -/
theorem keeps_foreignFile :
    (((installAs "/site" "other").run Shelf.sampleShelf).run foreignWorld).2.disk.look foreignFile =
      some (.file "mine".toUTF8 false) :=
  keeps_unmanaged Shelf.sampleShelf (installAs "/site" "other") foreignWorld guarded_foreignWorld _ _
    (by cbv) (unmanaged_other (by decide) (by decide))

/-- A package directory behind a missing directory is not there when the conflict is looked for, and is
there when the artifact is moved: the file is replaced, though all else is as it should be. -/
theorem overwrites_foreignFile :
    ¬ (installAs "/x/../site" "m").Manages Shelf.sampleShelf foreignWorld foreignFile ∧
    foreignWorld.disk.Proper ∧
    read foreignWorld.disk samplePath = .ok .empty ∧
    (hosted (((installAs "/x/../site" "m").fileWork Shelf.sampleShelf).run
      foreignWorld).2.disk samplePath).isLink (draftPath samplePath) = false ∧
    foreignWorld.disk.look foreignFile = some (.file "mine".toUTF8 false) ∧
    (((installAs "/x/../site" "m").run Shelf.sampleShelf).run foreignWorld).2.disk.look foreignFile =
      some (.file "new".toUTF8 false) := by
  refine ⟨unmanaged_foreignWorld (.inr rfl) (by decide) (by decide) ?_, proper_foreignWorld, read_foreignWorld,
    by cbv, by cbv, by cbv⟩
  rintro p (rfl | rfl)
  · exact ⟨Glyph.ofString "registry.txt", by cbv⟩
  · exact ⟨Glyph.ofString "registry.txt.tmp", by cbv⟩

end Change

end Sideload
