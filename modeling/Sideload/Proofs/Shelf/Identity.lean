import Sideload.Proofs.Installer.Kept
import Sideload.Proofs.Installer.Redirect
import Sideload.Proofs.Shelf.Source

/-!
What an update keeps. The entry goes on under its name, in its mode and in its package directory, and no
other entry changes. The recorded source is resolved again: where it lies it stays, and where there is a link
now, the entry moves to the place that the link leads to, and a redirect with it.
-/

namespace Sideload

open Disk Registry

variable {shelf : Shelf} {w w' : World} {r : Registry} {e e' : Entry} {name : String} {plan : Plan}
  {d : Disk} {target : Path} {place loc : Location}

/-! ### What is recorded by an install -/

namespace Entry.WasInstalled

/-- The plan that an entry comes from. -/
theorem planned (h : e.WasInstalled) : ∃ (d : Disk) (target source : Path) (mode : Mode)
    (name? : Option String) (prior : Option Entry) (plan : Plan) (now : Moment),
      Planned d target source mode name? prior plan ∧ e = plan.entry now := by
  obtain ⟨target, source, mode, name?, prior, w, w', hrun⟩ := h
  rcases installInto_cases target source mode name? prior w with
    ⟨f, -, hfail⟩ | ⟨plan, hplan, ⟨f, w₁, -, hfail⟩ | ⟨w₁, -, hsettle⟩⟩
  · rw [hfail] at hrun
    cases hrun
  · rw [hfail] at hrun
    cases hrun
  rw [hsettle] at hrun
  obtain ⟨-, ⟨f, hfail, -⟩ | ⟨hanswer, -, -⟩⟩ := settle_cases plan w₁
  · rw [hrun] at hfail
    cases hfail
  rw [hrun] at hanswer
  cases hanswer
  exact ⟨w.disk, target, source, mode, name?, prior, plan, w₁.now, Sideload.planned hplan, rfl⟩

/-- The recorded source is a canonical path. -/
theorem source_eq (h : e.WasInstalled) : ∃ s, e.source = pathOf s := by
  obtain ⟨d, target, source, mode, name?, prior, plan, now, hplan, rfl⟩ := h.planned
  obtain ⟨s, -, hs⟩ := resolveSource_eq_ok_iff.1 hplan.resolved
  exact ⟨s, hs⟩

/-- The recorded artifact has its name in a directory. -/
theorem artifact_eq (h : e.WasInstalled) : ∃ (target : Path) (isDir : Bool),
    e.artifact = target.join (.ofName (e.artifactEntry isDir)) ∧ (e.artifactEntry isDir).Proper := by
  obtain ⟨d, target, source, mode, name?, prior, plan, now, hplan, rfl⟩ := h.planned
  exact ⟨target, plan.isDir, hplan.dest_eq_join, artifactName_proper hplan.valid _ _ _⟩

end Entry.WasInstalled

/-- A canonical path of a place that is no link is resolved to itself, if it is resolved at all. -/
theorem resolveSource_of_unmoved {s : Location} {p : Path} {label : Label} (hproper : d.Proper)
    (hp : resolveSource d (pathOf s) = .ok p) (hthere : d.look s = some label)
    (hlink : ∀ target, label ≠ .link target) : p = pathOf s := by
  obtain ⟨place, hgoal, rfl⟩ := resolveSource_eq_ok_iff.1 hp
  have hsome : d.look s ≠ none := hthere ▸ Option.some_ne_none label
  have hs := hproper.look s hsome
  have hroot : d.look [] = some .dir :=
    look_eq_dir_above (goal_eq_ok_iff.1 hgoal).2.1 List.nil_prefix
  have hsame := resolveSource_pathOf hs (nameable_of_goal hs hsome hgoal) hroot hthere hlink
  exact Except.ok.inj (hp.symm.trans hsame)

/-! ### An update that succeeds -/

/-- An update that succeeds plans the recorded source once more, builds it, takes the recorded artifact away,
moves the new one to its place, and saves the registry with the new entry. -/
structure Updates (shelf : Shelf) (w : World) (r : Registry) (e : Entry) (target : Path) (plan : Plan)
    (w₀ w₁ w₂ w₃ : World) : Prop where
  read : Registry.read w.disk shelf.registryPath = .ok r
  get : r.get? e.name = some e
  targetDir : e.targetDir? = some target
  planned : Planned w.disk target e.source e.mode (some e.name) (some e) plan
  start : w.Quiet w₀
  build : (build plan).run w₀ = (.ok (), w₁)
  clear : (plan.clear w₁.disk).1 = .ok ()
  move : (plan.clear w₁.disk).2.rename plan.staging plan.dest = .ok w₂.disk
  work : ((Change.update e.name).fileWork shelf).run w = (.ok (r.insert (plan.entry w₁.now)), w₂)
  save : ((r.insert (plan.entry w₁.now)).save shelf.registryPath).run w₂ = (.ok (), w₃)

theorem Shelf.updates (hrun : (shelf.update name).run w = (.ok e', w')) :
    ∃ r e target plan w₀ w₁ w₂ w₃, Updates shelf w r e target plan w₀ w₁ w₂ w₃ ∧ e.name = name ∧
      e' = plan.entry w₁.now ∧ w₃.Quiet w' := by
  obtain ⟨⟨r, plan⟩, w₁, hprepared, hrest⟩ := run_bind_ok hrun
  obtain ⟨⟨r', plan'⟩, w₀, hplanned, hquiet, hbuilt⟩ := (shelf.prepareUpdate_reads name).of_run hprepared
  obtain ⟨u, t, hbuild, hpair⟩ := run_bind_ok hbuilt
  cases hpair
  obtain ⟨hread, e, target, hget, htarget, hplan⟩ := plannedUpdate_eq_ok hplanned
  obtain rfl := name_of_get? hget
  obtain ⟨e₁, w₃, hcommit, hsay⟩ := run_bind_ok hrest
  cases hsay
  rcases commit_cases shelf r plan w₁ with ⟨f, t, -, hfail, -⟩ | ⟨w₂, hclear, -, hmove, hwork, hsaved⟩
  · cases hcommit.symm.trans hfail
  rcases hsave : ((r.insert (plan.entry w₁.now)).save shelf.registryPath).run w₂ with ⟨f | u, t⟩ <;>
    rw [hcommit, hsave] at hsaved <;> cases hsaved
  refine ⟨r, e, target, plan, w₀, w₁, w₂, t, ⟨hread, hget, htarget, planned hplan, hquiet, hbuild, hclear,
    hmove, ?_, hsave⟩, rfl, rfl, rfl, rfl⟩
  show ((shelf.prepareUpdate e.name >>= fun x => settle x.2 >>= fun e => x.1.upsert e).run w) = _
  rw [run_bind_of_ok hprepared, hwork]

/-- The entry `e'` goes on with the entry `e` after its source was resolved again on a disk. -/
structure Continues (d : Disk) (e e' : Entry) : Prop where
  name : e'.name = e.name
  mode : e'.mode = e.mode
  source : resolveSource d e.source = .ok e'.source
  /-- A source is where it was, unless there is a link in its place now. -/
  unmoved : ∃ s, e.source = pathOf s ∧ ∀ label, d.look s = some label →
    (∀ target, label ≠ .link target) → e'.source = e.source
  /-- The artifact is in the same directory, and a redirect keeps its name as well. -/
  directory : e'.artifact.components.dropLast = e.artifact.components.dropLast
  redirect : e.mode = .editable → e'.artifact.sameAs e.artifact = true

namespace Updates

variable {w₀ w₁ w₂ w₃ : World} (h : Updates shelf w r e target plan w₀ w₁ w₂ w₃)
include h

theorem components_target : target.components = e.artifact.components.dropLast :=
  Path.components_parent h.targetDir

theorem artifact_proper : plan.artifactEntry.Proper := artifactName_proper h.planned.valid _ _ _

theorem components_dest : plan.dest.components = target.components ++ [.name plan.artifactEntry] := by
  rw [h.planned.dest_eq_join, target.components_join h.artifact_proper]

/-- The name of a redirect does not depend on the source. -/
theorem artifactEntry_eq (hmode : e.mode = .editable) (isDir : Bool) :
    plan.artifactEntry = e.artifactEntry isDir := by
  have hname : plan.name = e.name := h.planned.named
  rw [Plan.artifactEntry, Entry.artifactEntry, h.planned.mode_eq, hname, hmode]
  rfl

theorem continues (hproper : w.disk.Proper) (hinstalled : e.WasInstalled) :
    Continues w.disk e (plan.entry w₁.now) := by
  have hname : plan.name = e.name := h.planned.named
  refine ⟨hname, h.planned.mode_eq, h.planned.resolved, ?_, ?_, fun hmode => ?_⟩
  · obtain ⟨s, hs⟩ := hinstalled.source_eq
    refine ⟨s, hs, fun label hlabel hlink => ?_⟩
    have hresolved := h.planned.resolved
    rw [hs] at hresolved
    rw [hs]
    exact resolveSource_of_unmoved hproper hresolved hlabel hlink
  · show plan.dest.components.dropLast = _
    rw [h.components_dest, List.dropLast_concat, h.components_target]
  · obtain ⟨dir, isDir, hdest, hproper⟩ := hinstalled.artifact_eq
    have hcomponents := dir.components_join hproper
    rw [← hdest] at hcomponents
    refine Path.sameAs_iff.2 ?_
    show plan.dest.components = _
    rw [h.components_dest, h.components_target, hcomponents, List.dropLast_concat, h.artifactEntry_eq hmode]

/-- Loading gives the registry with the new entry. -/
theorem load : ∀ r', ((Registry.load shelf.registryPath).run w₃).1 = .ok r' →
    r' = r.insert (plan.entry w₁.now) := fun _ hload =>
  eq_insert_of_load (fun _ hf => not_comment_of_read h.read hf) h.planned.valid h.save hload

/-- Where the recorded artifact is found is the place of the new one, when a redirect is written again. -/
theorem place_eq (hinstalled : e.WasInstalled) (hmode : e.mode = .editable)
    (hdest : (plan.clear w₁.disk).2.Slot plan.dest loc plan.artifactEntry)
    (he : (w.disk.opened target).Enters target.hub loc)
    (hfound : w.disk.goal e.artifact false = .ok (.present place)) : place = loc ++ [plan.artifactEntry] := by
  obtain ⟨dir, isDir, hjoin, hn⟩ := hinstalled.artifact_eq
  have hslash : e.artifact.endsInSlash = false := hjoin ▸ dir.endsInSlash_join hn
  have hcomponents := dir.components_join hn
  rw [← hjoin] at hcomponents
  have hfront : plan.dest.components = dir.components ++ [.name plan.artifactEntry] := by
    rw [h.components_dest, h.components_target, hcomponents, List.dropLast_concat]
  obtain ⟨parent, hslot⟩ := exists_slot_of_goal (hjoin ▸ dir.last_join hn) hslash hfound
  have hopened := ((opens_opened w.disk target).slot hslot).1
  have hadds := h.planned.adds_dest
  rw [h.planned.target_eq] at hadds
  obtain ⟨rfl, -, -⟩ := he.slot_adds hadds
    (hopened.sibling hcomponents hfront hdest.admits hadds.last hdest.short).1
  have hgoal := hslot.goal hslash (.inl rfl)
  split at hgoal
  · cases hfound.symm.trans hgoal
  · cases hfound.symm.trans hgoal
    rw [h.artifactEntry_eq hmode]

/-- A redirect stays where it is and names the directory of the source. -/
theorem redirect (hproper : w.disk.Proper) (hinstalled : e.WasInstalled) (hmode : e.mode = .editable) :
    ∃ place parent, plan.source.parent? = some parent ∧
      (∀ p, w.disk.goal e.artifact false = .ok (.present p) → p = place) ∧
      w₂.disk.look place = some (.file s!"{parent.display}\n".toUTF8 false) := by
  have hplan := h.planned
  rw [hmode] at hplan
  obtain ⟨loc, hredirect, -⟩ := redirecting hplan (h.start.disk.symm ▸ hproper) h.build
  rw [h.start.disk, hplan.target_eq] at hredirect
  obtain ⟨parent, hparent, hlook⟩ := hredirect.look_artifact hplan h.move
  have hdest := (hredirect.moved hplan h.move).dest
  have he := hredirect.enters
  rw [hplan.target_eq] at he
  exact ⟨_, parent, hparent, fun p hp => h.place_eq hinstalled hmode hdest he hp, hlook⟩

end Updates

/-- An update keeps what an entry is. Whatever has happened since the entry was recorded, an update that
succeeds answers with an entry of the same name and mode whose artifact is in the same directory. Its source
is the recorded one as it is resolved now, the same path unless there is a link in its place. Loading the
registry afterwards gives that entry and every other one as it was. A redirect keeps its path and its place,
and names the directory of the source; only a registry that is kept at its place can overwrite it. -/
theorem update_keeps_identity (shelf : Shelf) (w w' : World) (r : Registry) (name : String) (e e' : Entry)
    (hproper : w.disk.Proper) (hload : ((Registry.load shelf.registryPath).run w).1 = .ok r)
    (hget : r.get? name = some e) (hinstalled : e.WasInstalled)
    (hrun : (shelf.update name).run w = (.ok e', w')) :
    Continues w.disk e e' ∧
    (∀ r', ((Registry.load shelf.registryPath).run w').1 = .ok r' → r' = r.insert e') ∧
    (r.ComesBack → 0 ≤ e'.installedAt.date.year → e'.installedAt.date.year ≤ 9999 →
      w'.disk.isFile shelf.registryPath = true →
        ((Registry.load shelf.registryPath).run w').1 = .ok (r.insert e')) ∧
    (e.mode = .editable → ∃ place parent, e'.source.parent? = some parent ∧
      (∀ p, w.disk.goal e.artifact false = .ok (.present p) → p = place) ∧
      ∀ d, d = (((Change.update name).fileWork shelf).run w).2.disk →
        d.look place = some (.file s!"{parent.display}\n".toUTF8 false) ∧
        ((hosted d shelf.registryPath).isLink (draftPath shelf.registryPath) = false →
          ¬ Owns shelf.registryPath d place →
            w'.disk.look place = some (.file s!"{parent.display}\n".toUTF8 false))) := by
  rw [(run_load _ w).1] at hload
  obtain ⟨r₀, e₀, target, plan, w₀, w₁, w₂, w₃, hupdates, rfl, rfl, hquiet⟩ := Shelf.updates hrun
  cases hload.symm.trans hupdates.read
  cases hget.symm.trans hupdates.get
  have hsame : ((Registry.load shelf.registryPath).run w').1 = ((Registry.load shelf.registryPath).run w₃).1 := by
    rw [(run_load _ w').1, (run_load _ w₃).1, hquiet.disk]
  refine ⟨hupdates.continues hproper hinstalled, hsame ▸ hupdates.load, fun hback hlow hhigh hfile => ?_,
    fun hmode => ?_⟩
  · rw [hquiet.disk] at hfile
    obtain ⟨hsource, hartifact, hlasts, -⟩ := Shelf.lasts_update hload hback.readable hrun
    obtain ⟨r', hr'⟩ := hlasts.2 ⟨⟨hartifact, hlow, hhigh⟩, hquiet.disk ▸ hfile⟩
    rw [hr', hupdates.load r' (hsame ▸ hr')]
  · obtain ⟨place, parent, hparent, hplace, hlook⟩ := hupdates.redirect hproper hinstalled hmode
    refine ⟨place, parent, hparent, hplace, ?_⟩
    rintro d rfl
    rw [hupdates.work]
    refine ⟨hlook, fun hdraft hno => ?_⟩
    rw [hquiet.disk, ← hlook, ← look_of_save hdraft (hlook ▸ Option.some_ne_none _) hno, hupdates.save]

/-! ### Updates of a redirect -/

def redirectLine : String := "m|/src/m.py|dev|/site/nopkg_m.pth|2024-05-06T00:00:00Z"

def redirectEntry : Entry := ⟨"m", .ofString "/src/m.py", .editable, .ofString "/site/nopkg_m.pth", sampleMoment⟩

/-- A redirect to a source, with something beside the registry that records it. -/
def redirectWorld (beside : List (Name × Node)) (source : Node) : World := .holding
  [(Glyph.ofString "home", .dir ((Glyph.ofString "registry.txt",
      .file (redirectLine ++ "\n").toUTF8 false) :: beside)),
    (Glyph.ofString "other", .dir [(Glyph.ofString "m.py", .file .empty false)]),
    (Glyph.ofString "site", .dir [(Glyph.ofString "nopkg_m.pth", .file "/src\n".toUTF8 false)]),
    (Glyph.ofString "src", .dir [(Glyph.ofString "m.py", source)])]

def redirectFile : Location := [Glyph.ofString "site", Glyph.ofString "nopkg_m.pth"]

theorem redirectEntry_wasInstalled : redirectEntry.WasInstalled :=
  ⟨.ofString "/site", .ofString "/src/m.py", .editable, none, none,
    .holding [(Glyph.ofString "src", .dir [(Glyph.ofString "m.py", .file .empty false)])], _,
    Prod.ext (by cbv) rfl⟩

theorem read_redirectWorld (beside : List (Name × Node)) (source : Node) :
    Registry.read (redirectWorld beside source).disk samplePath = .ok (.ofList [redirectEntry]) := by
  have hsee : (redirectWorld beside source).disk.see samplePath true =
      .ok (.file (redirectLine ++ "\n").toUTF8 false) := by cbv
  exact read_of_line hsee (show _ = [redirectLine] by cbv)
    (Entry.ofLine_of_fields "m" "/src/m.py" "dev" "/site/nopkg_m.pth" "2024-05-06T00:00:00Z"
      (by decide) (by decide) (by decide) (by decide) (by decide) (by cbv))

theorem load_redirectWorld (beside : List (Name × Node)) (source : Node) :
    ((Registry.load Shelf.sampleShelf.registryPath).run (redirectWorld beside source)).1 =
      .ok (.ofList [redirectEntry]) := by
  rw [(run_load _ _).1]
  exact read_redirectWorld beside source

/-- What is planned for a source that leads to a path. -/
def redirectPlan (real : String) : Plan :=
  ⟨"m", "m", .ofString real, false, .editable, .ofString "/site", .ofString "/site/nopkg_m.pth",
    some redirectEntry⟩

theorem planned_redirectWorld {beside : List (Name × Node)} {source : Node} {real : String}
    (hplan : planInstall (redirectWorld beside source).disk (.ofString "/site") (.ofString "/src/m.py") .editable
      (some "m") (some redirectEntry) = .ok (redirectPlan real))
    (hthere : (redirectWorld beside source).disk.exists_ (.ofString "/src/m.py") = true) :
    Shelf.sampleShelf.plannedUpdate "m" (redirectWorld beside source).disk =
      .ok (.ofList [redirectEntry], redirectPlan real) :=
  Shelf.plannedUpdate_of_read (read_redirectWorld beside source) (by decide) hthere
    (show redirectEntry.targetDir? = some (.ofString "/site") by cbv) hplan

/-- An update whose source is the recorded file still. -/
theorem update_keeps_identity_redirect :
    redirectEntry.WasInstalled ∧
    Continues (redirectWorld [] (.file .empty false)).disk redirectEntry redirectEntry ∧
    ((Shelf.sampleShelf.update "m").run (redirectWorld [] (.file .empty false))).2.disk.look redirectFile =
      some (.file "/src\n".toUTF8 false) := by
  have hproper : (redirectWorld [] (.file .empty false)).disk.Proper :=
    proper_of_every (fun _ hn => by cases hn) (by decide)
  have hgoal : (redirectWorld [] (.file .empty false)).disk.goal redirectEntry.artifact false =
      .ok (.present redirectFile) := by cbv
  have hsource : redirectEntry.source.parent? = some (.ofString "/src") := by cbv
  obtain hplanned := @planned_redirectWorld [] (.file .empty false) "/src/m.py" (by cbv) (by cbv)
  obtain ⟨_, hrun⟩ := (Shelf.sampleShelf.update_reads "m").run_of_ok hplanned
  obtain hupdate : ((Shelf.sampleShelf.update "m").run (redirectWorld [] (.file .empty false))).1 =
      .ok redirectEntry := by
    rw [hrun]
    cbv
  obtain ⟨hcontinues, -, -, hredirect⟩ := update_keeps_identity Shelf.sampleShelf _ _ _ "m" redirectEntry
    redirectEntry hproper (load_redirectWorld _ _) (by decide) redirectEntry_wasInstalled
    (Prod.ext hupdate rfl)
  obtain ⟨place, parent, hparent, hplace, hlook⟩ := hredirect rfl
  obtain rfl := hplace _ hgoal
  cases hparent.symm.trans hsource
  obtain ⟨log, hwork⟩ := (Change.fileWork_update_reads Shelf.sampleShelf "m").run_of_ok hplanned
  obtain ⟨-, hkept⟩ := hlook _ rfl
  rw [hwork] at hkept
  refine ⟨redirectEntry_wasInstalled, hcontinues, hkept (by cbv) ?_⟩
  -- the redirect is neither the file of the registry nor its draft
  rintro ⟨-, p, g, rfl | rfl, hg, hlocation⟩
  · rw [show Disk.goal _ _ false = .ok (.present [Glyph.ofString "home", Glyph.ofString "registry.txt"]) by
      cbv] at hg
    cases hg
    cases hlocation
  · rw [show Disk.goal _ _ false = .ok (.vacant [Glyph.ofString "home"] (Glyph.ofString "registry.txt.tmp")) by
      cbv] at hg
    cases hg
    cases hlocation

/-- A link has taken the place of the source. -/
def movedWorld : World := redirectWorld [] (.link (.ofString "/other/m.py"))

/-- The draft of the registry is a link to the redirect. -/
def draftedWorld : World :=
  redirectWorld [(Glyph.ofString "registry.txt.tmp", .link (.ofString "../site/nopkg_m.pth"))] (.file .empty false)

/-- An update moves the entry to the place that a link in the place of its source leads to, and it writes the
registry into the redirect if the draft of the registry is a link to that. -/
theorem not_update_keeps_source :
    (¬ ∀ (shelf : Shelf) (w w' : World) (r : Registry) (name : String) (e e' : Entry),
      ((Registry.load shelf.registryPath).run w).1 = .ok r → r.get? name = some e → e.WasInstalled →
        w.disk.exists_ e.source = true → (shelf.update name).run w = (.ok e', w') → e'.source = e.source) ∧
    ¬ ∀ (shelf : Shelf) (w w' : World) (r : Registry) (name : String) (e e' : Entry),
      ((Registry.load shelf.registryPath).run w).1 = .ok r → r.get? name = some e → e.WasInstalled →
        e.mode = .editable → (shelf.update name).run w = (.ok e', w') → e'.source = e.source →
          ∀ l, w.disk.goal e.artifact false = .ok (.present l) → w'.disk.look l = w.disk.look l := by
  refine ⟨fun h => ?_, fun h => ?_⟩
  · have hthere : movedWorld.disk.exists_ redirectEntry.source = true := by cbv
    obtain hplanned : Shelf.sampleShelf.plannedUpdate "m" movedWorld.disk = _ :=
      @planned_redirectWorld _ _ "/other/m.py" (by cbv) (by cbv)
    obtain ⟨_, hrun⟩ := (Shelf.sampleShelf.update_reads "m").run_of_ok hplanned
    obtain hupdate : ((Shelf.sampleShelf.update "m").run movedWorld).1 =
        .ok { redirectEntry with source := .ofString "/other/m.py" } := by
      rw [hrun]
      cbv
    have hsame := h Shelf.sampleShelf movedWorld _ _ "m" redirectEntry _ (load_redirectWorld _ _) (by decide)
      redirectEntry_wasInstalled hthere (Prod.ext hupdate rfl)
    exact absurd hsame (by decide)
  · have hgoal : draftedWorld.disk.goal redirectEntry.artifact false = .ok (.present redirectFile) := by cbv
    have hold : draftedWorld.disk.look redirectFile = some (.file "/src\n".toUTF8 false) := by cbv
    obtain hplanned : Shelf.sampleShelf.plannedUpdate "m" draftedWorld.disk = _ :=
      @planned_redirectWorld _ _ "/src/m.py" (by cbv) (by cbv)
    obtain ⟨_, hrun⟩ := (Shelf.sampleShelf.update_reads "m").run_of_ok hplanned
    obtain hupdate : ((Shelf.sampleShelf.update "m").run draftedWorld).1 = .ok redirectEntry := by
      rw [hrun]
      cbv
    have hsame := h Shelf.sampleShelf draftedWorld _ _ "m" redirectEntry _ (load_redirectWorld _ _) (by decide)
      redirectEntry_wasInstalled rfl (Prod.ext hupdate rfl) rfl redirectFile hgoal
    have hnew : ((Shelf.sampleShelf.update "m").run draftedWorld).2.disk.look redirectFile ≠
        some (.file "/src\n".toUTF8 false) := by
      rw [hrun]
      clear hsame hrun
      cbv
      simp
    exact hnew (hsame.trans hold)

end Sideload
