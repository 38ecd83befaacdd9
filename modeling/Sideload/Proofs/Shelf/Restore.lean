import Sideload.Proofs.Disk.Check
import Sideload.Proofs.Installer.Settle
import Sideload.Proofs.Registry.Outside
import Sideload.Proofs.Shelf.Planning
import Sideload.Proofs.Shelf.Readable

/-!
Uninstalling what was just installed. An install of a new name puts its artifact where nothing was, and
changes nothing else but what belongs to the registry; so an uninstall that takes the artifact away again
leaves everything as it was.
-/

namespace Sideload

open Disk Registry

variable {shelf : Shelf} {w w₁ w₂ : World} {d d₁ d₂ : Disk} {r : Registry} {e : Entry} {plan : Plan}
  {target source path : Path} {mode : Mode} {name? : Option String} {loc parent l : Location}
  {m n k : Name} {content : String}

/-! ### Installing a new name -/

/-- A build in a package directory that is there, with nothing at the place where it builds. -/
theorem build_unstaged (hvalid : IsIdentifier plan.name) (hproper : w.disk.Proper)
    (henters : w.disk.Enters plan.target loc) (hunstaged : w.disk.occupied plan.staging = false)
    (hrun : (build plan).run w = (.ok (), w₁)) :
    Gone (loc ++ [plan.stagingEntry]) w.disk ∧ SameOff (loc ++ [plan.stagingEntry]) w.disk w₁.disk ∧
      w₁.disk.look (loc ++ [plan.stagingEntry]) ≠ none := by
  have hne := henters.isEmpty
  have hhub := plan.target.hub_of_ne hne
  have hlook : (w.disk.opened plan.target).look = w.disk.look := look_opened henters (List.prefix_refl _)
  have hcwd := (opens_opened w.disk plan.target).cwd
  have hopened := ((opens_opened w.disk plan.target).enters henters).1
  have hstaging := plan.adds_staging hvalid
  rw [hhub] at hstaging
  have hnone : w.disk.look (loc ++ [plan.stagingEntry]) = none := by
    rcases hopened.slot_or_fault hstaging with ⟨hslot, -⟩ | ⟨e, hsee, hmissing⟩
    · by_contra hthere
      have hslot' := (henters.slot hstaging.route hslot.admits hslot.last hslot.short).1
      have hgoal := hslot'.goal hstaging.slash (.inl rfl)
      rw [if_neg hthere] at hgoal
      rw [occupied_iff.2 ⟨_, hgoal, hthere⟩] at hunstaged
      cases hunstaged
    · -- a name that cannot be stands in the way of the build
      rw [run_build] at hrun
      split at hrun
      · cases hrun
      · rw [DiskM.removeArtifact_of_error hsee, hmissing] at hrun
        cases hrun
  have hcases := @build_cases w plan hvalid (fun hempty => by rw [hne] at hempty; cases hempty) hproper
    (fun loc' he hl => by
      rw [hhub] at he hl
      obtain rfl := hopened.unique he
      exact he.look_ne_none hl (hlook ▸ hnone))
  rw [hrun] at hcases
  rcases hcases with ⟨f, hfail⟩ | ⟨loc', he, hleaves⟩
  · cases hfail
  · rw [hhub] at he
    obtain rfl := hopened.unique he
    refine ⟨fun l hl => look_none_below hnone hl, ⟨hleaves.sameOff.cwd.trans hcwd, fun l hl => ?_⟩,
      hleaves.there rfl⟩
    rw [hleaves.sameOff.look l hl]
    exact congrFun hlook l

/-- An artifact was put into a directory at a place where nothing was, and nothing else was changed. -/
structure Added (e : Entry) (loc : Location) (n : Name) (d d' : Disk) : Prop where
  valid : IsIdentifier e.name
  slash : e.artifact.endsInSlash = false
  slot : d.Slot e.artifact loc n
  fresh : Gone (loc ++ [n]) d
  sameOff : SameOff (loc ++ [n]) d d'
  there : d'.look (loc ++ [n]) ≠ none

namespace Added

theorem way (h : Added e loc n d d₁) : ∀ l ∈ d.approach e.artifact, ¬ loc ++ [n] <+: l :=
  fun l hl hpre => h.slot.look_ne_none hl (h.fresh l hpre)

theorem slot_after (h : Added e loc n d d₁) :
    d₁.Slot e.artifact loc n ∧ d₁.approach e.artifact = d.approach e.artifact :=
  h.slot.congr h.sameOff.cwd fun l hl => h.sameOff.look l (h.way l hl)

end Added

/-- Settling what was built for a new name. -/
theorem added_of_rename {name : Option String} {real : Path} (hplan : Planned d target real mode name none plan)
    (henters : d.Enters target loc) (hgone : Gone (loc ++ [plan.stagingEntry]) d)
    (hoff : SameOff (loc ++ [plan.stagingEntry]) d d₁)
    (hthere : d₁.look (loc ++ [plan.stagingEntry]) ≠ none)
    (hr : d₁.rename plan.staging plan.dest = .ok d₂) (now : Moment) :
    Added (plan.entry now) loc plan.artifactEntry d d₂ := by
  have hhub : plan.target.hub = target := by rw [hplan.target_eq, target.hub_of_ne henters.isEmpty]
  have hprior : plan.prior = none := hplan.prior_eq
  have hclear : plan.clear d₁ = (.ok (), d₁) := by
    unfold Plan.clear
    rw [hprior]
  have hbuilt : Built plan loc d d₁ := ⟨hhub ▸ henters, hhub ▸ henters.way_of_gone hgone, hoff⟩
  have hmoved := hbuilt.moved hplan (show (plan.clear d₁).2.rename _ _ = _ by rw [hclear]; exact hr)
  rw [hclear] at hmoved
  have hdest := hplan.adds_dest
  rw [hhub] at hdest
  have hslot := (henters.slot hdest.route hmoved.dest.admits hdest.last hmoved.dest.short).1
  have hfree : d.look (loc ++ [plan.artifactEntry]) = none := by
    by_contra hnot
    have hgoal := hslot.goal hdest.slash (.inl rfl)
    rw [if_neg hnot] at hgoal
    have hrecorded := hplan.recorded hplan.dest_mem (occupied_iff.2 ⟨_, hgoal, hnot⟩)
    cases hrecorded
  refine ⟨hplan.valid, hdest.slash, hslot, fun l hl => look_none_below hfree hl,
    ⟨hmoved.cwd.trans hoff.cwd, fun l hl => ?_⟩, ?_⟩
  · by_cases hstaging : loc ++ [plan.stagingEntry] <+: l
    · rw [hmoved.gone_staging hplan.artifactEntry_ne l hstaging, hgone l hstaging]
    · rw [hmoved.look_elsewhere hstaging hl, hoff.look l hstaging]
  · have hlook := hmoved.look_artifact []
    rw [List.append_nil, List.append_nil] at hlook
    rwa [hlook]

/-! ### Saving and removing -/

/-- After a save outside the directory the artifact is found in its place, unless the registry was a link
on the way to it. -/
theorem Added.saved (h : Added e loc n d d₁)
    (hr : Replaced path parent m k content (hosted d₁ path) d₂) (haside : Aside path loc (hosted d₁ path)) :
    (d₂.Slot e.artifact loc n ∧ d₂.approach e.artifact = d.approach e.artifact ∧
      d₂.look (loc ++ [n]) ≠ none) ∨ ∀ follow, d₂.see e.artifact follow = .error (.os .notDirectory) := by
  obtain ⟨hslot, hway⟩ := h.slot_after
  obtain ⟨hslot', hway'⟩ := (opens_hosted d₁ path).slot hslot
  obtain ⟨-, hbeside⟩ := haside.not_below hr.before.file n
  refine (hr.slot_or_blocked hslot' h.slash).imp_left ?_
  rintro ⟨hfound, hsame⟩
  refine ⟨hfound, by rw [hsame, hway', hway], ?_⟩
  rw [hr.look_elsewhere ?_ ?_, (opens_hosted d₁ path).look_of_ne_none h.there]
  · exact h.there
  · exact fun heq => hbeside k (heq ▸ List.prefix_refl _)
  · exact fun heq => hbeside m (heq ▸ List.prefix_refl _)

/-- So a removal that succeeds has taken it away. -/
theorem Added.removed {b : Bool} (h : Added e loc n d d₁)
    (hr : Replaced path parent m k content (hosted d₁ path) d₂) (haside : Aside path loc (hosted d₁ path))
    (hok : ((DiskM.removeArtifact e.artifact).run d₂).1 = .ok b) :
    b = true ∧ Shrinks (loc ++ [n]) d₂ ((DiskM.removeArtifact e.artifact).run d₂).2 ∧
      Gone (loc ++ [n]) ((DiskM.removeArtifact e.artifact).run d₂).2 := by
  rcases h.saved hr haside with ⟨hslot, hway, hthere⟩ | hblocked
  · have happroach : ∀ l ∈ d₂.approach e.artifact, ¬ loc ++ [n] <+: l := fun l hl =>
      h.way l (hway ▸ hl)
    obtain ⟨label, hlabel⟩ := Option.ne_none_iff_exists'.1 hthere
    have htrue := DiskM.removeArtifact_isOk hslot h.slash happroach hlabel
    obtain ⟨-, -, hshrinks, hgone⟩ := DiskM.removeArtifact_of_slot hslot h.slash happroach
    rw [htrue] at hok
    cases hok
    exact ⟨rfl, hshrinks, hgone⟩
  · rw [DiskM.removeArtifact_of_error (hblocked false)] at hok
    cases hok

/-- A registry outside the directory is saved once more at the same entry, after the artifact was removed. -/
theorem replaced_again {label : Label} {d₃ : Disk} {w w' : World}
    (hr : Replaced path parent m k content (hosted d₁ path) d₂) (haside : Aside path loc (hosted d₁ path))
    (hsee : d₂.see path true = .ok label) (hshrinks : Shrinks (loc ++ [n]) d₂ d₃) (hw : w.disk = d₃)
    (hsave : (r.save path).run w = (.ok (), w')) :
    ∃ content', r.text = .ok content' ∧ Replaced path parent m k content' (hosted d₃ path) w'.disk ∧
      (hosted d₃ path).look = d₃.look ∧ Stands path parent m k w'.disk ∧
      w'.disk.approach path = (hosted d₁ path).approach path := by
  subst hw
  obtain ⟨hfar, -⟩ := haside.not_below hr.before.file n
  obtain ⟨hstands, hway, hnot⟩ := hr.stands_of_see hsee
  obtain ⟨hleft, hway'⟩ := hstands.congr hshrinks.cwd fun l hl => hshrinks.look l (hfar l (hway ▸ hl))
  obtain ⟨hhosted, hway''⟩ := hleft.hosted
  have hlook := hleft.look_hosted
  have hdraft : (hosted w.disk path).isLink (draftPath path) = false := by
    rw [isLink_eq_false_iff]
    intro target hlink
    obtain ⟨place, hgoal, htarget⟩ := see_eq_ok_iff.1 hlink
    obtain ⟨front, -, -, -, hslash⟩ :=
      Path.withExtension_eq hhosted.file.last hhosted.slash slash_notMem_draft two_le_draft
    have hnone : (hosted w.disk path).look (parent ++ [m]) = none := by
      by_contra hthere
      rw [hlook] at hthere
      exact hthere ((hshrinks.look_of_ne_none hthere).symm.trans hr.look_draft)
    rw [hhosted.draft.goal (show (draftPath path).endsInSlash = false from hslash) (.inl rfl),
      if_pos hnone] at hgoal
    cases hgoal
  obtain ⟨content', up, m', k', htext, hagain⟩ := replaced_of_save hsave hdraft
  obtain ⟨rfl, rfl⟩ := hhosted.draft.unique hagain.before.draft
  obtain ⟨-, rfl⟩ := hhosted.file.unique hagain.before.file
  obtain ⟨hfinal, hway₃⟩ := hagain.stands (by rwa [hway'', hway'])
  exact ⟨content', htext, hagain, hlook, hfinal, by rw [hway₃, hway'', hway', hway]⟩

namespace Shelf

/-- An install of a name that the registry does not have, into a package directory that is there. -/
theorem install_adds (hproper : w.disk.Proper) (henters : w.disk.Enters target loc)
    (hread : read w.disk shelf.registryPath = .ok r)
    (hrun : (shelf.install target source mode name?).run w = (.ok e, w₁)) (hnew : r.get? e.name = none)
    (hunstaged : w.disk.occupied (stagingPath target e.name) = false) :
    ∃ n t t', Added e loc n w.disk t.disk ∧
      ((r.insert e).save shelf.registryPath).run t = (.ok (), t') ∧ t'.Quiet w₁ := by
  have hcases := install_cases shelf target source mode name? w
  rw [hrun] at hcases
  rcases hcases with ⟨f, hfail, -⟩ | ⟨r', plan, w₀, ⟨hread', real, name, hplan⟩, hquiet,
    ⟨f, -, hfail⟩ | ⟨wb, hbuild, hanswer, hquiet'⟩⟩
  · cases hfail
  · cases hfail
  obtain rfl : r' = r := by
    rw [hread] at hread'
    cases hread'
    rfl
  rcases commit_cases shelf r' plan wb with ⟨f, _, -, hfail, -⟩ | ⟨t, hclear, -, hmove, -, hcommit⟩
  · rw [hfail] at hanswer
    cases hanswer
  rw [hcommit] at hanswer hquiet'
  have hname : plan.name = name := hplan.named
  rcases hsave : ((r'.insert (plan.entry wb.now)).save shelf.registryPath).run t with ⟨f | u, t'⟩
  · rw [hsave] at hanswer
    cases hanswer
  rw [hsave] at hanswer hquiet'
  cases hanswer
  have hprior : r'.get? name = none := hname ▸ hnew
  rw [hprior] at hplan
  have htarget := hplan.target_eq
  subst htarget
  rw [← hquiet.disk] at hproper henters hunstaged hplan
  obtain ⟨hgone, hoff, hthere⟩ := build_unstaged hplan.valid hproper henters hunstaged hbuild
  have hdisk : (plan.clear wb.disk).2 = wb.disk := by
    unfold Plan.clear
    rw [hplan.prior_eq]
  rw [hdisk] at hmove
  rw [← hquiet.disk]
  exact ⟨_, t, t', added_of_rename hplan henters hgone hoff hthere hmove _, hsave, hquiet'⟩

/-- What is read after such an install, if its path leads to a file. -/
theorem read_of_install (hproper : w.disk.Proper) (henters : w.disk.Enters target loc)
    (hread : read w.disk shelf.registryPath = .ok r) (hr : ∀ f ∈ r.entries, f.Readable)
    (hrun : (shelf.install target source mode name?).run w = (.ok e, w₁)) (hnew : r.get? e.name = none)
    (hunstaged : w.disk.occupied (stagingPath target e.name) = false) (he : e.Readable)
    (hfile : w₁.disk.isFile shelf.registryPath = true) :
    Registry.read w₁.disk shelf.registryPath = .ok (r.insert e) := by
  obtain ⟨n, t, t', -, hsave, hquiet⟩ := install_adds hproper henters hread hrun hnew hunstaged
  have hall : ∀ f ∈ (r.insert e).entries, f.Readable := by
    intro f hf
    rcases mem_insert hf with rfl | ⟨hf, -⟩
    · exact he
    · exact hr f hf
  have hload := (load_saved_iff hsave).2 ⟨hall, hquiet.disk ▸ hfile⟩
  rw [(run_load _ _).1] at hload
  rw [hquiet.disk, hload]

/-- Uninstalling what was just installed under a new name. The package directory was there, nothing was
where the artifact is built, and the registry lies outside the directory, with a draft that is no link.
The answer is the entry that was installed, its artifact is removed, and the registry is what it was; on
the disk nothing has changed but the registry, its draft and directories on the way to it. -/
theorem uninstall_restores {o : Removal} (hproper : w.disk.Proper) (henters : w.disk.Enters target loc)
    (hout : Registry.Outside shelf.registryPath loc w.disk)
    (hload : ((Registry.load shelf.registryPath).run w).1 = .ok r) (hback : r.ComesBack)
    (hinstall : (shelf.install target source mode name?).run w = (.ok e, w₁))
    (hnew : r.get? e.name = none) (hunstaged : w.disk.occupied (stagingPath target e.name) = false)
    (huninstall : (shelf.uninstall e.name).run w₁ = (.ok o, w₂)) :
    o.entry = e ∧ o.artifactRemoved = true ∧
      ((Registry.load shelf.registryPath).run w₂).1 = .ok r ∧ w₂.disk.cwd = w.disk.cwd ∧
      ∀ l, w₂.disk.look l ≠ w.disk.look l → Touches shelf.registryPath w.disk w₂.disk l := by
  rw [(run_load _ w).1] at hload
  obtain ⟨n, t, t', hadded, hsave, hquiet⟩ :=
    install_adds hproper henters hload hinstall hnew hunstaged
  have htop : t.disk.look loc = some .dir := by
    rw [hadded.sameOff.look loc fun hpre => by simpa using hpre.length_le, henters.dir]
  have haside := hout t.disk (hadded.sameOff.mono (List.prefix_append _ _)) htop
  obtain ⟨content, parent, m, k, -, hr⟩ := replaced_of_save hsave haside.draft
  rw [← hquiet.disk] at hr
  -- the uninstall reads what the install has saved
  have hcases := uninstall_cases shelf e.name w₁
  rw [huninstall] at hcases
  rcases hcases with ⟨f, hfail, -⟩ | ⟨r', e', t₁, hread, hget, -, hdisk, ⟨f, -, hfail⟩ |
    ⟨t₂, hsave₂, hquiet₂, hanswer⟩⟩
  · cases hfail
  · cases hfail
  have hsaved : r' = r.insert e := by
    refine eq_insert_of_load (fun f hf => (hback.readable f hf).not_comment) hadded.valid hsave ?_
    rw [(run_load _ t').1, ← hquiet.disk, hread]
  subst hsaved
  obtain rfl : e = e' := by
    rw [get?_insert_self] at hget
    cases hget
    rfl
  obtain ⟨label, hsee⟩ : ∃ label, w₁.disk.see shelf.registryPath true = .ok label := by
    rw [hquiet.disk]
    obtain ⟨_, -, ⟨x, hfile⟩ | ⟨cause, herror, hkind⟩⟩ := see_saved hsave
    · exact ⟨_, hfile⟩
    · rw [hquiet.disk, read_of_error herror, isMissing_eq_false hkind] at hread
      cases hread
  -- so it removes the artifact and saves the registry as it was
  have hremoved : ∃ b, ((DiskM.removeArtifact e.artifact).run w₁.disk).1 = .ok b ∧ o = ⟨e, b⟩ := by
    generalize ((DiskM.removeArtifact e.artifact).run w₁.disk).1 = answer at hanswer
    cases answer with
    | error cause => cases hanswer
    | ok b =>
        cases hanswer
        exact ⟨b, rfl, rfl⟩
  obtain ⟨b, hok, rfl⟩ := hremoved
  obtain ⟨rfl, hshrinks, hgone⟩ := hadded.removed hr haside hok
  rw [erase_insert hnew] at hsave₂
  obtain ⟨content', htext, hagain, hhosted, hstands, hway⟩ :=
    replaced_again hr haside hsee hshrinks hdisk hsave₂
  refine ⟨rfl, rfl, ?_, ?_, fun l hl => ?_⟩
  · obtain ⟨s, hs, hof⟩ := hback
    obtain rfl : content' = s := by
      rw [htext] at hs
      cases hs
      rfl
    obtain ⟨x, hfile⟩ := hagain.look_file
    have hfound := @Slot.see _ _ _ _ true hstands.file hstands.slash (.inr fun target => by rw [hfile]; simp)
    rw [hfile] at hfound
    rw [(run_load _ w₂).1, hquiet₂.disk, read_of_file hfound, hof]
    rfl
  · rw [hquiet₂.disk, hagain.cwd, (opens_hosted _ _).cwd, hshrinks.cwd, hr.cwd, (opens_hosted _ _).cwd,
      hadded.sameOff.cwd]
  · rw [hquiet₂.disk] at hl ⊢
    by_cases hfile : l = parent ++ [k]
    · exact hfile ▸ .file hstands.file
    by_cases hdraft : l = parent ++ [m]
    · exact hdraft ▸ .draft hstands.draft
    rw [hagain.look_elsewhere hfile hdraft, hhosted] at hl
    by_cases hart : loc ++ [n] <+: l
    · exact absurd ((hgone l hart).trans (hadded.fresh l hart).symm) hl
    have hsame : t₂.disk.look l = (hosted t.disk shelf.registryPath).look l := by
      rw [hagain.look_elsewhere hfile hdraft, hhosted, hshrinks.look l hart, hr.look_elsewhere hfile hdraft]
    rw [hshrinks.look l hart, hr.look_elsewhere hfile hdraft, ← hadded.sameOff.look l hart] at hl
    obtain ⟨hnone, hdir⟩ := ((opens_hosted t.disk shelf.registryPath).look l).resolve_left hl
    refine .host ?_ (hsame.trans hdir) (hway ▸ ?_)
    · rw [← hadded.sameOff.look l hart, hnone]
    · exact mem_approach_of_hosted hr.before.file hr.before.slash hl

/-- A file, an empty package directory, and no registry yet. -/
def emptySite : World := .holding [(Glyph.ofString "m.py", .file .empty false),
  (Glyph.ofString "site", .dir [])]

/-- The place of the registry below the top. -/
def siteHome : Home := ⟨.ofString "/", [], [Glyph.ofString "home"], Glyph.ofString "registry.txt"⟩

theorem lodged_emptySite : Lodged emptySite.disk sampleShelf.registryPath siteHome where
  admits := by cbv
  last := by cbv
  slash := by cbv
  route := ⟨by cbv, by cbv⟩
  short := by decide
  enters := ⟨by cbv, by cbv⟩
  plain := by
    intro front hfront
    rcases List.prefix_cons_iff.1 hfront with rfl | ⟨rest, rfl, hrest⟩
    · exact .inr (by cbv)
    · obtain rfl := List.prefix_nil.1 hrest
      exact .inl (by cbv)
  leaf := by decide
  aside := by
    rw [show emptySite.disk.way siteHome.base true = [[]] by cbv]
    decide
  draft := .inl (by cbv)

theorem outside_emptySite :
    Registry.Outside sampleShelf.registryPath [Glyph.ofString "site"] emptySite.disk := by
  refine lodged_emptySite.outside (by cbv) ?_ (by decide)
  rw [Home.places, show emptySite.disk.way siteHome.base true = [[]] by cbv]
  decide

def siteInstall : Work Failure Entry :=
  sampleShelf.install (.ofString "/site") (.ofString "/m.py") .copy none

def siteEntry : Entry := ⟨"m", .ofString "/m.py", .copy, .ofString "/site/m.py", sampleMoment⟩

/-- The world after the install. -/
def filledSite : World := (siteInstall.run emptySite).2

theorem siteInstall_ok : siteInstall.run emptySite = (.ok siteEntry, filledSite) :=
  Prod.ext (by cbv) rfl

theorem siteEntry_readable : siteEntry.Readable :=
  ⟨⟨by decide, by decide, by decide, by decide⟩, by decide⟩

theorem emptySite_proper : emptySite.disk.Proper := proper_of_every (fun n hn => by cases hn) (by decide)

theorem uninstall_filledSite :
    ((sampleShelf.uninstall "m").run filledSite).1 = .ok ⟨siteEntry, true⟩ := by
  have hread := read_of_install emptySite_proper ⟨by cbv, by cbv⟩
    (show Registry.read emptySite.disk sampleShelf.registryPath = .ok empty by cbv)
    (fun f hf => by cases hf) siteInstall_ok rfl (by cbv) siteEntry_readable (by cbv)
  obtain ⟨log, hrun⟩ :=
    (sampleShelf.uninstall_reads "m").run_of_ok (plannedRemoval_of_get? hread (get?_insert_self _ siteEntry))
  rw [hrun]
  clear hread hrun
  cbv

/-- A file is installed into the directory and uninstalled again. -/
theorem uninstall_restores_emptySite :
    ((Registry.load sampleShelf.registryPath).run emptySite).1 = .ok empty ∧
    siteInstall.run emptySite = (.ok siteEntry, filledSite) ∧ ∃ w,
      (sampleShelf.uninstall "m").run filledSite = (.ok ⟨siteEntry, true⟩, w) ∧
      ((Registry.load sampleShelf.registryPath).run w).1 = .ok empty ∧
      ∀ l, w.disk.look l ≠ emptySite.disk.look l →
        Touches sampleShelf.registryPath emptySite.disk w.disk l := by
  have hload : ((Registry.load sampleShelf.registryPath).run emptySite).1 = .ok empty := by cbv
  have hback : Registry.empty.ComesBack := ⟨header ++ "\n", by cbv, by cbv⟩
  have hrun : (sampleShelf.uninstall siteEntry.name).run filledSite = (.ok ⟨siteEntry, true⟩, _) :=
    Prod.ext uninstall_filledSite rfl
  obtain ⟨-, -, hagain, -, hframe⟩ := uninstall_restores
    emptySite_proper ⟨by cbv, by cbv⟩ outside_emptySite hload hback siteInstall_ok rfl (by cbv) hrun
  exact ⟨hload, siteInstall_ok, _, hrun, hagain, hframe⟩

/-- The same directory with a text beside it, and a link to the text at the name of the draft. -/
def linkedSite : World := .holding [(Glyph.ofString "m.py", .file .empty false),
  (Glyph.ofString "site", .dir []), (Glyph.ofString "user.txt", .file "mine".toUTF8 false),
  (Glyph.ofString "home", .dir [(Glyph.ofString "registry.txt.tmp", .link (.ofString "../user.txt"))])]

/-- Where the draft is a link, the registry is written through it into the text it leads to, and the
uninstall does not bring that text back. -/
theorem not_uninstall_restores :
    ((Registry.load sampleShelf.registryPath).run linkedSite).1 = .ok empty ∧ empty.ComesBack ∧
    linkedSite.disk.occupied (stagingPath (.ofString "/site") "m") = false ∧ ∃ w₁ w₂,
      siteInstall.run linkedSite = (.ok siteEntry, w₁) ∧
      (sampleShelf.uninstall "m").run w₁ = (.ok ⟨siteEntry, true⟩, w₂) ∧
      linkedSite.disk.look [Glyph.ofString "user.txt"] = some (.file "mine".toUTF8 false) ∧
      w₂.disk.look [Glyph.ofString "user.txt"] ≠ some (.file "mine".toUTF8 false) := by
  have hback : empty.ComesBack := ⟨header ++ "\n", by cbv, by cbv⟩
  have hproper : linkedSite.disk.Proper := proper_of_every (fun n hn => by cases hn) (by decide)
  have henters : linkedSite.disk.Enters (.ofString "/site") [Glyph.ofString "site"] := ⟨by cbv, by cbv⟩
  have hread : Registry.read linkedSite.disk sampleShelf.registryPath = .ok empty := by cbv
  have hload : ((Registry.load sampleShelf.registryPath).run linkedSite).1 = .ok empty := by
    rw [(run_load _ _).1, hread]
  have hunstaged : linkedSite.disk.occupied (stagingPath (.ofString "/site") "m") = false := by cbv
  obtain hfile : (siteInstall.run linkedSite).2.disk.isFile sampleShelf.registryPath = true := by cbv
  obtain hrun : siteInstall.run linkedSite = (.ok siteEntry, (siteInstall.run linkedSite).2) :=
    Prod.ext (by cbv) rfl
  obtain hagain := read_of_install hproper henters hread (fun f hf => by cases hf) hrun rfl hunstaged
    siteEntry_readable hfile
  obtain ⟨log, hsame⟩ :=
    (sampleShelf.uninstall_reads "m").run_of_ok (plannedRemoval_of_get? hagain (get?_insert_self _ siteEntry))
  refine ⟨hload, hback, hunstaged, _, _, hrun, Prod.ext ?_ rfl, rfl, ?_⟩
  · rw [hsame]
    cbv
  · rw [hsame]
    cbv
    simp

end Shelf

end Sideload
