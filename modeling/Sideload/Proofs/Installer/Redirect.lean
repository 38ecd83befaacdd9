import Sideload.Proofs.Installer.Confined
import Sideload.Proofs.Installer.Result

/-!
Redirects. A redirect is a file, so where it was built nothing is reached over it. In its package directory
a plain module of the same name would be found before the redirected one: such names are free after an
install. They are the names of the entry. The interpreter looks for the name of the source, and where that
is another one, nothing was checked and nothing is changed.
-/

namespace Sideload

open Disk

variable {plan : Plan} {loc l : Location} {base d d' start : Disk} {target source : Path}
  {name? : Option String} {prior : Option Entry} {w w₁ w' : World} {e : Entry}

/-! ### Building a redirect -/

/-- A name of a directory that is removed, and has its place in the directory afterwards, had that place
before, and the way to the directory did not lead over it. -/
theorem slot_of_removed {n : Name} {b : Bool} (hn : n.Proper)
    (hrun : (DiskM.removeArtifact (target.join (.ofName n))).run d = (.ok b, d'))
    (hs : d'.Slot (target.join (.ofName n)) loc n) :
    d.Slot (target.join (.ofName n)) loc n ∧ ∀ l ∈ d.way target.hub true, ¬ loc ++ [n] <+: l := by
  have hslash := target.endsInSlash_join hn
  have he := hs.enters_hub hn
  rcases DiskM.removeArtifact_cases (target.join (.ofName n)) d with ⟨place, hgoal⟩ | ⟨e, hsee, hnothing⟩
  · obtain ⟨hshrinks, hfound, hgone⟩ := DiskM.removeArtifact_spec hgoal
    rw [hrun] at hshrinks hfound hgone
    have hbefore := (hshrinks.slot hs).1
    obtain rfl : place = loc ++ [n] := by
      have hplace := hbefore.goal hslash (.inl rfl)
      split at hplace
      · cases hgoal.symm.trans hplace
      · cases hgoal.symm.trans hplace
        rfl
    have hremoved : b = true := by
      cases b with
      | true => rfl
      | false => exact absurd rfl hfound
    refine ⟨hbefore, fun l hl hpre => ?_⟩
    rw [(he.congr hshrinks.cwd.symm fun l hl => hshrinks.look_of_ne_none (he.look_ne_none hl)).2] at hl
    exact he.look_ne_none hl (hgone (congrArg Except.ok hremoved) l hpre)
  · rw [hrun, Prod.mk.injEq] at hnothing
    obtain ⟨-, rfl⟩ := hnothing
    have hfree : d'.look (loc ++ [n]) = none := by
      have hlabel := (hs.see hslash (.inl rfl)).symm.trans hsee
      generalize d'.look (loc ++ [n]) = label at hlabel
      cases label with
      | none => rfl
      | some label => cases hlabel
    exact ⟨hs, he.way_of_gone fun l hl => look_none_below hfree hl⟩

/-- A redirect that was built was built at a free place of its package directory. -/
theorem build_redirect (hvalid : IsIdentifier plan.name) (hmode : plan.mode = .editable)
    (hproper : w.disk.Proper) (hrun : (build plan).run w = (.ok (), w₁)) :
    ∃ loc d, (w.disk.opened plan.target).Enters plan.target.hub loc ∧
      Cleared plan.target.hub plan.staging loc plan.stagingEntry (w.disk.opened plan.target) d ∧
      (stageOrClean plan.source plan.staging plan.mode plan.isDir).run { w with disk := d } =
        (.ok (), w₁) := by
  have hstart := hrun
  rw [run_build] at hrun
  generalize hmade : ((DiskM.createDirAll plan.target).run w.disk).1 = made at hrun
  generalize hcleared : (DiskM.removeArtifact plan.staging).run (w.disk.opened plan.target) = cleared at hrun
  obtain ⟨answer, d⟩ := cleared
  match made, answer with
  | .error e, _ => cases hrun
  | .ok u, .error e => cases hrun
  | .ok u, .ok b =>
      have hname := stagingName_proper hvalid
      rcases stage_cases (stageOrClean_ok hrun) with ⟨hcopy, -⟩ | ⟨hcopy, -⟩ | ⟨-, parent, -, hwrite⟩
      · cases hmode.symm.trans hcopy
      · cases hmode.symm.trans hcopy
      -- the draft could be written, so its place is known, and the leftover that was there is gone
      unfold writeText write at hwrite
      obtain ⟨loc, hs⟩ := exists_slot_of_openFile (plan.adds_staging hvalid).last hwrite
      obtain ⟨hs, hway⟩ := slot_of_removed hname hcleared hs
      have he := hs.enters_hub hname
      obtain ⟨d', -, hfree, hstage⟩ := build_of_slot hvalid hproper hmade he hs hway
      exact ⟨loc, d', he, hfree, hstage.symm.trans hstart⟩

/-- What is known of a redirect that was built on a disk `base` where the package directory was made. -/
structure Redirecting (plan : Plan) (loc : Location) (base d : Disk) : Prop extends
    Built plan loc base d where
  target : ∃ parent, plan.source.parent? = some parent ∧
    d.look (loc ++ [plan.stagingEntry]) = some (.file s!"{parent.display}\n".toUTF8 false)

theorem redirecting (hplan : Planned start target source .editable name? prior plan)
    (hproper : w.disk.Proper) (hrun : (build plan).run w = (.ok (), w₁)) :
    ∃ loc, Redirecting plan loc (w.disk.opened plan.target) w₁.disk ∧ w₁.now = w.now := by
  obtain ⟨loc, d, he, hcleared, hstage⟩ := build_redirect hplan.valid hplan.mode_eq hproper hrun
  have hq := plan.adds_staging hplan.valid
  have hleaves := hcleared.leaves (w := { w with disk := d }) plan.source plan.mode plan.isDir hq
  rw [hstage] at hleaves
  have hway : ∀ l ∈ (w.disk.opened plan.target).way plan.target.hub true,
      ¬ loc ++ [plan.stagingEntry] <+: l := by
    intro l hl
    rw [(hcleared.enters.congr hcleared.sameOff.cwd.symm fun l hl =>
      (hcleared.sameOff.look l (hcleared.enters.way_of_gone hcleared.gone l hl)).symm).2] at hl
    exact hcleared.enters.way_of_gone hcleared.gone l hl
  have hno : plan.mode ≠ .copy := fun hcopy => nomatch hplan.mode_eq.symm.trans hcopy
  have hholds := stage_ok (w := { w with disk := d }) hcleared.enters hq hcleared.gone hcleared.proper
    (Path.isEmpty_of_isAbsolute hplan.source_absolute) (fun hcopy => absurd hcopy hno)
    (fun hcopy => absurd hcopy hno) (fun hcopy => absurd hcopy hno) (stageOrClean_ok hstage)
  have hbuilt := hholds.look [] nofun
  rw [List.append_nil, hplan.mode_eq] at hbuilt
  cases hparent : plan.source.parent? with
  | none =>
      rw [show product d plan.source .editable [] = none by simp [product, hparent]] at hbuilt
      exact absurd hbuilt (hleaves.there rfl)
  | some parent =>
      refine ⟨loc, ⟨⟨he, hway, hleaves.sameOff⟩, parent, hparent, hbuilt.trans ?_⟩, hleaves.now⟩
      simp [product, hparent]

/-! ### Names that hide a redirected module -/

/-- The entries of a package directory that the interpreter finds before it follows the redirects for a
module of that name. -/
def hidingNames (name : String) : List Name :=
  [Glyph.ofString name, Glyph.ofString s!"{name}.{moduleExtension}"]

variable {name other : String} {n : Name}

/-- They are the names of copied modules. -/
theorem exists_artifactName (h : n ∈ hidingNames name) :
    ∃ isDir, n = Glyph.ofString (artifactName .empty name .copy isDir) := by
  rcases List.mem_cons.1 h with rfl | h
  · exact ⟨true, rfl⟩
  · exact ⟨false, List.mem_singleton.1 h⟩

theorem mem_candidates (h : n ∈ hidingNames name) (target dest : Path) :
    target.join (.ofName n) ∈ candidates target dest name .editable := by
  rcases List.mem_cons.1 h with rfl | h
  · exact List.mem_cons_of_mem _ (List.mem_cons_self ..)
  · rw [List.mem_singleton.1 h]
    exact List.mem_cons_of_mem _ (List.mem_cons_of_mem _ (List.mem_cons_self ..))

namespace IsIdentifier

theorem hiding_proper (h : IsIdentifier name) (hn : n ∈ hidingNames name) : n.Proper := by
  obtain ⟨isDir, rfl⟩ := exists_artifactName hn
  exact artifactName_proper h _ _ _

theorem hiding_ne_staging (h : IsIdentifier name) (hn : n ∈ hidingNames name) (other : String) :
    n ≠ Glyph.ofString (stagingName other) := by
  obtain ⟨isDir, rfl⟩ := exists_artifactName hn
  exact fun heq => artifactName_ne_stagingName h _ _ _ other (Glyph.ofString_inj.1 heq)

/-- A redirect hides nothing: it has a dot, and another letter at its end. -/
theorem hiding_ne_redirect (h : IsIdentifier name) (hn : n ∈ hidingNames name) (source : Path)
    (other : String) (isDir : Bool) : n ≠ Glyph.ofString (artifactName source other .editable isDir) := by
  have hredirect : artifactName source other .editable isDir = redirectStem ++ other ++ "." ++ "pth" := rfl
  rw [hredirect]
  rcases List.mem_cons.1 hn with rfl | hn
  · intro heq
    have hdot : '.' ∈ name.toList := by
      rw [Glyph.ofString_inj.1 heq]
      simp
    exact h.not_mem (by decide) (by decide) hdot
  · rw [List.mem_singleton.1 hn]
    intro heq
    have htext : name ++ "." ++ "py" = redirectStem ++ other ++ "." ++ "pth" := Glyph.ofString_inj.1 heq
    have hlast := congrArg (fun s : String => s.toList.getLast?) htext
    simp at hlast

/-- Where there is room for a redirect there is room for a module of its name. -/
theorem hiding_le_redirect (h : IsIdentifier name) (hn : n ∈ hidingNames name) (source : Path)
    (isDir : Bool) : .char '\x00' ∉ n ∧
      n.byteSize ≤ Name.byteSize (Glyph.ofString (artifactName source name .editable isDir)) := by
  have hredirect : artifactName source name .editable isDir = redirectStem ++ name ++ "." ++ "pth" := rfl
  have hchar : ∀ c, .char c ∈ Glyph.ofString name → c ≠ '\x00' := by
    rintro c hc rfl
    obtain ⟨c', hc', heq⟩ := List.mem_map.1 hc
    cases heq
    exact h.not_mem (by decide) (by decide) hc'
  have hsplit : ∀ a b : String, Glyph.ofString (a ++ b) = Glyph.ofString a ++ Glyph.ofString b := fun a b => by
    rw [Glyph.ofString, String.toList_append, List.map_append, Glyph.ofString, Glyph.ofString]
  rw [hredirect]
  unfold Name.byteSize
  simp only [hsplit, size_append]
  rcases List.mem_cons.1 hn with rfl | hn
  · exact ⟨fun hnul => hchar _ hnul rfl, by omega⟩
  · have hpy : Glyph.size (Glyph.ofString "py") ≤ Glyph.size (Glyph.ofString "pth") := by decide
    rw [List.mem_singleton.1 hn, show s!"{name}.{moduleExtension}" = name ++ "." ++ "py" from rfl]
    simp only [hsplit, size_append]
    refine ⟨fun hnul => ?_, by omega⟩
    rcases List.mem_append.1 hnul with hnul | hnul
    · rcases List.mem_append.1 hnul with hnul | hnul
      · exact hchar _ hnul rfl
      · exact absurd hnul (by decide)
    · exact absurd hnul (by decide)

end IsIdentifier

/-! ### What an install leaves beside its redirect -/

namespace Redirecting

variable (h : Redirecting plan loc (start.opened target) d)
  (hplan : Planned start target source .editable name? prior plan)
  (hr : (plan.clear d).2.rename plan.staging plan.dest = .ok d')
include h hplan hr

/-- The redirect names the directory of the source. -/
theorem look_artifact : ∃ parent, plan.source.parent? = some parent ∧
    d'.look (loc ++ [plan.artifactEntry]) = some (.file s!"{parent.display}\n".toUTF8 false) := by
  obtain ⟨parent, hparent, hfile⟩ := h.target
  have hmoved := h.moved hplan hr
  have hsame := hmoved.look_artifact []
  rw [List.append_nil, List.append_nil] at hsame
  refine ⟨parent, hparent, ?_⟩
  have hkept : (plan.clear d).2.look (loc ++ [plan.stagingEntry]) = d.look (loc ++ [plan.stagingEntry]) := by
    rcases plan.clear_cases d with hsame | ⟨old, place, -, -, hshrinks, -⟩
    · rw [hsame]
    · exact (hshrinks.look_of_ne_none hmoved.built).symm
  rw [hsame, hkept, hfile]

/-- Everything else is as it was, but what was at the path of the replaced artifact. -/
theorem look_elsewhere (hstaging : ¬ loc ++ [plan.stagingEntry] <+: l)
    (hartifact : ¬ loc ++ [plan.artifactEntry] <+: l)
    (hprior : ∀ old place, prior = some old →
      (start.opened target).goal old.artifact false = .ok (.present place) → ¬ place <+: l) :
    d'.look l = (start.opened target).look l := by
  obtain ⟨parent, -, hfile⟩ := h.target
  rw [(h.moved hplan hr).look_elsewhere hstaging hartifact, plan.look_clear, h.sameOff.look l hstaging]
  intro old place hold hgoal hpre
  by_cases hway : ∃ l' ∈ d.way old.artifact false, loc ++ [plan.stagingEntry] <+: l'
  · -- what is reached over the new redirect is the redirect itself
    obtain ⟨l', hl', hbelow⟩ := hway
    cases goal_of_file_on_way hgoal (prefix_of_way hl' hbelow) hfile
    exact hstaging hpre
  · push Not at hway
    refine hprior old place (hplan.prior_eq ▸ hold) ?_ hpre
    rw [← hgoal]
    exact goal_congr h.sameOff.cwd.symm fun l hl => (h.sameOff.look l (hway l hl)).symm

variable (hok : (plan.clear d).1 = .ok ())
  (hup : start.isDir target.hub = false → .up ∉ target.components)
  (hname : ∀ old, prior = some old → old.artifact.EndsInName)
include hok hup hname

/-- The names that must be free are free. -/
theorem freed (hn : n ∈ hidingNames plan.name) :
    d'.look (loc ++ [n]) = none := by
  have hmoved := h.moved hplan hr
  have hvalid := hplan.valid
  have hproper := hvalid.hiding_proper hn
  have hartifact : plan.artifactEntry = Glyph.ofString (artifactName plan.source plan.name .editable plan.isDir) := by
    rw [Plan.artifactEntry, hplan.mode_eq]
  have hredirect : Name.Proper plan.artifactEntry := artifactName_proper hvalid _ _ _
  have hne : n ≠ plan.artifactEntry := hartifact ▸ hvalid.hiding_ne_redirect hn _ _ _
  have hstaging := hvalid.hiding_ne_staging hn plan.name
  obtain ⟨hnul, hsize⟩ := hvalid.hiding_le_redirect hn plan.source plan.isDir
  rw [← hartifact] at hsize
  have hadmits : admit? (target.join (.ofName n)) = .ok () := by
    refine admit?_join_of_le hredirect hproper hnul hsize ?_
    rw [← hplan.dest_eq_join]
    exact hmoved.dest.admits
  have hother : ∀ m, m ≠ n → ¬ loc ++ [m] <+: loc ++ [n] := fun m hm hpre => by
    rw [List.prefix_append_right_inj, List.cons_prefix_cons] at hpre
    exact hm hpre.1
  rw [hmoved.look_elsewhere (hother _ hstaging.symm) (hother _ hne.symm)]
  exact h.toBuilt.freed hplan hup (hplan.prior_eq ▸ hname) (mem_candidates hn _ _) rfl hproper hstaging hadmits
    (fun hlong => hmoved.dest.short (by omega)) hok

/-- The package directory is where it was. -/
theorem enters_after : d'.Enters target.hub loc := by
  have hmoved := h.moved hplan hr
  obtain ⟨he, hway⟩ := h.cleared hplan hmoved.dest
  have hfree := h.toBuilt.freed hplan hup (hplan.prior_eq ▸ hname) hplan.dest_mem hplan.dest_eq_join
    (artifactName_proper hplan.valid _ _ _) hplan.artifactEntry_ne hmoved.dest.admits hmoved.dest.short hok
  rw [← hplan.target_eq]
  refine (he.congr hmoved.cwd fun l hl => hmoved.look_elsewhere (fun hpre => ?_) fun hpre => ?_).1
  · exact h.way l (hway ▸ hl) hpre
  · exact look_ne_none_above (he.look_ne_none hl) hpre hfree

end Redirecting

/-- What an editable install leaves in its package directory at `loc`. `d` is the disk on which that was
made, and `derived` the name by which the interpreter finds the source. -/
structure Redirected (prior : Option Entry) (e : Entry) (derived : String) (loc : Location)
    (d d' : Disk) : Prop where
  redirect : ∃ parent, e.source.parent? = some parent ∧
    d'.look (loc ++ [e.artifactEntry false]) = some (.file s!"{parent.display}\n".toUTF8 false)
  /-- Nothing hides the source if the entry has its name. -/
  own : ∀ n ∈ hidingNames e.name, d'.look (loc ++ [n]) = none
  /-- Otherwise what hides it stays as it is, unless it belongs to the replaced artifact. -/
  hidden : IsIdentifier derived → derived ≠ e.name → ∀ n ∈ hidingNames derived, ∀ rest,
    (∀ old place, prior = some old → d.goal old.artifact false = .ok (.present place) →
      ¬ place <+: loc ++ n :: rest) → d'.look (loc ++ n :: rest) = d.look (loc ++ n :: rest)

/-- An editable install that succeeds leaves a redirect to the directory of the source, and nothing in the
package directory that hides a module of the name of the entry. The source is found by the name derived from
it. That is the name of the entry if no name was given; otherwise what hides the source is still there. -/
theorem installInto_redirects (hproper : w.disk.Proper)
    (hup : w.disk.isDir target.hub = false → .up ∉ target.components)
    (hname : ∀ old, prior = some old → old.artifact.EndsInName)
    (hrun : (installInto target source .editable name? prior).run w = (.ok e, w')) :
    Describes w.disk target source .editable name? w.now e ∧
    ∃ loc derived, deriveName w.disk e.source = .ok derived ∧ (name? = none → derived = e.name) ∧
      (w.disk.opened target).Enters target.hub loc ∧ w'.disk.Enters target.hub loc ∧
      Redirected prior e derived loc (w.disk.opened target) w'.disk := by
  rcases installInto_cases target source .editable name? prior w with
    ⟨f, -, hfail⟩ | ⟨plan, hplanned, ⟨f, w₁, -, hfail⟩ | ⟨w₁, hbuild, hsettle⟩⟩
  · rw [hfail] at hrun
    cases hrun
  · rw [hfail] at hrun
    cases hrun
  have hplan := planned hplanned
  rw [hsettle] at hrun
  obtain ⟨-, ⟨f, hfail, -⟩ | ⟨hanswer, hok, hr⟩⟩ := settle_cases plan w₁
  · rw [hrun] at hfail
    cases hfail
  rw [hrun] at hanswer hr
  cases hanswer
  obtain ⟨loc, hredirect, hnow⟩ := redirecting hplan hproper hbuild
  rw [hplan.target_eq] at hredirect
  refine ⟨hnow ▸ hplan.describes w₁.now, loc, plan.derived, hplan.derived, fun hnone => ?_,
    hplan.target_eq ▸ hredirect.enters, hredirect.enters_after hplan hr hok hup hname, ?_, ?_, ?_⟩
  · have hnamed := hplan.named
    rw [hnone] at hnamed
    exact hnamed.symm
  · have hentry : (plan.entry w₁.now).artifactEntry false = plan.artifactEntry := by
      show Glyph.ofString (artifactName plan.source plan.name plan.mode false) = _
      rw [Plan.artifactEntry, hplan.mode_eq]
      rfl
    exact hentry ▸ hredirect.look_artifact hplan hr
  · exact fun n hn => hredirect.freed hplan hr hok hup hname hn
  · intro hderived hother n hn rest hprior
    have hapart : ∀ m, n ≠ m → ¬ loc ++ [m] <+: loc ++ n :: rest := fun m hm hpre => by
      rw [List.prefix_append_right_inj, List.cons_prefix_cons] at hpre
      exact hm hpre.1.symm
    refine hredirect.look_elsewhere hplan hr (hapart _ (hderived.hiding_ne_staging hn _))
      (hapart _ ?_) hprior
    rw [Plan.artifactEntry, hplan.mode_eq]
    exact hderived.hiding_ne_redirect hn _ _ _

/-- A module file that has the name of a source. -/
def hidingWorld : World := .holding
  [(Glyph.ofString "src", .dir [(Glyph.ofString "m.py", .file .empty false)]),
    (Glyph.ofString "site", .dir [(Glyph.ofString "m.py", .file .empty false)])]

def otherEntry : Entry := ⟨"other", .ofString "/src/m.py", .editable, .ofString "/site/nopkg_other.pth",
  sampleMoment⟩

def otherInstall : Work Failure Entry :=
  installInto (.ofString "/site") (.ofString "/src/m.py") .editable (some "other") none

/-- The source is installed under another name than its own. -/
theorem installInto_redirects_other : hidingWorld.disk.Proper ∧
    ∃ loc, Redirected none otherEntry "m" loc (hidingWorld.disk.opened (.ofString "/site"))
      (otherInstall.run hidingWorld).2.disk := by
  have hproper : hidingWorld.disk.Proper := proper_of_every (fun n hn => by cases hn) (by decide)
  have hrun : otherInstall.run hidingWorld = (.ok otherEntry, (otherInstall.run hidingWorld).2) :=
    Prod.ext (by cbv) rfl
  obtain ⟨-, loc, derived, hderived, -, -, -, hredirected⟩ := installInto_redirects hproper
    (fun hno => absurd hno (by cbv; decide)) (fun old hold => by cases hold) hrun
  have hm : deriveName hidingWorld.disk otherEntry.source = .ok "m" := by cbv
  cases hderived.symm.trans hm
  exact ⟨hproper, loc, hredirected⟩

/-- Under the name of the source the install is refused. Under another one it succeeds, although the
interpreter still finds the module of the package directory by the name of the source. -/
theorem installInto_hidden :
    ((installInto (.ofString "/site") (.ofString "/src/m.py") .editable none none).run hidingWorld).1 =
      .error (.conflict "m" (.ofString "/site/m.py")) ∧
    (otherInstall.run hidingWorld).1 = .ok otherEntry ∧
    deriveName hidingWorld.disk otherEntry.source = .ok "m" ∧
    (otherInstall.run hidingWorld).2.disk.occupied (.ofString "/site/m.py") = true := by
  refine ⟨by cbv, by cbv, by cbv, by cbv⟩

end Sideload
