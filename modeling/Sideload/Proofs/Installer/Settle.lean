import Sideload.Proofs.Installer.Build
import Sideload.Proofs.Installer.Run

/-!
Settling in a package directory. The old artifact goes as far as it can be removed; then what was built
is moved, with everything below it, from the staging entry to the entry of the artifact.
-/

namespace Sideload

open Disk

variable {plan : Plan} {loc : Location} {base d d' : Disk}

/-! ### The two names -/

/-- An artifact never has a name that one is built under: that begins with a dot. -/
theorem artifactName_ne_stagingName {name : String} (h : IsIdentifier name) (source : Path)
    (mode : Mode) (isDir : Bool) (other : String) :
    artifactName source name mode isDir ≠ stagingName other := by
  intro heq
  have hhead := congrArg (fun s : String => s.toList.head?) heq
  have hstaging : (stagingName other).toList.head? = some '.' := by
    show ("." ++ redirectStem ++ other ++ ".partial").toList.head? = _
    simp
  obtain ⟨first, rest, hname⟩ := List.exists_cons_of_ne_nil h.ne_nil
  have hdot : first ≠ '.' := by
    intro hfirst
    have hmem : '.' ∈ name.toList := by simp [hname, hfirst]
    exact h.not_mem (by decide) (by decide) hmem
  rw [hstaging] at hhead
  match mode, isDir with
  | .editable, _ =>
      change (redirectStem ++ name ++ "." ++ redirectExtension).toList.head? = _ at hhead
      simp [redirectStem] at hhead
  | .copy, true =>
      change name.toList.head? = _ at hhead
      rw [hname] at hhead
      exact hdot (Option.some_inj.1 hhead)
  | .copy, false =>
      change (name ++ "." ++ _).toList.head? = _ at hhead
      rw [String.toList_append, String.toList_append, hname] at hhead
      exact hdot (Option.some_inj.1 hhead)

namespace Plan

/-- The name of the artifact. -/
def artifactEntry (plan : Plan) : Name :=
  Glyph.ofString (artifactName plan.source plan.name plan.mode plan.isDir)

end Plan

namespace Planned

variable {target source : Path} {mode : Mode} {name? : Option String} {prior : Option Entry}

theorem dest_eq_join (h : Planned d target source mode name? prior plan) :
    plan.dest = target.join (.ofName plan.artifactEntry) := by
  rw [h.dest_eq, destination_eq, Path.child_eq, Plan.artifactEntry, h.mode_eq]

theorem adds_dest (h : Planned d target source mode name? prior plan) :
    plan.dest.Adds plan.target.hub plan.artifactEntry := by
  rw [h.dest_eq_join, h.target_eq]
  exact target.adds_hub (artifactName_proper h.valid _ _ _)

theorem artifactEntry_ne (h : Planned d target source mode name? prior plan) :
    plan.artifactEntry ≠ plan.stagingEntry := fun heq =>
  artifactName_ne_stagingName h.valid _ _ _ _ (Glyph.ofString_inj.1 heq)

end Planned

/-! ### The place of the artifact -/

/-- When the package directory is made, a name that must be free is free in it, unless it is the recorded
artifact that is there. -/
theorem Planned.free_or_recorded {start : Disk} {target source q : Path} {mode : Mode} {n : Name}
    {name? : Option String} {prior : Option Entry}
    (h : Planned start target source mode name? prior plan)
    (hq : q ∈ candidates target plan.dest plan.name mode) (hadds : q.Adds target.hub n)
    (hup : start.isDir target.hub = false → .up ∉ target.components)
    (he : (start.opened target).Enters target.hub loc) (hadmits : admit? q = .ok ())
    (hshort : ¬ n.byteSize > maxName) :
    (start.opened target).look (loc ++ [n]) = none ∨ prior.any (·.artifact.sameAs q) = true := by
  by_cases hdir : start.isDir target.hub = true
  · -- the directory was there already, so the plan has looked at the place
    obtain ⟨loc', he'⟩ := isDir_iff.1 hdir
    obtain rfl := he.unique ((opens_opened start target).enters he').1
    have hsame : (start.opened target).look = start.look := by
      cases hempty : target.isEmpty with
      | true =>
          rw [opened_of_isEmpty hempty]
      | false =>
          rw [target.hub_of_ne hempty] at he'
          exact look_opened he' (List.prefix_refl _)
    rw [hsame]
    by_cases hfree : start.look (loc' ++ [n]) = none
    · exact .inl hfree
    · refine .inr (h.recorded hq (occupied_iff.2 ⟨loc' ++ [n], ?_, hfree⟩))
      rw [(he'.slot hadds.route hadmits hadds.last hshort).1.goal hadds.slash (.inl rfl), if_neg hfree]
  · left
    cases hempty : target.isEmpty with
    | true =>
        rw [opened_of_isEmpty hempty] at he
        exact absurd (isDir_iff.2 ⟨loc, he⟩) hdir
    | false =>
        rw [target.hub_of_ne hempty] at he hdir
        have hnot := Bool.eq_false_iff.2 hdir
        rw [target.hub_of_ne hempty] at hup
        exact look_fresh (hup hnot) hnot he (List.prefix_append _ _) (by simp)

/-! ### The old artifact -/

namespace Plan

/-- Taking the old artifact away removes at most what is at or below the place where its path leads. -/
theorem clear_cases (plan : Plan) (d : Disk) : (plan.clear d).2 = d ∨
    ∃ old place, plan.prior = some old ∧ d.goal old.artifact false = .ok (.present place) ∧
      Shrinks place d (plan.clear d).2 ∧
      ((plan.clear d).1 = .ok () → Gone place (plan.clear d).2) := by
  unfold clear
  cases hprior : plan.prior with
  | none => exact .inl rfl
  | some old =>
      dsimp only
      rcases DiskM.removeArtifact_cases old.artifact d with ⟨place, hgoal⟩ | ⟨e, -, hrun⟩
      · obtain ⟨hshrinks, hfound, hgone⟩ := DiskM.removeArtifact_spec hgoal
        refine .inr ⟨old, place, rfl, hgoal, hshrinks, fun hok => hgone ?_⟩
        generalize ((DiskM.removeArtifact old.artifact).run d).1 = answer at hfound hok
        match answer with
        | .error e => cases hok
        | .ok true => rfl
        | .ok false => exact absurd rfl hfound
      · rw [hrun]
        exact .inl rfl

theorem cwd_clear (plan : Plan) (d : Disk) : (plan.clear d).2.cwd = d.cwd := by
  rcases plan.clear_cases d with hsame | ⟨old, place, -, -, hshrinks, -⟩
  · rw [hsame]
  · exact hshrinks.cwd

/-- An entry that is still found was found the same way before. -/
theorem slot_of_clear (plan : Plan) {p : Path} {parent : Location} {n : Name}
    (hs : (plan.clear d).2.Slot p parent n) :
    d.Slot p parent n ∧ d.approach p = (plan.clear d).2.approach p := by
  rcases plan.clear_cases d with hsame | ⟨old, place, -, -, hshrinks, -⟩
  · rw [hsame] at hs ⊢
    exact ⟨hs, rfl⟩
  · exact hshrinks.slot hs

/-- Once the old artifact is taken away, its path leads to nothing. -/
theorem absent_of_clear {old : Entry} (hprior : plan.prior = some old)
    (hok : (plan.clear d).1 = .ok ()) (place : Location) :
    (plan.clear d).2.goal old.artifact false ≠ .ok (.present place) := by
  intro hgoal
  have hthere := ne_none_of_way hgoal place (present_mem_way hgoal)
  unfold clear at hok hgoal hthere
  rw [hprior] at hok hgoal hthere
  dsimp only at hok hgoal hthere
  rcases DiskM.removeArtifact_cases old.artifact d with ⟨top, hfound⟩ | ⟨e, hsee, hrun⟩
  · obtain ⟨hshrinks, hnot, hgone⟩ := DiskM.removeArtifact_spec hfound
    -- what is found afterwards was found before, so it is the artifact; but that is gone
    obtain rfl : place = top := by
      have hsame := (hshrinks.goal hgoal).symm.trans hfound
      cases hsame
      rfl
    refine hthere (hgone ?_ place (List.prefix_refl place))
    generalize ((DiskM.removeArtifact old.artifact).run d).1 = answer at hnot hok
    match answer with
    | .error e => cases hok
    | .ok true => rfl
    | .ok false => exact absurd rfl hnot
  · rw [hrun] at hgoal hthere
    rw [see, hgoal] at hsee
    obtain ⟨label, hlabel⟩ := Option.ne_none_iff_exists'.1 hthere
    dsimp only [Goal.location_present] at hsee
    rw [hlabel] at hsee
    cases hsee

end Plan

/-- The path ends in a name; no slash and no dot comes after it. -/
def Path.EndsInName (p : Path) : Prop :=
  p.endsInSlash = false ∧ ∃ n, p.segments.getLast? = some (.name n)

/-- A recorded path that could be cleared leads to the entry that another spelling of it names. -/
theorem Plan.goal_of_clear {old : Entry} {target q : Path} {m : Name} (hprior : plan.prior = some old)
    (hok : (plan.clear d).1 = .ok ()) (hname : old.artifact.EndsInName)
    (hq : q = target.join (.ofName m)) (hsame : old.artifact.sameAs q = true) (hslot : d.Slot q loc m)
    (hthere : d.look (loc ++ [m]) ≠ none) :
    d.goal old.artifact false = .ok (.present (loc ++ [m])) := by
  subst hq
  have hm := hslot.proper
  have hcomponents : old.artifact.components = target.components ++ [.name m] :=
    (Path.sameAs_iff.1 hsame).trans (target.components_join hm)
  obtain ⟨hslash, k, hlast⟩ := hname
  obtain rfl : k = m := by
    have hcourse := Path.last_course hlast
    rw [Path.course_concat hcomponents, List.getLast?_concat] at hcourse
    cases hcourse
    rfl
  cases hadmits : admit? old.artifact with
  | ok u =>
      obtain ⟨hold, -⟩ := hslot.sibling (target.components_join hm) hcomponents hadmits hlast hslot.short
      have hgoal := hold.goal hslash (.inl rfl)
      rwa [if_neg hthere] at hgoal
  | error e =>
      -- such a path is refused, so nothing would have been cleared
      have hsee : d.see old.artifact false = .error e := by
        rw [see, Disk.goal, hadmits]
      have hmissing : e.isMissing = false := by
        unfold admit? at hadmits
        split at hadmits
        · cases hadmits
          rfl
        · split at hadmits
          · next hempty =>
              rw [Path.segments, List.isEmpty_iff.1 hempty] at hlast
              cases hlast
          · split at hadmits
            · cases hadmits
              decide
            · cases hadmits
      unfold Plan.clear at hok
      rw [hprior] at hok
      simp only [DiskM.removeArtifact_of_error hsee, hmissing] at hok
      cases hok

/-! ### The new artifact -/

/-- The artifact of a plan was built in its package directory at `loc`. Since the directory was made
nothing changed but the staging entry, and the way to the directory does not lead over that entry. -/
structure Built (plan : Plan) (loc : Location) (base d : Disk) : Prop where
  enters : base.Enters plan.target.hub loc
  way : ∀ l ∈ base.way plan.target.hub true, ¬ loc ++ [plan.stagingEntry] <+: l
  sameOff : SameOff (loc ++ [plan.stagingEntry]) base d

/-- What a successful settling did to the disk that the old artifact was taken from: the staging entry
became the entry of the artifact. -/
structure Moved (plan : Plan) (loc : Location) (d d' : Disk) : Prop where
  staging : d.Slot plan.staging loc plan.stagingEntry
  dest : d.Slot plan.dest loc plan.artifactEntry
  built : d.look (loc ++ [plan.stagingEntry]) ≠ none
  cwd : d'.cwd = d.cwd
  look : d'.look = moved d.look (loc ++ [plan.stagingEntry]) (loc ++ [plan.artifactEntry])
  replaced : d.look (loc ++ [plan.stagingEntry]) ≠ some .dir →
    d.look (loc ++ [plan.artifactEntry]) ≠ some .dir

namespace Built

theorem now (h : Built plan loc base d) :
    d.Enters plan.target.hub loc ∧ d.way plan.target.hub true = base.way plan.target.hub true :=
  h.enters.sameOff h.sameOff h.way

/-- A replaced artifact that is not reached over the staging entry is where it was before the build. -/
theorem goal_prior (h : Built plan loc base d) {old : Entry}
    (hway : ∀ l ∈ base.way old.artifact false, ¬ loc ++ [plan.stagingEntry] <+: l) :
    d.goal old.artifact false = base.goal old.artifact false :=
  goal_congr h.sameOff.cwd fun l hl => h.sameOff.look l (hway l hl)

theorem moved {target source : Path} {mode : Mode} {name? : Option String} {prior : Option Entry}
    {start : Disk} (h : Built plan loc base d) (hplan : Planned start target source mode name? prior plan)
    (hr : (plan.clear d).2.rename plan.staging plan.dest = .ok d') :
    Moved plan loc (plan.clear d).2 d' := by
  obtain ⟨parent, n, parent', n', hsrc, hdst, hthere, hcwd, -, hmoved⟩ := rename_ok hr
  obtain ⟨rfl, rfl, -⟩ := h.now.1.slot_adds (plan.adds_staging hplan.valid)
    (plan.slot_of_clear hsrc).1
  obtain ⟨rfl, rfl, -⟩ := h.now.1.slot_adds hplan.adds_dest (plan.slot_of_clear hdst).1
  rcases hmoved with ⟨hsame, -⟩ | ⟨-, -, hreplaced, hlook⟩
  · have hname := List.append_cancel_left hsame
    rw [List.cons.injEq] at hname
    exact absurd hname.1.symm hplan.artifactEntry_ne
  · exact ⟨hsrc, hdst, hthere, hcwd, hlook, hreplaced⟩

/-- Where the artifact can still be moved to its place, the package directory is where it was. -/
theorem cleared {target source : Path} {mode : Mode} {name? : Option String} {prior : Option Entry}
    {start : Disk} (h : Built plan loc base d) (hplan : Planned start target source mode name? prior plan)
    {parent : Location} {n : Name} (hs : (plan.clear d).2.Slot plan.dest parent n) :
    (plan.clear d).2.Enters plan.target.hub loc ∧
      (plan.clear d).2.way plan.target.hub true = base.way plan.target.hub true := by
  obtain ⟨hslot, happroach⟩ := plan.slot_of_clear hs
  obtain ⟨-, -, hway⟩ := h.now.1.slot_adds hplan.adds_dest hslot
  rcases plan.clear_cases d with hsame | ⟨old, place, -, -, hshrinks, -⟩
  · rw [hsame]
    exact h.now
  · rw [← h.now.2]
    refine h.now.1.congr hshrinks.cwd fun l hl => ?_
    rw [← hway, happroach] at hl
    exact (hshrinks.look_of_ne_none (hs.look_ne_none hl)).symm

/-- Once the replaced artifact is taken away, a name that must be free is free. -/
theorem freed {target source q : Path} {mode : Mode} {name? : Option String} {prior : Option Entry}
    {start : Disk} {m : Name} (h : Built plan loc (start.opened target) d)
    (hplan : Planned start target source mode name? prior plan)
    (hup : start.isDir target.hub = false → .up ∉ target.components)
    (hname : ∀ old, plan.prior = some old → old.artifact.EndsInName)
    (hmem : q ∈ candidates target plan.dest plan.name mode) (hq : q = target.join (.ofName m))
    (hm : m.Proper) (hne : m ≠ plan.stagingEntry) (hadmits : admit? q = .ok ())
    (hshort : ¬ m.byteSize > maxName) (hok : (plan.clear d).1 = .ok ()) :
    (plan.clear d).2.look (loc ++ [m]) = none := by
  have hadds : q.Adds target.hub m := hq ▸ target.adds_hub hm
  have hnot : ¬ loc ++ [plan.stagingEntry] <+: loc ++ [m] := by
    rw [List.prefix_append_right_inj, List.cons_prefix_cons]
    exact fun heq => hne heq.1.symm
  have henters := h.enters
  have hnow := h.now.1
  rw [hplan.target_eq] at henters hnow
  by_contra hthere
  have hbefore : d.look (loc ++ [m]) ≠ none := by
    rcases plan.clear_cases d with hsame | ⟨old, place, -, -, hshrinks, -⟩
    · rwa [hsame] at hthere
    · rwa [hshrinks.look_of_ne_none hthere]
  rcases hplan.free_or_recorded hmem hadds hup henters hadmits hshort with hfree | hrecorded
  · exact hbefore ((h.sameOff.look _ hnot).trans hfree)
  · rw [← hplan.prior_eq, Option.any_eq_true] at hrecorded
    obtain ⟨old, hold, hsame⟩ := hrecorded
    have hgoal := plan.goal_of_clear hold hok (hname old hold) hq hsame
      (hnow.slot hadds.route hadmits hadds.last hshort).1 hbefore
    rcases plan.clear_cases d with hkept | ⟨old', place, hold', hgoal', -, hgone⟩
    · exact plan.absent_of_clear hold hok _ (hkept.symm ▸ hgoal)
    · cases hold.symm.trans hold'
      cases hgoal.symm.trans hgoal'
      exact hthere (hgone hok _ (List.prefix_refl _))

end Built

namespace Moved

/-- What is neither at or below the staging entry nor at or below the artifact is left alone. -/
theorem look_elsewhere (h : Moved plan loc d d') {l : Location}
    (hstaging : ¬ loc ++ [plan.stagingEntry] <+: l) (hdest : ¬ loc ++ [plan.artifactEntry] <+: l) :
    d'.look l = d.look l := by
  rw [h.look, Disk.moved, if_neg hdest, if_neg hstaging]

/-- The artifact is what was built. -/
theorem look_artifact (h : Moved plan loc d d') (rest : Location) :
    d'.look (loc ++ [plan.artifactEntry] ++ rest) = d.look (loc ++ [plan.stagingEntry] ++ rest) := by
  rw [h.look, Disk.moved, if_pos (List.prefix_append _ rest), List.drop_left]

theorem gone_staging (h : Moved plan loc d d') (hne : plan.artifactEntry ≠ plan.stagingEntry) :
    Gone (loc ++ [plan.stagingEntry]) d' := by
  intro l hl
  have hother : ¬ loc ++ [plan.artifactEntry] <+: l := by
    intro hart
    obtain ⟨rest, rfl⟩ := hl
    rw [List.append_assoc, List.prefix_append_right_inj] at hart
    exact hne (List.cons_prefix_cons.1 hart).1
  rw [h.look, Disk.moved, if_neg hother, if_pos hl]

end Moved

end Sideload
