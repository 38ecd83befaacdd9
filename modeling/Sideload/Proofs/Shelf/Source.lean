import Sideload.Proofs.Disk.Canonical
import Sideload.Proofs.Shelf.Managed
import Sideload.Proofs.Shelf.Rewrite

/-!
The source of an install or an update. What is at or below it is left alone, as everything that a call does
not manage; and if the place of the source is not managed either, then the path that is recorded leads
there afterwards.
-/

namespace Sideload

open Disk

variable {shelf : Shelf} {c : Change} {w w' : World} {r : Registry} {plan : Plan} {s l : Location}
  {d : Disk} {e : Entry}

/-- A source whose path is canonical already is resolved to itself. -/
theorem resolveSource_pathOf {label : Label} (hs : s.Proper) (hname : Nameable s)
    (hroot : d.look [] = some .dir) (hthere : d.look s = some label)
    (hlink : ∀ target, label ≠ .link target) : resolveSource d (pathOf s) = .ok (pathOf s) :=
  resolveSource_eq_ok_iff.2 ⟨s, goal_pathOf hs hname hroot hthere hlink, rfl⟩

namespace Change

/-- Where the path of the source of an install leads, or the recorded source of an update. -/
inductive SourceAt (shelf : Shelf) (d : Disk) (s : Location) : Change → Prop
  | install {target source : Path} {mode : Mode} {name? : Option String}
      (hgoal : d.goal source true = .ok (.present s)) :
      SourceAt shelf d s (.install target source mode name?)
  | update {name : String} {r : Registry} {e : Entry}
      (hread : Registry.read d shelf.registryPath = .ok r) (hget : r.get? name = some e)
      (hgoal : d.goal e.source true = .ok (.present s)) : SourceAt shelf d s (.update name)

/-- The entry that a call answers with if it has placed an artifact. -/
def placed? : (c : Change) → c.Answer → Option Entry
  | install .., e => some e
  | update _, e => some e
  | uninstall _, _ => none

/-- Some path leads to the place of a source, and links are followed on the way. -/
theorem SourceAt.goal (hs : c.SourceAt shelf d s) : ∃ p, d.goal p true = .ok (.present s) := by
  obtain hgoal | ⟨-, -, hgoal⟩ := hs <;> exact ⟨_, hgoal⟩

/-- An install or an update that succeeds records the canonical path of its source. -/
theorem source_of_ok {a : c.Answer} (hs : c.SourceAt shelf w.disk s)
    (hcanonical : resolveSource w.disk (pathOf s) = .ok (pathOf s))
    (hrun : (c.run shelf).run w = (.ok a, w')) (he : c.placed? a = some e) :
    e.source = pathOf s := by
  cases c with
  | install target source mode name? =>
      cases he
      obtain ⟨hgoal⟩ | _ := hs
      obtain ⟨⟨r, plan⟩, w₀, hplanned, -, hrun⟩ := (shelf.install_reads _ _ _ _).of_run hrun
      obtain ⟨u, w₁, -, hcommit⟩ := run_bind_ok hrun
      obtain ⟨-, real, name, hsource, -, hplan⟩ := Shelf.plannedInstall_eq_ok hplanned
      have hreal : resolveSource w.disk source = .ok (pathOf s) :=
        resolveSource_eq_ok_iff.2 ⟨s, hgoal, rfl⟩
      obtain rfl := Except.ok.inj (hsource.symm.trans hreal)
      rw [(Shelf.commit_ok hcommit).1]
      exact Except.ok.inj ((planned hplan).resolved.symm.trans hcanonical)
  | update name =>
      cases he
      obtain _ | ⟨hread, hget, hgoal⟩ := hs
      obtain ⟨⟨r, plan⟩, w₀, hplanned, -, hrun⟩ := (shelf.update_reads name).of_run hrun
      obtain ⟨u, w₁, -, hrun⟩ := run_bind_ok hrun
      obtain ⟨e, w₂, hcommit, hrun⟩ := run_bind_ok hrun
      cases hrun
      obtain ⟨hread', current, target, hget', -, hplan⟩ := Shelf.plannedUpdate_eq_ok hplanned
      cases hread.symm.trans hread'
      cases hget.symm.trans hget'
      rw [(Shelf.commit_ok hcommit).1]
      exact Except.ok.inj ((planned hplan).resolved.symm.trans
        (resolveSource_eq_ok_iff.2 ⟨s, hgoal, rfl⟩))
  | uninstall name => cases he

/-- Installing does not damage the source. Whether an install or an update succeeds or fails, everything at
or below the source is as it was, but for what the call manages. And if it succeeds and the place of the
source is not managed, then the path that is recorded is found and leads to the source as it did. -/
theorem keeps_source (shelf : Shelf) (c : Change) (w : World) (s : Location) (hc : c.Guarded shelf w)
    (hs : c.SourceAt shelf w.disk s) :
    (∀ l label, s <+: l → w.disk.look l = some label → ¬ c.Manages shelf w l →
      ((c.run shelf).run w).2.disk.look l = some label) ∧
    ∀ a w' e, (c.run shelf).run w = (.ok a, w') → c.placed? a = some e → Nameable s →
      ¬ c.Manages shelf w s → e.source = pathOf s ∧ resolveSource w'.disk e.source = .ok e.source := by
  have hkept : ∀ l label, w.disk.look l = some label → ¬ c.Manages shelf w l →
      ((c.run shelf).run w).2.disk.look l = some label := by
    intro l label hl hother
    rw [run_leaves hc (hl ▸ Option.some_ne_none label) hother, hl]
  refine ⟨fun l label _ => hkept l label, fun a w' e hrun he hname hother => ?_⟩
  obtain ⟨p, hgoal⟩ := hs.goal
  obtain ⟨-, hbegins, -⟩ := goal_eq_ok_iff.1 hgoal
  have hroot : w.disk.look [] = some .dir := look_eq_dir_above hbegins List.nil_prefix
  have hthere : w.disk.look s ≠ none := ne_none_of_way hgoal s (present_mem_way hgoal)
  have hproper := hc.proper.look s hthere
  obtain ⟨label, hlabel⟩ := Option.ne_none_iff_exists'.1 hthere
  have hlink : ∀ target, label ≠ .link target := fun target heq =>
    ne_link_of_goal hgoal target (heq ▸ hlabel)
  have hsource : e.source = pathOf s :=
    source_of_ok hs (resolveSource_pathOf hproper hname hroot hlabel hlink) hrun he
  have hafter := hkept s label hlabel hother
  rw [hrun] at hafter
  -- what is above the source is a directory, and it cannot be the root alone that has gone
  have hroot' : w'.disk.look [] = some .dir := by
    by_cases hnil : s = []
    · subst hnil
      rw [← hroot, hlabel]
      exact hafter
    · exact Node.look_eq_dir_of_append hnil (by
        show w'.disk.look s ≠ none
        rw [hafter]
        exact Option.some_ne_none label)
  rw [hsource]
  exact ⟨rfl, resolveSource_pathOf hproper hname hroot' hafter hlink⟩

/-- The module of an install under another name is kept, and is found again. -/
theorem keeps_source_foreignWorld :
    resolveSource (((installAs "/site" "other").run Shelf.sampleShelf).run foreignWorld).2.disk
      (.ofString "/m.py") = .ok (.ofString "/m.py") := by
  have hgoal : foreignWorld.disk.goal (.ofString "/m.py") true =
      .ok (.present [Glyph.ofString "m.py"]) := by cbv
  have hok : (((installAs "/site" "other").run Shelf.sampleShelf).run foreignWorld).1 =
      .ok (⟨"other", .ofString "/m.py", .copy, .ofString "/site/other.py", sampleMoment⟩ : Entry) := by cbv
  have hresolved := (keeps_source Shelf.sampleShelf (installAs "/site" "other") foreignWorld
    [Glyph.ofString "m.py"] guarded_foreignWorld (.install hgoal)).2 _ _ _ (Prod.ext hok rfl) rfl
    ⟨by decide, by decide⟩ (unmanaged_other (by decide) (by decide))
  exact hresolved.2

/-! ### The source is what was installed -/

def copiedLine : String := "m|/m.py|copy|/site/m.py|2024-05-06T00:00:00Z"

/-- A module that was copied into the package directory. -/
def copiedWorld : World := .holding
  [(Glyph.ofString "home", .dir [(Glyph.ofString "registry.txt",
      .file (copiedLine ++ "\n").toUTF8 false)]),
    (Glyph.ofString "site", .dir [(Glyph.ofString "m.py", .file "x".toUTF8 false)])]

/-- The copy itself is installed, for editing. -/
def editCopy : Change := .install (.ofString "/site") (.ofString "/site/m.py") .editable none

def filedEntry : Entry := ⟨"m", .ofString "/m.py", .copy, .ofString "/site/m.py", sampleMoment⟩

def editPlan : Plan :=
  ⟨"m", "m", .ofString "/site/m.py", false, .editable, .ofString "/site", .ofString "/site/nopkg_m.pth",
    some filedEntry⟩

theorem read_copiedWorld :
    Registry.read copiedWorld.disk Registry.samplePath = .ok (.ofList [filedEntry]) := by
  have hsee : copiedWorld.disk.see Registry.samplePath true =
      .ok (.file (copiedLine ++ "\n").toUTF8 false) := by cbv
  exact Registry.read_of_line hsee (show _ = [copiedLine] by cbv)
    (Entry.ofLine_of_fields "m" "/m.py" "copy" "/site/m.py" "2024-05-06T00:00:00Z"
      (by decide) (by decide) (by decide) (by decide) (by decide) (by cbv))

theorem planned_editCopy : Shelf.sampleShelf.plannedInstall (.ofString "/site") (.ofString "/site/m.py")
    .editable none copiedWorld.disk = .ok (.ofList [filedEntry], editPlan) :=
  Shelf.plannedInstall_of_read read_copiedWorld (show resolveSource _ _ = .ok (.ofString "/site/m.py") by cbv)
    (show Shelf.nameOf _ _ _ = .ok "m" by cbv) (by cbv)

/-- The copy is the artifact that is recorded so far, so it is taken away, and there is nothing left to
edit. -/
theorem loses_source :
    editCopy.SourceAt Shelf.sampleShelf copiedWorld.disk [Glyph.ofString "site", Glyph.ofString "m.py"] ∧
    copiedWorld.disk.look [Glyph.ofString "site", Glyph.ofString "m.py"] =
      some (.file "x".toUTF8 false) ∧
    ((editCopy.run Shelf.sampleShelf).run copiedWorld).1 =
      .ok (⟨"m", .ofString "/site/m.py", .editable, .ofString "/site/nopkg_m.pth", sampleMoment⟩ :
        Entry) ∧
    ((editCopy.run Shelf.sampleShelf).run copiedWorld).2.disk.look
      [Glyph.ofString "site", Glyph.ofString "m.py"] = none := by
  obtain ⟨log, hrun⟩ := (Shelf.sampleShelf.install_reads _ _ _ _).run_of_ok planned_editCopy
  have hedit : (editCopy.run Shelf.sampleShelf).run copiedWorld = _ := hrun
  rw [hedit]
  exact ⟨.install (by cbv), by cbv, by cbv, by cbv⟩

end Change

end Sideload
