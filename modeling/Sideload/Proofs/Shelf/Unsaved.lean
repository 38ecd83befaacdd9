import Sideload.Proofs.Shelf.Change
import Sideload.Proofs.Disk.Growth
import Sideload.Proofs.Shelf.Readable

/-!
Calls whose save fails. The files are worked on before the registry is saved, and nothing of that work is
undone when the save fails: a new artifact stays in its place, and what was removed is not brought back.
-/

namespace Sideload

open Disk

variable {shelf : Shelf} {c : Change} {w w₁ w₂ : World} {r : Registry} {f : Failure} {path : Path}
  {d d' : Disk}

/-- What a save that fails may do: it makes directories for the registry, and it writes the file that the
path of the draft leads to. -/
structure Unsaved (path : Path) (d d' : Disk) : Prop where
  cwd : d'.cwd = d.cwd
  look : ∀ l, d'.look l = d.look l ∨ (d.look l = none ∧ d'.look l = some .dir) ∨
    d.Writable l ∧ (∃ content x, d'.look l = some (.file content x)) ∧
      ∃ g, (Registry.hosted d path).goal (Registry.draftPath path) true = .ok g ∧ g.location = l

theorem unsaved_of_error (h : (r.save path).run w = (.error f, w₁)) :
    Unsaved path w.disk w₁.disk := by
  have hopens := Registry.opens_hosted w.disk path
  have hcases := (Registry.save_cases r path w).2
  rw [h] at hcases
  rcases hcases with ⟨-, -, hsame | hhosted⟩ | ⟨-, content, -, -, hw⟩ | ⟨content, d, hok, -⟩
  · dsimp only at hsame
    rw [hsame]
    exact ⟨rfl, fun l => .inl rfl⟩
  · dsimp only at hhosted
    rw [hhosted]
    exact ⟨hopens.cwd, fun l => (hopens.look l).imp_right .inl⟩
  · have hwrite : (Registry.hosted w.disk path).write (Registry.draftPath path) content.toUTF8 =
        .ok w₁.disk := hw
    obtain ⟨g, old, hgoal, hold, -, hsame, hlook⟩ := openFile_ok hwrite
    refine ⟨hsame.cwd.trans hopens.cwd, fun l => ?_⟩
    by_cases hl : l = g.location
    · subst hl
      have hbefore : w.disk.Writable g.location := by
        rcases hopens.look g.location with heq | ⟨hnone, -⟩
        · rw [Writable, ← heq, hold]
          cases old with
          | none => exact .inl rfl
          | some f => exact .inr ⟨f.1, f.2, rfl⟩
        · exact .inl hnone
      exact .inr (.inr ⟨hbefore, ⟨_, _, by rw [hlook, Function.update_self]⟩, g, hgoal, rfl⟩)
    · have heq : w₁.disk.look l = (Registry.hosted w.disk path).look l := by
        rw [hlook, Function.update_of_ne hl]
      rw [heq]
      exact (hopens.look l).imp_right .inl
  · cases hok

/-- A registry with an entry that has no line is not saved, and nothing is touched. -/
theorem run_save_of_fault {name : String} {fault : LineFault} (h : r.text = .error (name, fault))
    (path : Path) (w : World) :
    (r.save path).run w = (.error (.invalidEntry name (.field fault)), w) := by
  unfold Registry.save
  rw [h]
  rfl

/-- What is there stays there; at most the content of a file is another. -/
theorem Unsaved.shape (h : Unsaved path d d') {l : Location} (hl : d.look l ≠ none) :
    (d'.look l).map Label.shape = (d.look l).map Label.shape := by
  rcases h.look l with hsame | ⟨hnone, -⟩ | ⟨hwritable, ⟨content, x, hnew⟩, -⟩
  · rw [hsame]
  · exact absurd hnone hl
  · obtain ⟨content', x', hold⟩ := hwritable.resolve_left hl
    rw [hnew, hold]
    rfl

/-- A path that leads to something still does after a save that failed. -/
theorem Unsaved.occupied (h : Unsaved path d d') {p : Path} (hp : d.occupied p = true) :
    d'.occupied p = true := by
  obtain ⟨loc, hgoal, hlook⟩ := occupied_iff.1 hp
  have hshape : ∀ l ∈ d.way p false, (d'.look l).map Label.shape = (d.look l).map Label.shape :=
    fun l hl => h.shape (ne_none_of_way hgoal l hl)
  refine occupied_iff.2 ⟨loc, goal_of_shape hgoal h.cwd hshape, fun hnone => hlook ?_⟩
  have hloc := hshape loc (present_mem_way hgoal)
  rw [hnone] at hloc
  exact Option.map_eq_none_iff.1 hloc.symm

namespace Change

/-- The artifact that an install or an update has moved to its place before it saves. -/
theorem settled (hwork : (c.fileWork shelf).run w = (.ok r, w₁)) (hc : ∀ name, c ≠ .uninstall name) :
    ∃ (plan : Plan) (d : Disk) (now : Moment), r.get? plan.name = some (plan.entry now) ∧
      d.rename plan.staging plan.dest = .ok w₁.disk := by
  have hsettles : ∃ good, Settles w ((c.fileWork shelf).run w) good := by
    cases c with
    | install target source mode name? => exact ⟨_, install_settles shelf target source mode name? w⟩
    | update name => exact ⟨_, update_settles shelf name w⟩
    | uninstall name => exact absurd rfl (hc name)
  obtain ⟨good, hsettles⟩ := hsettles
  rw [hwork] at hsettles
  rcases hsettles with ⟨f, hf, -⟩ | ⟨r₀, plan, w₀, -, -, ⟨f, -, hf⟩ | ⟨w', -, -, ⟨f, hf, -⟩ |
    ⟨hr, -, hmove⟩⟩⟩
  · cases hf
  · cases hf
  · cases hf
  · cases hr
    exact ⟨plan, _, w'.now, Registry.get?_insert_self r₀ (plan.entry w'.now), hmove⟩

/-- A call whose save fails ends there. -/
theorem run_of_save_error (hwork : (c.fileWork shelf).run w = (.ok r, w₁))
    (hsave : (r.save shelf.registryPath).run w₁ = (.error f, w₂)) :
    (c.run shelf).run w = (.error f, w₂) := by
  rcases c.run_cases shelf w with ⟨f', hfail, -⟩ | ⟨r', w₁', hwork', hrest⟩
  · rw [hwork] at hfail
    cases hfail
  · rw [hwork] at hwork'
    cases hwork'
    rcases hrest with ⟨f', w₂', hsave', hrun⟩ | ⟨w₂', hsave', -⟩
    · rw [hsave] at hsave'
      cases hsave'
      exact hrun
    · rw [hsave] at hsave'
      cases hsave'

/-- A call whose save fails answers with that failure and undoes nothing. Compared with the disk as it was
before the save, only directories for the registry are new, and the file that the path of the draft leads
to may be written. So an artifact that was moved to its destination stays there; and no later install to
an occupied path is planned, unless its name has an entry with that path. -/
theorem undoes_nothing (shelf : Shelf) (c : Change) {w w₁ w₂ : World} {r : Registry} {f : Failure}
    (hwork : (c.fileWork shelf).run w = (.ok r, w₁))
    (hsave : (r.save shelf.registryPath).run w₁ = (.error f, w₂)) :
    (c.run shelf).run w = (.error f, w₂) ∧
      Unsaved shelf.registryPath w₁.disk w₂.disk ∧
      ((∀ name, c ≠ .uninstall name) → ∃ (plan : Plan) (d : Disk) (now : Moment) (parent : Location)
        (n : Name), r.get? plan.name = some (plan.entry now) ∧ d.Slot plan.dest parent n ∧
          d.rename plan.staging plan.dest = .ok w₁.disk ∧ w₂.disk.look (parent ++ [n]) ≠ none) ∧
      ∀ p, w₁.disk.occupied p = true → w₂.disk.occupied p = true ∧
        ∀ target source mode name? prior plan,
          planInstall w₂.disk target source mode name? prior = .ok plan → plan.dest = p →
            prior.any (·.artifact.sameAs p) = true := by
  have hunsaved := unsaved_of_error hsave
  refine ⟨run_of_save_error hwork hsave, hunsaved, fun hc => ?_, fun p hp =>
    ⟨hunsaved.occupied hp, ?_⟩⟩
  · obtain ⟨plan, d, now, hget, hmove⟩ := settled hwork hc
    obtain ⟨parent, n, parent', n', -, hdst, hthere, -, -, hmoved⟩ := rename_ok hmove
    have hdest : w₁.disk.look (parent' ++ [n']) ≠ none := by
      rcases hmoved with ⟨hsame, heq⟩ | ⟨-, -, -, hlook⟩
      · rw [heq, ← hsame]
        exact hthere
      · rw [hlook, moved, if_pos (List.prefix_refl _), List.drop_length, List.append_nil]
        exact hthere
    refine ⟨plan, d, now, parent', n', hget, hdst, hmove, fun hnone => hdest ?_⟩
    have hshape := hunsaved.shape hdest
    rw [hnone] at hshape
    exact Option.map_eq_none_iff.1 hshape.symm
  · rintro target source mode name? prior plan hplan rfl
    exact (planned hplan).recorded (planned hplan).dest_mem (hunsaved.occupied hp)

/-- A source whose path has no place in a registry line, and an empty package directory. -/
def barredWorld : World := .holding
  [(Glyph.ofString "a|b", .dir [(Glyph.ofString "m.py", .file .empty false)]),
    (Glyph.ofString "site", .dir [])]

def barredInstall : Change := .install (.ofString "/site") (.ofString "/a|b/m.py") .copy none

def barredEntry : Entry :=
  ⟨"m", .ofString "/a|b/m.py", .copy, .ofString "/site/m.py", sampleMoment⟩

theorem barredInstall_works : (barredInstall.fileWork Shelf.sampleShelf).run barredWorld =
    (.ok (Registry.empty.insert barredEntry),
      ((barredInstall.fileWork Shelf.sampleShelf).run barredWorld).2) :=
  Prod.ext (by cbv) rfl

theorem text_barred : (Registry.empty.insert barredEntry).text =
    .error ("m", .breaksLine "/a|b/m.py") := by
  have hsource : pathField barredEntry.source = .error (.breaksLine "/a|b/m.py") := by decide
  have hline : barredEntry.toLine = .error (.breaksLine "/a|b/m.py") := by
    unfold Entry.toLine Entry.fields
    rw [hsource]
    rfl
  have hentries : (Registry.empty.insert barredEntry).entries = [barredEntry] := rfl
  unfold Registry.text
  rw [hentries, Registry.writeLines, hline]
  rfl

/-- The install cannot be saved. Its artifact is found all the same, and no other install to that path is
planned until it is removed by hand. -/
theorem undoes_nothing_barred :
    ((barredInstall.run Shelf.sampleShelf).run barredWorld).1 =
      .error (.invalidEntry "m" (.field (.breaksLine "/a|b/m.py"))) ∧
    ∀ target source mode name? plan,
      planInstall ((barredInstall.run Shelf.sampleShelf).run barredWorld).2.disk target source mode name?
        none = .ok plan → plan.dest ≠ .ofString "/site/m.py" := by
  obtain ⟨hrun, -, -, hstays⟩ := undoes_nothing Shelf.sampleShelf barredInstall barredInstall_works
    (run_save_of_fault text_barred _ _)
  rw [hrun]
  refine ⟨rfl, fun target source mode name? plan hplan hdest => ?_⟩
  have htaken := (hstays _ (by cbv)).2 target source mode name? none plan hplan hdest
  cases htaken

/-- The package directory is not as it was before the call. -/
theorem left_behind :
    ((barredInstall.run Shelf.sampleShelf).run barredWorld).1 =
      .error (.invalidEntry "m" (.field (.breaksLine "/a|b/m.py"))) ∧
    barredWorld.disk.occupied (.ofString "/site/m.py") = false ∧
    ((barredInstall.run Shelf.sampleShelf).run barredWorld).2.disk.occupied (.ofString "/site/m.py") =
      true := by
  rw [run_of_save_error barredInstall_works (run_save_of_fault text_barred _ _)]
  exact ⟨rfl, by cbv, by cbv⟩

end Change

end Sideload
