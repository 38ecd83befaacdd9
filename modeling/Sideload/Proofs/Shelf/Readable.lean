import Sideload.Proofs.Shelf.Run

/-!
Whether a registry can be read after an install. The writer takes any path, the reader wants absolute
ones: an install into a relative package directory succeeds, and the registry is lost.
-/

namespace Sideload

open Registry

variable {w w' : World} {r r' : Registry} {e : Entry}

/-- The registry comes back from its own text. -/
def Registry.ComesBack (r : Registry) : Prop := ∃ s, r.text = .ok s ∧ ofText s = .ok r

theorem Registry.ComesBack.readable (h : r.ComesBack) : ∀ e ∈ r.entries, e.Readable := by
  obtain ⟨s, htext, hback⟩ := h
  exact (ofText_text_iff htext).1 hback

/-- Entries of which only the time and the path of the artifact are in doubt. -/
structure Entry.Sourced (e : Entry) : Prop where
  valid : IsIdentifier e.name
  absolute : e.source.isAbsolute = true

/-- Entries that can be read back, once they have a name and a source. -/
def Entry.Lasting (e : Entry) : Prop :=
  e.artifact.isAbsolute = true ∧ 0 ≤ e.installedAt.date.year ∧ e.installedAt.date.year ≤ 9999

theorem Entry.Sourced.readable_iff (h : e.Sourced) : e.Readable ↔ e.Lasting :=
  ⟨fun hr => ⟨hr.artifact_absolute, hr.year_bounds⟩, fun hl =>
    ⟨⟨h.valid.ne_empty, h.absolute, hl.1, hl.2⟩, h.valid.not_comment⟩⟩

/-- What is loaded after a save with one more entry is what was saved. -/
theorem Registry.eq_insert_of_load {path : Path} (hr : ∀ f ∈ r.entries, f.name.toList.head? ≠ some '#')
    (he : IsIdentifier e.name) (h : ((r.insert e).save path).run w = (.ok (), w'))
    (hload : ((load path).run w').1 = .ok r') : r' = r.insert e := by
  have hcomment : ∀ f ∈ (r.insert e).entries, f.name.toList.head? ≠ some '#' := by
    intro f hf
    rcases mem_insert hf with rfl | ⟨hf, -⟩
    · exact he.not_comment
    · exact hr f hf
  obtain ⟨content, htext, hread⟩ := ofText_of_load h hload
  exact eq_of_ofText_text htext hcomment hread

/-- After a save with one more entry, loading succeeds just when that entry lasts and the path leads to a
file; and then the entry is there. -/
theorem Registry.load_insert {path : Path} (hr : ∀ f ∈ r.entries, f.Readable) (he : e.Sourced)
    (h : ((r.insert e).save path).run w = (.ok (), w')) :
    ((∃ r', ((load path).run w').1 = .ok r') ↔ e.Lasting ∧ w'.disk.isFile path = true) ∧
      ∀ r', ((load path).run w').1 = .ok r' → r'.get? e.name = some e := by
  have hsame : ∀ r', ((load path).run w').1 = .ok r' → r' = r.insert e :=
    fun r' hload =>
      eq_insert_of_load (fun f hf => (hr f hf).not_comment) he.valid h hload
  have hall : (∀ f ∈ (r.insert e).entries, f.Readable) ↔ e.Lasting := by
    rw [← he.readable_iff]
    constructor
    · exact fun hall => hall e (mem_insert_self r e)
    · intro hread f hf
      rcases mem_insert hf with rfl | ⟨hf, -⟩
      · exact hread
      · exact hr f hf
  refine ⟨?_, fun r' hload => ?_⟩
  · rw [← hall, ← load_saved_iff h]
    constructor
    · rintro ⟨r', hload⟩
      rw [← hsame r' hload]
      exact hload
    · exact fun hload => ⟨_, hload⟩
  · rw [hsame r' hload]
    exact get?_insert_self r e

namespace Shelf

variable {shelf : Shelf}

/-- A commit that succeeds saved the registry with the entry of the plan. -/
theorem commit_ok {plan : Plan} (h : (shelf.commit r plan).run w = (.ok e, w')) :
    e = plan.entry w.now ∧ ∃ w₁, ((r.insert e).save shelf.registryPath).run w₁ = (.ok (), w') := by
  rcases commit_cases shelf r plan w with ⟨f, _, -, hanswer, -⟩ | ⟨w₁, -, -, -, -, hrun⟩
  · rw [h] at hanswer
    cases hanswer
  · rw [h] at hrun
    generalize hsave : ((r.insert (plan.entry w.now)).save shelf.registryPath).run w₁ = saved at hrun
    obtain ⟨answer, w₂⟩ := saved
    cases answer with
    | error f => cases hrun
    | ok u =>
        cases hrun
        exact ⟨rfl, w₁, hsave⟩

/-- An operation that placed a module saved the registry with its entry. -/
theorem places_ok {run : Except Failure Entry × World} {good : Registry → Plan → Prop}
    (h : Places shelf w run good) (hrun : run.1 = .ok e) :
    ∃ (r : Registry) (plan : Plan) (w₁ w₂ w₃ : World), good r plan ∧ e = plan.entry w₁.now ∧
      ((r.insert e).save shelf.registryPath).run w₃ = (.ok (), w₂) ∧ w₂.Quiet run.2 := by
  rcases h with ⟨f, hf, -⟩ | ⟨r, plan, w₀, hgood, -, ⟨f, -, hf⟩ | ⟨w₁, -, hanswer, hquiet⟩⟩
  · rw [hrun] at hf
    cases hf
  · rw [hrun] at hf
    cases hf
  · obtain ⟨heq, w₃, hsave⟩ := commit_ok (Prod.ext (hanswer.symm.trans hrun) rfl)
    exact ⟨r, plan, w₁, _, w₃, hgood, heq, hsave, hquiet⟩

/-- When the registry can be read after an entry was added: what is read holds the entry. -/
def Lasts (shelf : Shelf) (w : World) (e : Entry) : Prop :=
  ((∃ r, ((load shelf.registryPath).run w).1 = .ok r) ↔
    e.Lasting ∧ w.disk.isFile shelf.registryPath = true) ∧
  ∀ r, ((load shelf.registryPath).run w).1 = .ok r → r.get? e.name = some e

theorem lasts_of_save {w₂ w₃ : World} (hr : ∀ f ∈ r.entries, f.Readable) (he : e.Sourced)
    (hsave : ((r.insert e).save shelf.registryPath).run w₃ = (.ok (), w₂)) (hquiet : w₂.Quiet w') :
    shelf.Lasts w' e := by
  have hload := load_insert hr he hsave
  rw [(run_load _ w₂).1, ← hquiet.disk] at hload
  rw [Lasts, (run_load _ w').1]
  exact hload

theorem lasts_install {target source : Path} {mode : Mode} {name? : Option String}
    (hread : read w.disk shelf.registryPath = .ok r) (hr : ∀ f ∈ r.entries, f.Readable)
    (hrun : (shelf.install target source mode name?).run w = (.ok e, w')) :
    e.source.isAbsolute = true ∧ e.artifact.isAbsolute = target.isAbsolute ∧ shelf.Lasts w' e := by
  have hcases := install_cases shelf target source mode name? w
  rw [hrun] at hcases
  obtain ⟨r', plan, w₁, w₂, w₃, ⟨hread', real, name, hplan⟩, rfl, hsave, hquiet⟩ :=
    places_ok hcases rfl
  obtain rfl : r' = r := Except.ok.inj (hread'.symm.trans hread)
  have hsourced : (plan.entry w₁.now).Sourced := ⟨hplan.valid, hplan.source_absolute⟩
  exact ⟨hplan.source_absolute, hplan.isAbsolute_dest, lasts_of_save hr hsourced hsave hquiet⟩

theorem lasts_update {name : String} (hread : read w.disk shelf.registryPath = .ok r)
    (hr : ∀ f ∈ r.entries, f.Readable) (hrun : (shelf.update name).run w = (.ok e, w')) :
    e.source.isAbsolute = true ∧ e.artifact.isAbsolute = true ∧ shelf.Lasts w' e := by
  have hcases := update_cases shelf name w
  rw [hrun] at hcases
  obtain ⟨r', plan, w₁, w₂, w₃, ⟨hread', current, target, hget, htarget, hplan⟩, rfl, hsave,
    hquiet⟩ := places_ok hcases rfl
  obtain rfl : r' = r := Except.ok.inj (hread'.symm.trans hread)
  have hsourced : (plan.entry w₁.now).Sourced := ⟨hplan.valid, hplan.source_absolute⟩
  have habsolute : target.isAbsolute = true :=
    Path.isAbsolute_parent htarget (hr current (mem_of_get? hget)).artifact_absolute
  exact ⟨hplan.source_absolute, hplan.isAbsolute_dest.trans habsolute,
    lasts_of_save hr hsourced hsave hquiet⟩

/-- After an install or an update on a shelf whose registry comes back from its text, the source of the
entry is absolute; the registry can be read just when the entry lasts and the path of the registry leads
to a file, and then it holds the entry. The artifact has an absolute path after an update, and after an
install if the package directory has one. -/
theorem lasts_iff (shelf : Shelf) (w : World) (r : Registry)
    (hload : ((load shelf.registryPath).run w).1 = .ok r) (hback : r.ComesBack) :
    (∀ target source mode name? e w',
      (shelf.install target source mode name?).run w = (.ok e, w') →
        e.source.isAbsolute = true ∧ e.artifact.isAbsolute = target.isAbsolute ∧
          shelf.Lasts w' e) ∧
    ∀ name e w', (shelf.update name).run w = (.ok e, w') →
      e.source.isAbsolute = true ∧ e.artifact.isAbsolute = true ∧ shelf.Lasts w' e := by
  rw [(run_load _ w).1] at hload
  exact ⟨fun _ _ _ _ _ _ hrun => lasts_install hload hback.readable hrun,
    fun _ _ _ hrun => lasts_update hload hback.readable hrun⟩

/-- One file, and nothing installed yet. -/
def sourceWorld : World := .holding [(Glyph.ofString "m.py", .file .empty false)]

def sampleShelf : Shelf := ⟨.ofString "/home/registry.txt"⟩

def sampleEntry (artifact : String) : Entry :=
  ⟨"m", .ofString "/m.py", .copy, .ofString artifact, sampleMoment⟩

/-- The world after the file was installed. -/
def installedWorld (target : String) : World :=
  ((sampleShelf.install (.ofString target) (.ofString "/m.py") .copy none).run sourceWorld).2

/-- An install into an absolute package directory lasts. -/
theorem lasts_sample : ∃ r,
    ((load sampleShelf.registryPath).run (installedWorld "/site")).1 = .ok r := by
  have hload : ((load sampleShelf.registryPath).run sourceWorld).1 = .ok empty := by cbv
  have hback : Registry.empty.ComesBack := ⟨header ++ "\n", by cbv, by cbv⟩
  obtain hfile : (installedWorld "/site").disk.isFile sampleShelf.registryPath = true := by cbv
  obtain hrun : (sampleShelf.install (.ofString "/site") (.ofString "/m.py") .copy none).run
      sourceWorld = (.ok (sampleEntry "/site/m.py"), installedWorld "/site") := Prod.ext (by cbv) rfl
  obtain ⟨-, -, hlasts, -⟩ :=
    (lasts_iff sampleShelf sourceWorld empty hload hback).1 _ _ _ _ _ _ hrun
  exact hlasts.2 ⟨⟨by decide, by decide, by decide⟩, hfile⟩

/-- An install into a relative package directory succeeds, and the registry cannot be read any more. -/
theorem lost_sample :
    ((sampleShelf.install (.ofString "site") (.ofString "/m.py") .copy none).run sourceWorld).1 =
      .ok (sampleEntry "site/m.py") ∧
    ¬ ∃ r, ((load sampleShelf.registryPath).run (installedWorld "site")).1 = .ok r := by
  have hok : ((sampleShelf.install (.ofString "site") (.ofString "/m.py") .copy none).run
      sourceWorld).1 = .ok (sampleEntry "site/m.py") := by cbv
  have hrun : (sampleShelf.install (.ofString "site") (.ofString "/m.py") .copy none).run
      sourceWorld = (.ok (sampleEntry "site/m.py"), installedWorld "site") := Prod.ext hok rfl
  have hread : read sourceWorld.disk sampleShelf.registryPath = .ok empty := by cbv
  have hnone : ∀ f ∈ Registry.empty.entries, f.Readable := fun f hf => by cases hf
  obtain ⟨-, -, hlasts, -⟩ := lasts_install hread hnone hrun
  refine ⟨hok, fun hload => ?_⟩
  have hrelative : ¬ (sampleEntry "site/m.py").artifact.isAbsolute = true := by decide
  exact hrelative (hlasts.1 hload).1.1

end Shelf

end Sideload
