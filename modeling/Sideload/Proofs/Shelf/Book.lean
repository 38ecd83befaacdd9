import Sideload.Proofs.Shelf.Apart
import Sideload.Proofs.Shelf.Restore

/-!
The shelf as a book of its modules. What an install or an update answers with is put down under its name,
and what an uninstall has forgotten is struck out; nothing else is ever written. Whatever the calls come to
and whatever happens to other files in between, the registry can be read and says what the book says.
-/

namespace Sideload

open Disk Registry

/-- What is known of the modules: an entry for some of the names. -/
abbrev Book := String → Option Entry

namespace Book

/-- An entry comes in, in place of another of its name. -/
def put (book : Book) (e : Entry) : Book := Function.update book e.name (some e)

def strike (book : Book) (name : String) : Book := Function.update book name none

/-- What is put down of the answer to an install or an update. -/
def learn (book : Book) : Except Failure Entry → Book
  | .ok e => book.put e
  | .error _ => book

end Book

/-- Whether a failure says that the entry was forgotten all the same. -/
def Failure.forgets : Failure → Bool
  | .cleanup .. => true
  | _ => false

/-- What is struck out after the answer to an uninstall. -/
def Book.unlearn (book : Book) (name : String) : Except Failure Removal → Book
  | .ok _ => book.strike name
  | .error f => if f.forgets then book.strike name else book

/-- What the answer to a call says about the modules. -/
def Change.effect (book : Book) : (c : Change) → Except Failure c.Answer → Book
  | .install .., answer => book.learn answer
  | .update _, answer => book.learn answer
  | .uninstall name, answer => book.unlearn name answer

variable {shelf : Shelf} {home : Home} {c : Change} {w w' : World} {r r' : Registry} {book : Book}
  {name : String} {f : Failure}

/-! ### What a call saves is what it answers -/

namespace Registry

theorem get?_insert_eq_put (r : Registry) (e : Entry) : (r.insert e).get? = Book.put r.get? e := by
  funext name
  rw [get?_insert, Book.put, Function.update_apply]
  simp only [eq_comm]

theorem get?_erase_eq_strike (r : Registry) (name : String) : (r.erase name).get? = Book.strike r.get? name := by
  funext other
  rw [get?_erase, Book.strike, Function.update_apply]

end Registry

/-- Work that never fails with the word that an entry was forgotten. -/
def Work.Retains {α : Type} (m : Work Failure α) : Prop := ∀ w f, (m.run w).1 = .error f → f.forgets = false

namespace Work.Retains

variable {α β : Type}

theorem bind {m : Work Failure α} {k : α → Work Failure β} (hm : m.Retains) (hk : ∀ a, (k a).Retains) :
    (m >>= k).Retains := by
  intro w f h
  rw [run_bind] at h
  rcases hrun : m.run w with ⟨e | a, t⟩ <;> rw [hrun] at h
  · cases h
    exact hm w f (congrArg Prod.fst hrun)
  · exact hk a t f h

theorem pure (a : α) : (pure a : Work Failure α).Retains := fun w f h => by
  rw [run_pure] at h
  cases h

theorem log (level : Log.Level) (topic : Log.Topic) (text : String) :
    (Work.log level topic text : Work Failure Unit).Retains := fun w f h => by
  rw [Work.run_log] at h
  cases h

/-- A file operation fails in other words. -/
theorem orFail (m : Work IoError α) (p : Path) : (m.orFail (Failure.ofIo p)).Retains := by
  intro w f h
  rw [Work.run_orFail] at h
  rcases hrun : (m.run w).1 with e | a <;> rw [hrun] at h
  · cases h
    unfold Failure.ofIo
    split <;> rfl
  · cases h

end Work.Retains

theorem Registry.save_retains (path : Path) (r : Registry) : (r.save path).Retains := by
  unfold Registry.save
  split
  · intro w f h
    cases h
    rfl
  · refine Work.Retains.bind ?_ fun _ =>
      .bind ((Work.Retains.orFail _ _).bind fun _ => .orFail _ _) fun _ => .log _ _ _
    unfold makeHost
    split
    · exact .orFail _ _
    · exact .pure _

namespace Change

/-- How a call ends whose work on the files is given: it leaves the registry alone and its answer says
nothing new, or it saves, and its answer says what was saved, or nothing new if the save failed. -/
inductive Ends (path : Path) (r : Registry) (work : Except Failure Registry × World) (d : Disk)
    (effect : Book → Book) : Prop
  | unsaved (hdisk : d = work.2.disk) (heffect : ∀ book, effect book = book)
  | saved {r' : Registry} {w₁ : World} (hwork : work.1 = .ok r') (hstart : w₁.disk = work.2.disk)
      (hdisk : d = ((r'.save path).run w₁).2.disk)
      (hfail : ∀ f, ((r'.save path).run w₁).1 = .error f → ∀ book, effect book = book)
      (hok : ((r'.save path).run w₁).1 = .ok () → effect r.get? = r'.get?)

/-- How an install or an update ends. -/
theorem ends_of_placing {prepared : Work Failure (Registry × Plan)}
    {planned : Disk → Except Failure (Registry × Plan)} {run : Except Failure Entry × World}
    (hreads : prepared.Reads planned fun x => build x.2 >>= fun _ => pure x)
    (hread : ∀ {r' plan}, planned w.disk = .ok (r', plan) → r' = r)
    (hanswer : run.1 = ((prepared >>= fun x => shelf.commit x.1 x.2).run w).1)
    (hdisk : run.2.disk = ((prepared >>= fun x => shelf.commit x.1 x.2).run w).2.disk) :
    Ends shelf.registryPath r
      ((prepared >>= fun x => settle x.2 >>= fun e => (x.1.upsert e : Work Failure Registry)).run w)
      run.2.disk fun book => book.learn run.1 := by
  rw [hanswer, hdisk]
  rcases hrun : prepared.run w with ⟨f | ⟨r', plan⟩, w₀⟩
  · rw [run_bind_of_error hrun, run_bind_of_error hrun]
    exact .unsaved rfl fun _ => rfl
  obtain ⟨⟨r'', plan'⟩, t, hplanned, -, hbuilt⟩ := hreads.of_run hrun
  obtain ⟨u, t', -, hpair⟩ := run_bind_ok hbuilt
  cases hpair
  obtain rfl := hread hplanned
  rw [run_bind_of_ok hrun, run_bind_of_ok hrun]
  dsimp only
  rcases Shelf.commit_cases shelf r' plan w₀ with ⟨f, w₁, hplace, hcommit, -⟩ | ⟨w₁, -, -, -, hplace, hcommit⟩
  · rw [hplace, hcommit]
    exact .unsaved rfl fun _ => rfl
  · rw [hplace, hcommit]
    refine .saved rfl rfl rfl (fun f hf book => ?_) fun hok => ?_
    · rw [hf]
      rfl
    · rw [hok, get?_insert_eq_put]
      rfl

/-- An update commits what was prepared, and only logs afterwards. -/
theorem update_commits (shelf : Shelf) (name : String) (w : World) :
    ((shelf.update name).run w).1 =
        ((shelf.prepareUpdate name >>= fun x => shelf.commit x.1 x.2).run w).1 ∧
      ((shelf.update name).run w).2.disk =
        ((shelf.prepareUpdate name >>= fun x => shelf.commit x.1 x.2).run w).2.disk := by
  have hupdate : shelf.update name = (shelf.prepareUpdate name >>= fun x => shelf.commit x.1 x.2) >>=
      fun e => do
        Work.log .info .shelf s!"Updated '{name}' from {e.source.quoted}"
        return e := by
    rw [bind_assoc]
    rfl
  rw [hupdate, run_bind]
  rcases (shelf.prepareUpdate name >>= fun x => shelf.commit x.1 x.2).run w with ⟨f | e, t⟩ <;>
    exact ⟨rfl, rfl⟩

/-- How an uninstall ends. -/
theorem ends_uninstall (name : String) (hread : Registry.read w.disk shelf.registryPath = .ok r) :
    Ends shelf.registryPath r (((Change.uninstall name).fileWork shelf).run w)
      ((shelf.uninstall name).run w).2.disk fun book => book.unlearn name ((shelf.uninstall name).run w).1 := by
  rcases Shelf.uninstall_cases shelf name w with
    ⟨f, hanswer, hquiet, hwhy⟩ | ⟨r', e, w₁, hread', hget, -, hdisk, hsave⟩
  · obtain ⟨hnone, rfl⟩ : r.get? name = none ∧ f = .notFound name := by
      rcases hwhy with hfail | ⟨r', hread', hnone, hf⟩
      · cases hread.symm.trans hfail
      · cases hread.symm.trans hread'
        exact ⟨hnone, hf⟩
    refine .unsaved ?_ fun book => ?_
    · rcases uninstall_removes shelf name w with ⟨f, w₁, hwork, hquiet'⟩ | ⟨r', e, -, hread', hget, -⟩
      · rw [hwork, hquiet'.disk]
        exact hquiet.disk
      · cases hread.symm.trans hread'
        cases hnone.symm.trans hget
    · rw [hanswer]
      rfl
  · cases hread.symm.trans hread'
    obtain ⟨w₀, hquiet, hwork⟩ :=
      (fileWork_uninstall_reads shelf name).of_ok (Shelf.plannedRemoval_of_get? hread hget)
    have hremoving : (removing name (r, e)).run w₀ =
      (.ok (r.erase name), ⟨((DiskM.removeArtifact e.artifact).run w₀.disk).2, w₀.now, w₀.log⟩) := rfl
    rw [hwork, hremoving]
    have hstart : w₁.disk = ((DiskM.removeArtifact e.artifact).run w₀.disk).2 := by rw [hdisk, hquiet.disk]
    rcases hsave with ⟨f, hfail, hanswer⟩ | ⟨w₂, hok, hquiet', hanswer⟩
    · refine .saved rfl hstart (by rw [hfail]) (fun f' hf book => ?_) fun hsaved => ?_
      · show book.unlearn name ((shelf.uninstall name).run w).1 = book
        rw [hanswer, Book.unlearn, save_retains _ _ w₁ f (by rw [hfail])]
        rfl
      · rw [hfail] at hsaved
        cases hsaved
    · refine .saved rfl hstart (by rw [hok]; exact hquiet'.disk) (fun f' hf book => ?_) fun hsaved => ?_
      · rw [hok] at hf
        cases hf
      · rw [get?_erase_eq_strike]
        show Book.unlearn r.get? name ((shelf.uninstall name).run w).1 = _
        rw [hanswer]
        rcases ((DiskM.removeArtifact e.artifact).run w.disk).1 with cause | there <;> rfl

theorem ends (c : Change) (hread : Registry.read w.disk shelf.registryPath = .ok r) :
    Ends shelf.registryPath r ((c.fileWork shelf).run w) ((c.run shelf).run w).2.disk
      fun book => c.effect book ((c.run shelf).run w).1 := by
  cases c with
  | install target source mode name? =>
      refine ends_of_placing (shelf.prepareInstall_reads target source mode name?) (fun h => ?_) rfl rfl
      obtain ⟨hread', -⟩ := Shelf.plannedInstall_eq_ok h
      exact Except.ok.inj (hread'.symm.trans hread)
  | update name =>
      obtain ⟨hanswer, hdisk⟩ := update_commits shelf name w
      refine ends_of_placing (shelf.prepareUpdate_reads name) (fun h => ?_) hanswer hdisk
      obtain ⟨hread', -⟩ := Shelf.plannedUpdate_eq_ok h
      exact Except.ok.inj (hread'.symm.trans hread)
  | uninstall name => exact ends_uninstall name hread

/-! ### What is saved can be read -/

/-- The package directory of an install has an absolute path. -/
def Absolute : Change → Prop
  | .install target .. => target.isAbsolute = true
  | _ => True

theorem readable_of_placing {plan : Plan} {target source : Path} {mode : Mode} {name? : Option String}
    {prior : Option Entry} {w₀ w₁ : World} (hr : ∀ e ∈ r.entries, e.Readable)
    (hplan : Planned w.disk target source mode name? prior plan) (htarget : target.isAbsolute = true)
    (hyear : 0 ≤ w.now.date.year ∧ w.now.date.year ≤ 9999) (hquiet : w.Quiet w₀)
    (h : (placing (r, plan)).run w₀ = (.ok r', w₁)) : ∀ e ∈ r'.entries, e.Readable := by
  rw [placing_ok h, hquiet.now]
  intro e he
  rcases mem_insert he with rfl | ⟨he, -⟩
  · have hsourced : (plan.entry w.now).Sourced := ⟨hplan.valid, hplan.source_absolute⟩
    exact hsourced.readable_iff.2 ⟨hplan.isAbsolute_dest.trans htarget, hyear⟩
  · exact hr e he

/-- A call that works on readable entries saves readable entries. -/
theorem readable_of_fileWork {w₁ : World} (hread : Registry.read w.disk shelf.registryPath = .ok r)
    (hr : ∀ e ∈ r.entries, e.Readable) (hc : c.Absolute)
    (hyear : 0 ≤ w.now.date.year ∧ w.now.date.year ≤ 9999)
    (h : (c.fileWork shelf).run w = (.ok r', w₁)) : ∀ e ∈ r'.entries, e.Readable := by
  cases c with
  | install target source mode name? =>
      obtain ⟨⟨r₀, plan⟩, w₀, hplanned, hquiet, hrun⟩ := (fileWork_install_reads shelf _ _ _ _).of_run h
      obtain ⟨hread', real, name, -, -, hplan⟩ := Shelf.plannedInstall_eq_ok hplanned
      cases hread.symm.trans hread'
      exact readable_of_placing hr (planned hplan) hc hyear hquiet hrun
  | update name =>
      obtain ⟨⟨r₀, plan⟩, w₀, hplanned, hquiet, hrun⟩ := (fileWork_update_reads shelf name).of_run h
      obtain ⟨hread', e, target, hget, htarget, hplan⟩ := Shelf.plannedUpdate_eq_ok hplanned
      cases hread.symm.trans hread'
      have habsolute := Path.isAbsolute_parent htarget (hr e (mem_of_get? hget)).artifact_absolute
      exact readable_of_placing hr (planned hplan) habsolute hyear hquiet hrun
  | uninstall name =>
      obtain ⟨⟨r₀, e⟩, w₀, hplanned, -, hrun⟩ := (fileWork_uninstall_reads shelf name).of_run h
      obtain ⟨hread', -⟩ := Shelf.plannedRemoval_eq_ok hplanned
      cases hread.symm.trans hread'
      obtain ⟨removed, t, -, hrun⟩ := run_bind_ok hrun
      cases hrun
      exact fun f hf => hr f (mem_erase hf).1

theorem proper_fileWork (hproper : w.disk.Proper) : ((c.fileWork shelf).run w).2.disk.Proper := by
  rcases c.fileWork_cases shelf w with hsame | ⟨r, plan, w₀, w₁, answer, -, hdisk, hbuild, -, hfinal⟩ |
    ⟨name, r, e, rfl, -, -, hfinal⟩
  · rw [hsame]
    exact hproper
  · rw [← hdisk] at hproper
    have hbuilt := stable_proper.build plan w₀ hproper
    rw [hbuild] at hbuilt
    rcases hfinal with hfinal | ⟨-, hfinal⟩
    · rw [hfinal]
      exact hbuilt
    · rw [hfinal]
      exact stable_proper.settle plan w₁ hbuilt
  · rw [hfinal]
    exact stable_proper.removeArtifact e.artifact w hproper

end Change

/-! ### Runs -/

namespace Shelf

/-- The registry is in its place, can be read, and says what the book says. -/
structure Keeps (shelf : Shelf) (home : Home) (w : World) (book : Book) : Prop where
  proper : w.disk.Proper
  housed : Housed w.disk shelf.registryPath home
  agrees : ∃ r, Registry.read w.disk shelf.registryPath = .ok r ∧ (∀ e ∈ r.entries, e.Readable) ∧ r.get? = book

/-- Whatever a call comes to, the book goes on with what it answers. -/
theorem Keeps.call (h : shelf.Keeps home w book) (c : Change) (hapart : c.Apart shelf home w)
    (hc : c.Absolute) (hyear : 0 ≤ w.now.date.year ∧ w.now.date.year ≤ 9999) :
    shelf.Keeps home ((c.run shelf).run w).2 (c.effect book ((c.run shelf).run w).1) := by
  obtain ⟨r, hread, hr, rfl⟩ := h.agrees
  obtain ⟨hhoused, hfile⟩ := hapart.housed h.housed
  have hproper : ((c.fileWork shelf).run w).2.disk.Proper := Change.proper_fileWork h.proper
  have hstill := h.housed.read_eq hhoused hfile
  rcases c.ends hread with ⟨hdisk, heffect⟩ | ⟨hwork, hstart, hdisk, hfail, hok⟩
  · exact ⟨hdisk ▸ hproper, hdisk ▸ hhoused, r, hdisk ▸ hstill.trans hread, hr, (heffect _).symm⟩
  · rename_i r' w₁
    rw [← hstart] at hproper hhoused hstill
    have hsaved := saved hhoused.toLodged r'
    refine ⟨hdisk ▸ hsaved.proper hproper, hdisk ▸ hsaved.housed hhoused, ?_⟩
    rw [hdisk]
    rcases hanswer : ((r'.save shelf.registryPath).run w₁).1 with f | u
    · exact ⟨r, (hsaved.read_of_error hhoused hanswer).trans (hstill.trans hread), hr, (hfail f hanswer _).symm⟩
    · have hr' := Change.readable_of_fileWork hread hr hc hyear (Prod.ext hwork rfl)
      exact ⟨r', hsaved.read_eq hanswer hr', hr', (hok hanswer).symm⟩

/-- What happens elsewhere does not matter. -/
theorem Keeps.elsewhere (h : shelf.Keeps home w book) (hproper : w'.disk.Proper)
    (hcwd : w'.disk.cwd = w.disk.cwd) (hlook : ∀ l ∈ home.places w.disk, w'.disk.look l = w.disk.look l) :
    shelf.Keeps home w' book := by
  obtain ⟨r, hread, hr, hbook⟩ := h.agrees
  obtain ⟨hhoused, -⟩ := h.housed.congr hcwd hlook
  have hfile : w'.disk.look home.file = w.disk.look home.file := hlook _ (by simp [Home.places])
  exact ⟨hproper, hhoused, r, (h.housed.read_eq hhoused hfile).trans hread, hr, hbook⟩

/-- The worlds that come about from one without a registry, each with the book that was kept on the way.
Every call stays apart from the registry. In between, the clock may be set and everything may change but
the places of the registry. -/
inductive Runs (shelf : Shelf) (home : Home) : World → Book → Prop
  | start {w : World} (hproper : w.disk.Proper) (hhoused : Housed w.disk shelf.registryPath home)
      (hmissing : w.disk.look home.file = none) : Runs shelf home w fun _ => none
  | call {w : World} {book : Book} (h : Runs shelf home w book) (c : Change)
      (hapart : c.Apart shelf home w) (hc : c.Absolute)
      (hyear : 0 ≤ w.now.date.year ∧ w.now.date.year ≤ 9999) :
      Runs shelf home ((c.run shelf).run w).2 (c.effect book ((c.run shelf).run w).1)
  | list {w : World} {book : Book} (h : Runs shelf home w book) :
      Runs shelf home ((shelf.list).run w).2 book
  | info {w : World} {book : Book} (h : Runs shelf home w book) (name : String) :
      Runs shelf home ((shelf.info name).run w).2 book
  | meanwhile {w w' : World} {book : Book} (h : Runs shelf home w book) (hproper : w'.disk.Proper)
      (hcwd : w'.disk.cwd = w.disk.cwd)
      (hlook : ∀ l ∈ home.places w.disk, w'.disk.look l = w.disk.look l) : Runs shelf home w' book

theorem Runs.keeps (h : shelf.Runs home w book) : shelf.Keeps home w book := by
  induction h with
  | @start w hproper hhoused hmissing =>
      refine ⟨hproper, hhoused, .empty, ?_, fun e he => (by cases he), rfl⟩
      rw [Registry.read, readText_eq, hhoused.see, hmissing]
      rfl
  | call h c hapart hc hyear ih => exact ih.call c hapart hc hyear
  | @list w book h ih =>
      have hquiet := (run_list shelf w).2
      exact ih.elsewhere (hquiet.disk ▸ ih.proper) (by rw [hquiet.disk]) fun l _ => by rw [hquiet.disk]
  | @info w book h name ih =>
      have hquiet := (run_info shelf name w).2
      exact ih.elsewhere (hquiet.disk ▸ ih.proper) (by rw [hquiet.disk]) fun l _ => by rw [hquiet.disk]
  | meanwhile h hproper hcwd hlook ih => exact ih.elsewhere hproper hcwd hlook

/-- The registry is the book of the calls. It starts without a file; installs and updates put down the entry
that they answer with, uninstalls strike out the name if they succeed or have only left the artifact, and
no other outcome changes anything. In every world that comes about, loading succeeds, the list has the
entries of the book, in the order of their names and one for each name, and every name is told the entry
that it has. -/
theorem reads_as_book (shelf : Shelf) (home : Home) (w : World) (book : Book) (h : shelf.Runs home w book) :
    (∃ r, ((Registry.load shelf.registryPath).run w).1 = .ok r) ∧
    (∃ es, ((shelf.list).run w).1 = .ok es ∧ (∀ e, e ∈ es ↔ ∃ name, book name = some e) ∧
      es.Pairwise fun e f => nameBefore e.name f.name = true) ∧
    (∀ name e, book name = some e → e.name = name) ∧
    ∀ name, ((shelf.info name).run w).1 = match book name with
      | some e => .ok e
      | none => .error (.notFound name) := by
  obtain ⟨r, hread, -, rfl⟩ := h.keeps.agrees
  refine ⟨⟨r, by rw [(run_load _ w).1, hread]⟩, ⟨r.entries, ?_, fun e => ?_, pairwise_of_inNameOrder r.ordered⟩,
    fun name e => name_of_get?, fun name => ?_⟩
  · rw [(run_list shelf w).1, hread]
    rfl
  · constructor
    · exact fun he => ⟨e.name, get?_of_mem he⟩
    · rintro ⟨name, hget⟩
      exact mem_of_get? hget
  · rw [(run_info shelf name w).1, hread]
    rfl

/-! ### A book with one entry, and books that are lost -/

def siteChange : Change := .install (.ofString "/site") (.ofString "/m.py") .copy none

theorem emptySite_apart : siteChange.Apart sampleShelf siteHome emptySite := by
  have htarget : ∀ {r plan}, siteChange.Plans sampleShelf emptySite.disk r plan →
      plan.target = .ofString "/site" := by
    intro r plan hplans
    obtain ⟨-, real, name, -, -, hplan⟩ := plannedInstall_eq_ok (by cases hplans; assumption)
    exact (planned hplan).target_eq
  have hplaces : ∀ l ∈ siteHome.places emptySite.disk, l.head? ≠ some (Glyph.ofString "site") := by
    rw [Home.places, show emptySite.disk.way siteHome.base true = [[]] by cbv]
    decide
  refine ⟨emptySite_proper, fun r plan hplans => .inl ?_, ?_, fun r plan hplans l hl => ?_⟩
  · rw [htarget hplans]
    decide
  · rintro l hl (⟨hplans, he, -, hpre⟩ | ⟨-, hread, hget, -, -⟩)
    · rw [htarget hplans] at he
      obtain rfl := he.unique (show _ from ⟨by cbv, by cbv⟩ : Disk.Enters _ _ [Glyph.ofString "site"])
      obtain ⟨rest, rfl⟩ := hpre
      exact hplaces _ hl rfl
    · rw [show Registry.read emptySite.disk sampleShelf.registryPath = .ok .empty by cbv] at hread
      cases hread
      cases hget
  · rw [htarget hplans]
    rcases hl with rfl | rfl
    · cbv
      simp
    · cbv
      simp

/-- After one install the list has its entry. -/
theorem reads_as_book_site :
    sampleShelf.Runs siteHome filledSite (Book.put (fun _ => none) siteEntry) ∧
    ((sampleShelf.info "m").run filledSite).1 = .ok siteEntry := by
  have hstart : sampleShelf.Runs siteHome emptySite fun _ => none :=
    .start emptySite_proper ⟨lodged_emptySite, .inl (by cbv)⟩ (by cbv)
  have hrun := hstart.call siteChange emptySite_apart rfl (by decide)
  have hanswer : ((siteChange.run sampleShelf).run emptySite) = (.ok siteEntry, filledSite) := siteInstall_ok
  rw [hanswer] at hrun
  obtain ⟨-, -, -, hinfo⟩ := reads_as_book _ _ _ _ hrun
  exact ⟨hrun, hinfo "m"⟩

/-- A shelf whose registry is not there yet, in a directory that is. -/
structure Unwritten (shelf : Shelf) (home : Home) (w : World) : Prop where
  proper : w.disk.Proper
  housed : Housed w.disk shelf.registryPath home
  host : home.names = []
  missing : w.disk.look home.file = none ∧ w.disk.look home.draft = none
  year : 0 ≤ w.now.date.year ∧ w.now.date.year ≤ 9999

/-- The package directory of an install has an absolute path, and with links resolved the registry is not at
or below it. -/
def Beside (home : Home) (w : World) (target : Path) : Prop :=
  target.isAbsolute = true ∧ ∀ loc, (w.disk.opened target).Enters target.hub loc → ¬ loc <+: home.file

/-- A directory for the registry, and other things at the top. -/
def homeWorld (others : List (Name × Node)) : World := .holding ((Glyph.ofString "home", .dir []) :: others)

def homeOf (dir : String) : Home := ⟨.ofString dir, [Glyph.ofString "home"], [], Glyph.ofString "registry.txt"⟩

theorem unwritten_homeWorld {others : List (Name × Node)} {dir : String} {shelf : Shelf}
    (hproper : (homeWorld others).disk.Proper)
    (hroute : shelf.registryPath.Extends (.ofString dir) [Glyph.ofString "registry.txt"])
    (hpath : admit? shelf.registryPath = .ok () ∧ shelf.registryPath.endsInSlash = false ∧
      shelf.registryPath.segments.getLast? = some (.name (Glyph.ofString "registry.txt")))
    (he : (homeWorld others).disk.Enters (.ofString dir) [Glyph.ofString "home"]) :
    Unwritten shelf (homeOf dir) (homeWorld others) := by
  have hfile : (homeWorld others).disk.look (homeOf dir).file = none := rfl
  have hdraft : (homeWorld others).disk.look (homeOf dir).draft = none := rfl
  have hshort : ∀ n : Name, n ∈ [Glyph.ofString "registry.txt"] → ¬ n.byteSize > maxName := by decide
  have hyear : 0 ≤ sampleMoment.date.year ∧ sampleMoment.date.year ≤ 9999 := by decide
  refine ⟨hproper, ⟨⟨hpath.1, hpath.2.2, hpath.2.1, hroute, hshort, he, ?_, by simp [hfile], fun hl => ?_,
    .inl hdraft⟩, .inl hfile⟩, rfl, ⟨hfile, hdraft⟩, hyear⟩
  · intro front hfront
    obtain rfl := List.prefix_nil.1 hfront
    exact .inr he.dir
  · exact he.look_ne_none hl hfile

/-- A file to install. -/
def plainWorld : World := homeWorld [(Glyph.ofString "m.py", .file .empty false)]

/-- A package, and a way to the directory `a` that leads over the place in it where the package is built. -/
def bentWorld : World := homeWorld [
  (Glyph.ofString "a", .dir [(Glyph.ofString ".nopkg_m.partial", .link (.ofString "/c/d/e"))]),
  (Glyph.ofString "c", .dir [(Glyph.ofString "a", .link (.ofString "/a")),
    (Glyph.ofString "d", .dir [(Glyph.ofString "e", .dir [])]),
    (Glyph.ofString "home", .dir [(Glyph.ofString "registry.txt", .dir [])])]),
  (Glyph.ofString "src", .dir [(Glyph.ofString "m", .dir [(Glyph.ofString "a.py", .file .empty false)])])]

def bentTarget : Path := .ofString "/a/.nopkg_m.partial/../../home/registry.txt/../../a"

/-- A file, a package that cannot be copied, and a link to the directory of the registry at the place where
the package is going to be built. -/
def crossedWorld : World := homeWorld [(Glyph.ofString "n.py", .file .empty false),
  (Glyph.ofString "site", .dir [(Glyph.ofString ".nopkg_m.partial", .link (.ofString "/home"))]),
  (Glyph.ofString "src", .dir [(Glyph.ofString "m", .dir [(Glyph.ofString "gone", .link (.ofString "nowhere"))])])]

def crossedShelf : Shelf := ⟨.ofString "/site/.nopkg_m.partial/registry.txt"⟩

def crossedEntry : Entry := ⟨"n", .ofString "/n.py", .copy, .ofString "/site/n.py", sampleMoment⟩

def crossedInstall (source : String) : Work Failure Entry :=
  crossedShelf.install (.ofString "/site") (.ofString source) .copy none

/-- What the install of the file leaves. -/
def crossedDisk : Disk := ⟨.dir [
  (Glyph.ofString "home", .dir [(Glyph.ofString "registry.txt",
    .file (header ++ "\nn|/n.py|copy|/site/n.py|2024-05-06T00:00:00Z\n").toUTF8 false)]),
  (Glyph.ofString "n.py", .file .empty false),
  (Glyph.ofString "site", .dir [(Glyph.ofString ".nopkg_m.partial", .link (.ofString "/home")),
    (Glyph.ofString "n.py", .file .empty false)]),
  (Glyph.ofString "src", .dir [(Glyph.ofString "m", .dir [(Glyph.ofString "gone", .link (.ofString "nowhere"))])])], []⟩

theorem crossedInstall_run : ∃ log,
    (crossedInstall "/n.py").run crossedWorld = (.ok crossedEntry, ⟨crossedDisk, sampleMoment, log⟩) :=
  ⟨((crossedInstall "/n.py").run crossedWorld).2.log, by cbv⟩

theorem read_crossedDisk : Registry.read crossedDisk crossedShelf.registryPath = .ok (empty.insert crossedEntry) := by
  have henters : crossedWorld.disk.Enters (.ofString "/site") [Glyph.ofString "site"] := ⟨by cbv, by cbv⟩
  have hread : Registry.read crossedWorld.disk crossedShelf.registryPath = .ok empty := by cbv
  have hfile : crossedDisk.isFile crossedShelf.registryPath = true := by cbv
  obtain ⟨_, hrun⟩ := crossedInstall_run
  exact read_of_install (proper_of_every (fun n hn => by cases hn) (by decide)) henters hread
    (fun f hf => by cases hf) hrun rfl (by cbv)
    ⟨⟨by decide, by decide, by decide, by decide⟩, by decide⟩ hfile

/-- What is planned for the package. -/
def crossedPlan : Plan :=
  ⟨"m", "m", .ofString "/src/m", true, .copy, .ofString "/site", .ofString "/site/m", none⟩

theorem crossedInstall_fails (log : List Log.Record) : ∃ f,
    ((crossedInstall "/src/m").run ⟨crossedDisk, sampleMoment, log⟩).1 = .error f ∧
    ((crossedShelf.list).run ((crossedInstall "/src/m").run ⟨crossedDisk, sampleMoment, log⟩).2).1 = .ok [] := by
  have hplanned : crossedShelf.plannedInstall (.ofString "/site") (.ofString "/src/m") .copy none crossedDisk =
      .ok (empty.insert crossedEntry, crossedPlan) :=
    plannedInstall_of_read read_crossedDisk (show resolveSource _ _ = .ok (.ofString "/src/m") by cbv) (by cbv)
      (by cbv)
  obtain ⟨log', hrun⟩ :=
    (crossedShelf.install_reads _ _ _ _).run_of_ok (w := ⟨crossedDisk, sampleMoment, log⟩) hplanned
  rw [show (crossedInstall "/src/m").run _ = _ from hrun]
  clear hrun hplanned
  exact ⟨_, by cbv, by cbv⟩

/-- What is asked of the registry and of the package directories at first sight is not enough. A directory
is made in the place of the registry if it is on the way to the package directory, also if only the way
back over a staging entry leads there that was taken away; and a registry that is reached over a staging
entry is gone with it. -/
theorem not_reads_as_book :
    (¬ ∀ (shelf : Shelf) (home : Home) (w : World) (target source : Path) (mode : Mode) (name? : Option String),
      Unwritten shelf home w → Beside home w target →
        ∃ es, ((shelf.list).run ((shelf.install target source mode name?).run w).2).1 = .ok es) ∧
    (¬ ∀ (shelf : Shelf) (home : Home) (w : World) (target source : Path) (mode : Mode) (name? : Option String),
      Unwritten shelf home w → Beside home w target → (∀ l, (w.disk.opened target).look l = w.disk.look l) →
        ∃ es, ((shelf.list).run ((shelf.install target source mode name?).run w).2).1 = .ok es) ∧
    ¬ ∀ (shelf : Shelf) (home : Home) (w w₁ : World) (e : Entry) (target source source' : Path) (mode : Mode)
        (name? : Option String),
      Unwritten shelf home w → Beside home w target → (∀ l, (w.disk.opened target).look l = w.disk.look l) →
        (shelf.install target source mode name?).run w = (.ok e, w₁) → Beside home w₁ target →
          (∃ f, ((shelf.install target source' mode name?).run w₁).1 = .error f) →
            ∃ es, ((shelf.list).run ((shelf.install target source' mode name?).run w₁).2).1 = .ok es ∧ e ∈ es := by
  have hbeside : ∀ {w : World} {target : Path} {dir : String} (loc : Location), target.isAbsolute = true →
      (w.disk.opened target).Enters target.hub loc → ¬ loc <+: (homeOf dir).file → Beside (homeOf dir) w target :=
    fun _ habsolute he hnot => ⟨habsolute, fun loc' he' => he.unique he' ▸ hnot⟩
  have hpath : admit? samplePath = .ok () ∧ samplePath.endsInSlash = false ∧
      samplePath.segments.getLast? = some (.name (Glyph.ofString "registry.txt")) := ⟨by cbv, by cbv, by cbv⟩
  refine ⟨fun h => ?_, fun h => ?_, fun h => ?_⟩
  · obtain ⟨es, hes⟩ := h sampleShelf (homeOf "/home") plainWorld (.ofString "/home/registry.txt/site")
      (.ofString "/m.py") .copy none
      (unwritten_homeWorld (proper_of_every (fun n hn => by cases hn) (by decide)) ⟨by cbv, by cbv⟩ hpath
        ⟨by cbv, by cbv⟩)
      (hbeside [Glyph.ofString "home", Glyph.ofString "registry.txt", Glyph.ofString "site"] (by decide)
        ⟨by cbv, by cbv⟩ (by decide))
    have hlost : ((sampleShelf.list).run ((sampleShelf.install (.ofString "/home/registry.txt/site")
        (.ofString "/m.py") .copy none).run plainWorld).2).1 = .error (.io samplePath (.file (.os .isDirectory))) := by
      cbv
    cases hes.symm.trans hlost
  · have hopened : bentWorld.disk.opened bentTarget = bentWorld.disk := by cbv
    obtain ⟨es, hes⟩ := h sampleShelf (homeOf "/home") bentWorld bentTarget (.ofString "/src/m") .copy none
      (unwritten_homeWorld (proper_of_every (fun n hn => by cases hn) (by decide)) ⟨by cbv, by cbv⟩ hpath
        ⟨by cbv, by cbv⟩)
      (hbeside [Glyph.ofString "a"] (by decide) ⟨by cbv, by cbv⟩ (by decide))
      fun l => by rw [hopened]
    have hlost : ((sampleShelf.list).run ((sampleShelf.install bentTarget (.ofString "/src/m") .copy none).run
        bentWorld).2).1 = .error (.io samplePath (.file (.os .isDirectory))) := by
      cbv
    cases hes.symm.trans hlost
  · have hopened : crossedWorld.disk.opened (.ofString "/site") = crossedWorld.disk := by cbv
    obtain ⟨log, hrun⟩ := crossedInstall_run
    obtain ⟨f, hfails, hlost⟩ := crossedInstall_fails log
    obtain ⟨es, hes, hmem⟩ := h crossedShelf (homeOf "/site/.nopkg_m.partial") crossedWorld _ crossedEntry
      (.ofString "/site") (.ofString "/n.py") (.ofString "/src/m") .copy none
      (unwritten_homeWorld (proper_of_every (fun n hn => by cases hn) (by decide)) ⟨by cbv, by cbv⟩
        ⟨by cbv, by cbv, by cbv⟩ ⟨by cbv, by cbv⟩)
      (hbeside [Glyph.ofString "site"] (by decide) ⟨by cbv, by cbv⟩ (by decide))
      (fun l => by rw [hopened]) hrun
      (hbeside [Glyph.ofString "site"] (by decide) ⟨by cbv, by cbv⟩ (by decide)) ⟨f, hfails⟩
    cases hes.symm.trans hlost
    cases hmem

end Shelf

end Sideload
