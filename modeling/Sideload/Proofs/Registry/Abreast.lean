import Sideload.Proofs.Disk.Rewrite
import Sideload.Proofs.Disk.Twin
import Sideload.Proofs.Registry.Hosting
import Sideload.Proofs.Registry.Rewrite
import Sideload.Proofs.Shelf.Readable

/-!
Saving one registry or another. Where a registry has its home and no directory stands at its name, whether a
registry that has a text is saved depends on what stands at the name of the draft only, and nothing changes but
the file, the draft and the directories that are missing.
-/

namespace Sideload

open Disk

/-! ### Entries but for their times -/

/-- An entry without its time. -/
def Entry.undated (e : Entry) : Entry := { e with installedAt := default }

variable {e f : Entry} {r r' : Registry} {path : Path} {home : Home} {w w' : World} {d d' : Disk}

theorem Entry.name_of_undated (h : f.undated = e.undated) : f.name = e.name :=
  (congrArg Entry.name h : f.undated.name = e.undated.name)

theorem Entry.toLine_undated (e : Entry) : (e.toLine.map fun _ => ()) = e.undated.toLine.map fun _ => () := by
  unfold toLine fields undated
  cases pathField e.source with
  | error fault => rfl
  | ok source =>
      cases pathField e.artifact with
      | error fault => rfl
      | ok artifact =>
          cases checkField e.name <;> rfl

/-- Whether an entry has a line does not depend on its time. -/
theorem Entry.toLine_of_undated (h : f.undated = e.undated) :
    (f.toLine.map fun _ => ()) = e.toLine.map fun _ => () := by
  rw [toLine_undated, h, ← toLine_undated]

namespace Registry

/-- Whether a registry has a text depends on the entry that is put there only, if the others came from one. -/
theorem text_insert_agrees (hr : r.ComesBack) (hr' : r'.ComesBack) (h : f.undated = e.undated) :
    (∃ s s', (r.insert e).text = .ok s ∧ (r'.insert f).text = .ok s') ∨
    ∃ fault, (r.insert e).text = .error fault ∧ (r'.insert f).text = .error fault := by
  have hline := Entry.toLine_of_undated h
  have hname := Entry.name_of_undated h
  have hothers : ∀ {r : Registry}, r.ComesBack → ∀ g ∈ r.entries, ∃ l, g.toLine = .ok l := by
    rintro r ⟨s, hs, -⟩
    exact (text_isOk_iff r).1 ⟨s, hs⟩
  cases he : e.toLine with
  | ok l =>
      obtain ⟨l', hl'⟩ : ∃ l', f.toLine = .ok l' := by
        rw [he] at hline
        cases hf : f.toLine with
        | ok l' => exact ⟨l', rfl⟩
        | error fault =>
            rw [hf] at hline
            cases hline
      have hall : ∀ {r : Registry} {e : Entry} {l : String}, r.ComesBack → e.toLine = .ok l →
          ∃ s, (r.insert e).text = .ok s := by
        intro r e l hr he
        refine (text_isOk_iff _).2 fun g hg => ?_
        rcases mem_insert hg with rfl | ⟨hg, -⟩
        · exact ⟨l, he⟩
        · exact hothers hr g hg
      obtain ⟨s, hs⟩ := hall hr he
      obtain ⟨s', hs'⟩ := hall hr' hl'
      exact .inl ⟨s, s', hs, hs'⟩
  | error fault =>
      have hf : f.toLine = .error fault := by
        rw [he] at hline
        cases hf : f.toLine with
        | ok l' =>
            rw [hf] at hline
            cases hline
        | error fault' =>
            rw [hf] at hline
            cases hline
            rfl
      have hfails : ∀ {r : Registry} {e : Entry}, r.ComesBack → e.toLine = .error fault →
          (r.insert e).text = .error (e.name, fault) := by
        intro r e hr he
        rcases text_cases (r.insert e) with hok | ⟨g, hg, fault', hfault, htext⟩
        · obtain ⟨l, hl⟩ := (text_isOk_iff _).1 hok e (mem_insert_self r e)
          cases he.symm.trans hl
        · rcases mem_insert hg with rfl | ⟨hg, -⟩
          · cases he.symm.trans hfault
            exact htext
          · obtain ⟨l, hl⟩ := hothers hr g hg
            cases hfault.symm.trans hl
      exact .inr ⟨_, hfails hr he, hname ▸ hfails hr' hf⟩

/-- What is read from the text of a registry comes back from its own text. -/
theorem comesBack_of_ofText {s : String} (htext : r.text = .ok s) (hread : ofText s = .ok r') : r'.ComesBack := by
  obtain ⟨ls, hls, rfl⟩ := text_eq_ok_iff.1 htext
  obtain ⟨es, hes, rfl⟩ := ofText_eq_ok_iff.1 hread
  rw [filter_lines_text hls] at hes
  obtain ⟨hencodable, hfrom⟩ := encodable_of_forall₂_ofLine hls hes
  have hentry : ∀ e ∈ (ofList es).entries, e ∈ r.entries ∧ e.Readable := by
    intro e he
    obtain ⟨f, hf, rfl, hname⟩ := hfrom e (mem_of_mem_ofList he)
    exact ⟨hf, hencodable e hf hname, hname⟩
  obtain ⟨s', hs'⟩ := (text_isOk_iff (ofList es)).2 fun e he => (text_isOk_iff r).1 ⟨_, htext⟩ e (hentry e he).1
  exact ⟨s', hs', ofText_text hs' fun e he => (hentry e he).2⟩

theorem ComesBack.text_erase (hr : r.ComesBack) (name : String) : ∃ s, (r.erase name).text = .ok s := by
  obtain ⟨s, hs, -⟩ := hr
  exact (text_isOk_iff _).2 fun g hg => (text_isOk_iff r).1 ⟨s, hs⟩ g (mem_erase hg).1

end Registry

/-! ### Whether a registry is saved -/

/-- A home whose names are not taken by directories. -/
theorem Homed.housed (h : Homed d path home) (hfile : d.look home.file ≠ some .dir)
    (hdraft : d.look home.draft ≠ some .dir) : Housed d path home := by
  have hfile' := Writable.of_ne hfile h.file
  exact ⟨⟨h.admits, h.last, h.slash, h.route, h.short, h.enters, h.plain, hfile,
    fun hl => h.enters.not_writable hl hfile', Writable.of_ne hdraft h.draft⟩, hfile'⟩

/-- The draft is in the directory of the registry. -/
theorem Sited.adds_draft (h : Sited d path home) {q : Path}
    (hq : path.components = q.components ++ [.name home.name]) :
    (Registry.draftPath path).Adds q.hub (Path.otherName home.name Registry.draftExtension) := by
  obtain ⟨front, hpath, hdraft, hlast, hslash⟩ := Path.withExtension_eq h.last h.slash
    Registry.slash_notMem_draft Registry.two_le_draft
  obtain ⟨rfl, -⟩ := List.append_inj' (hpath.symm.trans hq) rfl
  exact Path.adds_hub_of_concat hdraft hlast hslash

namespace Registry

/-- Saving a registry that has a text is replacing the file, once its directory was made. -/
theorem save_of_text {s : String} (h : Sited w.disk path home) (htext : r.text = .ok s) :
    ((r.save path).run w).1 = ((replaceText path s).run { w with disk := hosted w.disk path }).1 := by
  unfold save
  rw [htext]
  dsimp only
  rw [run_bind_of_ok h.run_makeHost, run_bind]
  rcases (replaceText path s).run { w with disk := hosted w.disk path } with ⟨f | u, t⟩ <;> rfl

/-- A text is written beside the registry and moved over it. -/
theorem replaceText_isOk {q : Path} (h : Housed d path home)
    (hq : path.components = q.components ++ [.name home.name]) (he : d.Enters q.hub home.dir)
    (hslot : d.Slot (draftPath path) home.dir (Path.otherName home.name draftExtension)) (s : String) :
    ∃ d₁ d₂, d.writeText (draftPath path) s = .ok d₁ ∧ d₁.rename (draftPath path) path = .ok d₂ := by
  have hadds := Path.adds_hub_of_concat hq h.last h.slash
  have hdraft := h.sited.adds_draft hq
  obtain ⟨d₁, hw⟩ := hslot.openFile_isOk hdraft.slash h.draft fun old =>
    (s.toUTF8, (old.map fun f : ByteArray × Bool => f.2).getD false)
  obtain ⟨hcwd, x, hlook⟩ := h.toLodged.look_written (show d.writeText (draftPath path) s = .ok d₁ from hw)
  -- the way to the directory does not lead over the draft
  have he' : d₁.Enters q.hub home.dir := (he.congr hcwd fun l hl => by
    rw [hlook, Function.update_of_ne]
    rintro rfl
    exact he.not_writable hl h.draft).1
  have hnames : ∀ {n m : Name}, n ≠ m → ¬ home.dir ++ [n] <+: home.dir ++ [m] := fun hne hpre =>
    hne (by simpa using (List.prefix_append_right_inj _).1 hpre)
  have hne := Path.otherName_ne (n := home.name) dot_mem_draft
  have hthere : d₁.look (home.dir ++ [Path.otherName home.name draftExtension]) = some (.file s.toUTF8 x) := by
    rw [hlook]
    exact Function.update_self ..
  obtain ⟨d₂, hr⟩ := rename_leaf_isOk (he'.slot hdraft.route hslot.admits hdraft.last hslot.short).1
    (he'.slot hadds.route h.admits h.last (h.short _ (by simp))).1 hdraft.slash h.slash (by rw [hthere]; simp)
    (by rw [hthere]; simp) (by
      show d₁.look home.file ≠ some .dir
      rw [hlook, Function.update_of_ne home.file_ne_draft]
      exact h.leaf) (hnames hne) (hnames hne.symm)
  exact ⟨d₁, d₂, hw, hr⟩

/-- Whether a registry is saved does not depend on its text. -/
theorem save_agrees {s s' : String} (h : Homed w.disk path home) (h' : Homed w'.disk path home)
    (hfile : w.disk.look home.file ≠ some .dir) (hfile' : w'.disk.look home.file ≠ some .dir)
    (hdraft : w'.disk.look home.draft = some .dir ↔ w.disk.look home.draft = some .dir)
    (htext : r.text = .ok s) (htext' : r'.text = .ok s') :
    ((r'.save path).run w').1 = ((r.save path).run w).1 := by
  obtain ⟨q, hparent, hq, -, he⟩ := h.toSited.hosts
  obtain ⟨q', hparent', -, -, he'⟩ := h'.toSited.hosts
  cases hparent.symm.trans hparent'
  have hadds := h.toSited.adds_draft hq
  rw [save_of_text h.toSited htext, save_of_text h'.toSited htext', run_replaceText, run_replaceText]
  have hlook : ∀ {w : World}, Homed w.disk path home →
      (hosted w.disk path).look home.draft = w.disk.look home.draft := fun h => h.toSited.look_hosted_name _
  rcases slot_or_refused hadds with hslot | ⟨e, -, hrefused⟩
  · by_cases hdir : w.disk.look home.draft = some .dir
    · have hfails : ∀ {w : World} {s : String}, Homed w.disk path home →
          (hosted w.disk path).Enters q.hub home.dir → w.disk.look home.draft = some .dir →
            (hosted w.disk path).writeText (draftPath path) s = .error (.os .isDirectory) := by
        intro w s h he hdir
        rw [writeText, write]
        exact (hslot he).openFile_dir hadds.slash ((hlook h).trans hdir)
      rw [hfails h he hdir, hfails h' he' (hdraft.2 hdir)]
    · have hsaves : ∀ {w : World} (s : String), Homed w.disk path home →
          (hosted w.disk path).Enters q.hub home.dir → w.disk.look home.file ≠ some .dir →
            w.disk.look home.draft ≠ some .dir → ∃ d₁ d₂, (hosted w.disk path).writeText (draftPath path) s = .ok d₁ ∧
              d₁.rename (draftPath path) path = .ok d₂ := by
        intro w s h he hfile hdraft
        have hhoused := (h.housed hfile hdraft)
        have hfile' : (hosted w.disk path).look home.file ≠ some .dir := by
          rw [Home.file, h.toSited.look_hosted_name]
          exact hfile
        refine replaceText_isOk ⟨hhoused.toLodged.hosted, ?_⟩ hq he (hslot he) s
        rw [Writable, Home.file, h.toSited.look_hosted_name]
        exact hhoused.file
      obtain ⟨d₁, d₂, hw, hr⟩ := hsaves s h he hfile hdir
      obtain ⟨d₁', d₂', hw', hr'⟩ := hsaves s' h' he' hfile' fun hdir' => hdir (hdraft.1 hdir')
      rw [hw, hw']
      dsimp only
      rw [hr, hr']
  · have hfails : ∀ {d : Disk} {s : String}, d.Enters q.hub home.dir →
        d.writeText (draftPath path) s = .error e := by
      intro d s he
      rw [writeText, write]
      exact openFile_of_refused hadds.slash ((hrefused he).2 true)
    rw [hfails he, hfails he']

end Registry

/-! ### What saving changes -/

/-- What saving a registry may change: the file, the draft, and the directories that are missing. -/
def Home.Region (home : Home) (d : Disk) (l : Location) : Prop :=
  ∃ place, (place = home.file ∨ place = home.draft ∨ place ∈ home.missing ∧ d.look place = none) ∧ place <+: l

theorem Sited.hosted_differs (h : Sited d path home) : Differs (home.Region d) d (Registry.hosted d path) := by
  obtain ⟨q, hparent, -⟩ := h.hosts
  rw [Registry.hosted_of_parent hparent]
  refine (opened_differs d q).mono ?_
  rintro l ⟨place, hnone, hdir, hl⟩
  refine ⟨place, .inr (.inr ⟨h.look_hosted ?_, hnone⟩), hl⟩
  rw [Registry.hosted_of_parent hparent, hnone, hdir]
  simp

namespace Lodged

variable {s : String}

theorem write_differs (h : Lodged d path home) (hw : d.writeText (Registry.draftPath path) s = .ok d') :
    Differs (AtOrBelow home.draft) d d' := by
  have hwrite : d.write (Registry.draftPath path) s.toUTF8 = .ok d' := hw
  obtain ⟨g, -, hgoal, -, hslash, -⟩ := openFile_ok hwrite
  have hloc : g.location = home.draft := by
    rw [(h.sited.slot_draft hgoal).goal hslash (.inr h.draft.ne_link)] at hgoal
    split at hgoal <;> cases hgoal <;> rfl
  rw [← hloc]
  exact openFile_differs hwrite hgoal

theorem rename_differs (h : Lodged d path home) (hr : d.rename (Registry.draftPath path) path = .ok d') :
    Differs (fun l => AtOrBelow home.draft l ∨ AtOrBelow home.file l) d d' := by
  obtain ⟨parent, m, parent', n, hdraft, hpath, -⟩ := rename_ok hr
  obtain ⟨front, -, hroute, hlast, -⟩ := h.sited.route_draft
  obtain rfl : n = home.name := by
    have := hpath.last.symm.trans h.last
    simpa using this
  obtain rfl : m = Path.otherName home.name Registry.draftExtension := by
    have := hdraft.last.symm.trans hlast
    simpa using this
  obtain ⟨rfl, -⟩ := h.enters.slot_below h.route h.last h.plain hpath
  obtain ⟨rfl, -⟩ := h.enters.slot_below hroute hlast h.plain hdraft
  exact Disk.rename_differs hdraft hpath hr

end Lodged

namespace Registry

/-- What comes of saving at a home where no directory stands at the name of the registry. -/
structure Resaved (path : Path) (home : Home) (w : World) (run : Except Failure Unit × World) : Prop where
  now : run.2.now = w.now
  proper : w.disk.Proper → run.2.disk.Proper
  homed : Homed run.2.disk path home
  differs : Differs (home.Region w.disk) w.disk run.2.disk
  look : ∀ l, run.2.disk.look l ≠ w.disk.look l →
    (l ∈ home.missing ∧ w.disk.look l = none ∧ run.2.disk.look l = some .dir) ∨
      (l = home.file ∨ l = home.draft) ∧ w.disk.Writable l
  leaf : run.2.disk.look home.file ≠ some .dir
  draft : run.2.disk.look home.draft = some .dir ↔ w.disk.look home.draft = some .dir
  failed : ∀ f, run.1 = .error f → run.2.disk.look home.file = w.disk.look home.file

/-- Over a directory at the name of the draft nothing is saved. -/
theorem save_of_draft_dir (h : Homed w.disk path home) (hdir : w.disk.look home.draft = some .dir) :
    (∃ f, ((r.save path).run w).1 = .error f) ∧ ((r.save path).run w).2.now = w.now ∧
      (((r.save path).run w).2.disk = w.disk ∨ ((r.save path).run w).2.disk = hosted w.disk path) := by
  have hdir' : (hosted w.disk path).look home.draft = some .dir :=
    (h.toSited.look_hosted_name _).trans hdir
  have hnot : ∀ content d', (hosted w.disk path).writeText (draftPath path) content ≠ .ok d' := by
    intro content d' hw
    rw [writeText, write] at hw
    obtain ⟨g, -, hgoal, -, hslash, -⟩ := openFile_ok hw
    rw [(h.toSited.hosted.slot_draft hgoal).openFile_dir hslash hdir'] at hw
    cases hw
  obtain ⟨hnow, ⟨f, hfail, hdisk⟩ | ⟨f, content, -, -, hw⟩ | ⟨content, d', -, -, hw, -⟩⟩ := save_cases r path w
  · exact ⟨⟨f, hfail⟩, hnow, hdisk⟩
  · exact absurd hw (hnot _ _)
  · exact absurd hw (hnot _ _)

theorem resaved_of_dir (h : Homed w.disk path home) (hfile : w.disk.look home.file ≠ some .dir)
    (hdir : w.disk.look home.draft = some .dir) : Resaved path home w ((r.save path).run w) := by
  obtain ⟨⟨f, hfail⟩, hnow, hdisk⟩ := save_of_draft_dir (r := r) h hdir
  have hopens := opens_hosted w.disk path
  have hkept : ((r.save path).run w).2.disk.look home.file = w.disk.look home.file ∧
      ((r.save path).run w).2.disk.look home.draft = w.disk.look home.draft := by
    rcases hdisk with hdisk | hdisk <;> rw [hdisk]
    · exact ⟨rfl, rfl⟩
    · exact ⟨h.toSited.look_hosted_name _, h.toSited.look_hosted_name _⟩
  refine ⟨hnow, fun hproper => ?_, ?_, ?_, fun l hl => ?_, by rw [hkept.1]; exact hfile, by rw [hkept.2],
    fun _ _ => hkept.1⟩
  · rcases hdisk with hdisk | hdisk <;> rw [hdisk]
    · exact hproper
    · obtain ⟨q, hparent, -⟩ := h.toSited.hosts
      rw [hosted_of_parent hparent]
      exact hproper.opened q
  · rcases hdisk with hdisk | hdisk <;> rw [hdisk]
    · exact h
    · exact (h.of_places hopens.cwd fun l _ => hopens.look l).1
  · rcases hdisk with hdisk | hdisk <;> rw [hdisk]
    · exact .refl _ _
    · exact h.toSited.hosted_differs
  · rcases hdisk with hdisk | hdisk <;> rw [hdisk] at hl ⊢
    · exact absurd rfl hl
    · exact .inl ⟨h.toSited.look_hosted hl, (hopens.look l).resolve_left hl⟩

theorem resaved_of_housed (h : Housed w.disk path home) : Resaved path home w ((r.save path).run w) := by
  have hsaved := saved h.toLodged r
  have hhoused := hsaved.housed h
  refine ⟨hsaved.now, hsaved.proper, hhoused.homed, ?_, fun l hl => ?_, hhoused.leaf, ?_, hsaved.failed⟩
  · have hfirst := h.sited.hosted_differs
    have hlodged := h.toLodged.hosted
    have hin : ∀ {l}, AtOrBelow home.draft l → home.Region w.disk l := fun hl => ⟨_, .inr (.inl rfl), hl⟩
    obtain ⟨-, ⟨f, -, hdisk | hdisk⟩ | ⟨f, content, -, -, hw⟩ | ⟨content, d', -, -, hw, hr⟩⟩ := save_cases r path w
    · rw [hdisk]
      exact .refl _ _
    · rw [hdisk]
      exact hfirst
    · exact hfirst.trans ((hlodged.write_differs hw).mono fun l hl => hin hl)
    · obtain ⟨hcwd, x, hlook⟩ := hlodged.look_written hw
      have hlodged' : Lodged d' path home := by
        refine hlodged.filled hcwd (fun l _ hl => by rw [hlook, Function.update_of_ne hl]) ?_
          (.inr ⟨content.toUTF8, x, by rw [hlook, Function.update_self]⟩)
        rw [hlook, Function.update_of_ne home.file_ne_draft]
        exact hlodged.leaf
      refine (hfirst.trans ((hlodged.write_differs hw).mono fun l hl => hin hl)).trans
        ((hlodged'.rename_differs hr).mono ?_)
      rintro l (hl | hl)
      · exact hin hl
      · exact ⟨_, .inl rfl, hl⟩
  · rcases hsaved.look l hl with hmade | rfl | rfl
    · exact .inl hmade
    · exact .inr ⟨.inl rfl, h.file⟩
    · exact .inr ⟨.inr rfl, h.draft⟩
  · exact ⟨fun hdir => absurd hdir hhoused.draft.ne_dir, fun hdir => absurd hdir h.draft.ne_dir⟩

theorem resaved (h : Homed w.disk path home) (hfile : w.disk.look home.file ≠ some .dir) (r : Registry) :
    Resaved path home w ((r.save path).run w) := by
  by_cases hdir : w.disk.look home.draft = some .dir
  · exact resaved_of_dir h hfile hdir
  · exact resaved_of_housed (h.housed hfile hdir)

namespace Resaved

variable {run : Except Failure Unit × World} {target : Path} {loc l : Location}

/-- What is looked up to find a directory stays. -/
theorem kept (h : Resaved path home w run) (he : w.disk.Enters target loc) (hl : l ∈ w.disk.way target true) :
    run.2.disk.look l = w.disk.look l := by
  by_contra hchanged
  rcases h.look l hchanged with ⟨-, hnone, -⟩ | ⟨-, hfree⟩
  · exact he.look_ne_none hl hnone
  · exact he.not_writable hl hfree

/-- Only the places of the registry change. -/
theorem look_elsewhere (h : Resaved path home w run) (hl : l ∉ home.places w.disk) :
    run.2.disk.look l = w.disk.look l := by
  by_contra hchanged
  rcases h.look l hchanged with ⟨hmissing, -⟩ | ⟨rfl | rfl, -⟩
  · exact hl (by simp [Home.places, hmissing])
  · exact hl (by simp [Home.places])
  · exact hl (by simp [Home.places])

theorem read_eq (h : Resaved path home w run) (h' : Homed w.disk path home) {f : Failure} (hfail : run.1 = .error f) :
    read run.2.disk path = read w.disk path := by
  rw [read, read, readText_eq, readText_eq, h.homed.see, h'.see, h.failed f hfail]

end Resaved

end Registry

end Sideload
