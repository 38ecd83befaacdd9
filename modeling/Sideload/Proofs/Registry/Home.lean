import Sideload.Proofs.Disk.Growth
import Sideload.Proofs.Registry.File

/-!
The place where a registry is kept. As long as nothing else stands at its name and at the name of the
draft beside it, saving replaces the file or leaves it as it is, and loading reads it.
-/

namespace Sideload

open Disk

/-- A directory that is there, the names from there down to the directory of the registry, some of which
may be missing, and the name of the registry. -/
structure Home where
  base : Path
  loc : Location
  names : List Name
  name : Name

namespace Home

def dir (home : Home) : Location := home.loc ++ home.names

def file (home : Home) : Location := home.dir ++ [home.name]

def draft (home : Home) : Location :=
  home.dir ++ [Path.otherName home.name Registry.draftExtension]

/-- The directories that saving makes. -/
def missing (home : Home) : List Location := View.passed home.loc home.names

/-- Everything that loading and saving look at. -/
def places (home : Home) (d : Disk) : List Location :=
  d.way home.base true ++ home.missing ++ [home.file, home.draft]

theorem file_ne_draft (home : Home) : home.file ≠ home.draft := by
  intro h
  rw [file, draft, List.append_cancel_left_eq, List.cons.injEq] at h
  exact Path.otherName_ne Registry.dot_mem_draft h.1.symm

/-- The directories that saving makes are above the file. -/
theorem length_of_missing {home : Home} {l : Location} (h : l ∈ home.missing) (n : Name) :
    l ≠ home.dir ++ [n] := by
  rintro rfl
  obtain ⟨front, hfront, -, hl⟩ := View.mem_passed.1 h
  have hlen := congrArg List.length hl
  have hle := hfront.length_le
  simp only [dir, List.length_append, List.length_cons, List.length_nil] at hlen
  omega

end Home

/-- A registry path that goes on from a directory that is there down names, some of which may be missing. -/
structure Sited (d : Disk) (path : Path) (home : Home) : Prop where
  admits : admit? path = .ok ()
  last : path.segments.getLast? = some (.name home.name)
  slash : path.endsInSlash = false
  route : path.Extends home.base (home.names ++ [home.name])
  short : ∀ n ∈ home.names ++ [home.name], ¬ n.byteSize > maxName
  enters : d.Enters home.base home.loc
  plain : d.look.Plain home.loc home.names

namespace Sited

variable {d d' : Disk} {path : Path} {home : Home}

theorem plain_of_missing (h : Sited d path home) (hloc : d'.look home.loc = d.look home.loc)
    (hmissing : ∀ l ∈ home.missing, d'.look l = d.look l ∨ d'.look l = some .dir) :
    d'.look.Plain home.loc home.names := by
  intro front hfront
  by_cases hnil : front = []
  · rw [hnil, List.append_nil, hloc]
    exact .inr h.enters.dir
  · rcases hmissing _ (View.mem_passed.2 ⟨front, hfront, hnil, rfl⟩) with hsame | hdir
    · rw [hsame]
      exact h.plain front hfront
    · exact .inr hdir

/-- Where at most new directories are made at the places of a registry, its path goes the same way. -/
theorem of_places (h : Sited d path home) (hcwd : d'.cwd = d.cwd)
    (hlook : ∀ l ∈ home.places d, d'.look l = d.look l ∨ d.look l = none ∧ d'.look l = some .dir) :
    Sited d' path home ∧ home.places d' = home.places d := by
  have hway : ∀ l ∈ d.way home.base true, d'.look l = d.look l := fun l hl =>
    (hlook l (by simp [Home.places, hl])).resolve_right fun hnew => h.enters.look_ne_none hl hnew.1
  obtain ⟨he, hsame⟩ := h.enters.congr hcwd hway
  refine ⟨{ h with enters := he, plain := h.plain_of_missing ?_ fun l hl => ?_ }, ?_⟩
  · exact hway _ (h.enters.mem_way (List.prefix_refl _))
  · exact (hlook l (by simp [Home.places, hl])).imp_right (·.2)
  · rw [Home.places, Home.places, hsame]

/-- The path of the draft goes the same way to another name. -/
theorem route_draft (h : Sited d path home) :
    ∃ front, path.components = front ++ [.name home.name] ∧
      (Registry.draftPath path).Extends home.base
        (home.names ++ [Path.otherName home.name Registry.draftExtension]) ∧
      (Registry.draftPath path).segments.getLast? =
        some (.name (Path.otherName home.name Registry.draftExtension)) ∧
      (Registry.draftPath path).endsInSlash = false := by
  obtain ⟨front, hpath, hdraft, hlast, hslash⟩ := Path.withExtension_eq h.last h.slash
    Registry.slash_notMem_draft Registry.two_le_draft
  exact ⟨front, hpath, h.route.sibling hpath hdraft, hlast, hslash⟩

/-- Making the directory of the registry makes directories on the way down to it only. -/
theorem look_hosted (h : Sited d path home) {l : Location}
    (hl : (Registry.hosted d path).look l ≠ d.look l) : l ∈ home.missing := by
  unfold Registry.hosted at hl
  split at hl
  · next parent hparent =>
      obtain ⟨q, hq, hne, hqe⟩ := newOn_opened d parent l hl
      have hopens := opens_opened d parent
      obtain ⟨front, hpath, -⟩ := h.route_draft
      have hcomponents : path.components = parent.components ++ [.name home.name] := by
        rw [Path.components_parent hparent, hpath, List.dropLast_concat]
      have hroute := h.route.upper hcomponents
      obtain ⟨he, hway⟩ := hopens.enters h.enters
      rcases hroute.cut hne (Path.components_of_mem_ancestors hq) with
        ⟨habsolute, hcourse⟩ | ⟨names, hnames, hext⟩
      · have hsub := he.way_subset hqe habsolute hcourse l (hqe.mem_way (List.prefix_refl l))
        exact absurd (hopens.look_of_ne_none (h.enters.look_ne_none (hway ▸ hsub))) hl
      · have hplain : (d.opened parent).look.Plain home.loc names := fun first hfirst =>
          h.plain_of_missing (hopens.look_of_ne_none (by rw [h.enters.dir]; simp))
            (fun l _ => (hopens.look l).imp_right (·.2)) first (hfirst.trans hnames)
        obtain rfl := he.below hqe hext hplain
        refine View.mem_passed.2 ⟨names, hnames, ?_, rfl⟩
        rintro rfl
        rw [List.append_nil] at hl
        exact hl (hopens.look_of_ne_none (by rw [h.enters.dir]; simp))
  · exact absurd rfl hl

/-- Nor does it change anything in the directory of the registry. -/
theorem look_hosted_name (h : Sited d path home) (n : Name) :
    (Registry.hosted d path).look (home.dir ++ [n]) = d.look (home.dir ++ [n]) := by
  by_contra hl
  exact Home.length_of_missing (h.look_hosted hl) n rfl

theorem hosted (h : Sited d path home) : Sited (Registry.hosted d path) path home :=
  (h.of_places (Registry.opens_hosted d path).cwd fun l _ => (Registry.opens_hosted d path).look l).1

/-- The draft is the entry of its name in the directory of the registry. -/
theorem slot_draft (h : Sited d path home) {follow : Bool} {g : Goal}
    (hg : d.goal (Registry.draftPath path) follow = .ok g) :
    d.Slot (Registry.draftPath path) home.dir
      (Path.otherName home.name Registry.draftExtension) := by
  obtain ⟨front, -, hroute, hlast, hslash⟩ := h.route_draft
  obtain ⟨parent, hslot⟩ := exists_slot_of_goal hlast hslash hg
  obtain ⟨rfl, -⟩ := h.enters.slot_below hroute hlast h.plain hslot
  exact hslot

/-- The draft is no link if none is at its name. -/
theorem isLink_draft (h : Sited d path home) (hdraft : ∀ target, d.look home.draft ≠ some (.link target)) :
    d.isLink (Registry.draftPath path) = false := by
  rw [isLink_eq_false_iff]
  intro target hsee
  obtain ⟨loc, hgoal, hlook⟩ := see_eq_ok_iff.1 hsee
  obtain ⟨front, -, -, -, hslash⟩ := h.route_draft
  rw [(h.slot_draft hgoal).goal hslash (.inl rfl)] at hgoal
  have hloc : loc = home.draft := by
    split at hgoal
    · cases hgoal
    · cases hgoal
      rfl
  exact hdraft target (hloc ▸ hlook)

end Sited

/-- A registry path that leads to its home. No directory stands at its name, nothing but a file at that of
the draft, and the way to the directory does not lead over the name itself. -/
structure Lodged (d : Disk) (path : Path) (home : Home) : Prop where
  admits : admit? path = .ok ()
  last : path.segments.getLast? = some (.name home.name)
  slash : path.endsInSlash = false
  route : path.Extends home.base (home.names ++ [home.name])
  short : ∀ n ∈ home.names ++ [home.name], ¬ n.byteSize > maxName
  enters : d.Enters home.base home.loc
  plain : d.look.Plain home.loc home.names
  leaf : d.look home.file ≠ some .dir
  aside : home.file ∉ d.way home.base true
  draft : d.Writable home.draft

/-- A registry path that leads to its home, with nothing but files at its name and that of the draft. -/
structure Housed (d : Disk) (path : Path) (home : Home) : Prop extends Lodged d path home where
  file : d.Writable home.file

namespace Lodged

variable {d d' : Disk} {path : Path} {home : Home}

/-- A home stays while the way to it does and its names are free. -/
theorem of_way (h : Lodged d path home) (hcwd : d'.cwd = d.cwd)
    (hway : ∀ l ∈ d.way home.base true, d'.look l = d.look l)
    (hplain : d'.look.Plain home.loc home.names) (hleaf : d'.look home.file ≠ some .dir)
    (hdraft : d'.Writable home.draft) : Lodged d' path home := by
  obtain ⟨he, hsame⟩ := h.enters.congr hcwd hway
  exact { h with enters := he, plain := hplain, leaf := hleaf, aside := hsame ▸ h.aside, draft := hdraft }

theorem sited (h : Lodged d path home) : Sited d path home :=
  ⟨h.admits, h.last, h.slash, h.route, h.short, h.enters, h.plain⟩

theorem loc_mem_way (h : Lodged d path home) : home.loc ∈ d.way home.base true :=
  h.enters.mem_way (List.prefix_refl _)

/-- A disk that agrees about the places of the registry has it at the same home. -/
theorem congr (h : Lodged d path home) (hcwd : d'.cwd = d.cwd)
    (hlook : ∀ l ∈ home.places d, d'.look l = d.look l) :
    Lodged d' path home ∧ home.places d' = home.places d := by
  have hway : ∀ l ∈ d.way home.base true, d'.look l = d.look l :=
    fun l hl => hlook l (by simp [Home.places, hl])
  have hfile : d'.look home.file = d.look home.file := hlook _ (by simp [Home.places])
  have hdraft : d'.look home.draft = d.look home.draft := hlook _ (by simp [Home.places])
  refine ⟨h.of_way hcwd hway ?_ (hfile ▸ h.leaf) ?_, ?_⟩
  · exact h.sited.plain_of_missing (hway _ h.loc_mem_way) fun l hl =>
      .inl (hlook l (by simp [Home.places, hl]))
  · rw [Writable, hdraft]
    exact h.draft
  · rw [Home.places, Home.places, (h.enters.congr hcwd hway).2]

/-- A home stays where at most new directories are made at its places, and its names are left free. -/
theorem of_places (h : Lodged d path home) (hcwd : d'.cwd = d.cwd)
    (hlook : ∀ l ∈ home.places d, d'.look l = d.look l ∨ d.look l = none ∧ d'.look l = some .dir)
    (hfile : d'.look home.file ≠ some .dir) (hdraft : d'.look home.draft ≠ some .dir) :
    Lodged d' path home ∧ home.places d' = home.places d ∧
      d'.look home.file = d.look home.file := by
  have hsame : ∀ {l}, l ∈ home.places d → d'.look l ≠ some .dir → d'.look l = d.look l :=
    fun hl hnot => (hlook _ hl).resolve_right fun hnew => hnot hnew.2
  have hfile' := hsame (by simp [Home.places]) hfile
  have hdraft' := hsame (by simp [Home.places]) hdraft
  have hway : ∀ l ∈ d.way home.base true, d'.look l = d.look l := fun l hl =>
    (hlook l (by simp [Home.places, hl])).resolve_right fun hnew => h.enters.look_ne_none hl hnew.1
  refine ⟨h.of_way hcwd hway ?_ hfile ?_, ?_, hfile'⟩
  · exact h.sited.plain_of_missing (hway _ h.loc_mem_way) fun l hl =>
      (hlook l (by simp [Home.places, hl])).imp_right (·.2)
  · rw [Writable, hdraft']
    exact h.draft
  · rw [Home.places, Home.places, (h.enters.congr hcwd hway).2]

/-- New directories leave the registry at its home, if they leave its names free. -/
theorem opens (h : Lodged d path home) (ho : Opens d d') (hfile : d'.look home.file ≠ some .dir)
    (hdraft : d'.look home.draft ≠ some .dir) :
    Lodged d' path home ∧ home.places d' = home.places d ∧
      d'.look home.file = d.look home.file :=
  h.of_places ho.cwd (fun l _ => ho.look l) hfile hdraft

/-! ### Saving -/

theorem hosted (h : Lodged d path home) : Lodged (Registry.hosted d path) path home := by
  refine (h.opens (Registry.opens_hosted d path) ?_ ?_).1
  · rw [Home.file, h.sited.look_hosted_name]
    exact h.leaf
  · rw [Home.draft, h.sited.look_hosted_name]
    exact h.draft.ne_dir

/-- A home stays while only its names are filled. -/
theorem filled (h : Lodged d path home) (hcwd : d'.cwd = d.cwd)
    (hlook : ∀ l, l ≠ home.file → l ≠ home.draft → d'.look l = d.look l)
    (hleaf : d'.look home.file ≠ some .dir) (hdraft : d'.Writable home.draft) :
    Lodged d' path home := by
  have hway : ∀ l ∈ d.way home.base true, d'.look l = d.look l := by
    refine fun l hl => hlook l ?_ ?_
    · rintro rfl
      exact h.aside hl
    · rintro rfl
      exact h.enters.not_writable hl h.draft
  refine h.of_way hcwd hway ?_ hleaf hdraft
  exact h.sited.plain_of_missing (hway _ h.loc_mem_way) fun l hl =>
    .inl (hlook l (Home.length_of_missing hl _) (Home.length_of_missing hl _))

theorem look_written (h : Lodged d path home) {content : String}
    (hw : d.writeText (Registry.draftPath path) content = .ok d') : d'.cwd = d.cwd ∧
      ∃ x, d'.look = Function.update d.look home.draft (some (.file content.toUTF8 x)) := by
  have hwrite : d.write (Registry.draftPath path) content.toUTF8 = .ok d' := hw
  obtain ⟨g, old, hgoal, -, hslash, hsame, hlook⟩ := openFile_ok hwrite
  have hslot := h.sited.slot_draft hgoal
  have hloc : g.location = home.draft := by
    rw [hslot.goal hslash (.inr h.draft.ne_link)] at hgoal
    cases hgoal
    split <;> rfl
  rw [hloc] at hlook
  exact ⟨hsame.cwd, _, hlook⟩

theorem look_replaced (h : Lodged d path home) {content : String} {d'' : Disk}
    (hw : d.writeText (Registry.draftPath path) content = .ok d')
    (hr : d'.rename (Registry.draftPath path) path = .ok d'') : d''.cwd = d.cwd ∧
      ∃ x, d''.look = Function.update (Function.update d.look home.draft none) home.file
        (some (.file content.toUTF8 x)) := by
  obtain ⟨parent, m, n, x, hdraft, hpath, -, -, -, -, -, hcwd, hlook⟩ := Disk.look_replaced
    Registry.slash_notMem_draft Registry.dot_mem_draft Registry.two_le_draft hw hr
    (isLink_eq_false_iff.1 (h.sited.isLink_draft h.draft.ne_link))
  obtain ⟨front, -, hroute, hlast, -⟩ := h.sited.route_draft
  obtain rfl : n = home.name := by
    have := hpath.last.symm.trans h.last
    simpa using this
  obtain rfl : m = Path.otherName home.name Registry.draftExtension := by
    have := hdraft.last.symm.trans hlast
    simpa using this
  obtain ⟨rfl, -⟩ := h.enters.slot_below h.route h.last h.plain hpath
  exact ⟨hcwd, x, hlook⟩

end Lodged

namespace Housed

variable {d d' : Disk} {path : Path} {home : Home}

theorem see (h : Housed d path home) : d.see path true = answer (d.look home.file) :=
  h.enters.see_below h.route h.last h.slash h.plain h.admits h.short (.inr h.file.ne_link)

/-- What loading answers depends on the file only. -/
theorem read_eq (h : Housed d path home) (h' : Housed d' path home)
    (hfile : d'.look home.file = d.look home.file) :
    Registry.read d' path = Registry.read d path := by
  rw [Registry.read, Registry.read, readText_eq, readText_eq, h.see, h'.see, hfile]

/-- A disk that agrees about the places of the registry has it at the same home. -/
theorem congr (h : Housed d path home) (hcwd : d'.cwd = d.cwd)
    (hlook : ∀ l ∈ home.places d, d'.look l = d.look l) :
    Housed d' path home ∧ home.places d' = home.places d := by
  obtain ⟨hlodged, hplaces⟩ := h.toLodged.congr hcwd hlook
  have hfile : d'.look home.file = d.look home.file := hlook _ (by simp [Home.places])
  refine ⟨⟨hlodged, ?_⟩, hplaces⟩
  rw [Writable, hfile]
  exact h.file

/-- A home stays where at most new directories are made at its places, and its names are left free. -/
theorem of_places (h : Housed d path home) (hcwd : d'.cwd = d.cwd)
    (hlook : ∀ l ∈ home.places d, d'.look l = d.look l ∨ d.look l = none ∧ d'.look l = some .dir)
    (hfile : d'.look home.file ≠ some .dir) (hdraft : d'.look home.draft ≠ some .dir) :
    Housed d' path home ∧ home.places d' = home.places d ∧
      d'.look home.file = d.look home.file := by
  obtain ⟨hlodged, hplaces, hsame⟩ := h.toLodged.of_places hcwd hlook hfile hdraft
  refine ⟨⟨hlodged, ?_⟩, hplaces, hsame⟩
  rw [Writable, hsame]
  exact h.file

end Housed

namespace Registry

variable {path : Path} {home : Home} {r r' : Registry} {w : World}

/-- What saving does to a registry at its home: the directories that were missing may be there, the draft
may have changed, and the file is replaced if the save succeeds and stays if it fails. -/
structure Saved (path : Path) (home : Home) (r : Registry) (w : World)
    (run : Except Failure Unit × World) : Prop where
  now : run.2.now = w.now
  cwd : run.2.disk.cwd = w.disk.cwd
  lodged : Lodged run.2.disk path home
  proper : w.disk.Proper → run.2.disk.Proper
  look : ∀ l, run.2.disk.look l ≠ w.disk.look l →
    (l ∈ home.missing ∧ w.disk.look l = none ∧ run.2.disk.look l = some .dir) ∨
      l = home.file ∨ l = home.draft
  failed : ∀ f, run.1 = .error f → run.2.disk.look home.file = w.disk.look home.file
  done : run.1 = .ok () → ∃ content x, r.text = .ok content ∧
    run.2.disk.look home.file = some (.file content.toUTF8 x)

theorem saved (h : Lodged w.disk path home) (r : Registry) :
    Saved path home r w ((r.save path).run w) := by
  obtain ⟨hnow, hcases⟩ := save_cases r path w
  generalize (r.save path).run w = run at hnow hcases
  obtain ⟨answer, w'⟩ := run
  have hhosted := h.hosted
  have hopens := opens_hosted w.disk path
  have hproper : w.disk.Proper → (hosted w.disk path).Proper := fun hw => by
    unfold hosted
    split
    · exact hw.opened _
    · exact hw
  have hfile : (hosted w.disk path).look home.file = w.disk.look home.file := h.sited.look_hosted_name _
  have hmade : ∀ l, (hosted w.disk path).look l ≠ w.disk.look l →
      l ∈ home.missing ∧ w.disk.look l = none ∧ (hosted w.disk path).look l = some .dir :=
    fun l hl => ⟨h.sited.look_hosted hl, (hopens.look l).resolve_left hl⟩
  have hchanged : ∀ {v : View}, (∀ l, l ≠ home.file → l ≠ home.draft →
      v l = (hosted w.disk path).look l) → ∀ l, v l ≠ w.disk.look l →
      (l ∈ home.missing ∧ w.disk.look l = none ∧ v l = some .dir) ∨ l = home.file ∨ l = home.draft := by
    intro v hv l hl
    by_cases hnew : l = home.file ∨ l = home.draft
    · exact .inr hnew
    · rw [not_or] at hnew
      rw [hv l hnew.1 hnew.2] at hl ⊢
      exact .inl (hmade l hl)
  rcases hcases with ⟨f, rfl, hdisk⟩ | ⟨f, content, rfl, -, hw⟩ | ⟨content, d', rfl, htext, hw, hr⟩
  · dsimp only at hdisk
    rcases hdisk with hdisk | hdisk
    · exact ⟨hnow, by rw [hdisk], hdisk ▸ h, hdisk ▸ id, fun l hl => absurd (by rw [hdisk]) hl,
        fun _ _ => by rw [hdisk], by simp⟩
    · exact ⟨hnow, by rw [hdisk, hopens.cwd], hdisk ▸ hhosted, hdisk ▸ hproper,
        fun l hl => .inl (hdisk ▸ hmade l (hdisk ▸ hl)), fun _ _ => by rw [hdisk, hfile], by simp⟩
  · obtain ⟨hcwd, x, hlook⟩ := hhosted.look_written hw
    have hsame : ∀ l, l ≠ home.file → l ≠ home.draft →
        w'.disk.look l = (hosted w.disk path).look l := fun l _ hl => by
      rw [hlook, Function.update_of_ne hl]
    have hkept : w'.disk.look home.file = w.disk.look home.file := by
      rw [hlook, Function.update_of_ne home.file_ne_draft, hfile]
    refine ⟨hnow, hcwd.trans hopens.cwd, hhosted.filled hcwd hsame (hkept ▸ h.leaf) ?_,
      fun hw' => ?_, hchanged hsame, fun _ _ => hkept, by simp⟩
    · exact .inr ⟨content.toUTF8, x, by rw [hlook, Function.update_self]⟩
    · exact (hproper hw').write hw
  · obtain ⟨hcwd, x, hlook⟩ := hhosted.look_replaced hw hr
    have hsame : ∀ l, l ≠ home.file → l ≠ home.draft →
        w'.disk.look l = (hosted w.disk path).look l := fun l hl hl' => by
      rw [hlook, Function.update_of_ne hl, Function.update_of_ne hl']
    have hnew : w'.disk.look home.file = some (.file content.toUTF8 x) := by
      rw [hlook, Function.update_self]
    refine ⟨hnow, hcwd.trans hopens.cwd,
      hhosted.filled hcwd hsame (by rw [hnew]; simp) (.inl ?_), fun hw' => ?_, hchanged hsame, by simp,
      fun _ => ⟨content, x, htext, hnew⟩⟩
    · rw [hlook, Function.update_of_ne home.file_ne_draft.symm, Function.update_self]
    · exact ((hproper hw').write hw).rename hr

namespace Saved

variable {run : Except Failure Unit × World}

/-- A file stands at the name of the registry once it was saved. -/
theorem housed_of_ok (hs : Saved path home r w run) (hok : run.1 = .ok ()) :
    Housed run.2.disk path home := by
  obtain ⟨content, x, -, hfile⟩ := hs.done hok
  exact ⟨hs.lodged, .inr ⟨_, x, hfile⟩⟩

theorem housed (hs : Saved path home r w run) (h : Housed w.disk path home) :
    Housed run.2.disk path home := by
  cases hanswer : run.1 with
  | ok u => exact hs.housed_of_ok hanswer
  | error f =>
      refine ⟨hs.lodged, ?_⟩
      rw [Writable, hs.failed f hanswer]
      exact h.file

/-- What was there is left alone, the file and the draft apart. -/
theorem look_of_ne_none (hs : Saved path home r w run) {l : Location} (hl : w.disk.look l ≠ none)
    (hfile : l ≠ home.file) (hdraft : l ≠ home.draft) : run.2.disk.look l = w.disk.look l := by
  by_contra hchanged
  rcases hs.look l hchanged with ⟨-, hnone, -⟩ | hother
  · exact hl hnone
  · exact hother.elim hfile hdraft

/-- What loading answers after a save: the saved registry if all its entries are readable. -/
theorem read_eq (hs : Saved path home r w run) (hok : run.1 = .ok ())
    (hr : ∀ e ∈ r.entries, e.Readable) : read run.2.disk path = .ok r := by
  obtain ⟨content, x, htext, hfile⟩ := hs.done hok
  have hsee : run.2.disk.see path true = .ok (.file content.toUTF8 x) := by
    rw [(hs.housed_of_ok hok).see, hfile]
    rfl
  rw [read_of_file hsee, mapError_eq_ok_iff, ofText_text_iff htext]
  exact hr

/-- What is loaded after a save is the saved registry, if no name looks like a comment. -/
theorem eq_of_read (hs : Saved path home r w run) (hok : run.1 = .ok ())
    (hr : ∀ e ∈ r.entries, e.name.toList.head? ≠ some '#') (hread : read run.2.disk path = .ok r') :
    r' = r := by
  obtain ⟨content, x, htext, hfile⟩ := hs.done hok
  have hsee : run.2.disk.see path true = .ok (.file content.toUTF8 x) := by
    rw [(hs.housed_of_ok hok).see, hfile]
    rfl
  rw [read_of_file hsee, mapError_eq_ok_iff] at hread
  exact eq_of_ofText_text htext hr hread

/-- After a save that failed loading answers what it did before. -/
theorem read_of_error (hs : Saved path home r w run) (h : Housed w.disk path home) {f : Failure}
    (hfail : run.1 = .error f) : read run.2.disk path = read w.disk path :=
  h.read_eq (hs.housed h) (hs.failed f hfail)

end Saved

end Registry

/-! ### Homes that may be taken -/

/-- A registry path that leads to its home, where neither its name nor that of the draft is a link. A
directory may stand in the way of either. -/
structure Homed (d : Disk) (path : Path) (home : Home) : Prop extends Sited d path home where
  file : ∀ target, d.look home.file ≠ some (.link target)
  draft : ∀ target, d.look home.draft ≠ some (.link target)

theorem Housed.homed {d : Disk} {path : Path} {home : Home} (h : Housed d path home) : Homed d path home :=
  ⟨h.sited, h.file.ne_link, h.draft.ne_link⟩

namespace Homed

variable {d d' : Disk} {path : Path} {home : Home} {r : Registry} {w : World}

/-- A home stays where at most new directories are made at its places. -/
theorem of_places (h : Homed d path home) (hcwd : d'.cwd = d.cwd)
    (hlook : ∀ l ∈ home.places d, d'.look l = d.look l ∨ d.look l = none ∧ d'.look l = some .dir) :
    Homed d' path home ∧ home.places d' = home.places d := by
  obtain ⟨hsited, hplaces⟩ := h.toSited.of_places hcwd hlook
  have hlink : ∀ l ∈ home.places d, (∀ target, d.look l ≠ some (.link target)) →
      ∀ target, d'.look l ≠ some (.link target) := by
    intro l hl hnot target
    rcases hlook l hl with hsame | ⟨-, hdir⟩
    · rw [hsame]
      exact hnot target
    · rw [hdir]
      simp
  exact ⟨⟨hsited, hlink _ (by simp [Home.places]) h.file, hlink _ (by simp [Home.places]) h.draft⟩, hplaces⟩

theorem see (h : Homed d path home) : d.see path true = answer (d.look home.file) :=
  h.enters.see_below h.route h.last h.slash h.plain h.admits h.short (.inr h.file)

/-- What can be read where at most a directory was made in the place of the file could be read before. -/
theorem read_eq_ok (h : Homed d path home) (h' : Homed d' path home)
    (hfile : d'.look home.file = d.look home.file ∨ d'.look home.file = some .dir)
    (hread : Registry.read d' path = .ok r) : Registry.read d path = .ok r := by
  rw [Registry.read, readText_eq, h'.see] at hread
  rcases hfile with hsame | hdir
  · rwa [Registry.read, readText_eq, h.see, ← hsame]
  · rw [hdir] at hread
    cases hread

/-- A registry that can be saved is where nothing but files are in its way. -/
theorem housed_of_save (h : Homed w.disk path home) (hok : ((r.save path).run w).1 = .ok ()) :
    Housed w.disk path home := by
  obtain ⟨-, ⟨f, hfail, -⟩ | ⟨f, content, hfail, -⟩ | ⟨content, d', -, -, hw, hr⟩⟩ := Registry.save_cases r path w
  · cases hok.symm.trans hfail
  · cases hok.symm.trans hfail
  have hhosted := h.toSited.hosted
  have hdraft := h.toSited.look_hosted_name (Path.otherName home.name Registry.draftExtension)
  have hfile := h.toSited.look_hosted_name home.name
  obtain ⟨parent, m, n, x, hdraftSlot, hpath, -, -, hm, hn, -⟩ := Disk.look_replaced
    Registry.slash_notMem_draft Registry.dot_mem_draft Registry.two_le_draft hw hr
    (isLink_eq_false_iff.1 (hhosted.isLink_draft fun target => by
      show (Registry.hosted w.disk path).look (home.dir ++ [_]) ≠ _
      rw [hdraft]
      exact h.draft target))
  obtain ⟨front, -, hroute, hlast, -⟩ := hhosted.route_draft
  obtain rfl : n = home.name := by
    have := hpath.last.symm.trans h.last
    simpa using this
  obtain rfl : m = Path.otherName home.name Registry.draftExtension := by
    have := hdraftSlot.last.symm.trans hlast
    simpa using this
  obtain ⟨rfl, -⟩ := hhosted.enters.slot_below hhosted.route h.last hhosted.plain hpath
  have hfile' := Writable.of_ne (fun hdir => hn (hfile.trans hdir)) h.file
  have hdraft' := Writable.of_ne (fun hdir => hm (hdraft.trans hdir)) h.draft
  exact ⟨⟨h.admits, h.last, h.slash, h.route, h.short, h.enters, h.plain, hfile'.ne_dir,
    fun hl => h.enters.not_writable hl hfile', hdraft'⟩, hfile'⟩

end Homed

end Sideload
