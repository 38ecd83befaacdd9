import Sideload.Disk.Copy
import Sideload.Proofs.Disk.Detour
import Sideload.Proofs.Disk.Proper

/-!
What building a tree leaves alone. Files and directories are made at or below the top of the new tree;
as there are no links in it, no path below the top leads out of it.
-/

namespace Sideload

namespace Disk

variable {d d' d'' : Disk} {dir p q : Path} {top loc l : Location} {n : Name}

/-! ### One name in a directory -/

/-- A place for a file: there is nothing, or a file. -/
def Writable (d : Disk) (loc : Location) : Prop :=
  d.look loc = none ∨ ∃ content x, d.look loc = some (.file content x)

theorem Writable.ne_dir (h : d.Writable loc) : d.look loc ≠ some .dir := by
  rcases h with h | ⟨content, x, h⟩ <;> rw [h] <;> nofun

theorem Writable.ne_link (h : d.Writable loc) (target : Path) :
    d.look loc ≠ some (.link target) := by
  rcases h with h | ⟨content, x, h⟩ <;> rw [h] <;> nofun

theorem Writable.of_ne (hdir : d.look loc ≠ some .dir) (hlink : ∀ target, d.look loc ≠ some (.link target)) :
    d.Writable loc := by
  rcases hlabel : d.look loc with _ | ⟨content, x⟩ | target | _
  · exact .inl hlabel
  · exact .inr ⟨content, x, hlabel⟩
  · exact absurd hlabel (hlink target)
  · exact absurd hlabel hdir

/-- Nothing on the disk changes but at one location, if there is a place for a file; and no link is
made there. -/
structure Fills (loc : Location) (d d' : Disk) : Prop where
  cwd : d'.cwd = d.cwd
  look : ∀ l, d'.look l = d.look l ∨ l = loc ∧ d.Writable l ∧ ∀ target, d'.look l ≠ some (.link target)
  proper : d.Proper → d'.Proper

theorem Fills.refl (loc : Location) (d : Disk) : Fills loc d d := ⟨rfl, fun _ => .inl rfl, id⟩

theorem Fills.of_update {label : Label} (hcwd : d'.cwd = d.cwd) (hold : d.Writable loc)
    (hnew : ∀ target, label ≠ .link target)
    (hlook : d'.look = Function.update d.look loc (some label)) (hproper : d.Proper → d'.Proper) :
    Fills loc d d' := by
  refine ⟨hcwd, fun l => ?_, hproper⟩
  rw [hlook]
  by_cases hl : l = loc
  · rw [hl, Function.update_self]
    exact .inr ⟨rfl, hold, fun target h => hnew target (Option.some_inj.1 h)⟩
  · exact .inl (Function.update_of_ne hl _ _)

theorem Fills.trans (h : Fills loc d d') (h' : Fills loc d' d'') : Fills loc d d'' := by
  refine ⟨h'.cwd.trans h.cwd, fun l => ?_, fun hd => h'.proper (h.proper hd)⟩
  rcases h'.look l with hsame | ⟨rfl, hold, hnew⟩
  · rw [hsame]
    exact h.look l
  · refine .inr ⟨rfl, ?_, hnew⟩
    rcases h.look l with hfirst | ⟨-, hfirst, -⟩
    · rwa [Writable, ← hfirst]
    · exact hfirst

theorem Fills.sameOff (h : Fills loc d d') : SameOff loc d d' :=
  ⟨h.cwd, fun l hl => (h.look l).resolve_right fun hchanged => hl (hchanged.1 ▸ List.prefix_refl l)⟩

/-- Only directories and links are on the way to a directory. -/
theorem Enters.not_writable (h : d.Enters dir loc) (hl : l ∈ d.way dir true) : ¬ d.Writable l := by
  obtain ⟨-, hbegin, -⟩ := goal_eq_ok_iff.1 h.goal
  have habove : ∀ l, l <+: d.origin dir → d.look l = some .dir :=
    fun l hl => look_eq_dir_above hbegin hl
  rintro (hnone | ⟨content, x, hfile⟩)
  · exact h.look_ne_none hl hnone
  · rcases List.mem_append.1 hl with hl | hl
    · cases (habove l ((List.mem_inits _ _).1 hl)).symm.trans hfile
    · obtain ⟨links, hseek⟩ := h.seek
      have hne : l ≠ [] := by
        rintro rfl
        cases (habove [] List.nil_prefix).symm.trans hfile
      refine View.not_file_of_seek_here (congrArg Trip.ending hseek) ?_ hne
        content x hfile
      rw [hseek]
      exact hl

/-- The way to a directory is not filled, so it stays. -/
theorem Fills.enters (h : Fills loc d d') (he : d.Enters dir l) :
    d'.Enters dir l ∧ d'.way dir true = d.way dir true :=
  he.congr h.cwd fun _ hl =>
    (h.look _).resolve_right fun hchanged => he.not_writable hl hchanged.2.1

/-- A directory whose path has one more name is the entry of that name, unless the entry is a link. -/
theorem Enters.child (h : d.Enters dir loc) (hq : d.Enters q l) (hext : q.Extends dir [n])
    (hlink : ∀ target, d.look (loc ++ [n]) ≠ some (.link target)) : l = loc ++ [n] := by
  obtain ⟨links, hseek⟩ := h.seek
  obtain ⟨links', hseek'⟩ := hq.seek
  have horigin : d.origin q = d.origin dir := by rw [origin, origin, hext.absolute]
  rw [hext.course, List.append_assoc, View.seek_append _ _ _ _ _ (by simp), horigin, hseek,
    Trip.andThen] at hseek'
  have hend := congrArg Trip.ending hseek'
  simp only [Goal.location_present, List.map_cons, List.map_nil, List.singleton_append] at hend
  by_cases hlong : n.byteSize > maxName
  · rw [View.seek_long hlong] at hend
    cases hend
  cases hlook : d.look (loc ++ [n]) with
  | none =>
      rw [View.seek_none hlong hlook] at hend
      cases hend
  | some label =>
      cases label with
      | file content x =>
          rw [View.seek_file hlong hlook] at hend
          cases hend
      | link target => exact absurd hlook (hlink target)
      | dir =>
          rw [View.seek_dir hlong hlook, View.seek_here, View.seek_nil] at hend
          cases hend
          rfl

/-- Where a path leads that has one more name. -/
theorem Enters.goal_child (h : d.Enters dir loc) (hext : q.Extends dir [n])
    (hlast : q.segments.getLast? = some (.name n)) (hslash : q.endsInSlash = false)
    (hlink : ∀ target, d.look (loc ++ [n]) ≠ some (.link target)) {g : Goal}
    (hg : d.goal q true = .ok g) : g.location = loc ++ [n] ∧ d.Slot q loc n := by
  obtain ⟨hadmits, -, links, hend⟩ := goal_eq_ok_iff.1 hg
  obtain ⟨links', htrip⟩ := h.leadTrip hext hlast
  have hshort : ¬ n.byteSize > maxName := by
    intro hlong
    rw [trip_eq_lead hlast hslash, htrip, Trip.andThen] at hend
    simp only [View.seek_long hlong] at hend
    cases hend
  have hslot := (h.slot hext hadmits hlast hshort).1
  rw [hslot.goal hslash (.inr hlink)] at hg
  cases hg
  refine ⟨?_, hslot⟩
  split <;> rfl

/-- A name in a directory, or why nothing can have it. -/
theorem Enters.slot_or_fault (h : d.Enters dir loc) (hq : q.Adds dir n) :
    (d.Slot q loc n ∧ d.approach q = d.way dir true) ∨
      ∃ e, d.see q false = .error e ∧ e.isMissing = false := by
  cases hadmits : admit? q with
  | error e =>
      refine .inr ⟨e, by rw [see, Disk.goal, hadmits], ?_⟩
      unfold admit? at hadmits
      split at hadmits
      · cases hadmits
        rfl
      · rw [if_neg (by rw [hq.isEmpty]; simp)] at hadmits
        split at hadmits
        · cases hadmits
          rfl
        · cases hadmits
  | ok u =>
      by_cases hshort : n.byteSize > maxName
      · obtain ⟨links, htrip⟩ := h.leadTrip hq.route hq.last
        obtain ⟨-, hbegin, -⟩ := goal_eq_ok_iff.1 h.goal
        have horigin : d.origin q = d.origin dir := by rw [origin, origin, hq.route.absolute]
        refine .inr ⟨.os .nameTooLong, ?_, rfl⟩
        have hend : (d.trip q false).ending = .error .nameTooLong := by
          rw [trip_eq_lead hq.last hq.slash, htrip, Trip.andThen]
          simp only [Goal.location_present, View.seek_long hshort]
        rw [see, Disk.goal, hadmits, horigin, hbegin, hend]
      · exact .inl (h.slot hq.route hadmits hq.last hshort)

/-- The way to a directory and one name further. -/
theorem Enters.way_child (h : d.Enters dir loc) (hext : q.Extends dir [n])
    (hlast : q.segments.getLast? = some (.name n)) (hslash : q.endsInSlash = false)
    (hlink : ∀ target, d.look (loc ++ [n]) ≠ some (.link target)) :
    ∀ l ∈ d.way q true, l ∈ d.way dir true ∨ l = loc ++ [n] := by
  obtain ⟨links, htrip⟩ := h.leadTrip hext hlast
  have horigin : d.origin q = d.origin dir := by rw [origin, origin, hext.absolute]
  intro l hl
  rw [way, trip_eq_lead hlast hslash, htrip, Trip.andThen, horigin] at hl
  simp only [Goal.location_present, List.mem_append] at hl
  rcases hl with hl | hl | hl
  · exact .inl (List.mem_append_left _ hl)
  · exact .inl (List.mem_append_right _ hl)
  · by_cases hlong : n.byteSize > maxName
    · rw [View.seek_long hlong] at hl
      cases hl
    · rw [View.seek_name hlong (.inr hlink)] at hl
      exact .inr (List.mem_singleton.1 hl)

/-! ### Filling an entry -/

section Child

variable (h : d.Enters dir loc) (hq : q.Adds dir n)
  (hlink : ∀ target, d.look (loc ++ [n]) ≠ some (.link target))
include h hq hlink

/-- What writing makes of a file of a directory. -/
theorem look_openFile {change : Option (ByteArray × Bool) → ByteArray × Bool}
    (ho : d.openFile q change = .ok d') : ∃ old, d'.cwd = d.cwd ∧
      d.look (loc ++ [n]) = old.map (fun f : ByteArray × Bool => Label.file f.1 f.2) ∧
      d'.look = Function.update d.look (loc ++ [n])
        (some (.file (change old).1 (change old).2)) := by
  obtain ⟨g, old, hgoal, hold, -, hsame, hlook⟩ := openFile_ok ho
  obtain ⟨hloc, -⟩ := h.goal_child hq.route hq.last hq.slash hlink hgoal
  rw [hloc] at hold hlook
  exact ⟨old, hsame.cwd, hold, hlook⟩

/-- A file of a directory that is written. -/
theorem openFile_adds {change : Option (ByteArray × Bool) → ByteArray × Bool}
    (ho : d.openFile q change = .ok d') :
    Fills (loc ++ [n]) d d' ∧ ∃ content x, d'.look (loc ++ [n]) = some (.file content x) := by
  obtain ⟨old, hcwd, hold, hlook⟩ := look_openFile h hq hlink ho
  refine ⟨.of_update hcwd ?_ ?_ hlook (·.openFile ho), (change old).1, (change old).2, ?_⟩
  · rw [Writable, hold]
    cases old with
    | none => exact .inl rfl
    | some f => exact .inr ⟨f.1, f.2, rfl⟩
  · simp
  · rw [hlook, Function.update_self]

theorem write_adds {content : ByteArray} (hw : d.write q content = .ok d') :
    Fills (loc ++ [n]) d d' := (openFile_adds h hq hlink hw).1

/-- A file that is copied into a directory. -/
theorem copyFile_adds {src : Path} (hc : d.copyFile src q = .ok d') :
    Fills (loc ++ [n]) d d' ∧ ∃ content x, d'.look (loc ++ [n]) = some (.file content x) := by
  unfold copyFile at hc
  simp only [bind, Except.bind] at hc
  split at hc
  · cases hc
  · split at hc
    · split at hc
      · cases hc
      · next empty hempty =>
          split at hc
          · cases hc
          · obtain ⟨hfills, content, x, hfile⟩ := openFile_adds h hq hlink hempty
            have hlink' : ∀ target, empty.look (loc ++ [n]) ≠ some (.link target) := by
              rw [hfile]
              simp
            obtain ⟨hfills', hfile'⟩ := openFile_adds (hfills.enters h).1 hq hlink' hc
            exact ⟨hfills.trans hfills', hfile'⟩
    · cases hc

/-- A directory that is made in a directory. -/
theorem createDirAll_adds : Fills (loc ++ [n]) d (d.opened q) ∧
    (((DiskM.createDirAll q).run d).1 = .ok () → (d.opened q).Enters q (loc ++ [n])) := by
  have hopens := opens_opened d q
  have hnew := newOn_opened d q
  obtain ⟨he, hway⟩ := hopens.enters h
  have hlink' : ∀ target, (d.opened q).look (loc ++ [n]) ≠ some (.link target) := by
    intro target
    rcases hopens.look (loc ++ [n]) with hsame | ⟨-, hdir⟩
    · rw [hsame]
      exact hlink target
    · rw [hdir]
      simp
  refine ⟨⟨hopens.cwd, fun l => ?_, (·.opened _)⟩, fun hok => ?_⟩
  · rcases hopens.look l with hsame | ⟨hnone, hdir⟩
    · exact .inl hsame
    · refine .inr ⟨?_, .inl hnone, fun target => by rw [hdir]; simp⟩
      obtain ⟨r, hr, hne, hre⟩ := hnew l (by rw [hnone, hdir]; simp)
      rcases hq.upper r hne (Path.components_of_mem_ancestors hr) with hroute | ⟨habsolute, hcourse⟩
      · exact he.child hre hroute hlink'
      · have hsub := he.way_subset hre habsolute hcourse l (hre.mem_way (List.prefix_refl l))
        exact absurd hnone (h.look_ne_none (hway ▸ hsub))
  · obtain ⟨l, hl⟩ := isDir_iff.1 ((DiskM.createDirAll_spec _ d).2.2 hok hq.isEmpty)
    have hloc := he.child hl hq.route hlink'
    exact hloc ▸ hl

end Child

/-! ### Trees -/

/-- A tree grew at or below its top: no directory is lost and no link is made. -/
structure Grows (top : Location) (d d' : Disk) : Prop extends SameOff top d d' where
  dirs : ∀ l, d.look l = some .dir → d'.look l = some .dir
  links : ∀ l target, d'.look l = some (.link target) → d.look l = some (.link target)
  proper : d.Proper → d'.Proper

theorem Fills.grows (h : Fills loc d d') (hle : top <+: loc) : Grows top d d' := by
  refine ⟨h.sameOff.mono hle, fun l hdir => ?_, fun l target hlink => ?_, h.proper⟩
  · rcases h.look l with hsame | ⟨-, hold, -⟩
    · rw [hsame, hdir]
    · exact absurd hdir hold.ne_dir
  · rcases h.look l with hsame | ⟨-, -, hnew⟩
    · rw [← hsame, hlink]
    · exact absurd hlink (hnew target)

theorem Grows.refl (top : Location) (d : Disk) : Grows top d d :=
  ⟨.refl top d, fun _ h => h, fun _ _ h => h, id⟩

theorem Grows.trans (h : Grows top d d') (h' : Grows top d' d'') : Grows top d d'' :=
  ⟨h.toSameOff.trans h'.toSameOff, fun l hl => h'.dirs l (h.dirs l hl),
    fun l target hl => h.links l target (h'.links l target hl), fun hd => h'.proper (h.proper hd)⟩

/-- There is no link at or below a location. -/
def NoLinks (top : Location) (d : Disk) : Prop :=
  ∀ l, top <+: l → ∀ target, d.look l ≠ some (.link target)

theorem NoLinks.grows (h : NoLinks top d) (hg : Grows top d d') : NoLinks top d' :=
  fun l hl target hlink => h l hl target (hg.links l target hlink)

/-- A path leads to a directory of a tree, and it meets only directories in the tree. -/
structure Within (top : Location) (d : Disk) (dir : Path) (loc : Location) : Prop where
  enters : d.Enters dir loc
  below : top <+: loc
  clean : ∀ l ∈ d.way dir true, top <+: l → d.look l = some .dir

theorem Within.grows (h : Within top d dir loc) (hg : Grows top d d') : Within top d' dir loc := by
  have hsame : ∀ l ∈ d.way dir true, d'.look l = d.look l := by
    intro l hl
    by_cases hpre : top <+: l
    · rw [h.clean l hl hpre, hg.dirs l (h.clean l hl hpre)]
    · exact hg.look l hpre
  obtain ⟨he, hway⟩ := h.enters.congr hg.cwd hsame
  exact ⟨he, h.below, fun l hl hpre => hg.dirs l (h.clean l (hway ▸ hl) hpre)⟩

/-- Directories are found where they were while a tree without links grows. -/
theorem Grows.enters (h : Grows top d d') (hlinks : NoLinks top d) (he : d.Enters p loc) :
    d'.Enters p loc := by
  refine (he.congr h.cwd fun l hl => ?_).1
  by_cases hpre : top <+: l
  · have hdir : d.look l = some .dir := by
      cases hlook : d.look l with
      | none => exact absurd (.inl hlook) (he.not_writable hl)
      | some label =>
          cases label with
          | file content x => exact absurd (.inr ⟨content, x, hlook⟩) (he.not_writable hl)
          | link target => exact absurd hlook (hlinks l hpre target)
          | dir => rfl
    rw [hdir, h.dirs l hdir]
  · exact h.look l hpre

/-- An empty directory is the top of a tree without links. -/
theorem Enters.noLinks_of_empty (h : d.Enters dir top) (hempty : ∀ rel, rel ≠ [] → d.look (top ++ rel) = none) :
    NoLinks top d := by
  rintro _ ⟨rel, rfl⟩ target
  by_cases hnil : rel = []
  · rw [hnil, List.append_nil, h.dir]
    simp
  · rw [hempty rel hnil]
    simp

theorem Enters.within_of_empty (h : d.Enters dir top) (hempty : ∀ rel, rel ≠ [] → d.look (top ++ rel) = none) :
    Within top d dir top := by
  refine ⟨h, List.prefix_refl _, ?_⟩
  rintro _ hl ⟨rel, rfl⟩
  by_cases hnil : rel = []
  · rw [hnil, List.append_nil, h.dir]
  · exact absurd (hempty rel hnil) (h.look_ne_none hl)

/-- The names that are listed in a directory are names of entries. -/
theorem Proper.list {es : List (Name × Node)} (h : d.Proper) (hl : d.list p = .ok es) :
    ∀ e ∈ es, e.1.Proper := by
  have hlookup : ∀ {es : List (Name × Node)} {e}, e ∈ es → Node.lookup? e.1 es ≠ none := by
    intro es e he
    induction es with
    | nil => cases he
    | cons f fs ih =>
        rw [Node.lookup?]
        split
        · simp
        · next hne =>
            rcases List.mem_cons.1 he with rfl | he
            · exact absurd rfl hne
            · exact ih he
  unfold Disk.list stat at hl
  rcases find_eq d p true with ⟨s, hfind, hfits, -⟩ | ⟨e, hfind, -⟩ <;>
    rw [hfind] at hl <;> simp only [bind, Except.bind] at hl
  · cases s with
    | vacant c n => cases hl
    | present c =>
        simp only at hl
        split at hl
        · next es' hnode =>
            cases hl
            intro e he
            have hthere : d.look (c.location ++ [e.1]) ≠ none := by
              rw [look_child_slot hfits, hnode, Ne, Option.map_eq_none_iff]
              exact hlookup he
            exact h.look _ hthere e.1 (by simp)
        · cases hl
  · cases hl

namespace Within

variable {d d' : Disk} {dir : Path} {top loc : Location} {n : Name}

section Join

variable {q : Path} (h : Within top d dir loc) (hlinks : NoLinks top d) (hq : q.Adds dir n)
include h hlinks hq

theorem write_adds {content : ByteArray} (hw : d.write q content = .ok d') : Grows top d d' :=
  (Disk.write_adds h.enters hq (hlinks _ (h.below.trans (List.prefix_append loc [n]))) hw).grows
    (h.below.trans (List.prefix_append loc [n]))

theorem copyFile_adds {src : Path} (hc : d.copyFile src q = .ok d') : Grows top d d' :=
  (Disk.copyFile_adds h.enters hq (hlinks _ (h.below.trans (List.prefix_append loc [n]))) hc).1.grows
    (h.below.trans (List.prefix_append loc [n]))

theorem createDirAll_adds : Grows top d (d.opened q) ∧
    (((DiskM.createDirAll q).run d).1 = .ok () → Within top (d.opened q) q (loc ++ [n])) := by
  have hbelow := h.below.trans (List.prefix_append loc [n])
  obtain ⟨hfills, hmade⟩ := Disk.createDirAll_adds h.enters hq (hlinks _ hbelow)
  have hgrows := hfills.grows hbelow
  refine ⟨hgrows, fun hok => ⟨hmade hok, hbelow, fun l hl hpre => ?_⟩⟩
  have hgrown := h.grows hgrows
  rcases hgrown.enters.way_child hq.route hq.last hq.slash (hlinks.grows hgrows _ hbelow) l hl
    with hl | rfl
  · exact hgrown.clean l hl hpre
  · exact (hmade hok).dir

end Join

end Within

/-- A directory that was made where there was nothing is the top of a new tree. -/
theorem within_made {d' : Disk} (h : d.Enters dir loc) (hq : q.Adds dir n)
    (hgone : Gone (loc ++ [n]) d) (hfills : Fills (loc ++ [n]) d d')
    (he : d'.Enters q (loc ++ [n])) : Within (loc ++ [n]) d' q (loc ++ [n]) := by
  refine ⟨he, List.prefix_refl _, fun l hl hpre => ?_⟩
  obtain ⟨hdir, hway⟩ := hfills.enters h
  rcases hdir.way_child hq.route hq.last hq.slash
    (fun target hlink => nomatch he.dir.symm.trans hlink) l hl with hl | rfl
  · rw [hway] at hl
    exact absurd (hgone l hpre) (h.look_ne_none hl)
  · exact he.dir

end Disk

/-! ### Copying -/

open Disk

/-- A tree grew, and no time passed. -/
structure World.Grows (top : Location) (w w' : World) : Prop where
  disk : Disk.Grows top w.disk w'.disk
  now : w'.now = w.now

theorem World.Grows.refl (top : Location) (w : World) : World.Grows top w w := ⟨.refl top w.disk, rfl⟩

theorem World.Grows.trans {top : Location} {w w' w'' : World} (h : w.Grows top w')
    (h' : w'.Grows top w'') : w.Grows top w'' := ⟨h.disk.trans h'.disk, h'.now.trans h.now⟩

theorem World.Grows.log {ε : Type} {top : Location} {w w' : World} (h : w.Grows top w')
    {level : Log.Level} {topic : Log.Topic} {text : String} :
    w.Grows top ((Work.log level topic text : Work ε Unit).run w').2 :=
  h.trans ⟨.refl top w'.disk, rfl⟩

theorem World.Grows.change {top : Location} {w : World} {f : Disk → Except IoError Disk}
    (h : ∀ d, f w.disk = .ok d → Disk.Grows top w.disk d) : w.Grows top ((Work.change f).run w).2 := by
  rw [Work.run_change]
  cases hf : f w.disk with
  | error e => exact .refl top w
  | ok d => exact ⟨h d hf, rfl⟩

/-- One round of the copy of a directory. -/
def copyRound (dst : Path) (depth : Nat) (above : List Ancestor) (dir target : Path) (count : Nat)
    (entry : Name × Node) : Work IoError Nat := do
  let path := dir.join (.ofName entry.1)
  let isDir ← Work.ask fun d => classify d above path entry.2
  let copy := target.join (.ofName entry.1)
  match path.sameAs dst || dst.parent?.any path.sameAs, isDir with
  | true, _ => return count
  | false, true =>
    Work.onDisk (DiskM.createDirAll copy)
    return count + (← copyEntries dst depth above path copy)
  | false, false =>
    Work.log .trace .files s!"copy {path.quoted} -> {copy.quoted}"
    Work.change (·.copyFile path copy)
    return count + 1

theorem copyEntries_succ (dst : Path) (depth : Nat) (above : List Ancestor) (dir target : Path) :
    copyEntries dst (depth + 1) above dir target = (do
      let here ← Work.ask fun d => (d.locate dir).mapError (.walking dir)
      let found ← Work.ask fun d => (d.list dir).mapError (.walking dir)
      found.foldlM (copyRound dst depth (⟨dir, here⟩ :: above) dir target) 0) := rfl

/-- In each round a copied tree grows in the directory that it is copied into. -/
theorem copyRound_grows {top : Location} {dst : Path} {depth : Nat} {above : List Ancestor}
    (dir target : Path) {loc : Location} {w : World} {entry : Name × Node} (count : Nat)
    (hin : Within top w.disk target loc) (hlinks : NoLinks top w.disk) (hproper : w.disk.Proper)
    (hname : entry.1.Proper)
    (ih : ∀ {w : World} {loc : Location} (dir target : Path), Within top w.disk target loc →
      NoLinks top w.disk → w.disk.Proper →
      w.Grows top ((copyEntries dst depth above dir target).run w).2) :
    w.Grows top ((copyRound dst depth above dir target count entry).run w).2 := by
  refine Work.run_ask_keeps (.refl top w) fun isDir _ => ?_
  dsimp only
  generalize ((dir.join (.ofName entry.1)).sameAs dst || dst.parent?.any _) = leftOut
  match leftOut, isDir with
  | true, _ => exact .refl top w
  | false, true =>
      obtain ⟨hgrown, hmade⟩ := hin.createDirAll_adds hlinks (target.adds_join hname)
      have hs : w.Grows top ⟨w.disk.opened (target.join (.ofName entry.1)), w.now, w.log⟩ :=
        ⟨hgrown, rfl⟩
      refine run_bind_keeps hs fun _ t ht _ => ?_
      rw [Work.run_onDisk, Prod.mk.injEq] at ht
      obtain ⟨hok, rfl⟩ := ht
      exact run_map_keeps (hs.trans (ih (w := ⟨w.disk.opened (target.join (.ofName entry.1)), w.now, w.log⟩)
        _ _ (hmade hok) (hlinks.grows hgrown) (hgrown.proper hproper)))
  | false, false =>
      refine run_bind_keeps (World.Grows.refl top w).log fun _ t _ ht => ?_
      exact run_map_keeps (ht.trans (.change fun d hd =>
        (hin.grows ht.disk).copyFile_adds (hlinks.grows ht.disk) (target.adds_join hname) hd))

/-- A copied tree grows in the directory that it is copied into. -/
theorem copyEntries_grows {top : Location} (dst : Path) (depth : Nat) (above : List Ancestor)
    (dir target : Path) {loc : Location} (w : World) (hin : Within top w.disk target loc)
    (hlinks : NoLinks top w.disk) (hproper : w.disk.Proper) :
    w.Grows top ((copyEntries dst depth above dir target).run w).2 := by
  induction depth generalizing above dir target loc w with
  | zero => exact .refl top w
  | succ depth ih =>
      rw [copyEntries_succ]
      refine Work.run_ask_keeps (.refl top w) fun here _ => ?_
      refine Work.run_ask_keeps (.refl top w) fun found hfound => ?_
      refine run_foldlM (fun count entry hmem s hs => ?_) 0 w (.refl top w)
      have hname : entry.1.Proper := hproper.list (mapError_eq_ok_iff.1 hfound) _ hmem
      exact hs.trans (copyRound_grows dir target count (hin.grows hs.disk) (hlinks.grows hs.disk)
        (hs.disk.proper hproper) hname fun {w loc} dir target hin hlinks hproper =>
          ih (⟨_, here⟩ :: above) dir target w hin hlinks hproper)

/-- Nothing is copied to a path where no directory can be made. -/
theorem copyTree_unmade (src : Path) {q : Path} {w : World} {e : IoError}
    (h : ((DiskM.createDirAll q).run w.disk).1 = .error e) :
    (copyTree src q).run w = (.error e, ⟨w.disk.opened q, w.now, w.log⟩) := by
  rw [copyTree, run_bind, Work.run_onDisk, h]
  rfl

/-- A tree that is copied to a directory of a tree without links grows there. -/
theorem copyTree_within (src : Path) {q : Path} {top loc : Location} {w : World}
    (hmade : ((DiskM.createDirAll q).run w.disk).1 = .ok ())
    (hin : Within top (w.disk.opened q) q loc) (hlinks : NoLinks top (w.disk.opened q))
    (hproper : w.disk.Proper) :
    World.Grows top ⟨w.disk.opened q, w.now, w.log⟩ ((copyTree src q).run w).2 := by
  have hmake : (Work.onDisk (DiskM.createDirAll q)).run w =
      (.ok (), ⟨w.disk.opened q, w.now, w.log⟩) := by
    rw [Work.run_onDisk, hmade]
    rfl
  rw [copyTree, run_bind_of_ok hmake]
  refine Work.run_ask_keeps (.refl _ _) fun node _ => ?_
  refine Work.run_ask_keeps (.refl _ _) fun isDir _ => ?_
  split
  · exact copyEntries_grows _ _ _ _ _ _ hin hlinks (hproper.opened q)
  · exact .refl _ _

/-- A tree is copied to a name that a directory does not have. Nothing else changes, and when it is
copied the name leads to a directory without links. -/
theorem copyTree_grows (src : Path) {dir q : Path} {loc : Location} {n : Name} {w : World}
    (h : w.disk.Enters dir loc) (hq : q.Adds dir n) (hgone : Gone (loc ++ [n]) w.disk)
    (hproper : w.disk.Proper) :
    w.Grows (loc ++ [n]) ((copyTree src q).run w).2 ∧
      ∀ count, ((copyTree src q).run w).1 = .ok count →
        Within (loc ++ [n]) ((copyTree src q).run w).2.disk q (loc ++ [n]) := by
  have hlinks : NoLinks (loc ++ [n]) w.disk := fun l hl target => by
    rw [hgone l hl]
    simp
  obtain ⟨hfills, hmade⟩ := createDirAll_adds h hq (hlinks _ (List.prefix_refl _))
  have hstart : w.Grows (loc ++ [n]) ⟨w.disk.opened q, w.now, w.log⟩ :=
    ⟨hfills.grows (List.prefix_refl _), rfl⟩
  cases hrun : ((DiskM.createDirAll q).run w.disk).1 with
  | error e =>
      rw [copyTree_unmade src hrun]
      exact ⟨hstart, nofun⟩
  | ok u =>
      have hin := within_made h hq hgone hfills (hmade hrun)
      have hgrows := copyTree_within src hrun hin (hlinks.grows hstart.disk) hproper
      exact ⟨hstart.trans hgrows, fun _ _ => hin.grows hgrows.disk⟩

end Sideload
