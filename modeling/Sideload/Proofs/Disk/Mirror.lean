import Sideload.Proofs.Disk.Canonical
import Sideload.Proofs.Disk.Listing
import Sideload.Proofs.Disk.Making
import Sideload.Proofs.Disk.Walk
import Sideload.Proofs.Disk.Written

/-!
Whether a tree can be copied. A copy that has room ends in one of two ways: a link on the walk stops it, and
the answer is what `Fault` says about that link; or no link stops it, and the answer is the number of files
of the copy. Each round leaves the source as it is and the copy without anything wrong in it, so nothing
else can go amiss.
-/

namespace Sideload

/-! ### Telling directories from other entries -/

theorem Node.label_of_isLink {node : Node} (h : node.isLink = true) :
    ∃ target, node.label = .link target := by
  cases node with
  | link target => exact ⟨target, rfl⟩
  | file content x => cases h
  | dir es => cases h

theorem Node.isLink_of_label {node : Node} {target : Path} (h : node.label = .link target) :
    node.isLink = true := by
  cases node with
  | link target => rfl
  | file content x => cases h
  | dir es => cases h

namespace Disk

section Classify

variable {d : Disk} {above : List Ancestor} {p : Path} {node : Node}

theorem classify_plain (h : node.isLink = false) : classify d above p node = .ok node.isDir := by
  unfold classify
  rw [if_neg (by rw [h]; simp)]

variable (h : node.isLink = true)
include h

theorem classify_dangling {e : IoError} (hsee : d.see p true = .error e) :
    classify d above p node = .error (.walking p e) := by
  unfold classify
  rw [if_pos h]
  rw [← stat_label] at hsee
  cases hstat : d.stat p with
  | ok m =>
      rw [hstat] at hsee
      cases hsee
  | error e' =>
      rw [hstat] at hsee
      cases hsee
      rfl

theorem classify_other {label : Label} (hsee : d.see p true = .ok label) (hdir : label ≠ .dir) :
    classify d above p node = .ok false := by
  unfold classify
  rw [← stat_label] at hsee
  obtain ⟨m, hstat, hlabel⟩ := map_label_eq_ok.1 hsee
  rw [if_pos h, hstat]
  dsimp only [Except.mapError, bind, Except.bind]
  rw [if_neg fun hisDir => hdir (hlabel.symm.trans (Node.isDir_iff.1 hisDir))]

theorem classify_entered {loc : Location} (he : d.Enters p loc) : classify d above p node =
    match above.find? (·.location = loc) with
    | some a => .error (.loop p a.path)
    | none => .ok true := by
  unfold classify
  have hsee := see_eq_ok_iff.2 ⟨loc, he.goal, he.dir⟩
  rw [← stat_label] at hsee
  obtain ⟨m, hstat, hlabel⟩ := map_label_eq_ok.1 hsee
  rw [if_pos h, hstat]
  dsimp only [Except.mapError, bind, Except.bind]
  refine (if_pos (Node.isDir_iff.2 hlabel)).trans ?_
  have hlocate := he.locate
  generalize d.locate p = found at hlocate ⊢
  subst hlocate
  rfl

end Classify

/-! ### Files -/

variable {d d' : Disk} {p q dir src dst : Path} {parent loc : Location} {n : Name}

/-- A file can be written where there is nothing or a file. -/
theorem Slot.openFile_isOk (h : d.Slot p parent n) (hslash : p.endsInSlash = false)
    (hfree : d.Writable (parent ++ [n])) (change : Option (ByteArray × Bool) → ByteArray × Bool) :
    ∃ d', d.openFile p change = .ok d' := by
  refine openFile_isOk_of_goal (h.goal hslash (.inr hfree.ne_link)) hslash ?_ change
  split
  · exact hfree
  · exact hfree

/-- A file can be copied to where there is nothing or a file, from where the copy does not reach. -/
theorem Enters.copyFile_isOk (h : d.Enters dir loc) (hq : q.Adds dir n) (hadmits : admit? q = .ok ())
    (hshort : ¬ n.byteSize > maxName) (hfree : d.Writable (loc ++ [n])) {content : ByteArray} {x : Bool}
    (hsee : d.see src true = .ok (.file content x)) (hfar : ∀ l ∈ d.way src true, l ≠ loc ++ [n]) :
    ∃ d', d.copyFile src q = .ok d' := by
  have hslot := (h.slot hq.route hadmits hq.last hshort).1
  obtain ⟨emptied, hempty⟩ := hslot.openFile_isOk hq.slash hfree fun _ => (.empty, x)
  obtain ⟨old, hcwd, -, hlook⟩ := look_openFile h hq hfree.ne_link hempty
  obtain ⟨hfills, hfile⟩ := openFile_adds h hq hfree.ne_link hempty
  have hslot' := ((hfills.enters h).1.slot hq.route hadmits hq.last hshort).1
  obtain ⟨d', hopen⟩ := hslot'.openFile_isOk hq.slash (.inr hfile) fun _ => (content, x)
  have hstat : ∀ {d : Disk}, d.see src true = .ok (.file content x) →
      d.stat src = .ok (.file content x) := by
    intro d hsee
    rw [← stat_label] at hsee
    obtain ⟨node, hnode, hlabel⟩ := map_label_eq_ok.1 hsee
    cases node with
    | file c y =>
        cases hlabel
        exact hnode
    | link t => cases hlabel
    | dir es => cases hlabel
  have hsame : emptied.see src true = .ok (.file content x) := by
    rw [← hsee]
    exact see_congr hcwd fun l hl => by rw [hlook, Function.update_of_ne (hfar l hl)]
  refine ⟨d', ?_⟩
  unfold copyFile
  rw [hstat hsee]
  simp only [bind, Except.bind]
  rw [hempty]
  simp only [readBytes, hstat hsame, bind, Except.bind]
  exact hopen

/-! ### Other spellings -/

/-- The path to a directory leads over a directory wherever it is cut. -/
theorem Enters.initial (h : d.Enters p loc) (hq : q.components <+: p.components)
    (hne : q.isEmpty = false) (hadmits : admit? q = .ok ()) : ∃ l, d.Enters q l := by
  obtain ⟨-, hbegin, -⟩ := goal_eq_ok_iff.1 h.goal
  obtain ⟨links, hseek⟩ := h.seek
  obtain ⟨rest, hrest⟩ := Path.course_initial hq
  have horigin : d.origin q = d.origin p := by rw [origin, origin, Path.isAbsolute_of_initial hne hq]
  obtain ⟨left, g, hend⟩ : ∃ left g,
      (d.look.seek true maxLinks (d.origin q) (q.course ++ [.here])).ending = .ok (left, g) := by
    rw [← hrest, List.append_assoc, View.seek_append _ _ _ _ _ (by simp), Trip.andThen] at hseek
    rw [horigin]
    cases hfirst : (d.look.seek true maxLinks (d.origin p) (q.course ++ [.here])).ending with
    | error e =>
        rw [hfirst] at hseek
        cases congrArg Trip.ending hseek
    | ok found => exact ⟨found.1, found.2, rfl⟩
  rw [Path.course_eq, View.seek_filter_here] at hend
  have hdir := View.dir_of_seek_here d.look_treelike _ _ _ (horigin ▸ hbegin) hend
  obtain ⟨⟨l, rfl⟩, hshort⟩ := View.present_of_seek_here hend
  refine ⟨l, goal_eq_ok_iff.2 ⟨hadmits, horigin ▸ hbegin, left, ?_⟩, hdir⟩
  rw [trip, Path.steps_eq]
  split
  · exact hend
  · rw [List.append_nil]
    exact hshort

/-- What is left out of a copy is a directory: the copy, or the one that holds it. -/
theorem Enters.leftOut {top : Location} (h : d.Enters dst top) {rel : Location}
    (hout : LeftOut dst src rel = true) (hne : (src.joins rel).isEmpty = false)
    (hadmits : admit? (src.joins rel) = .ok ()) : ∃ l, d.Enters (src.joins rel) l := by
  rw [LeftOut, Bool.or_eq_true, Path.sameAs_iff, Option.any_eq_true] at hout
  rcases hout with hsame | ⟨q, hparent, hsame⟩
  · exact h.initial (hsame ▸ List.prefix_refl _) hne hadmits
  · rw [Path.sameAs_iff, Path.components_parent hparent] at hsame
    exact h.initial (hsame ▸ List.dropLast_prefix _) hne hadmits

end Disk

open Disk

/-! ### What a state of the copy knows about the source -/

section Known

variable {d base : Disk} {p src dst target : Path} {top rel here : Location} {n : Name} {label : Label}

/-- Where the copy begins, every path that leads somewhere leads there all the time. -/
theorem Begun.look_way (h : Begun base dst src top) (hoff : SameOff top base d)
    (hdir : d.look top = some .dir) (hsee : base.see p true = .ok label) :
    ∀ l ∈ base.way p true, d.look l = base.look l := by
  obtain ⟨loc, hgoal, -⟩ := see_eq_ok_iff.1 hsee
  intro l hl
  by_cases hpre : top <+: l
  · obtain ⟨rest, rfl⟩ := hpre
    by_cases hnil : rest = []
    · rw [hnil, List.append_nil, hdir, h.enters.dir]
    · exact absurd (h.empty rest hnil) (ne_none_of_way hgoal _ hl)
  · exact hoff.look l hpre

/-- What has a place in the copy can be made there. -/
theorem Ready.slot (hready : Ready base dst src top d rel target) (hn : n.Proper) (hroom : base.Room dst src) (htarget : target = dst.joins rel)
    (hmeets : base.Meets dst src rel n label) :
    d.Slot (target.join (.ofName n)) (top ++ rel) n := by
  obtain ⟨-, hshort, -, hadmits⟩ := hroom rel n label hmeets
  rw [Path.joins_concat, ← htarget] at hadmits
  exact (hready.inside.enters.slot (target.extends_join hn) hadmits (target.last_join hn) hshort).1

variable (hbegun : Begun base dst src top) (hready : Ready base dst src top d rel target)
include hbegun hready

/-- The directory that is being copied has the entries that it had. -/
theorem Ready.look_entry (he : base.Enters (src.joins rel) here) (n : Name) :
    d.look (here ++ [n]) = base.look (here ++ [n]) := by
  have hhere : ¬ top <+: here :=
    hbegun.clear rel hready.proper hready.kept here (he.mem_way (List.prefix_refl _))
  by_cases hpre : top <+: here ++ [n]
  · obtain rfl := (List.prefix_concat_iff.1 hpre).resolve_right hhere
    rw [hready.dir_top, hbegun.enters.dir]
  · exact hready.sameOff.look _ hpre

/-- An entry of the directory has a name. -/
theorem Ready.proper_of_meets (hmeets : base.Meets dst src rel n label) : n.Proper := by
  obtain ⟨here, he, hentry⟩ := hmeets.entry
  refine hready.names.look (here ++ [n]) ?_ n (by simp)
  rw [hready.look_entry hbegun he, hentry]
  simp

/-- Every entry of a directory that is being copied leads where it led. -/
theorem Ready.look_way (hn : n.Proper) (hadmits : admit? (src.joins (rel ++ [n])) = .ok ()) :
    ∀ l ∈ base.way (src.joins (rel ++ [n])) true, d.look l = base.look l := by
  cases hsee : base.see (src.joins (rel ++ [n])) true with
  | ok label => exact hbegun.look_way hready.sameOff hready.dir_top hsee
  | error e =>
      have hkept : LeftOut dst src (rel ++ [n]) = false := by
        rw [Bool.eq_false_iff]
        intro hout
        obtain ⟨l, he⟩ := hbegun.enters.leftOut hout
          (isEmpty_joins hbegun.nonempty (hready.proper.concat hn)) hadmits
        cases (see_eq_ok_iff.2 ⟨l, he.goal, he.dir⟩).symm.trans hsee
      exact fun l hl => hready.sameOff.look l
        (hbegun.clear _ (hready.proper.concat hn) (kept_concat.2 ⟨hready.kept, hkept⟩) l hl)

/-- An entry either stops the copy, with what is said about it, or it is passed and told to be a directory
or not. -/
theorem Ready.classify_cases {above : List Ancestor} {node : Node}
    (hroom : base.Room dst src) (hmeets : base.Meets dst src rel n node.label)
    (htrail : Trail base src rel above) :
    (∃ e, classify d above (src.joins (rel ++ [n])) node = .error e ∧
      base.Fault dst src (rel ++ [n]) e) ∨
    ∃ label, Passes base src rel n node.label label ∧
      classify d above (src.joins (rel ++ [n])) node = .ok (decide (label = .dir)) := by
  obtain ⟨here, he, hentry⟩ := hmeets.entry
  obtain ⟨-, hshort, hadmits, -⟩ := hroom rel n _ hmeets
  have hn := hready.proper_of_meets hbegun hmeets
  have hway := hready.look_way hbegun hn hadmits
  have hsame := see_congr hready.sameOff.cwd hway
  by_cases hlink : node.isLink = true
  · obtain ⟨target, hlabel⟩ := Node.label_of_isLink hlink
    cases hsee : base.see (src.joins (rel ++ [n])) true with
    | error e =>
        exact .inl ⟨_, classify_dangling hlink (hsame.trans hsee), .dangling (hlabel ▸ hmeets) hsee⟩
    | ok label =>
        by_cases hdir : label = .dir
        · subst hdir
          obtain ⟨loc, hgoal, hdir⟩ := see_eq_ok_iff.1 hsee
          have hto : base.Enters (src.joins (rel ++ [n])) loc := ⟨hgoal, hdir⟩
          have hclassify : classify d above (src.joins (rel ++ [n])) node = _ :=
            classify_entered hlink (hto.congr hready.sameOff.cwd hway).1
          cases hfind : above.find? (·.location = loc) with
          | some a =>
              rw [hfind] at hclassify
              have hloc : a.location = loc := by simpa using List.find?_some hfind
              obtain ⟨front, hfront, hpath, hin⟩ := (htrail a).1 (List.mem_of_find?_eq_some hfind)
              rw [hpath, hloc] at hin
              exact .inl ⟨_, hclassify, hpath ▸ .loop (hlabel ▸ hmeets) hfront hin hto⟩
          | none =>
              rw [hfind] at hclassify
              refine .inr ⟨.dir, ⟨hsee, fun _ _ front hfront loc' hin hto' => ?_⟩, hclassify⟩
              obtain rfl := hto.unique hto'
              have hmem := (htrail ⟨src.joins front, loc'⟩).2 ⟨front, hfront, rfl, hin⟩
              simpa using List.find?_eq_none.1 hfind _ hmem
        · refine .inr ⟨label, ⟨hsee, fun _ _ front _ loc _ hto => hdir ?_⟩, ?_⟩
          · have hdir' := see_eq_ok_iff.2 ⟨loc, hto.goal, hto.dir⟩
            exact Except.ok.inj (hsee.symm.trans hdir')
          · rw [decide_eq_false hdir]
            exact classify_other hlink (hsame.trans hsee) hdir
  · have hplain : ∀ target, node.label ≠ .link target := fun target htarget =>
      hlink (Node.isLink_of_label htarget)
    have hslot := (he.slot (Path.joins_concat .. ▸ Path.extends_join _ hn) hadmits
      (Path.joins_concat .. ▸ Path.last_join _ hn) hshort).1
    have hsee : base.see (src.joins (rel ++ [n])) true = _ := hslot.see (Path.joins_concat .. ▸ Path.endsInSlash_join _ hn)
      (.inr fun target htarget => hplain target (Option.some_inj.1 (hentry.symm.trans htarget)))
    rw [hentry] at hsee
    refine .inr ⟨node.label, ⟨hsee, fun target htarget => absurd htarget (hplain target)⟩, ?_⟩
    have hisDir : node.isDir = decide (node.label = .dir) := by
      rw [Bool.eq_iff_iff, Node.isDir_iff, decide_eq_true_iff]
    rw [classify_plain (Bool.eq_false_iff.2 hlink), hisDir]

/-- A file of the source can be copied to its place. -/
theorem Ready.copyFile_isOk (hn : n.Proper) (hkept : Kept dst src (rel ++ [n]))
    (hslot : d.Slot (target.join (.ofName n)) (top ++ rel) n) {content : ByteArray} {x : Bool}
    (hsee : base.see (src.joins (rel ++ [n])) true = .ok (.file content x)) :
    ∃ d', d.copyFile (src.joins (rel ++ [n])) (target.join (.ofName n)) = .ok d' := by
  have hmirror : base.mirror dst src (rel ++ [n]) = some (.file content x) := by
    rw [mirror_of_kept hkept]
    exact tree_eq_some_iff.2 hsee
  have hfree : d.Writable (top ++ rel ++ [n]) := by
    rw [List.append_assoc]
    exact (hready.right (rel ++ [n]) (by simp)).imp_right fun h => ⟨content, x, h.trans hmirror⟩
  exact hready.inside.enters.copyFile_isOk (target.adds_join hn) hslot.admits hslot.short hfree
    ((hbegun.clear.see hready.sameOff (hready.proper.concat hn) hkept).trans hsee)
    (hready.ne_of_way hbegun.clear hn hkept)

end Known

/-- A path leads to a directory or to a file. -/
theorem Disk.Passes.dir_or_file {base : Disk} {src : Path} {rel : Location} {n : Name} {entry label : Label}
    (h : Passes base src rel n entry label) : label = .dir ∨ ∃ content x, label = .file content x := by
  cases label with
  | file content x => exact .inr ⟨content, x, rfl⟩
  | dir => exact .inl rfl
  | link target =>
      obtain ⟨loc, hgoal, hlook⟩ := see_eq_ok_iff.1 h.see
      exact absurd hlook (ne_link_of_goal hgoal _)

/-! ### What the answer of a copy tells -/

section Tells

variable {base : Disk} {src dst target : Path} {top rel : Location} {n : Name} {w : World}
  {A B : Set Location}

/-- The files of the copy at some places. -/
def filesAt (base : Disk) (dst src : Path) (places : Set Location) : Set Location :=
  {f | f ∈ places ∧ f.Proper ∧ ∃ content x, base.mirror dst src f = some (.file content x)}

/-- What the answer of a copy says about some places of the source: no link stops the walk there and the
files that the copy has there were counted, or it is what is said about a link that stops the walk. -/
def Tells (base : Disk) (dst src : Path) (places : Set Location) (before : Nat) :
    Except IoError Nat → Prop
  | .ok count => (∀ f ∈ places, ∀ e, ¬ base.Fault dst src f e) ∧
      (count : ℕ∞) = before + (filesAt base dst src places).encard
  | .error e => ∃ f, base.Fault dst src f e

namespace Tells

theorem empty (base : Disk) (dst src : Path) (before : Nat) :
    Tells base dst src ∅ before (.ok before) := by
  refine ⟨fun f hf => absurd hf (Set.notMem_empty f), ?_⟩
  have hnone : filesAt base dst src ∅ = ∅ := Set.eq_empty_of_forall_notMem fun f hf => hf.1
  rw [hnone, Set.encard_empty, add_zero]

/-- What is told about one part and then about another one. -/
theorem union {count : Nat} {r : Except IoError Nat} {before : Nat}
    (hA : Tells base dst src A before (.ok count)) (hB : Tells base dst src B count r)
    (hdisjoint : Disjoint A B) : Tells base dst src (A ∪ B) before r := by
  cases r with
  | error e => exact hB
  | ok total =>
      refine ⟨fun f hf e => hf.elim (fun hf => hA.1 f hf e) fun hf => hB.1 f hf e, ?_⟩
      have hunion : filesAt base dst src (A ∪ B) = filesAt base dst src A ∪ filesAt base dst src B := by
        ext f
        exact or_and_right
      rw [hunion, Set.encard_union_eq, ← add_assoc, ← hA.2, hB.2]
      exact hdisjoint.mono (fun f hf => hf.1) fun f hf => hf.1

/-- More places do not matter if nothing is there. -/
theorem extend {r : Except IoError Nat} {before : Nat} (h : Tells base dst src A before r)
    (hle : A ⊆ B) (hfault : ∀ f ∈ B, f ∉ A → ∀ e, ¬ base.Fault dst src f e)
    (hfile : ∀ f ∈ B, f ∉ A → f.Proper → ∀ content x, base.mirror dst src f ≠ some (.file content x)) :
    Tells base dst src B before r := by
  cases r with
  | error e => exact h
  | ok count =>
      refine ⟨fun f hf e => ?_, ?_⟩
      · by_cases hA : f ∈ A
        · exact h.1 f hA e
        · exact hfault f hf hA e
      · have hsame : filesAt base dst src B = filesAt base dst src A := by
          ext f
          refine ⟨fun ⟨hf, hproper, content, x, hmirror⟩ => ?_, fun ⟨hf, hrest⟩ => ⟨hle hf, hrest⟩⟩
          by_cases hA : f ∈ A
          · exact ⟨hA, hproper, content, x, hmirror⟩
          · exact absurd hmirror (hfile f hf hA hproper content x)
        rw [hsame, h.2]

/-- One file more. -/
theorem file {f : Location} (hfault : ∀ e, ¬ base.Fault dst src f e) (hproper : f.Proper)
    {content : ByteArray} {x : Bool} (hfile : base.mirror dst src f = some (.file content x))
    (before : Nat) : Tells base dst src {f} before (.ok (before + 1)) := by
  refine ⟨fun g hg e => Set.mem_singleton_iff.1 hg ▸ hfault e, ?_⟩
  have hone : filesAt base dst src {f} = {f} := by
    ext g
    refine ⟨fun hg => hg.1, ?_⟩
    rintro rfl
    exact ⟨rfl, hproper, content, x, hfile⟩
  rw [hone, Set.encard_singleton]
  rfl

/-- Counting on. -/
theorem add {r : Except IoError Nat} (h : Tells base dst src A 0 r) (before : Nat) :
    Tells base dst src A before (r.map (before + ·)) := by
  cases r with
  | error e => exact h
  | ok count =>
      refine ⟨h.1, ?_⟩
      rw [Nat.cast_add, h.2, Nat.cast_zero, zero_add]

end Tells

end Tells

/-! ### Rounds -/

section Round

variable {dst dir target : Path} {depth before : Nat} {above : List Ancestor} {entry : Name × Node}
  {w : World}

theorem run_copyRound_error {e : IoError}
    (h : classify w.disk above (dir.join (.ofName entry.1)) entry.2 = .error e) :
    (copyRound dst depth above dir target before entry).run w = (.error e, w) := by
  refine run_bind_of_error ?_ _
  rw [Work.run_ask, h]

theorem run_copyRound_leftOut {isDir : Bool}
    (h : classify w.disk above (dir.join (.ofName entry.1)) entry.2 = .ok isDir)
    (hout : ((dir.join (.ofName entry.1)).sameAs dst ||
      dst.parent?.any (dir.join (.ofName entry.1)).sameAs) = true) :
    (copyRound dst depth above dir target before entry).run w = (.ok before, w) := by
  have hask : (Work.ask fun d => classify d above (dir.join (.ofName entry.1)) entry.2).run w =
      (.ok isDir, w) := by rw [Work.run_ask, h]
  rw [copyRound, run_bind_of_ok hask, hout]
  rfl

theorem run_copyRound_dir
    (h : classify w.disk above (dir.join (.ofName entry.1)) entry.2 = .ok true)
    (hkept : ((dir.join (.ofName entry.1)).sameAs dst ||
      dst.parent?.any (dir.join (.ofName entry.1)).sameAs) = false)
    (hmade : ((DiskM.createDirAll (target.join (.ofName entry.1))).run w.disk).1 = .ok ()) :
    ((copyRound dst depth above dir target before entry).run w).1 =
      ((copyEntries dst depth above (dir.join (.ofName entry.1)) (target.join (.ofName entry.1))).run
        { w with disk := w.disk.opened (target.join (.ofName entry.1)) }).1.map (before + ·) := by
  have hask : (Work.ask fun d => classify d above (dir.join (.ofName entry.1)) entry.2).run w =
      (.ok true, w) := by rw [Work.run_ask, h]
  have hmake : (Work.onDisk (DiskM.createDirAll (target.join (.ofName entry.1)))).run w =
      (.ok (), { w with disk := w.disk.opened (target.join (.ofName entry.1)) }) := by
    rw [Work.run_onDisk, hmade]
    rfl
  rw [copyRound, run_bind_of_ok hask, hkept]
  dsimp only
  rw [run_bind_of_ok hmake, run_bind]
  rcases (copyEntries dst depth above _ _).run _ with ⟨e | count, w'⟩ <;> rfl

theorem run_copyRound_file {d' : Disk}
    (h : classify w.disk above (dir.join (.ofName entry.1)) entry.2 = .ok false)
    (hkept : ((dir.join (.ofName entry.1)).sameAs dst ||
      dst.parent?.any (dir.join (.ofName entry.1)).sameAs) = false)
    (hcopy : w.disk.copyFile (dir.join (.ofName entry.1)) (target.join (.ofName entry.1)) = .ok d') :
    ((copyRound dst depth above dir target before entry).run w).1 = .ok (before + 1) := by
  have hask : (Work.ask fun d => classify d above (dir.join (.ofName entry.1)) entry.2).run w =
      (.ok false, w) := by rw [Work.run_ask, h]
  rw [copyRound, run_bind_of_ok hask, hkept]
  dsimp only
  rw [run_bind_of_ok (Work.run_log ..), run_bind, Work.run_change, hcopy]
  rfl

end Round

section Rounds

variable {base : Disk} {src dst target : Path} {top rel : Location} {w : World}

/-- What is known about the walk when a directory is going to be copied. -/
structure Walking (base : Disk) (dst src : Path) (rel : Location) (target : Path) (depth : Nat)
    (above : List Ancestor) (d : Disk) : Prop where
  visits : base.Visits dst src rel
  target : target = dst.joins rel
  depth : depth + rel.length = maxPath
  trail : ∀ here, base.Enters (src.joins rel) here → Trail base src rel (⟨src.joins rel, here⟩ :: above)
  distinct : d.Distinct

variable (hbegun : Begun base dst src top) (hroom : base.Room dst src)
include hbegun hroom

/-- A round tells about the places at and below its entry. -/
theorem copyRound_tells {depth : Nat} {above : List Ancestor} {entry : Name × Node}
    (hready : Ready base dst src top w.disk rel target) (htarget : target = dst.joins rel)
    (hdistinct : w.disk.Distinct) (hdepth : depth + 1 + rel.length = maxPath)
    (hmeets : base.Meets dst src rel entry.1 entry.2.label) (htrail : Trail base src rel above)
    (ih : ∀ {w : World} {rel : Location} {target : Path}, Ready base dst src top w.disk rel target →
      Walking base dst src rel target depth above w.disk →
      Tells base dst src {f | rel <+: f ∧ f ≠ rel} 0
        ((copyEntries dst depth above (src.joins rel) target).run w).1) (before : Nat) :
    Tells base dst src {f | rel ++ [entry.1] <+: f} before
      ((copyRound dst depth above (src.joins rel) target before entry).run w).1 := by
  have hn := hready.proper_of_meets hbegun hmeets
  have hjoins := src.joins_concat rel entry.1
  have hslot := hready.slot hn hroom htarget hmeets
  rcases hready.classify_cases hbegun hroom hmeets htrail with ⟨e, hclassify, hfault⟩ | ⟨label, hpasses, hclassify⟩
  · rw [hjoins] at hclassify
    rw [run_copyRound_error hclassify]
    exact ⟨_, hfault⟩
  -- above anything further down that stops the walk, the walk has entered the entry
  have hbelow : ¬ base.Visits dst src (rel ++ [entry.1]) →
      ∀ f ∈ {f | rel ++ [entry.1] <+: f}, ∀ e, ¬ base.Fault dst src f e := by
    intro hnot f hf e hfault
    by_cases hne : rel ++ [entry.1] = f
    · exact hpasses.not_fault hmeets e (hne ▸ hfault)
    · exact hnot (hfault.visits hf hne)
  rw [hjoins] at hclassify
  cases hout : LeftOut dst src (rel ++ [entry.1]) with
  | true =>
      have hcut : ¬ Kept dst src (rel ++ [entry.1]) := fun hkept => by
        cases hout.symm.trans (kept_concat.1 hkept).2
      rw [run_copyRound_leftOut hclassify (by rw [← hjoins]; exact hout)]
      refine (Tells.empty base dst src before).extend (Set.empty_subset _)
        (fun f hf _ => hbelow (fun hvisits => hcut hvisits.kept) f hf) fun f hf _ _ content x hfile => ?_
      rw [mirror_of_not_kept fun hkept => hcut (hkept.initial hf)] at hfile
      cases hfile
  | false =>
  have hkept : Kept dst src (rel ++ [entry.1]) := kept_concat.2 ⟨hready.kept, hout⟩
  have hsees : base.mirror dst src (rel ++ [entry.1]) = some label := by
    rw [mirror_of_kept hkept]
    exact tree_eq_some_iff.2 hpasses.see
  rcases hpasses.dir_or_file with rfl | ⟨content, x, rfl⟩
  · have hright := hready.right (rel ++ [entry.1]) (by simp)
    rw [hsees, ← List.append_assoc] at hright
    have hmade := hslot.createDirAll_isOk (target.isEmpty_join hn) hright
    obtain ⟨hready', -, -⟩ := hready.down hn hkept (tree_eq_some_iff.2 hpasses.see) hmade
    have htells := ih (w := { w with disk := w.disk.opened (target.join (.ofName entry.1)) }) hready'
      ⟨hpasses.visits hmeets hout, by rw [Path.joins_concat, htarget], by simp; omega,
        fun here' he' => htrail.down he', hdistinct.opened _⟩
    rw [run_copyRound_dir hclassify (by rw [← hjoins]; exact hout) hmade, ← hjoins]
    -- of the places at and below the entry, only its own is not below it
    have hself : ∀ f ∈ {f | rel ++ [entry.1] <+: f},
        f ∉ {f | rel ++ [entry.1] <+: f ∧ f ≠ rel ++ [entry.1]} → f = rel ++ [entry.1] := fun f hf hnot => by
      by_contra hne
      exact hnot ⟨hf, hne⟩
    refine (htells.add before).extend (fun f hf => hf.1) (fun f hf hnot e => ?_)
      fun f hf hnot _ content x => ?_
    · obtain rfl := hself f hf hnot
      exact hpasses.not_fault hmeets e
    · obtain rfl := hself f hf hnot
      rw [hsees]
      simp
  · obtain ⟨d', hcopy⟩ := hready.copyFile_isOk hbegun hn hkept hslot hpasses.see
    rw [run_copyRound_file hclassify (by rw [← hjoins]; exact hout) (by rw [← hjoins]; exact hcopy)]
    have hnot : ¬ base.Visits dst src (rel ++ [entry.1]) := by
      intro hvisits
      obtain ⟨loc, hin⟩ := hvisits.enters hbegun.source
      cases (see_eq_ok_iff.2 ⟨loc, hin.goal, hin.dir⟩).symm.trans hpasses.see
    refine (Tells.file (hpasses.not_fault hmeets) (hready.proper.concat hn) hsees before).extend
      (fun f hf => Set.mem_singleton_iff.1 hf ▸ List.prefix_refl _) (fun f hf _ => hbelow hnot f hf) ?_
    rintro _ ⟨rest, rfl⟩ hne hrest content' x'
    rw [mirror_below hbegun.nonempty (by rw [hsees]; simp) (fun hnil => hne (by simp [hnil])) hrest]
    simp

/-- The rounds for some entries of a directory tell about the places at and below these entries. -/
theorem copyRounds_tells {depth : Nat} {above : List Ancestor} {es : List (Name × Node)}
    (hnodup : (es.map Prod.fst).Nodup) (htarget : target = dst.joins rel)
    (hdepth : depth + 1 + rel.length = maxPath)
    (hmeets : ∀ e ∈ es, base.Meets dst src rel e.1 e.2.label) (htrail : Trail base src rel above)
    (ih : ∀ {w : World} {rel : Location} {target : Path}, Ready base dst src top w.disk rel target →
      Walking base dst src rel target depth above w.disk →
      Tells base dst src {f | rel <+: f ∧ f ≠ rel} 0
        ((copyEntries dst depth above (src.joins rel) target).run w).1)
    (hready : Ready base dst src top w.disk rel target) (hdistinct : w.disk.Distinct) (before : Nat) :
    Tells base dst src {f | ∃ e ∈ es, rel ++ [e.1] <+: f} before
      ((es.foldlM (copyRound dst depth above (src.joins rel) target) before).run w).1 := by
  induction es generalizing before w with
  | nil =>
      have hnone : {f | ∃ e ∈ ([] : List (Name × Node)), rel ++ [e.1] <+: f} = ∅ := by simp
      rw [hnone]
      exact .empty base dst src before
  | cons e es ihes =>
      rw [List.map_cons, List.nodup_cons] at hnodup
      have hmeet := hmeets e (List.mem_cons_self ..)
      have hround := copyRound_tells hbegun hroom hready htarget hdistinct hdepth hmeet htrail ih before
      have hsplit : {f | ∃ e' ∈ e :: es, rel ++ [e'.1] <+: f} =
          {f | rel ++ [e.1] <+: f} ∪ {f | ∃ e' ∈ es, rel ++ [e'.1] <+: f} := by
        ext f
        simp
      rw [hsplit, List.foldlM_cons, run_bind]
      cases hfirst : (copyRound dst depth above (src.joins rel) target before e).run w with
      | mk r w' =>
      rw [hfirst] at hround
      cases r with
      | error e' => exact hround
      | ok count =>
          obtain ⟨hgrows, htoward, -⟩ := copyRound_ok hbegun.nonempty hbegun.clear above hready
            (hready.proper_of_meets hbegun hmeet)
            (fun hready' hrun => copyEntries_ok hbegun.nonempty hbegun.clear depth above hready' hrun) hfirst
          have hdistinct' := stable_distinct.copyRound (stable_distinct.copyEntries dst depth above)
            (src.joins rel) target before e w hdistinct
          rw [hfirst] at hdistinct'
          refine hround.union (ihes hnodup.2 (fun e' he' => hmeets e' (List.mem_cons_of_mem _ he'))
            (hready.grows hgrows.disk (htoward.right hready.right)) hdistinct' count) ?_
          rw [Set.disjoint_left]
          rintro f hf ⟨e', he', hf'⟩
          have hsame : rel ++ [e.1] = rel ++ [e'.1] :=
            (List.prefix_of_prefix_length_le hf hf' (by simp)).eq_of_length (by simp)
          exact hnodup.1 (List.mem_map.2 ⟨e', he', by simpa using hsame.symm⟩)

/-- Copying what is in a directory tells about the places below it. -/
theorem copyEntries_tells {depth : Nat} {above : List Ancestor}
    (hready : Ready base dst src top w.disk rel target)
    (hwalking : Walking base dst src rel target depth above w.disk) :
    Tells base dst src {f | rel <+: f ∧ f ≠ rel} 0
      ((copyEntries dst depth above (src.joins rel) target).run w).1 := by
  induction depth generalizing above rel target w with
  | zero =>
      have hlength := hroom.length_lt hbegun.proper hwalking.visits hbegun.source
      have hdepth := hwalking.depth
      omega
  | succ depth ih =>
      obtain ⟨here, he⟩ := hwalking.visits.enters hbegun.source
      have hin : w.disk.Enters (src.joins rel) here := (he.congr hready.sameOff.cwd
        (hbegun.look_way hready.sameOff hready.dir_top (see_eq_ok_iff.2 ⟨here, he.goal, he.dir⟩))).1
      obtain ⟨es, hes⟩ := hin.list
      have hlocate : (Work.ask fun d => (d.locate (src.joins rel)).mapError (.walking (src.joins rel))).run w =
          (.ok here, w) := by
        rw [Work.run_ask, hin.locate]
        rfl
      have hlist : (Work.ask fun d => (d.list (src.joins rel)).mapError (.walking (src.joins rel))).run w =
          (.ok es, w) := by
        rw [Work.run_ask, hes]
        rfl
      have hlisted : ∀ n label, base.Meets dst src rel n label → ∃ e ∈ es, e.1 = n := by
        rintro n label ⟨-, here', hin', hentry⟩
        obtain rfl := he.unique hin'
        obtain ⟨node, hmem⟩ := exists_mem_list hin hes (n := n) (by
          rw [hready.look_entry hbegun he, hentry]
          simp)
        exact ⟨_, hmem, rfl⟩
      rw [copyEntries_succ, run_bind_of_ok hlocate, run_bind_of_ok hlist]
      refine (copyRounds_tells hbegun hroom (hwalking.distinct.nodup_list hes) hwalking.target
        hwalking.depth (fun e hmem => ⟨hwalking.visits, here, he, ?_⟩) (hwalking.trail here he)
        (fun hready' hwalking' => ih hready' hwalking') hready hwalking.distinct 0).extend ?_ ?_ ?_
      · rw [← hready.look_entry hbegun he]
        exact look_of_list hin hes hwalking.distinct hmem
      · rintro f ⟨e, -, hf⟩
        refine ⟨(List.prefix_append _ _).trans hf, ?_⟩
        rintro rfl
        simpa using hf.length_le
      · rintro f ⟨⟨rest, rfl⟩, hne⟩ hnot e hfault
        obtain ⟨n, rest, rfl⟩ := List.exists_cons_of_ne_nil (fun hnil => hne (by rw [hnil]; simp) : rest ≠ [])
        rw [List.append_cons] at hfault hnot
        obtain ⟨label, hmeets⟩ := hfault.meets (List.prefix_append (rel ++ [n]) rest)
        obtain ⟨e, hmem, rfl⟩ := hlisted n label hmeets
        exact hnot ⟨e, hmem, List.prefix_append _ _⟩
      · rintro f ⟨⟨rest, rfl⟩, hne⟩ hnot hproper content x hfile
        obtain ⟨n, rest, rfl⟩ := List.exists_cons_of_ne_nil (fun hnil => hne (by rw [hnil]; simp) : rest ≠ [])
        rw [List.append_cons] at hfile hnot hproper
        have hfront : Location.Proper (rel ++ [n]) := hproper.initial (List.prefix_append _ _)
        obtain ⟨label, hlabel⟩ : ∃ label, base.mirror dst src (rel ++ [n]) = some label := by
          by_contra hnone
          rw [not_exists] at hnone
          by_cases hnil : rest = []
          · rw [hnil, List.append_nil] at hfile
            exact hnone _ hfile
          · rw [mirror_below hbegun.nonempty (hnone .dir) hnil hproper] at hfile
            cases hfile
        have hkept : Kept dst src (rel ++ [n]) := by
          by_contra hcut
          rw [mirror_of_not_kept hcut] at hlabel
          cases hlabel
        rw [mirror_of_kept hkept] at hlabel
        have hsee := tree_eq_some_iff.1 hlabel
        rw [← hbegun.clear.see hready.sameOff hfront hkept, Path.joins_concat] at hsee
        obtain ⟨node, hmem⟩ := mem_of_list hes (hfront n (by simp)) hsee
        exact hnot ⟨(n, node), hmem, List.prefix_append _ _⟩

end Rounds

section Tree

variable {src dst : Path} {top : Location} {w : World}

/-- A directory is copied entry by entry once the directory of its copy is made. -/
theorem run_copyTree (hmade : ((DiskM.createDirAll dst).run w.disk).1 = .ok ())
    (hsrc : (w.disk.opened dst).see src true = .ok .dir) :
    (copyTree src dst).run w =
      (copyEntries dst maxPath [] src dst).run { w with disk := w.disk.opened dst } := by
  have hmake : (Work.onDisk (DiskM.createDirAll dst)).run w =
      (.ok (), { w with disk := w.disk.opened dst }) := by
    rw [Work.run_onDisk, hmade]
    rfl
  obtain ⟨loc, hgoal, hdir⟩ := see_eq_ok_iff.1 hsrc
  have he : (w.disk.opened dst).Enters src loc := ⟨hgoal, hdir⟩
  obtain ⟨label, hsee⟩ := see_of_follow hsrc
  rw [← lstat_label] at hsee
  obtain ⟨node, hnode, -⟩ := map_label_eq_ok.1 hsee
  have hlstat : (Work.ask fun d => (d.lstat src).mapError (.walking src)).run
      { w with disk := w.disk.opened dst } = (.ok node, { w with disk := w.disk.opened dst }) := by
    rw [Work.run_ask, hnode]
    rfl
  have hclassify : (Work.ask fun d => classify d [] src node).run { w with disk := w.disk.opened dst } =
      (.ok true, { w with disk := w.disk.opened dst }) := by
    rw [Work.run_ask]
    by_cases hlink : node.isLink = true
    · rw [classify_entered hlink he]
      rfl
    · have hplain : classify (w.disk.opened dst) [] src node = .ok node.isDir :=
        classify_plain (Bool.eq_false_iff.2 hlink)
      rw [hplain, ← isDir_of_classify hnode hplain, isDir_see.2 hsrc]
  rw [copyTree, run_bind_of_ok hmake, run_bind_of_ok hlstat, run_bind_of_ok hclassify, if_pos rfl]

/-- Copying a tree tells about all of it. -/
theorem copyTree_tells (hmade : ((DiskM.createDirAll dst).run w.disk).1 = .ok ())
    (hbegun : Begun (w.disk.opened dst) dst src top) (hroom : (w.disk.opened dst).Room dst src)
    (hdistinct : w.disk.Distinct) :
    Tells (w.disk.opened dst) dst src Set.univ 0 ((copyTree src dst).run w).1 := by
  have htells : Tells (w.disk.opened dst) dst src {f | [] <+: f ∧ f ≠ []} 0
      ((copyEntries dst maxPath [] (src.joins []) dst).run { w with disk := w.disk.opened dst }).1 :=
    copyEntries_tells hbegun hroom hbegun.ready
      ⟨.top, rfl, rfl, fun here hin => Trail.top hin, hdistinct.opened dst⟩
  rw [run_copyTree hmade hbegun.source]
  refine htells.extend (Set.subset_univ _) (fun f _ hf e hfault => ?_) fun f _ hf _ content x hfile => ?_
  · obtain rfl : f = [] := by
      by_contra hne
      exact hf ⟨List.nil_prefix, hne⟩
    exact hfault.ne_nil rfl
  · obtain rfl : f = [] := by
      by_contra hne
      exact hf ⟨List.nil_prefix, hne⟩
    rw [mirror_of_kept (kept_nil _ _), tree_eq_some_iff.2 hbegun.source] at hfile
    cases hfile

end Tree

end Sideload
