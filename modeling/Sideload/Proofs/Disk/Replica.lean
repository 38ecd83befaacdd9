import Sideload.Proofs.Disk.Check
import Sideload.Proofs.Disk.Mirror

/-!
Copying a tree to where nothing is. No path below the source leads over the first directory that is made for
the copy, so the source is the same before and after; what the copy answers and what it holds are then told
by the disk as it was, in whatever order its directories list their entries.
-/

namespace Sideload

namespace Disk

variable {d d' : Disk} {src dst anc : Path} {top rel loc here : Location} {names : List Name} {m n : Name}
  {label : Label}

/-! ### A source that stays the same -/

section Same

variable (hfar : Far top d src) (hoff : SameOff top d d')
include hfar hoff

theorem Far.sameOff : Far top d' src := fun rel hrel l hl =>
  hfar rel hrel l (hfar.way hoff hrel ▸ hl)

/-- The walk over a source is the same whatever happens at and below a location that the source is far
from. -/
theorem Far.alike (hd : d.Proper) (htop : top = loc ++ [n]) (hn : n.Proper) (hshort : ¬ n.byteSize > maxName)
    (hwhole : Whole dst src) : Alike dst src d d' := by
  refine ⟨hoff.cwd, fun rel hrel _ l hl => hoff.look l (hfar rel hrel l hl), fun rel here hrel _ he m => ?_,
    fun rel here m target hrel _ he hlink => ?_⟩
  · refine hoff.look _ fun hpre => ?_
    rcases List.prefix_concat_iff.1 hpre with heq | hpre
    · rw [htop] at heq
      obtain ⟨rfl, hm⟩ := List.append_inj' heq rfl
      have hway := he.mem_way_of_extends (Path.extends_join (src.joins rel) hn) hshort
      rw [← Path.joins_concat] at hway
      exact hfar _ (hrel.concat hn) _ hway (htop ▸ List.prefix_refl _)
    · exact hfar rel hrel here (he.mem_way (List.prefix_refl _)) hpre
  · have hm : m.Proper := hd.look (here ++ [m]) (by rw [hlink]; simp) m (by simp)
    exact Bool.eq_false_iff.2 (hwhole _ (by simp) (hrel.concat hm))

end Same

/-- The same disk, where directories may list their entries in another order. -/
structure Relisted (d d' : Disk) : Prop where
  cwd : d'.cwd = d.cwd
  look : d'.look = d.look

theorem Relisted.sameOff (h : Relisted d d') (top : Location) : SameOff top d d' :=
  ⟨h.cwd, fun l _ => congrFun h.look l⟩

theorem Relisted.proper (h : Relisted d d') (hd : d.Proper) : d'.Proper :=
  hd.of_look h.cwd fun l hl => .inl (by rwa [h.look] at hl)

theorem Relisted.enters (h : Relisted d d') {p : Path} (he : d.Enters p loc) : d'.Enters p loc :=
  (he.congr h.cwd fun l _ => congrFun h.look l).1

theorem Relisted.vacant (h : Relisted d d') (hdst : d.Vacant dst anc loc names) :
    d'.Vacant dst anc loc names := by
  refine ⟨h.enters hdst.enters, hdst.route, hdst.last, ?_, hdst.admits, hdst.short⟩
  rw [h.look]
  exact hdst.free

end Disk

open Disk

variable {d : Disk} {w : World} {src dst anc : Path} {loc : Location} {n : Name} {names : List Name}

/-- What is known about a disk where the directories of the copy were made. -/
theorem Disk.Vacant.sameOff (hdst : d.Vacant dst anc loc (n :: names)) :
    SameOff (loc ++ [n]) d (d.opened dst) := by
  obtain ⟨-, hlaid, -⟩ := hdst.made
  refine ⟨hlaid.cwd, fun l hl => hlaid.same l fun front hne hfront heq => hl ?_⟩
  obtain ⟨m, rest, rfl⟩ := List.exists_cons_of_ne_nil hne
  obtain rfl := (List.cons_prefix_cons.1 hfront).1
  rw [heq, List.append_cons loc m rest]
  exact List.prefix_append _ _

theorem Disk.Vacant.begun (hdst : d.Vacant dst anc loc (n :: names)) (hproper : d.Proper)
    (hsrc : d.see src true = .ok .dir) (hfar : Far (loc ++ [n]) d src) :
    Begun (d.opened dst) dst src (loc ++ n :: names) := by
  obtain ⟨-, hlaid, henters⟩ := hdst.made
  have hoff := hdst.sameOff
  have htop : loc ++ [n] <+: loc ++ n :: names := by
    rw [List.append_cons loc n names]
    exact List.prefix_append _ _
  refine ⟨henters, fun rel hrel => ?_, hproper.opened dst, (hfar.see_self hoff).trans hsrc, ?_, ?_⟩
  · rw [hlaid.same]
    · obtain ⟨m, rest, hfirst, hfree⟩ := hdst.free
      obtain ⟨rfl, rfl⟩ := List.cons.inj hfirst
      exact look_none_below hfree (htop.trans (List.prefix_append _ _))
    · intro front hne hfront heq
      rw [List.append_assoc] at heq
      have hlength := hfront.length_le
      rw [← List.append_cancel_left heq, List.length_append] at hlength
      exact hrel (List.eq_nil_of_length_eq_zero (by omega))
  · obtain ⟨_, hgoal, hdir⟩ := see_eq_ok_iff.1 hsrc
    exact Enters.isEmpty ⟨hgoal, hdir⟩
  · exact Far.clear (fun rel hrel l hl hpre => (hfar.sameOff hoff) rel hrel l hl (htop.trans hpre)) dst

theorem Disk.Vacant.name_proper (hdst : d.Vacant dst anc loc (n :: names)) : n.Proper := by
  refine dst.proper_segments n ?_
  have hmem : Step.name n ∈ dst.course := by
    rw [hdst.route.course]
    simp
  rw [Path.course_eq] at hmem
  exact List.mem_of_mem_filter hmem

theorem Disk.Vacant.whole (hdst : d.Vacant dst anc loc (n :: names)) (hfar : Far (loc ++ [n]) d src) :
    Whole dst src := by
  refine whole_of_far hdst.enters hdst.route ?_ (hdst.short n (by simp)) hfar
  obtain ⟨m, hlast⟩ := hdst.last
  have hcourse := Path.last_course hlast
  obtain ⟨front, hfront⟩ := List.getLast?_eq_some_iff.1 hcourse
  obtain ⟨cs, hcs⟩ := Path.components_of_course hfront
  exact ⟨cs, m, hcs⟩

/-- Copying a tree to where nothing is. The copy succeeds just if every link on the walk leads somewhere, and
none to a directory that the walk is in; else the answer names such a link. A copy that succeeds counts the
files below the source and consists of what is below the source with links resolved, and nothing but the
copy and the directories above it is new. All this is told by what is on the disk, not by the order in which
directories list their entries; and however links lead back up, the walk goes no deeper than there are
directories, each with a way straight down. -/
theorem copyTree_replicates (hlisted : Relisted d w.disk) (hdistinct : w.disk.Distinct) (hproper : d.Proper)
    (hdst : d.Vacant dst anc loc (n :: names)) (hsrc : d.see src true = .ok .dir)
    (hfar : Far (loc ++ [n]) d src) (hroom : d.Room dst src) :
    ((∃ count, ((copyTree src dst).run w).1 = .ok count) ↔ ∀ f e, ¬ d.Fault dst src f e) ∧
    (∀ e, ((copyTree src dst).run w).1 = .error e → ∃ f, d.Fault dst src f e) ∧
    (∀ count, ((copyTree src dst).run w).1 = .ok count →
      (count : ℕ∞) = {rel | Location.Proper rel ∧
        ∃ content x, d.tree src rel = some (.file content x)}.encard ∧
      ∀ rel, Location.Proper rel →
        ((copyTree src dst).run w).2.disk.look (loc ++ n :: names ++ rel) = d.tree src rel) ∧
    (∀ l, ¬ loc ++ n :: names <+: l → (∀ front, front ≠ [] → front <+: n :: names → l ≠ loc ++ front) →
      ((copyTree src dst).run w).2.disk.look l = d.look l) ∧
    ∀ (dirs : Finset Location) (height : Nat), (∀ l, d.look l = some .dir → l ∈ dirs ∧ l.length ≤ height) →
      ∀ rel, d.Visits dst src rel → rel.length < dirs.card * (height + 1) := by
  have hn := hdst.name_proper
  have hshort := hdst.short n (by simp)
  have hdst' := hlisted.vacant hdst
  have hproper' := hlisted.proper hproper
  have hrelisted := hlisted.sameOff (loc ++ [n])
  have hoff : SameOff (loc ++ [n]) d (w.disk.opened dst) := hrelisted.trans hdst'.sameOff
  have hbegun := hdst'.begun hproper' ((hfar.see_self hrelisted).trans hsrc) (hfar.sameOff hrelisted)
  obtain ⟨hmade, hlaid, -⟩ := hdst'.made
  have halike := hfar.alike hoff hproper rfl hn hshort (hdst.whole hfar)
  have hroom' : (w.disk.opened dst).Room dst src := fun rel m label hmeets =>
    hroom rel m label (halike.symm.meets hbegun.proper hmeets)
  have htells := copyTree_tells hmade hbegun hroom' hdistinct
  have hfault : ∀ {f e}, (w.disk.opened dst).Fault dst src f e ↔ d.Fault dst src f e := fun {f e} =>
    ⟨halike.symm.fault hbegun.proper, halike.fault hproper⟩
  have hmirror : ∀ {rel}, Location.Proper rel →
      (w.disk.opened dst).mirror dst src rel = d.tree src rel := fun {rel} hrel => by
    rw [(hdst.whole hfar).mirror _ hrel]
    exact congrArg Except.toOption (hfar.see hoff hrel)
  have hgrows := copyTree_within src hmade hbegun.ready.inside hbegun.noLinks hproper'
  cases hrun : (copyTree src dst).run w with
  | mk r w' =>
  rw [hrun] at htells hgrows
  dsimp only at htells hgrows ⊢
  refine ⟨?_, ?_, ?_, fun l hl hmissing => ?_, fun dirs height hdirs rel hvisits =>
    hvisits.length_lt hproper hsrc (fun l hl => (hdirs l hl).1) fun l hl => (hdirs l hl).2⟩
  · cases r with
    | error e =>
        obtain ⟨f, hf⟩ := htells
        exact ⟨nofun, fun hnone => absurd (hfault.1 hf) (hnone f e)⟩
    | ok count => exact ⟨fun _ f e hf => htells.1 f trivial e (hfault.2 hf), fun _ => ⟨count, rfl⟩⟩
  · rintro e rfl
    obtain ⟨f, hf⟩ := htells
    exact ⟨f, hfault.1 hf⟩
  · rintro count rfl
    refine ⟨?_, fun rel hrel => ?_⟩
    · have hcount := htells.2
      rw [Nat.cast_zero, zero_add] at hcount
      rw [hcount]
      congr 1
      ext rel
      refine ⟨fun ⟨_, hrel, hfile⟩ => ⟨hrel, ?_⟩, fun ⟨hrel, hfile⟩ => ⟨trivial, hrel, ?_⟩⟩
      · rwa [hmirror hrel] at hfile
      · rwa [hmirror hrel]
    · rw [(copyTree_mirror hbegun hrun).2 rel hrel, hmirror hrel]
  · rw [hgrows.disk.look l hl, hlaid.same l hmissing, hlisted.look]

/-- Where there are no links, nothing stops a walk. -/
theorem Disk.not_fault_of_linkless (hlinks : d.root.every (fun _ label => !label.isLink) = true)
    (f : Location) (e : IoError) : ¬ d.Fault dst src f e := by
  have hno : ∀ {rel : Location} {m : Name} {target : Path}, ¬ d.Meets dst src rel m (.link target) := by
    rintro rel m target ⟨-, here, -, hentry⟩
    cases Node.of_every hlinks hentry
  intro hfault
  cases hfault with
  | dangling hmeets hsee => exact hno hmeets
  | loop hmeets hfront hin hto => exact hno hmeets

/-- A directory with one file, and nothing else. -/
def assetWorld : World := .holding
  [(Glyph.ofString "src", .dir [(Glyph.ofString "a", .file .empty false)])]

/-- The walk over it meets the file and goes no deeper. -/
theorem assetWorld_meets {rel : Location} {label : Label}
    (h : assetWorld.disk.Meets dst (.ofString "/src") rel n label) : rel = [] ∧ n = Glyph.ofString "a" := by
  have htop : ∀ {here : Location}, assetWorld.disk.Enters (.ofString "/src") here →
      here = [Glyph.ofString "src"] := fun hin => Enters.unique ⟨by cbv, by cbv⟩ hin
  have honly : ∀ {n : Name} {label : Label},
      assetWorld.disk.look ([Glyph.ofString "src"] ++ [n]) = some label → n = Glyph.ofString "a" := by
    intro n label hentry
    have hget : assetWorld.disk.root.get? [Glyph.ofString "src"] =
        some (.dir [(Glyph.ofString "a", .file .empty false)]) := by cbv
    rw [Disk.look, Node.look_append hget] at hentry
    have hall : (Node.dir [(Glyph.ofString "a", .file .empty false)]).every
        (fun k _ => decide (k = Glyph.ofString "a")) = true := by decide
    exact of_decide_eq_true (Node.of_every hall ((List.nil_append [n]).symm ▸ hentry))
  obtain ⟨hvisits, here, hin, hentry⟩ := h
  have hrel : rel = [] := by
    induction hvisits generalizing here n label with
    | top => rfl
    | @down rel here' loc m label' hvisits hin' hentry' hkept hto hopen ih =>
        obtain rfl := ih here' hin' hentry'
        obtain rfl := htop hin'
        obtain rfl := honly hentry'
        have hdir := isDir_iff.2 ⟨loc, hto⟩
        rw [show assetWorld.disk.isDir ((Path.ofString "/src").joins ([] ++ [Glyph.ofString "a"])) = false by
          cbv] at hdir
        cases hdir
  subst hrel
  obtain rfl := htop hin
  exact ⟨rfl, honly hentry⟩

/-- A copy into a directory that is made for it. -/
theorem copyTree_replicates_assetWorld :
    (∃ count, ((copyTree (.ofString "/src") (.ofString "/x/y")).run assetWorld).1 = .ok count) ∧
    ((copyTree (.ofString "/src") (.ofString "/x/y")).run assetWorld).2.disk.look
      [Glyph.ofString "x", Glyph.ofString "y", Glyph.ofString "a"] = some (.file .empty false) := by
  have hvacant : assetWorld.disk.Vacant (.ofString "/x/y") (.ofString "/") []
      [Glyph.ofString "x", Glyph.ofString "y"] :=
    ⟨⟨by cbv, by cbv⟩, ⟨by cbv, by cbv⟩, ⟨Glyph.ofString "y", by cbv⟩, ⟨_, _, rfl, by cbv⟩, by cbv, by decide⟩
  have hdistinct : assetWorld.disk.Distinct :=
    Node.distinct_empty.setEntry (Node.distinct_empty.setEntry (Node.distinct_of_not_dir rfl) _) _
  have hlinks : assetWorld.disk.root.every (fun _ label => !label.isLink) = true := by decide
  have hfar : Far ([] ++ [Glyph.ofString "x"]) assetWorld.disk (.ofString "/src") :=
    far_of_linkless hlinks (by decide) (by decide)
      (show _ = [Glyph.ofString "src"].map Step.name by cbv) (by decide)
  have hroom : assetWorld.disk.Room (.ofString "/x/y") (.ofString "/src") := by
    intro rel n label hmeets
    obtain ⟨rfl, rfl⟩ := assetWorld_meets hmeets
    exact ⟨by decide, by decide, by cbv, by cbv⟩
  obtain ⟨hok, -, hcopied, -⟩ := copyTree_replicates ⟨rfl, rfl⟩ hdistinct
    (proper_of_every (fun n hn => by cases hn) (by decide)) hvacant (by cbv) hfar hroom
  obtain ⟨count, hrun⟩ := hok.2 (not_fault_of_linkless hlinks)
  refine ⟨⟨count, hrun⟩, ?_⟩
  have hname : Location.Proper [Glyph.ofString "a"] := List.forall_mem_singleton.2 (by decide)
  refine ((hcopied count hrun).2 _ hname).trans ?_
  cbv

end Sideload
