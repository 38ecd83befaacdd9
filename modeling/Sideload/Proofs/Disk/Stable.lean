import Sideload.Proofs.Disk.Growth
import Sideload.Proofs.Disk.Proper
import Sideload.Proofs.Disk.Removal
import Sideload.Proofs.Disk.Severed

/-!
What every single change of the disk keeps. All work on the disk is made of a few changes that happen whole
or not at all; what they keep, and the log does not matter for, holds after any such work, wherever it fails.
-/

namespace Sideload

namespace Disk

/-- A single change of the disk. -/
inductive Altered (d : Disk) : Disk → Prop
  | makeDir {p : Path} {d' : Disk} (h : d.makeDir p = .ok d') : Altered d d'
  | removeFile {p : Path} {d' : Disk} (h : d.removeFile p = .ok d') : Altered d d'
  | removeDir {p : Path} {d' : Disk} (h : d.removeDir p = .ok d') : Altered d d'
  | emptied {loc : Location} (h : d.look loc = some .dir) : Altered d (d.emptied loc)
  | openFile {p : Path} {change : Option (ByteArray × Bool) → ByteArray × Bool} {d' : Disk}
      (h : d.openFile p change = .ok d') : Altered d d'
  | rename {p q : Path} {d' : Disk} (h : d.rename p q = .ok d') : Altered d d'

end Disk

open Disk

variable {ε ε' α β : Type} {P : World → Prop}

/-! ### Work that keeps a property -/

/-- Work that keeps a property of the world, whether it succeeds or fails. -/
def Work.Keeps (P : World → Prop) (m : Work ε α) : Prop := ∀ w, P w → P (m.run w).2

namespace Work.Keeps

theorem pure (a : α) : (pure a : Work ε α).Keeps P := fun _ hw => hw

theorem throw (e : ε) : (throw e : Work ε α).Keeps P := fun _ hw => hw

theorem disk : (Work.disk : Work ε Disk).Keeps P := fun _ hw => hw

theorem now : (Work.now : Work ε Moment).Keeps P := fun _ hw => hw

theorem ofExcept (r : Except ε α) : (Work.ofExcept r).Keeps P := fun _ hw => hw

theorem ask (f : Disk → Except IoError α) : (Work.ask f).Keeps P := fun w hw => by
  rw [Work.run_ask]
  exact hw

theorem orFail {m : Work ε α} (hm : m.Keeps P) (f : ε → ε') : (m.orFail f).Keeps P := hm

theorem attempt {m : Work ε α} (hm : m.Keeps P) : (m.attempt : Work ε' (Except ε α)).Keeps P := hm

theorem bind {m : Work ε α} {k : α → Work ε β} (hm : m.Keeps P) (hk : ∀ a, (k a).Keeps P) :
    (m >>= k).Keeps P := fun w hw => run_bind_keeps (hm w hw) fun a t _ ht => hk a t ht

theorem foldlM {xs : List α} {f : β → α → Work ε β} (hf : ∀ b, ∀ a ∈ xs, (f b a).Keeps P) (b : β) :
    (xs.foldlM f b).Keeps P := fun w hw => run_foldlM (fun b a ha t ht => hf b a ha t ht) b w hw

end Work.Keeps

/-! ### Properties that every change keeps -/

/-- A property of the world that every single change of the disk and every log record keeps. -/
structure Stable (P : World → Prop) : Prop where
  altered : ∀ w d, w.disk.Altered d → P w → P { w with disk := d }
  logged : ∀ w r, P w → P { w with log := r :: w.log }

namespace Stable

variable (h : Stable P)
include h

theorem log (level : Log.Level) (topic : Log.Topic) (text : String) :
    (Work.log level topic text : Work ε Unit).Keeps P := fun w hw => h.logged w _ hw

theorem change {f : Disk → Except IoError Disk} (hf : ∀ d d', f d = .ok d' → d.Altered d') :
    (Work.change f).Keeps P := fun w hw => by
  rw [Work.run_change]
  split
  · next d hd => exact h.altered w d (hf _ _ hd) hw
  · exact hw

theorem createDirAll (p : Path) : (Work.onDisk (DiskM.createDirAll p)).Keeps P := fun w hw =>
  @DiskM.createDirAll_keeps (fun d => P { w with disk := d }) p
    (fun _ _ d d' hd hm => h.altered { w with disk := d } d' (.makeDir hm) hd) w.disk hw

theorem copyFile (p q : Path) : (Work.change (·.copyFile p q)).Keeps P := fun w hw => by
  rw [Work.run_change]
  split
  · next d hd =>
      unfold Disk.copyFile at hd
      simp only [Bind.bind, Except.bind] at hd
      split at hd
      · cases hd
      split at hd
      · split at hd
        · cases hd
        next emptied hemptied =>
        split at hd
        · cases hd
        · exact h.altered { w with disk := emptied } d (.openFile hd)
            (h.altered w emptied (.openFile hemptied) hw)
      · cases hd
  · exact hw

theorem removeTree (p : Path) (w : World) (hw : P w) :
    P { w with disk := ((DiskM.removeTree p).run w.disk).2 } := by
  rcases find_eq w.disk p false with ⟨spot, hfind, hfits, -⟩ | ⟨e, hfind, -⟩
  · rw [DiskM.run_removeTree, hfind]
    cases spot with
    | vacant c n => exact hw
    | present c =>
        obtain ⟨node, above⟩ := c
        cases node with
        | link target => exact h.change (fun d d' hd => .removeFile hd) w hw
        | file content x => exact hw
        | dir es =>
            exact h.change (fun d d' hd => .removeDir hd) { w with disk := w.disk.emptied _ }
              (h.altered w _ (.emptied hfits.look) hw)
  · rw [DiskM.run_removeTree, hfind]
    exact hw

theorem removeArtifact (p : Path) : (Work.onDisk (DiskM.removeArtifact p)).Keeps P := fun w hw => by
  rw [Work.run_onDisk, DiskM.run_removeArtifact]
  split
  · split <;> exact hw
  · dsimp only
    split
    · exact h.removeTree p w hw
    · exact h.change (fun d d' hd => .removeFile hd) w hw

/-- One round of the copy of a directory. -/
theorem copyRound {dst : Path} {depth : Nat} {above : List Ancestor}
    (hentries : ∀ dir target, (copyEntries dst depth above dir target).Keeps P) (dir target : Path)
    (count : Nat) (entry : Name × Node) : (copyRound dst depth above dir target count entry).Keeps P := by
  refine (Work.Keeps.ask _).bind fun isDir => ?_
  dsimp only
  split
  · exact .pure _
  · exact (h.createDirAll _).bind fun _ => (hentries _ _).bind fun _ => .pure _
  · exact (h.log _ _ _).bind fun _ => (h.copyFile _ _).bind fun _ => .pure _

theorem copyEntries (dst : Path) (depth : Nat) (above : List Ancestor) (dir target : Path) :
    (copyEntries dst depth above dir target).Keeps P := by
  induction depth generalizing above dir target with
  | zero => exact .throw _
  | succ depth ih =>
      rw [copyEntries_succ]
      exact (Work.Keeps.ask _).bind fun here => (Work.Keeps.ask _).bind fun found =>
        .foldlM (fun count entry _ => h.copyRound (fun dir target => ih _ dir target) dir target count entry) 0

theorem copyTree (src dst : Path) : (copyTree src dst).Keeps P := by
  refine (h.createDirAll _).bind fun _ => (Work.Keeps.ask _).bind fun top =>
    (Work.Keeps.ask _).bind fun isDir => ?_
  split
  · exact h.copyEntries _ _ _ _ _
  · exact .pure _

end Stable

/-- No change makes a name that no entry can have. -/
theorem stable_proper : Stable fun w => w.disk.Proper := by
  refine ⟨fun w d halter hd => ?_, fun _ _ hd => hd⟩
  dsimp only at hd ⊢
  cases halter with
  | makeDir hm =>
      obtain ⟨hopens, hnew, -⟩ := makeDir_opens hm
      exact hd.opens hopens hnew
  | removeFile hm =>
      obtain ⟨parent, n, label, -, -, -, -, hcwd, heffect⟩ := removeFile_ok hm
      exact hd.shrinks (Shrinks.of_drop hcwd heffect).1
  | removeDir hm =>
      obtain ⟨parent, n, -, -, -, hcwd, heffect⟩ := removeDir_ok hm
      exact hd.shrinks (Shrinks.of_drop hcwd heffect).1
  | emptied hdir => exact hd.shrinks (shrinks_emptied hdir)
  | openFile ho => exact hd.openFile ho
  | rename hr => exact hd.rename hr

end Sideload
