import Sideload.Installer.Basic
import Sideload.Proofs.Disk.Stable

/-!
What an install keeps. An install is made of single changes of the disk and of log records, so it keeps what
these keep, whether it succeeds or fails; among that is the clock, however long it takes to copy a tree.
-/

namespace Sideload

open Disk

variable {P : World → Prop}

/-- No change of the disk and no record moves the clock. -/
theorem stable_now (t : Moment) : Stable fun w => w.now = t := ⟨fun _ _ _ hw => hw, fun _ _ hw => hw⟩

namespace Stable

variable (h : Stable P)
include h

theorem write (p : Path) (content : ByteArray) : (Work.change (·.write p content)).Keeps P :=
  h.change fun _ _ hd => .openFile hd

theorem stage (source staging : Path) (mode : Mode) (isDir : Bool) :
    (stage source staging mode isDir).Keeps P := by
  match mode, isDir with
  | .copy, true =>
      refine ((h.copyTree _ _).orFail _).bind fun count => Work.Keeps.disk.bind fun d => ?_
      split
      · exact h.log _ _ _
      · exact ((h.write _ _).orFail _).bind fun _ => (h.log _ _ _).bind fun _ => h.log _ _ _
  | .copy, false => exact ((h.copyFile _ _).orFail _).bind fun _ => h.log _ _ _
  | .editable, _ =>
      unfold Sideload.stage
      cases source.parent? with
      | none => exact .throw _
      | some parent => exact ((h.write _ _).orFail _).bind fun _ => h.log _ _ _

theorem build (plan : Plan) : (build plan).Keeps P := by
  refine ((h.createDirAll _).orFail _).bind fun _ => ((h.removeArtifact _).orFail _).bind fun _ =>
    (h.stage _ _ _ _).attempt.bind fun staged => ?_
  split
  · exact .pure _
  · refine (h.removeArtifact _).attempt.bind fun removed => ?_
    split
    · exact .throw _
    · exact (h.log _ _ _).bind fun _ => .throw _

theorem discardPrior (plan : Plan) : (discardPrior plan).Keeps P := by
  unfold Sideload.discardPrior
  split
  · exact .pure _
  · refine ((h.removeArtifact _).orFail _).bind fun removed => ?_
    split
    · exact h.log _ _ _
    · exact .pure _

theorem settle (plan : Plan) : (settle plan).Keeps P := by
  refine (h.discardPrior plan).bind fun _ =>
    ((h.change fun _ _ hd => .rename hd).orFail _).bind fun _ => Work.Keeps.bind ?_ fun _ =>
      (h.log _ _ _).bind fun _ => Work.Keeps.now.bind fun _ => .pure _
  unfold warnOtherName
  split
  · exact h.log _ _ _
  · exact .pure _

theorem prepare (target source : Path) (mode : Mode) (name? : Option String) (prior : Option Entry) :
    (prepare target source mode name? prior).Keeps P :=
  Work.Keeps.disk.bind fun _ => (Work.Keeps.ofExcept _).bind fun plan => (h.build plan).bind fun _ => .pure _

theorem installInto (target source : Path) (mode : Mode) (name? : Option String) (prior : Option Entry) :
    (installInto target source mode name? prior).Keeps P :=
  (h.prepare target source mode name? prior).bind fun plan => h.settle plan

end Stable

end Sideload
