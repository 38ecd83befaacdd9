import Sideload.Command.Run
import Sideload.Proofs.Shelf.Run

/-!
The commands that only look. What they print depends on the registry that is read and on the disk.
-/

namespace Sideload.Command

variable (shelf : Shelf) (name : String) (json : Bool) (w : World)

theorem run_runList : ((runList shelf json).run w).1 = (Registry.read w.disk shelf.registryPath).map fun r =>
    if json then jsonText (Entry.listToData? r.entries) else Listing.text w.disk r.entries := by
  obtain ⟨hanswer, hquiet⟩ := shelf.run_list w
  rw [runList, run_bind]
  generalize (shelf.list).run w = listed at hanswer hquiet
  obtain ⟨answer, w₁⟩ := listed
  obtain rfl : answer = _ := hanswer
  have hdisk : w₁.disk = w.disk := hquiet.disk
  cases Registry.read w.disk shelf.registryPath with
  | error f => rfl
  | ok r => rw [← hdisk]; rfl

theorem run_runInfo : ((runInfo shelf name json).run w).1 = (Registry.read w.disk shelf.registryPath).bind fun r =>
    match r.get? name with
    | some e => .ok (if json then jsonText e.toData? else e.details w.disk)
    | none => .error (.notFound name) := by
  obtain ⟨hanswer, hquiet⟩ := shelf.run_info name w
  rw [runInfo, run_bind]
  generalize (shelf.info name).run w = found at hanswer hquiet
  obtain ⟨answer, w₁⟩ := found
  obtain rfl : answer = _ := hanswer
  have hdisk : w₁.disk = w.disk := hquiet.disk
  cases Registry.read w.disk shelf.registryPath with
  | error f => rfl
  | ok r =>
      simp only [Except.bind]
      cases r.get? name with
      | none => rfl
      | some e => rw [← hdisk]; rfl

end Sideload.Command
