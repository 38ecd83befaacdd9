import Sideload.Proofs.Config.RoundTrip
import Sideload.Proofs.Disk.Making
import Sideload.Proofs.Disk.Reach
import Sideload.Proofs.Disk.Written
import Sideload.Proofs.Registry.File

/-!
A configuration that is saved is loaded again as it was, and saving that once more writes the same file.
-/

namespace Sideload

namespace Config

variable {c : Config} {dir : Path} {w w' : World} {s : String}

/-- Saving makes the directory and writes the text of the configuration into it. -/
theorem run_save_eq_ok : (c.save dir).run w = (.ok (), w') ↔ ∃ s d, c.text? = some s ∧
    ((DiskM.createDirAll dir).run w.disk).1 = .ok () ∧
      (w.disk.opened dir).writeText (dir.child fileName) s = .ok d ∧ w' = { w with disk := d } := by
  rw [save, run_bind, Work.run_orFail, Work.run_onDisk, Disk.opened]
  cases hmade : ((DiskM.createDirAll dir).run w.disk).1 with
  | error e => exact ⟨nofun, fun ⟨_, _, _, h, _⟩ => nomatch h⟩
  | ok _ =>
      cases hs : c.text? with
      | none => exact ⟨nofun, fun ⟨_, _, h, _⟩ => nomatch h⟩
      | some s =>
          simp only [Except.mapError, Work.run_change_orFail]
          split
          · next d hwrite =>
              constructor
              · intro h
                cases h
                exact ⟨s, d, rfl, trivial, hwrite, rfl⟩
              · rintro ⟨_, _, hs', -, hwrite', rfl⟩
                cases hs'
                cases hwrite.symm.trans hwrite'
                rfl
          · next e hwrite =>
              refine ⟨nofun, ?_⟩
              rintro ⟨_, _, hs', -, hwrite', -⟩
              cases hs'
              cases hwrite.symm.trans hwrite'

/-- A file that holds the text of a configuration is loaded as that configuration. -/
theorem load_of_see {d : Disk} {x : Bool} (h : c.text? = some s)
    (hsee : d.see (dir.child fileName) true = .ok (.file s.toUTF8 x)) : load d dir = .ok c := by
  have hthere : d.exists_ (dir.child fileName) = true := by
    rw [Disk.exists_eq, hsee]
    rfl
  have hread : d.readText (dir.child fileName) = .ok s := by
    rw [Disk.readText_eq, hsee, Except.bind, Label.text, String.fromUTF8?_toUTF8]
  simp only [load, hthere, hread, ofText?_text h]
  rfl

/-- After a configuration is saved it is loaded with every field as it was, also one that is unset; saving what is
loaded succeeds, and leaves the same bytes in the file and everything else on the disk as it is. -/
theorem load_saved (h : (c.save dir).run w = (.ok (), w')) : load w'.disk dir = .ok c ∧
    ∃ s x, c.text? = some s ∧ w'.disk.see (dir.child fileName) true = .ok (.file s.toUTF8 x) ∧
      ∃ w'', (c.save dir).run w' = (.ok (), w'') ∧
        w''.disk.see (dir.child fileName) true = .ok (.file s.toUTF8 x) ∧
          w''.disk.cwd = w'.disk.cwd ∧ w''.disk.look = w'.disk.look := by
  obtain ⟨s, d, hs, hmade, hwrite, rfl⟩ := run_save_eq_ok.1 h
  obtain ⟨loc, old, -, hfiled, -⟩ :=
    Disk.filed_openFile (show (w.disk.opened dir).write _ _ = .ok d from hwrite)
  have hsee := hfiled.see
  have hagain : (DiskM.createDirAll dir).run d = (.ok (), d) := by
    by_cases hempty : dir.isEmpty = true
    · rw [DiskM.createDirAll, if_pos hempty]
      rfl
    · have hdir := (DiskM.createDirAll_spec dir w.disk).2.2 hmade (by simpa using hempty)
      obtain ⟨place, hplace⟩ := Disk.isDir_iff.1 hdir
      exact (hplace.openFile (show (w.disk.opened dir).write _ _ = .ok d from hwrite)).run_createDirAll
        (by simpa using hempty)
  obtain ⟨d', hwrite', hcwd, hlook⟩ := hfiled.write_again
  refine ⟨load_of_see hs hsee, s, _, hs, hsee, { w with disk := d' }, ?_, ?_, hcwd, hlook⟩
  · refine run_save_eq_ok.2 ⟨s, d', hs, by rw [hagain], ?_, rfl⟩
    rw [Disk.opened, hagain]
    exact hwrite'
  · rw [← hsee]
    exact Disk.see_congr hcwd fun l _ => congrFun hlook l

end Config

/-- A configuration with all that needs care in a string: quotes of both kinds, backslashes, breaks and controls. -/
def oddConfig : Config where
  install := { python := "py\"th'on\\", targetDir := none, showUsage := false }
  logging :=
    { enabled := true
      level := ""
      directory := Path.ofString "a\nb\r\t'''\"\"\""
      rotation := "\x00\x7f\\\"\"'"
      filePrefix := "''\n\"\"" }

theorem Config.load_saved_oddConfig :
    ∃ w' w'', (oddConfig.save (Path.ofString "conf")).run (World.holding []) = (.ok (), w') ∧
      Config.load w'.disk (Path.ofString "conf") = .ok oddConfig ∧
        (oddConfig.save (Path.ofString "conf")).run w' = (.ok (), w'') ∧ w''.disk.look = w'.disk.look := by
  have htext : oddConfig.text?.isSome = true := by simp [Config.text?, oddConfig]
  have hmade : ((DiskM.createDirAll (Path.ofString "conf")).run (World.holding []).disk).1 = .ok () := by cbv
  obtain ⟨s, hs⟩ := Option.isSome_iff_exists.1 htext
  have hwrite : (((World.holding []).disk.opened (Path.ofString "conf")).writeText
      ((Path.ofString "conf").child Config.fileName) s).isOk = true := by cbv
  cases hd : ((World.holding []).disk.opened (Path.ofString "conf")).writeText
      ((Path.ofString "conf").child Config.fileName) s with
  | error e =>
      rw [hd] at hwrite
      cases hwrite
  | ok d =>
      have hrun := Config.run_save_eq_ok.2 ⟨s, d, hs, hmade, hd, rfl⟩
      obtain ⟨hload, _, _, _, _, w'', hagain, _, _, hlook⟩ := Config.load_saved hrun
      exact ⟨_, w'', hrun, hload, hagain, hlook⟩

end Sideload
