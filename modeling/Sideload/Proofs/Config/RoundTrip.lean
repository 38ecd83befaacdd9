import Sideload.Config.File
import Sideload.Proofs.Registry.Line
import Sideload.Proofs.Toml.Lines

/-!
The text of a configuration is read back. It is two sections, with a line for each field that is set; the one field
that may be unset has no line then, and no default when it is read.
-/

namespace Sideload

open Toml

/-! ### Settings -/

namespace Toml

theorem stands_boolText (b : Bool) : Stands (Config.boolText b) (.bool b) := by
  intro fuel depth rest
  cases b <;> rfl

namespace Setting

def ofString (name value : String) (bare : IsBare name) : Setting :=
  ⟨name, stringText value, .string value, bare, stands_stringText value⟩

def ofBool (name : String) (b : Bool) (bare : IsBare name) : Setting :=
  ⟨name, Config.boolText b, .bool b, bare, stands_boolText b⟩

end Setting

end Toml

/-- The lines of the installation; `target?` is the text of the package directory if that is set. -/
def InstallConfig.settings (c : InstallConfig) (target? : Option String) : List Setting :=
  .ofString "python" c.python (by decide) ::
    (target?.toList.map fun s => .ofString "target_dir" s (by decide)) ++
    [.ofBool "show_usage" c.showUsage (by decide)]

def InstallConfig.written (c : InstallConfig) (target? : Option String) : Section where
  name := "install"
  settings := c.settings target?
  bare := by decide
  nodup := by
    cases target? with
    | none => simp [settings, Setting.ofString, Setting.ofBool]
    | some _ => simp [settings, Setting.ofString, Setting.ofBool]

/-- The lines of the log; `directory` is the text of its directory. -/
def LoggingConfig.written (c : LoggingConfig) (directory : String) : Section where
  name := "logging"
  settings :=
    [.ofBool "enabled" c.enabled (by decide), .ofBool "stderr" c.stderr (by decide),
      .ofString "level" c.level (by decide), .ofString "directory" directory (by decide),
      .ofString "rotation" c.rotation (by decide), .ofString "file_prefix" c.filePrefix (by decide)]
  bare := by decide
  nodup := by simp [Setting.ofString, Setting.ofBool]

variable {c : Config} {s : String}

/-- The lines of a configuration are those of its two sections. -/
theorem Config.lines_eq_sections (c : Config) (directory : String) (target? : Option String) :
    "[install]\n".toList ++ memberLine "python" (stringText c.install.python) ++
        (match target? with
          | none => []
          | some t => memberLine "target_dir" (stringText t)) ++
        memberLine "show_usage" (boolText c.install.showUsage) ++ "\n[logging]\n".toList ++
        memberLine "enabled" (boolText c.logging.enabled) ++ memberLine "stderr" (boolText c.logging.stderr) ++
        memberLine "level" (stringText c.logging.level) ++ memberLine "directory" (stringText directory) ++
        memberLine "rotation" (stringText c.logging.rotation) ++
        memberLine "file_prefix" (stringText c.logging.filePrefix) =
      (c.install.written target?).text ++
        [c.logging.written directory].flatMap fun part => '\n' :: part.text := by
  have hinstall : "[install]\n".toList = '[' :: ("install".toList ++ [']', '\n']) := rfl
  have hlogging : "\n[logging]\n".toList = '\n' :: '[' :: ("logging".toList ++ [']', '\n']) := rfl
  cases target? <;>
    simp [hinstall, hlogging, memberLine, InstallConfig.written, InstallConfig.settings, LoggingConfig.written,
      Section.text, Section.header, Setting.line, Setting.ofString, Setting.ofBool]

theorem Config.exists_sections (h : c.text? = some s) :
    ∃ directory target?, c.logging.directory = Path.ofString directory ∧
      c.install.targetDir = target?.map Path.ofString ∧
      s = String.ofList ((c.install.written target?).text ++
        [c.logging.written directory].flatMap fun part => '\n' :: part.text) := by
  simp only [Config.text?, Option.bind_eq_bind, Option.bind_eq_some_iff] at h
  obtain ⟨directory, hdirectory, h⟩ := h
  cases htarget : c.install.targetDir with
  | none =>
      rw [htarget] at h
      refine ⟨directory, none, Path.eq_ofString_of_text? hdirectory, rfl, ?_⟩
      rw [← Config.lines_eq_sections]
      exact (Option.some.inj h).symm
  | some dir =>
      simp only [htarget, Option.bind_eq_some_iff, Option.map_eq_some_iff] at h
      obtain ⟨_, ⟨t, ht, rfl⟩, h⟩ := h
      refine ⟨directory, some t, Path.eq_ofString_of_text? hdirectory, ?_, ?_⟩
      · rw [Path.eq_ofString_of_text? ht, Option.map_some]
      · rw [← Config.lines_eq_sections]
        exact (Option.some.inj h).symm

/-- What the two sections stand for is the configuration. -/
theorem Config.ofData?_sections {directory : String} {target? : Option String}
    (hdirectory : c.logging.directory = Path.ofString directory)
    (htarget : c.install.targetDir = target?.map Path.ofString) :
    Config.ofData? true (.record ([c.install.written target?, c.logging.written directory].map
      fun part => (part.name, part.data))) = some c := by
  obtain ⟨⟨python, targetDir, showUsage⟩, ⟨enabled, stderr, level, dir, rotation, filePrefix⟩⟩ := c
  dsimp only at hdirectory htarget
  subst hdirectory htarget
  cases target? with
  | none => rfl
  | some t => rfl

/-- A configuration is read back from its text. -/
theorem Config.ofText?_text (h : c.text? = some s) : Config.ofText? s = some c := by
  obtain ⟨directory, target?, hdirectory, htarget, rfl⟩ := Config.exists_sections h
  rw [Config.ofText?, Toml.ofText?_sections]
  · exact Config.ofData?_sections hdirectory htarget
  · simp [InstallConfig.written, LoggingConfig.written]

end Sideload
