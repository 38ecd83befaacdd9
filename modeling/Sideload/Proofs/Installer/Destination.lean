import Sideload.Proofs.Installer.Settle

/-!
Where the artifacts of different modules lie. Each is an entry of the package directory, as is each staging
path, and never the same one as a staging path. Two modules get one artifact in one case only: a file is
copied under the name that the redirect file of the other has. What is there then is not replaced.
-/

namespace Sideload

/-- An entry of a directory, told from the text of the paths. -/
def Path.IsChildOf (p target : Path) : Prop :=
  ∃ n : Name, n.Proper ∧ p.components = target.components ++ [.name n]

/-- A file that is copied under the name of the redirect file of another module. -/
structure TakesRedirect (name : String) (mode : Mode) (other : String) (source : Path) (otherMode : Mode)
    (isDir : Bool) : Prop where
  redirected : mode = .editable
  copied : otherMode = .copy
  isFile : isDir = false
  named : other = redirectStem ++ name
  extension_eq : source.extension? = some (Glyph.ofString redirectExtension)

/-! ### Names cut at their first dot -/

/-- The name of an artifact up to its first dot. -/
def artifactStem (name : String) : Mode → String
  | .editable => redirectStem ++ name
  | .copy => name

/-- The extension of an artifact, which a directory has none of. -/
def artifactExtension? (source : Path) : Mode → Bool → Option String
  | .editable, _ => some redirectExtension
  | .copy, true => none
  | .copy, false => some ((source.extension?.bind Glyph.text?).getD moduleExtension)

/-- An extension with its dot. -/
def dotted : Option String → List Char
  | none => []
  | some ext => '.' :: ext.toList

theorem dotted_inj {a b : Option String} : dotted a = dotted b ↔ a = b := by
  cases a <;> cases b <;> simp [dotted, String.toList_inj]

theorem toList_artifactName (source : Path) (name : String) (mode : Mode) (isDir : Bool) :
    (artifactName source name mode isDir).toList =
      (artifactStem name mode).toList ++ dotted (artifactExtension? source mode isDir) := by
  match mode, isDir with
  | .editable, _ =>
      show (redirectStem ++ name ++ "." ++ redirectExtension).toList = _
      rw [String.toList_append, String.toList_append, List.append_assoc]
      rfl
  | .copy, true => exact (List.append_nil _).symm
  | .copy, false =>
      show (name ++ "." ++ _).toList = _
      rw [String.toList_append, String.toList_append, List.append_assoc]
      rfl

theorem dot_not_mem_artifactStem {name : String} (h : IsIdentifier name) (mode : Mode) :
    '.' ∉ (artifactStem name mode).toList := by
  have hname : '.' ∉ name.toList := h.not_mem (by decide) (by decide)
  cases mode with
  | copy => exact hname
  | editable =>
      rw [artifactStem, String.toList_append, List.mem_append]
      exact fun hmem => hmem.elim (by decide) hname

/-- What comes before the first dot and what comes after it can be told from the whole. -/
theorem append_dotted_inj {a b : List Char} {x y : Option String} (ha : '.' ∉ a) (hb : '.' ∉ b) :
    a ++ dotted x = b ++ dotted y ↔ a = b ∧ x = y := by
  have hcut : ∀ {c : List Char} (z : Option String), '.' ∉ c →
      (c ++ dotted z).takeWhile (· ≠ '.') = c := by
    intro c z hc
    rw [List.takeWhile_append_of_pos fun g hg => by simpa using fun he : g = '.' => hc (he ▸ hg)]
    cases z with
    | none => exact List.append_nil c
    | some ext => simp [dotted]
  refine ⟨fun h => ?_, fun ⟨hab, hxy⟩ => by rw [hab, hxy]⟩
  have hab : a = b := by rw [← hcut x ha, h, hcut y hb]
  rw [hab, List.append_cancel_left_eq, dotted_inj] at h
  exact ⟨hab, h⟩

theorem artifactName_inj {n₁ n₂ : String} (h₁ : IsIdentifier n₁) (h₂ : IsIdentifier n₂) {s₁ s₂ : Path}
    {m₁ m₂ : Mode} {dir₁ dir₂ : Bool} :
    artifactName s₁ n₁ m₁ dir₁ = artifactName s₂ n₂ m₂ dir₂ ↔
      artifactStem n₁ m₁ = artifactStem n₂ m₂ ∧
        artifactExtension? s₁ m₁ dir₁ = artifactExtension? s₂ m₂ dir₂ := by
  rw [← String.toList_inj, toList_artifactName, toList_artifactName,
    append_dotted_inj (dot_not_mem_artifactStem h₁ m₁) (dot_not_mem_artifactStem h₂ m₂), String.toList_inj]

/-! ### Artifacts of different modules -/

theorem extension_eq_redirect_iff {source : Path} :
    (source.extension?.bind Glyph.text?).getD moduleExtension = redirectExtension ↔
      source.extension? = some (Glyph.ofString redirectExtension) := by
  constructor
  · intro h
    cases hext : source.extension? with
    | none =>
        rw [hext] at h
        exact absurd h (by decide)
    | some ext =>
        rw [hext, Option.bind_some] at h
        cases htext : Glyph.text? ext with
        | none =>
            rw [htext] at h
            exact absurd h (by decide)
        | some s =>
            rw [htext, Option.getD_some] at h
            rw [Glyph.eq_ofString_of_text? htext, h]
  · intro h
    rw [h, Option.bind_some, Glyph.text?_ofString, Option.getD_some]

/-- The redirect file of one module is called as a copied artifact of another one just if the other takes
its name. -/
theorem artifactName_redirect_iff {name other : String} (h : IsIdentifier name) (h' : IsIdentifier other)
    {source source' : Path} {isDir isDir' : Bool} :
    artifactName source name .editable isDir = artifactName source' other .copy isDir' ↔
      TakesRedirect name .editable other source' .copy isDir' := by
  rw [artifactName_inj h h']
  constructor
  · rintro ⟨hstem, hext⟩
    cases isDir' with
    | true => cases hext
    | false => exact ⟨rfl, rfl, rfl, hstem.symm, extension_eq_redirect_iff.1 (Option.some.inj hext).symm⟩
  · rintro ⟨-, -, rfl, hnamed, hext⟩
    exact ⟨hnamed.symm, congrArg some (extension_eq_redirect_iff.2 hext).symm⟩

theorem artifactName_eq_iff {n₁ n₂ : String} (h₁ : IsIdentifier n₁) (h₂ : IsIdentifier n₂) (hne : n₁ ≠ n₂)
    {s₁ s₂ : Path} {m₁ m₂ : Mode} {dir₁ dir₂ : Bool} :
    artifactName s₁ n₁ m₁ dir₁ = artifactName s₂ n₂ m₂ dir₂ ↔
      TakesRedirect n₁ m₁ n₂ s₂ m₂ dir₂ ∨ TakesRedirect n₂ m₂ n₁ s₁ m₁ dir₁ := by
  -- in one mode the names themselves can be told from the stems
  match m₁, m₂ with
  | .editable, .editable =>
      rw [artifactName_inj h₁ h₂]
      refine ⟨fun ⟨hstem, _⟩ => absurd (String.append_right_inj redirectStem |>.1 hstem) hne, ?_⟩
      rintro (⟨-, hcopied, -⟩ | ⟨-, hcopied, -⟩) <;> cases hcopied
  | .copy, .copy =>
      rw [artifactName_inj h₁ h₂]
      refine ⟨fun ⟨hstem, _⟩ => absurd hstem hne, ?_⟩
      rintro (⟨hredirected, -⟩ | ⟨hredirected, -⟩) <;> cases hredirected
  | .editable, .copy =>
      rw [artifactName_redirect_iff h₁ h₂]
      refine ⟨.inl, fun h => h.resolve_right ?_⟩
      rintro ⟨hredirected, -⟩
      cases hredirected
  | .copy, .editable =>
      rw [eq_comm, artifactName_redirect_iff h₂ h₁]
      refine ⟨.inr, fun h => h.resolve_left ?_⟩
      rintro ⟨hredirected, -⟩
      cases hredirected

theorem Path.sameAs_child_iff {target : Path} {s t : String} (hs : Name.Proper (Glyph.ofString s))
    (ht : Name.Proper (Glyph.ofString t)) : (target.child s).sameAs (target.child t) = true ↔ s = t := by
  rw [sameAs_iff, child_eq, child_eq, components_join _ hs, components_join _ ht, List.append_cancel_left_eq,
    List.cons.injEq, Component.name.injEq, Glyph.ofString_inj]
  exact and_iff_left rfl

theorem Path.isChildOf_child {target : Path} {s : String} (h : Name.Proper (Glyph.ofString s)) :
    (target.child s).IsChildOf target :=
  ⟨_, h, by rw [child_eq, components_join _ h]⟩

end Sideload
