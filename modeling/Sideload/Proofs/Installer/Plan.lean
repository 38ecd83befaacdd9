import Sideload.Installer.Basic
import Sideload.Proofs.Path
import Sideload.Proofs.Registry.Line

/-!
Plans. The name of a plan is an identifier, its source is absolute, and its artifact and its staging
path are entries of the package directory.
-/

namespace Sideload

/-! ### Identifiers -/

/-- Names that modules can have. -/
def IsIdentifier (name : String) : Prop := nameFault? name.toList = none

theorem validateName_eq_ok_iff {name : String} : validateName name = .ok () ↔ IsIdentifier name := by
  unfold validateName IsIdentifier
  cases nameFault? name.toList with
  | none => exact ⟨fun _ => rfl, fun _ => rfl⟩
  | some fault => exact ⟨by simp, by simp⟩

theorem isAlphanumeric_of_isAlphabetic {c : Char} (h : isAlphabetic c = true) :
    isAlphanumeric c = true := by
  unfold isAlphabetic at h
  unfold isAlphanumeric
  split at h
  · next hlow =>
      rw [if_pos hlow, Char.isAlphanum, h]
      rfl
  · next hhigh =>
      rw [if_neg hhigh, h]
      rfl

namespace IsIdentifier

variable {name : String}

theorem ne_nil (h : IsIdentifier name) : name.toList ≠ [] := by
  intro hnil
  unfold IsIdentifier at h
  rw [hnil] at h
  cases h

/-- Identifiers have letters, digits and underscores only. -/
theorem char (h : IsIdentifier name) {c : Char} (hc : c ∈ name.toList) :
    isAlphanumeric c = true ∨ c = '_' := by
  unfold IsIdentifier at h
  generalize name.toList = cs at h hc
  cases cs with
  | nil => cases hc
  | cons first rest =>
      rw [nameFault?] at h
      split at h
      · cases h
      next hfirst =>
      split at h
      · cases h
      next hrest =>
      rcases List.mem_cons.1 hc with rfl | hc
      · rw [Bool.not_eq_true', Bool.not_eq_false, Bool.or_eq_true, decide_eq_true_eq] at hfirst
        exact hfirst.imp_left isAlphanumeric_of_isAlphabetic
      · simp only [List.any_eq_true, not_exists, not_and, Bool.not_eq_true', Bool.not_eq_false,
          Bool.or_eq_true, decide_eq_true_eq] at hrest
        exact hrest c hc

theorem not_mem (h : IsIdentifier name) {c : Char} (hc : isAlphanumeric c = false) (hne : c ≠ '_') :
    c ∉ name.toList := by
  intro hmem
  rcases h.char hmem with halnum | rfl
  · rw [hc] at halnum
    cases halnum
  · exact hne rfl

theorem ne_empty (h : IsIdentifier name) : name ≠ "" := fun he => h.ne_nil (by rw [he]; rfl)

theorem not_comment (h : IsIdentifier name) : name.toList.head? ≠ some '#' := fun hhead =>
  h.not_mem (by decide) (by decide) (List.mem_of_head? hhead)

end IsIdentifier

/-! ### Names in a package directory -/

/-- The name of the artifact of a module. -/
def artifactName (source : Path) (name : String) (mode : Mode) (isDir : Bool) : String :=
  match mode, isDir with
  | .editable, _ => s!"{redirectStem}{name}.{redirectExtension}"
  | .copy, true => name
  | .copy, false => s!"{name}.{(source.extension?.bind Glyph.text?).getD moduleExtension}"

/-- The name that an artifact has while it is built. -/
def stagingName (name : String) : String := s!".{redirectStem}{name}.partial"

theorem destination_eq (target source : Path) (name : String) (mode : Mode) (isDir : Bool) :
    destination target source name mode isDir =
      target.child (artifactName source name mode isDir) := by
  cases mode <;> cases isDir <;> rfl

theorem stagingPath_eq (target : Path) (name : String) :
    stagingPath target name = target.child (stagingName name) := rfl

theorem Path.child_eq (p : Path) (s : String) : p.child s = p.join (.ofName (Glyph.ofString s)) := rfl

theorem Glyph.slash_mem_ofString {s : String} : slash ∈ ofString s ↔ '/' ∈ s.toList := by
  rw [ofString, List.mem_map]
  constructor
  · rintro ⟨c, hc, hslash⟩
    cases hslash
    exact hc
  · exact fun hc => ⟨'/', hc, rfl⟩

theorem Glyph.ofString_inj {s t : String} : ofString s = ofString t ↔ s = t := by
  constructor
  · intro h
    rw [← Option.some_inj, ← text?_ofString, h, text?_ofString]
  · rintro rfl
    rfl

theorem slash_not_mem_extension {source : Path} {ext : Name} (h : source.extension? = some ext) :
    slash ∉ ext := by
  unfold Path.extension? Path.fileName? at h
  obtain ⟨n, hn, hext⟩ := Option.bind_eq_some_iff.1 h
  have hno : slash ∉ n := by
    split at hn
    · next m hm =>
        split at hn
        · cases hn
        · cases hn
          have hmem := List.mem_of_getLast? hm
          rw [Path.trimmed_snd] at hmem
          have hbody := (List.rdropWhile_prefix _ _).subset hmem
          have hsplit : n ∈ splitSlash source.glyphs := by
            rw [Path.splitSlash_glyphs]
            exact List.mem_append_right _ hbody
          exact not_mem_of_mem_splitSlash hsplit
    · cases hn
  intro hslash
  unfold Path.splitDot at hext
  dsimp only at hext
  split at hext
  · cases hext
    exact hno (List.mem_reverse.1 ((List.takeWhile_prefix _).subset (List.mem_reverse.1 hslash)))
  · cases hext

/-- Text without slashes that is longer than two characters, or has an identifier in it, is a name. -/
theorem proper_of_identifier {name before after : String} (h : IsIdentifier name)
    (hbefore : '/' ∉ before.toList) (hafter : '/' ∉ after.toList) :
    Name.Proper (Glyph.ofString (before ++ name ++ after)) := by
  obtain ⟨c, hc⟩ := List.exists_mem_of_ne_nil _ h.ne_nil
  have hmem : Glyph.char c ∈ Glyph.ofString (before ++ name ++ after) := by
    refine List.mem_map_of_mem ?_
    rw [String.toList_append, String.toList_append]
    exact List.mem_append_left _ (List.mem_append_right _ hc)
  have hdot : c ≠ '.' := by
    rintro rfl
    exact h.not_mem (by decide) (by decide) hc
  refine ⟨fun hnil => ?_, fun heq => ?_, fun heq => ?_, fun hslash => ?_⟩
  · rw [hnil] at hmem
    cases hmem
  · rw [heq, Name.dot] at hmem
    simp [hdot] at hmem
  · rw [heq, Name.dotDot] at hmem
    simp [hdot] at hmem
  · rw [Glyph.slash_mem_ofString, String.toList_append, String.toList_append, List.mem_append,
      List.mem_append] at hslash
    rcases hslash with (hb | hn) | ha
    · exact hbefore hb
    · exact h.not_mem (by decide) (by decide) hn
    · exact hafter ha

theorem slash_not_mem_extensionText (source : Path) :
    '/' ∉ ((source.extension?.bind Glyph.text?).getD moduleExtension).toList := by
  cases hext : source.extension? with
  | none => decide
  | some ext =>
      rw [Option.bind_some]
      cases htext : Glyph.text? ext with
      | none => decide
      | some s =>
          rw [Option.getD_some, ← Glyph.slash_mem_ofString, ← Glyph.eq_ofString_of_text? htext]
          exact slash_not_mem_extension hext

theorem artifactName_proper {name : String} (h : IsIdentifier name) (source : Path) (mode : Mode)
    (isDir : Bool) : Name.Proper (Glyph.ofString (artifactName source name mode isDir)) := by
  have hdot : '/' ∉ ("." ++ redirectExtension).toList := by decide
  match mode, isDir with
  | .editable, _ =>
      have hname := @proper_of_identifier name redirectStem _ h (by decide) hdot
      rw [← String.append_assoc] at hname
      exact hname
  | .copy, true =>
      have hname := @proper_of_identifier name "" "" h (by decide) (by decide)
      rw [String.empty_append, String.append_empty] at hname
      exact hname
  | .copy, false =>
      have hafter : '/' ∉ ("." ++ (source.extension?.bind Glyph.text?).getD moduleExtension).toList := by
        rw [String.toList_append, List.mem_append]
        exact fun hslash => hslash.elim (by decide) (slash_not_mem_extensionText source)
      have hname := @proper_of_identifier name "" _ h (by decide) hafter
      rw [String.empty_append, ← String.append_assoc] at hname
      exact hname

theorem stagingName_proper {name : String} (h : IsIdentifier name) :
    Name.Proper (Glyph.ofString (stagingName name)) :=
  @proper_of_identifier name ("." ++ redirectStem) ".partial" h (by decide) (by decide)

/-! ### Plans -/

theorem isAbsolute_pathOf (loc : Location) : (Disk.pathOf loc).isAbsolute = true := by
  cases loc with
  | nil => rfl
  | cons n ns => rfl

theorem isAbsolute_resolveSource {d : Disk} {source p : Path} (h : resolveSource d source = .ok p) :
    p.isAbsolute = true := by
  unfold resolveSource at h
  split at h
  · unfold Disk.canonical at h
    cases hfind : d.find source true with
    | error e =>
        rw [hfind] at h
        cases h
    | ok spot =>
        rw [hfind] at h
        cases spot with
        | present c =>
            cases h
            exact isAbsolute_pathOf _
        | vacant c n => cases h
  · cases h

/-- What is known of a plan. -/
structure Planned (d : Disk) (target source : Path) (mode : Mode) (name? : Option String)
    (prior : Option Entry) (plan : Plan) : Prop where
  resolved : resolveSource d source = .ok plan.source
  derived : deriveName d plan.source = .ok plan.derived
  named : plan.name = name?.getD plan.derived
  valid : IsIdentifier plan.name
  isDir_eq : plan.isDir = d.isDir plan.source
  mode_eq : plan.mode = mode
  target_eq : plan.target = target
  dest_eq : plan.dest = destination target plan.source plan.name mode plan.isDir
  prior_eq : plan.prior = prior
  clear : conflict? d (candidates target plan.dest plan.name mode) prior = none

theorem planned {d : Disk} {target source : Path} {mode : Mode} {name? : Option String}
    {prior : Option Entry} {plan : Plan}
    (h : planInstall d target source mode name? prior = .ok plan) :
    Planned d target source mode name? prior plan := by
  unfold planInstall at h
  cases hsource : resolveSource d source with
  | error e =>
      rw [hsource] at h
      cases h
  | ok real =>
      rw [hsource] at h
      simp only [bind, Except.bind] at h
      cases hderived : deriveName d real with
      | error e =>
          rw [hderived] at h
          cases h
      | ok derived =>
          rw [hderived] at h
          simp only at h
          cases hvalid : validateName (name?.getD derived) with
          | error e =>
              rw [hvalid] at h
              cases h
          | ok u =>
              rw [hvalid] at h
              simp only at h
              cases hclear : conflict? d (candidates target (destination target real
                  (name?.getD derived) mode (d.isDir real)) (name?.getD derived) mode) prior with
              | some taken =>
                  rw [hclear] at h
                  cases h
              | none =>
                  rw [hclear] at h
                  cases h
                  exact ⟨hsource, hderived, rfl, validateName_eq_ok_iff.1 hvalid, rfl, rfl, rfl, rfl,
                    rfl, hclear⟩

namespace Planned

variable {d : Disk} {target source : Path} {mode : Mode} {name? : Option String}
  {prior : Option Entry} {plan : Plan}

theorem source_absolute (h : Planned d target source mode name? prior plan) :
    plan.source.isAbsolute = true :=
  isAbsolute_resolveSource h.resolved

/-- The destination is absolute if the package directory has an absolute path. -/
theorem isAbsolute_dest (h : Planned d target source mode name? prior plan) :
    plan.dest.isAbsolute = target.isAbsolute := by
  rw [h.dest_eq, destination_eq, Path.child_eq]
  exact Path.isAbsolute_join target (artifactName_proper h.valid _ _ _)

theorem dest_mem (h : Planned d target source mode name? prior plan) :
    plan.dest ∈ candidates target plan.dest plan.name mode := by
  cases mode <;> exact List.mem_cons_self ..

/-- No install is planned with something in its way, unless that is the artifact of the entry that is
replaced. -/
theorem recorded (h : Planned d target source mode name? prior plan) {q : Path}
    (hq : q ∈ candidates target plan.dest plan.name mode) (hthere : d.occupied q = true) :
    prior.any (·.artifact.sameAs q) = true := by
  have hclear := List.find?_eq_none.1 h.clear _ hq
  rw [hthere] at hclear
  simpa using hclear

end Planned

end Sideload
