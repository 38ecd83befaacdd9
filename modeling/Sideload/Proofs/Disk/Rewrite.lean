import Sideload.Proofs.Disk.Replace

/-!
Writing one text or another. Whether a text can be written beside a file and moved over it does not depend
on the text, and the two disks that come out differ in that text only.
-/

namespace Sideload

namespace Disk

variable {d d₁ d₂ d' : Disk} {p : Path} {parent : Location} {n : Name}

/-- Whether a file can be opened does not depend on what is done to it. -/
theorem openFile_isOk {change : Option (ByteArray × Bool) → ByteArray × Bool}
    (h : d.openFile p change = .ok d') (other : Option (ByteArray × Bool) → ByteArray × Bool) :
    ∃ d'', d.openFile p other = .ok d'' := by
  unfold openFile at h ⊢
  split at h
  · next hslash =>
      cases hplace : d.place p with
      | error e =>
          rw [hplace] at h
          cases h
      | ok spot =>
          rw [hplace] at h
          cases h
  · next hslash =>
      rw [if_neg hslash]
      cases hfind : d.find p true with
      | error e =>
          rw [hfind] at h
          cases h
      | ok spot =>
          rw [hfind] at h
          cases spot with
          | vacant parent n => exact ⟨_, rfl⟩
          | present c =>
              dsimp only [bind, Except.bind] at h ⊢
              split at h
              · exact ⟨_, rfl⟩
              · cases h

theorem shape_eq_none {a b : Option Label} (h : a.map Label.shape = b.map Label.shape) (hb : b = none) :
    a = none := by
  rw [hb] at h
  exact Option.map_eq_none_iff.1 h

theorem shape_eq_dir {a b : Option Label} (h : a.map Label.shape = b.map Label.shape)
    (hb : b = some .dir) : a = some .dir := by
  rw [hb] at h
  obtain ⟨label, rfl, hlabel⟩ := Option.map_eq_some_iff.1 h
  cases label with
  | file content x => cases hlabel
  | link target => cases hlabel
  | dir => rfl

/-- Two disks on which a path was written with two texts. -/
structure Rewritten (g : Location) (d₁ d₂ : Disk) : Prop where
  cwd : d₂.cwd = d₁.cwd
  look : ∀ l, l ≠ g → d₂.look l = d₁.look l
  before : ∃ content x, d₁.look g = some (.file content x)
  after : ∃ content x, d₂.look g = some (.file content x)

theorem rewritten_of_write {content content' : ByteArray} (h₁ : d.write p content = .ok d₁)
    (h₂ : d.write p content' = .ok d₂) : ∃ g, Rewritten g d₁ d₂ := by
  obtain ⟨g, old, hgoal, -, -, hsame, hlook⟩ := openFile_ok h₁
  obtain ⟨g', old', hgoal', -, -, hsame', hlook'⟩ := openFile_ok h₂
  obtain rfl : g = g' := Except.ok.inj (hgoal.symm.trans hgoal')
  have hbefore : d₁.look g.location = some (.file content ((old.map (·.2)).getD false)) := by
    rw [hlook, Function.update_self]
  have hafter : d₂.look g.location = some (.file content' ((old'.map (·.2)).getD false)) := by
    rw [hlook', Function.update_self]
  refine ⟨g.location, hsame'.cwd.trans hsame.cwd.symm, fun l hl => ?_, ⟨_, _, hbefore⟩, ⟨_, _, hafter⟩⟩
  rw [hlook, hlook', Function.update_of_ne hl, Function.update_of_ne hl]

namespace Rewritten

variable {g : Location}

theorem shape (h : Rewritten g d₁ d₂) (l : Location) :
    (d₂.look l).map Label.shape = (d₁.look l).map Label.shape := by
  by_cases hl : l = g
  · subst hl
    obtain ⟨c, x, hbefore⟩ := h.before
    obtain ⟨c', x', hafter⟩ := h.after
    rw [hbefore, hafter]
    rfl
  · rw [h.look l hl]

/-- The way to an entry does not lead over a file. -/
theorem slot (h : Rewritten g d₁ d₂) (hs : d₁.Slot p parent n) : d₂.Slot p parent n := by
  refine (hs.congr h.cwd fun l hl => h.look l ?_).1
  rintro rfl
  obtain ⟨c, x, hbefore⟩ := h.before
  exact hs.not_file hl c x hbefore

end Rewritten

/-- A file or a link can be renamed to anything that is not a directory. -/
theorem rename_leaf_isOk {src dst : Path} {parent' : Location} {n' : Name} (hsrc : d.Slot src parent n)
    (hdst : d.Slot dst parent' n') (hslash : src.endsInSlash = false) (hslash' : dst.endsInSlash = false)
    (hthere : d.look (parent ++ [n]) ≠ none) (hleaf : d.look (parent ++ [n]) ≠ some .dir)
    (hleaf' : d.look (parent' ++ [n']) ≠ some .dir) (hbelow : ¬ parent ++ [n] <+: parent' ++ [n'])
    (habove : ¬ parent' ++ [n'] <+: parent ++ [n]) : ∃ d', d.rename src dst = .ok d' := by
  obtain ⟨c, hplace, rfl, hfits⟩ := hsrc.place
  obtain ⟨c', hplace', rfl, hfits'⟩ := hdst.place
  rw [look_child_slot hfits] at hthere hleaf
  rw [look_child_slot hfits'] at hleaf'
  obtain ⟨node, hnode⟩ : ∃ node, c.node.child? n = some node :=
    Option.ne_none_iff_exists'.1 fun hnone => hthere (by rw [hnone]; rfl)
  have hfile : node.isDir = false := by
    rw [Bool.eq_false_iff]
    exact fun hdir => hleaf (by rw [hnode, Option.map_some, Node.isDir_iff.1 hdir])
  have hreplace : replaceFault? node (c'.node.child? n') = none := by
    cases hother : c'.node.child? n' with
    | none => rfl
    | some m =>
        rw [hother, Option.map_some] at hleaf'
        cases m with
        | dir es => exact absurd rfl hleaf'
        | file content x => exact if_neg (by rw [hfile]; simp)
        | link target => exact if_neg (by rw [hfile]; simp)
  have hwithin : isWithin (c'.location ++ [n']) (c.location ++ [n]) = false := by
    rw [Bool.eq_false_iff, isWithin, Ne, List.isPrefixOf_iff_prefix]
    exact hbelow
  have hwithin' : isWithin (c.location ++ [n]) (c'.location ++ [n']) = false := by
    rw [Bool.eq_false_iff, isWithin, Ne, List.isPrefixOf_iff_prefix]
    exact habove
  have hne : c.location ++ [n] ≠ c'.location ++ [n'] := fun hsame =>
    hbelow (hsame ▸ List.prefix_refl _)
  unfold rename
  rw [hplace, hplace']
  simp [bind, Except.bind, hslash, hslash', hnode, hwithin, hwithin', hne, hreplace]

/-- A file that was written beside another one can be moved over it whatever its text is; afterwards the
two disks differ in that text at most. -/
theorem rename_of_rewritten {src dst : Path} {g : Location} (h : Rewritten g d₁ d₂)
    (hr : d₁.rename src dst = .ok d') (hparent : ∃ parent m n, d₁.Slot src parent m ∧
      d₁.Slot dst parent n ∧ m ≠ n) (hleaf : ∀ {parent m}, d₁.Slot src parent m →
      d₁.look (parent ++ [m]) ≠ some .dir) :
    ∃ d'', d₂.rename src dst = .ok d'' ∧ d''.cwd = d'.cwd ∧
      ∀ l, (d''.look l).map Label.shape = (d'.look l).map Label.shape := by
  obtain ⟨parent, m, n, hsrc, hdst, hne⟩ := hparent
  have hplaces : parent ++ [m] ≠ parent ++ [n] := by simpa using hne
  have hfile := hleaf hsrc
  obtain ⟨hcwd, hnotDir, hlook⟩ := rename_leaf hr hsrc hdst hplaces hfile
  obtain ⟨_, _, _, _, hsrc', -, hthere, -, hslashes, -⟩ := rename_ok hr
  obtain ⟨rfl, rfl⟩ := hsrc'.unique hsrc
  obtain ⟨hslash, hslash'⟩ := hslashes hfile
  have hbelow : ∀ {k k' : Name}, k ≠ k' → ¬ parent ++ [k] <+: parent ++ [k'] := by
    intro k k' hk hpre
    rw [List.prefix_append_right_inj] at hpre
    exact hk (List.cons_prefix_cons.1 hpre).1
  obtain ⟨d'', hr'⟩ := rename_leaf_isOk (h.slot hsrc) (h.slot hdst) hslash hslash'
    (fun hnone => hthere (shape_eq_none (h.shape _).symm hnone))
    (fun hdir => hfile (shape_eq_dir (h.shape _).symm hdir))
    (fun hdir => hnotDir (shape_eq_dir (h.shape _).symm hdir)) (hbelow hne) (hbelow hne.symm)
  obtain ⟨hcwd', -, hlook'⟩ := rename_leaf hr' (h.slot hsrc) (h.slot hdst) hplaces
    fun hdir => hfile (shape_eq_dir (h.shape _).symm hdir)
  refine ⟨d'', hr', by rw [hcwd', hcwd, h.cwd], fun l => ?_⟩
  rw [hlook, hlook']
  by_cases hl : l = parent ++ [n]
  · rw [hl, Function.update_self, Function.update_self, h.shape]
  · rw [Function.update_of_ne hl, Function.update_of_ne hl]
    by_cases hl' : l = parent ++ [m]
    · rw [hl', Function.update_self, Function.update_self]
    · rw [Function.update_of_ne hl', Function.update_of_ne hl', h.shape]

end Disk

end Sideload
