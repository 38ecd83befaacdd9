import Sideload.Proofs.Disk.Chain
import Sideload.Proofs.Disk.Effect
import Sideload.Proofs.Run

/-!
Making directories. Whatever happens, nothing that was there changes: only directories are new. If all
goes well the path leads to a directory, and the new ones are on the way to it.
-/

namespace Sideload

namespace Disk

variable {d d' d'' : Disk} {p : Path} {loc parent : Location} {n : Name}

/-- Only directories are new, each where nothing was. -/
structure Opens (d d' : Disk) : Prop where
  cwd : d'.cwd = d.cwd
  look : ∀ l, d'.look l = d.look l ∨ d.look l = none ∧ d'.look l = some .dir

namespace Opens

theorem refl (d : Disk) : Opens d d := ⟨rfl, fun _ => .inl rfl⟩

theorem look_of_ne_none (h : Opens d d') {l : Location} (hl : d.look l ≠ none) :
    d'.look l = d.look l :=
  (h.look l).resolve_right fun hnew => hl hnew.1

theorem trans (h : Opens d d') (h' : Opens d' d'') : Opens d d'' := by
  refine ⟨h'.cwd.trans h.cwd, fun l => ?_⟩
  rcases h.look l with hl | ⟨hnone, hdir⟩
  · rcases h'.look l with hl' | ⟨hnone', hdir'⟩
    · exact .inl (hl'.trans hl)
    · exact .inr ⟨hl ▸ hnone', hdir'⟩
  · exact .inr ⟨hnone, by rw [h'.look_of_ne_none (by rw [hdir]; simp), hdir]⟩

/-- A directory that is there is found the same way. -/
theorem enters (h : Opens d d') (he : d.Enters p loc) :
    d'.Enters p loc ∧ d'.way p true = d.way p true :=
  he.congr h.cwd fun _ hl => h.look_of_ne_none (he.look_ne_none hl)

theorem slot (h : Opens d d') (hs : d.Slot p parent n) :
    d'.Slot p parent n ∧ d'.approach p = d.approach p :=
  hs.congr h.cwd fun _ hl => h.look_of_ne_none (hs.look_ne_none hl)

theorem isDir (h : Opens d d') (hp : d.isDir p = true) : d'.isDir p = true := by
  obtain ⟨loc, he⟩ := isDir_iff.1 hp
  exact isDir_iff.2 ⟨loc, (h.enters he).1⟩

end Opens

/-- Each new directory is where one of the paths leads. -/
def NewOn (ps : List Path) (d d' : Disk) : Prop :=
  ∀ l, d'.look l ≠ d.look l → ∃ q ∈ ps, q.isEmpty = false ∧ d'.Enters q l

namespace NewOn

theorem refl (ps : List Path) (d : Disk) : NewOn ps d d := fun _ hl => absurd rfl hl

theorem mono {ps qs : List Path} (h : NewOn ps d d') (hsub : ∀ q ∈ ps, q ∈ qs) :
    NewOn qs d d' := fun l hl =>
  let ⟨q, hq, hrest⟩ := h l hl
  ⟨q, hsub q hq, hrest⟩

theorem trans {ps : List Path} (h : NewOn ps d d') (h' : NewOn ps d' d'') (ho : Opens d' d'') :
    NewOn ps d d'' := by
  intro l hl
  by_cases hsame : d''.look l = d'.look l
  · obtain ⟨q, hq, hne, he⟩ := h l (hsame ▸ hl)
    exact ⟨q, hq, hne, (ho.enters he).1⟩
  · exact h' l hsame

end NewOn

theorem makeDir_opens (h : d.makeDir p = .ok d') :
    Opens d d' ∧ NewOn [p] d d' ∧ d'.isDir p = true := by
  obtain ⟨parent, n, hslot, hnone, hcwd, hlook⟩ := makeDir_ok h
  have hopens : Opens d d' := by
    refine ⟨hcwd, fun l => ?_⟩
    rw [hlook]
    by_cases hl : l = parent ++ [n]
    · rw [hl, Function.update_self]
      exact .inr ⟨hnone, rfl⟩
    · exact .inl (Function.update_of_ne hl ..)
  have henters : d'.Enters p (parent ++ [n]) := by
    refine (hopens.slot hslot).1.enters_entry ?_
    rw [hlook, Function.update_self]
  refine ⟨hopens, fun l hl => ?_, isDir_iff.2 ⟨_, henters⟩⟩
  have hloc : l = parent ++ [n] := by
    by_contra hne
    exact hl (by rw [hlook, Function.update_of_ne hne])
  refine ⟨p, List.mem_singleton.2 rfl, ?_, hloc ▸ henters⟩
  by_contra hempty
  have hadmits := hslot.admits
  unfold admit? at hadmits
  split at hadmits
  · cases hadmits
  · rw [if_pos (by simpa using hempty)] at hadmits
    cases hadmits

end Disk

namespace DiskM

open Disk

variable {d d' : Disk} {p : Path}

theorem reach_cons (p : Path) (above todo : List Path) (d : Disk) :
    (reach (p :: above) todo).run d =
      if p.isEmpty then (.ok todo, d)
      else match d.makeDir p with
        | .ok d' => (.ok todo, d')
        | .error e =>
          if e.isMissing then (reach above (p :: todo)).run d
          else if e.isExisting && d.isDir p then (.ok todo, d)
          else (.error e, d) := by
  rw [reach]
  split
  · rfl
  · show ((match d.makeDir p with
      | .ok d' => do set d'; pure todo
      | .error e => if e.isMissing then reach above (p :: todo)
          else if e.isExisting && d.isDir p then pure todo else throw e) :
        DiskM (List Path)).run d = _
    cases d.makeDir p with
    | ok d' => rfl
    | error e =>
        dsimp only
        split
        · rfl
        · split <;> rfl

theorem makeEach_cons (p : Path) (rest : List Path) (d : Disk) :
    (makeEach (p :: rest)).run d = match d.makeDir p with
      | .ok d' => (makeEach rest).run d'
      | .error e =>
        if e.isExisting && d.isDir p then (makeEach rest).run d else (.error e, d) := by
  rw [makeEach]
  show ((match d.makeDir p with
    | .ok d' => do set d'; makeEach rest
    | .error e => do
      if e.isExisting && d.isDir p then pure () else throw e
      makeEach rest) : DiskM Unit).run d = _
  cases d.makeDir p with
  | ok d' => rfl
  | error e =>
      dsimp only
      split <;> rfl

/-- The search for the nearest directory that is there. -/
theorem reach_spec (ps todo : List Path) (d : Disk) :
    Opens d ((reach ps todo).run d).2 ∧ NewOn ps d ((reach ps todo).run d).2 ∧
      ∀ todo', ((reach ps todo).run d).1 = .ok todo' →
        (∀ q ∈ todo', q ∈ ps ∨ q ∈ todo) ∧ (∀ q ∈ todo, q ∈ todo') ∧
          ∀ q, ps.head? = some q → q.isEmpty = false →
            ((reach ps todo).run d).2.isDir q = true ∨ q ∈ todo' := by
  induction ps generalizing todo with
  | nil =>
      refine ⟨.refl d, .refl [] d, fun todo' h => ?_⟩
      cases h
      exact ⟨fun q hq => .inr hq, fun q hq => hq, nofun⟩
  | cons p above ih =>
      rw [reach_cons]
      split
      · next hempty =>
          refine ⟨.refl d, .refl _ d, fun todo' h => ?_⟩
          cases h
          refine ⟨fun q hq => .inr hq, fun q hq => hq, fun q hq hne => ?_⟩
          cases hq
          rw [hempty] at hne
          cases hne
      · cases hmake : d.makeDir p with
        | ok d' =>
            obtain ⟨hopens, hnew, hdir⟩ := makeDir_opens hmake
            refine ⟨hopens, hnew.mono (by simp), fun todo' h => ?_⟩
            cases h
            refine ⟨fun q hq => .inr hq, fun q hq => hq, fun q hq _ => ?_⟩
            cases hq
            exact .inl hdir
        | error e =>
            dsimp only
            split
            · obtain ⟨hopens, hnew, htodo⟩ := ih (p :: todo)
              refine ⟨hopens, hnew.mono fun q hq => List.mem_cons_of_mem _ hq, fun todo' h => ?_⟩
              obtain ⟨hsub, hkept, -⟩ := htodo todo' h
              refine ⟨fun q hq => ?_, fun q hq => hkept q (List.mem_cons_of_mem _ hq), ?_⟩
              · rcases hsub q hq with hq | hq
                · exact .inl (List.mem_cons_of_mem _ hq)
                · rcases List.mem_cons.1 hq with rfl | hq
                  · exact .inl (List.mem_cons_self ..)
                  · exact .inr hq
              · intro q hq _
                cases hq
                exact .inr (hkept _ (List.mem_cons_self ..))
            · split
              · next hthere =>
                  refine ⟨.refl d, .refl _ d, fun todo' h => ?_⟩
                  cases h
                  refine ⟨fun q hq => .inr hq, fun q hq => hq, fun q hq _ => ?_⟩
                  cases hq
                  exact .inl (Bool.and_eq_true_iff.1 hthere).2
              · exact ⟨.refl d, .refl _ d, nofun⟩

theorem makeEach_spec (ps : List Path) (d : Disk) :
    Opens d ((makeEach ps).run d).2 ∧ NewOn ps d ((makeEach ps).run d).2 ∧
      (((makeEach ps).run d).1 = .ok () → ∀ q ∈ ps, ((makeEach ps).run d).2.isDir q = true) := by
  induction ps generalizing d with
  | nil => exact ⟨.refl d, .refl [] d, fun _ => nofun⟩
  | cons p rest ih =>
      rw [makeEach_cons]
      cases hmake : d.makeDir p with
      | ok d' =>
          obtain ⟨hopens, hnew, hdir⟩ := makeDir_opens hmake
          obtain ⟨hopens', hnew', hdirs⟩ := ih d'
          refine ⟨hopens.trans hopens', ?_, fun h q hq => ?_⟩
          · exact (hnew.mono (by simp)).trans (hnew'.mono fun q hq => List.mem_cons_of_mem _ hq)
              hopens'
          · rcases List.mem_cons.1 hq with rfl | hq
            · exact hopens'.isDir hdir
            · exact hdirs h q hq
      | error e =>
          dsimp only
          split
          · next hthere =>
              obtain ⟨hopens, hnew, hdirs⟩ := ih d
              refine ⟨hopens, hnew.mono fun q hq => List.mem_cons_of_mem _ hq, fun h q hq => ?_⟩
              rcases List.mem_cons.1 hq with rfl | hq
              · exact hopens.isDir (Bool.and_eq_true_iff.1 hthere).2
              · exact hdirs h q hq
          · exact ⟨.refl d, .refl _ d, nofun⟩

theorem run_createDirAll {p : Path} (hne : p.isEmpty = false) (d : Disk) :
    (createDirAll p).run d = (reach p.ancestors [] >>= makeEach : DiskM Unit).run d := by
  rw [createDirAll, if_neg (by rw [hne]; simp)]

/-- Making a directory with all that are missing above it. -/
theorem createDirAll_spec (p : Path) (d : Disk) :
    Opens d ((createDirAll p).run d).2 ∧ NewOn p.ancestors d ((createDirAll p).run d).2 ∧
      (((createDirAll p).run d).1 = .ok () → p.isEmpty = false →
        ((createDirAll p).run d).2.isDir p = true) := by
  by_cases hempty : p.isEmpty = true
  · have hrun : (createDirAll p).run d = (.ok (), d) := by
      rw [createDirAll, if_pos hempty]
      rfl
    rw [hrun]
    exact ⟨.refl d, .refl _ d, fun _ hne => by rw [hempty] at hne; cases hne⟩
  · obtain ⟨hopens, hnew, htodo⟩ := reach_spec p.ancestors [] d
    rw [run_createDirAll (by simpa using hempty), run_bind]
    revert hopens hnew htodo
    rcases (reach p.ancestors []).run d with ⟨e | todo, d'⟩
    · intro hopens hnew htodo
      exact ⟨hopens, hnew, nofun⟩
    · intro hopens hnew htodo
      obtain ⟨hsub, -, hfirst⟩ := htodo todo rfl
      obtain ⟨hopens', hnew', hdirs⟩ := makeEach_spec todo d'
      refine ⟨hopens.trans hopens', ?_, fun hok hne => ?_⟩
      · refine hnew.trans (hnew'.mono fun q hq => ?_) hopens'
        exact (hsub q hq).resolve_right (by simp)
      · obtain ⟨above, habove⟩ := p.ancestors_eq_cons
        rcases hfirst p (by rw [habove]; rfl) hne with hp | hp
        · exact hopens'.isDir hp
        · exact hdirs hok p hp

end DiskM

namespace Disk

variable {d d' : Disk} {p q : Path} {loc l : Location} {n : Name}

/-- Where the directory is there already, nothing changes. -/
theorem Opens.look_of_enters (h : Opens d d') (hnew : NewOn q.ancestors d d')
    (he : d.Enters p loc) (hq : q.components <+: p.components) : d'.look = d.look := by
  funext l
  by_contra hl
  obtain ⟨q', hq', hne, hqe⟩ := hnew l hl
  obtain ⟨he', hway⟩ := h.enters he
  have hinitial := (Path.components_of_mem_ancestors hq').trans hq
  have hsub := he'.way_subset hqe (Path.isAbsolute_of_initial hne hinitial)
    (Path.course_initial hinitial) l (hqe.mem_way (List.prefix_refl l))
  exact hl (h.look_of_ne_none (he.look_ne_none (hway ▸ hsub)))

/-- The disk once a directory and those above it were made, as far as that is possible. -/
def opened (d : Disk) (p : Path) : Disk := ((DiskM.createDirAll p).run d).2

/-- An empty path makes no directory. -/
theorem opened_of_isEmpty (h : p.isEmpty = true) (d : Disk) : d.opened p = d := by
  show ((DiskM.createDirAll p).run d).2 = d
  rw [DiskM.createDirAll, if_pos h]
  rfl

theorem opens_opened (d : Disk) (p : Path) : Opens d (d.opened p) :=
  (DiskM.createDirAll_spec p d).1

theorem newOn_opened (d : Disk) (p : Path) : NewOn p.ancestors d (d.opened p) :=
  (DiskM.createDirAll_spec p d).2.1

theorem look_opened (h : d.Enters p loc) (hq : q.components <+: p.components) :
    (d.opened q).look = d.look :=
  (opens_opened d q).look_of_enters (newOn_opened d q) h hq

/-- A location below nothing stays without links when directories are made. -/
theorem Opens.plain (h : Opens d d') (hnone : d.look l = none) (names : List Name) :
    d'.look.Plain l names := by
  intro front _
  have hbelow : d.look (l ++ front) = none := by
    by_cases hnil : front = []
    · rw [hnil, List.append_nil, hnone]
    · exact Node.look_append_eq_none (fun hdir => nomatch hnone.symm.trans hdir) hnil
  rcases h.look (l ++ front) with hsame | ⟨-, hdir⟩
  · exact .inl (hsame.trans hbelow)
  · exact .inr hdir

/-- Where nothing was, nothing was below. -/
theorem look_none_below (h : d.look l = none) {l' : Location} (hl : l <+: l') :
    d.look l' = none := by
  by_cases hne : l' = l
  · rw [hne, h]
  · exact look_eq_none_below (fun hdir => nomatch h.symm.trans hdir) hl hne

/-- For a path without `..`, the new directories are on the straight way down to the last one. -/
theorem above_of_opened (hup : .up ∉ p.components) (he : (d.opened p).Enters p loc)
    (hchanged : (d.opened p).look l ≠ d.look l) : l <+: loc := by
  obtain ⟨q, hq, hqne, hqe⟩ := newOn_opened d p l hchanged
  obtain ⟨names, hext⟩ := Path.Extends.of_initial hqne (Path.components_of_mem_ancestors hq) hup
  have hnone : d.look l = none := (((opens_opened d p).look l).resolve_left hchanged).1
  exact ⟨names, (hqe.below he hext ((opens_opened d p).plain hnone names)).symm⟩

/-- A directory that was made for a path without `..` is empty. -/
theorem look_fresh (hup : .up ∉ p.components) (hnot : d.isDir p = false)
    (he : (d.opened p).Enters p loc) (hl : loc <+: l) (hne : l ≠ loc) :
    (d.opened p).look l = none := by
  have hopens := opens_opened d p
  have hloc : d.look loc = none := by
    by_contra hthere
    have hsame : ∀ l ∈ (d.opened p).way p true, d.look l = (d.opened p).look l := by
      intro l _
      by_contra hchanged
      have hnone := ((hopens.look l).resolve_left (Ne.symm hchanged)).1
      exact hthere (look_none_below hnone (above_of_opened hup he (Ne.symm hchanged)))
    have hbefore : d.isDir p = true := isDir_iff.2 ⟨loc, (he.congr hopens.cwd.symm hsame).1⟩
    rw [hnot] at hbefore
    cases hbefore
  by_contra hthere
  have hchanged : (d.opened p).look l ≠ d.look l := by
    rw [look_none_below hloc hl]
    exact hthere
  exact hne ((above_of_opened hup he hchanged).eq_of_length_le hl.length_le)

end Disk

end Sideload
