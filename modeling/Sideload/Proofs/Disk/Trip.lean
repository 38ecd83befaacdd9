import Sideload.Proofs.Disk.Label

/-!
Walks over labels. A walk looks up one location after another and ends somewhere or fails. It is
determined by the labels of the locations it looks up, so whatever happens elsewhere on the disk
does not change it.
-/

namespace Sideload

/-- Where a walk ends. -/
inductive Goal where
  | present (loc : Location)
  | vacant (parent : Location) (name : Name)
  deriving DecidableEq

namespace Goal

def location : Goal → Location
  | present loc => loc
  | vacant parent name => parent ++ [name]

@[simp] theorem location_present (loc : Location) : (present loc).location = loc := rfl

@[simp] theorem location_vacant (loc : Location) (n : Name) :
    (vacant loc n).location = loc ++ [n] := rfl

end Goal

/-- The locations that a walk looks up, and its end with the number of links it could still have
followed. -/
structure Trip where
  visited : List Location
  ending : Except OsError (Nat × Goal)

namespace Trip

/-- One more location at the start. -/
def visit (loc : Location) (t : Trip) : Trip := ⟨loc :: t.visited, t.ending⟩

/-- Goes on from the end of a trip. -/
def andThen (t : Trip) (next : Nat → Location → Trip) : Trip :=
  match t.ending with
  | .ok (links, g) =>
      ⟨t.visited ++ (next links g.location).visited, (next links g.location).ending⟩
  | .error e => ⟨t.visited, .error e⟩

@[simp] theorem visited_visit (loc : Location) (t : Trip) :
    (t.visit loc).visited = loc :: t.visited := rfl

@[simp] theorem ending_visit (loc : Location) (t : Trip) : (t.visit loc).ending = t.ending := rfl

theorem andThen_visit (loc : Location) (t : Trip) (next : Nat → Location → Trip) :
    (t.visit loc).andThen next = (t.andThen next).visit loc := by
  unfold andThen
  rw [ending_visit]
  split <;> rfl

end Trip

/-- Whether a step stays in place. -/
def Step.isHere : Step → Bool
  | here => true
  | _ => false

/-- The location where the steps of a link's target start, for a link in the directory `loc`. -/
def Path.origin (target : Path) (loc : Location) : Location :=
  if target.isAbsolute then [] else loc

namespace View

/-- Follows steps from a directory, as `Disk.walk` does. -/
def seek (v : View) (follow : Bool) : (links : Nat) → Location → List Step → Trip
  | links, loc, [] => ⟨[], .ok (links, .present loc)⟩
  | links, loc, .here :: rest => v.seek follow links loc rest
  | links, loc, .up :: rest => v.seek follow links loc.dropLast rest
  | links, loc, .name n :: rest =>
    if n.byteSize > Disk.maxName then ⟨[], .error .nameTooLong⟩
    else match v (loc ++ [n]) with
      | none =>
        ⟨[loc ++ [n]], if rest.isEmpty then .ok (links, .vacant loc n) else .error .noEntry⟩
      | some (.link target) =>
        if rest.isEmpty && !follow then ⟨[loc ++ [n]], .ok (links, .present (loc ++ [n]))⟩
        else match links with
          | 0 => ⟨[loc ++ [n]], .error .tooManyLinks⟩
          | links + 1 =>
            if target.isEmpty then ⟨[loc ++ [n]], .error .noEntry⟩
            else (v.seek follow links (target.origin loc) (target.steps ++ rest)).visit (loc ++ [n])
      | some .dir => (v.seek follow links (loc ++ [n]) rest).visit (loc ++ [n])
      | some (.file ..) =>
        ⟨[loc ++ [n]],
          if rest.isEmpty then .ok (links, .present (loc ++ [n])) else .error .notDirectory⟩
termination_by links _ steps => (links, steps.length)

variable {v v' : View} {follow : Bool} {links : Nat} {loc : Location} {n : Name}
  {rest : List Step} {target : Path}

/-! ### One step -/

theorem seek_nil : v.seek follow links loc [] = ⟨[], .ok (links, .present loc)⟩ := by rw [seek]

@[simp] theorem seek_here : v.seek follow links loc (.here :: rest) = v.seek follow links loc rest := by
  rw [seek]

@[simp] theorem seek_up :
    v.seek follow links loc (.up :: rest) = v.seek follow links loc.dropLast rest := by
  rw [seek]

theorem seek_long (h : n.byteSize > Disk.maxName) :
    v.seek follow links loc (.name n :: rest) = ⟨[], .error .nameTooLong⟩ := by
  rw [seek, if_pos h]

theorem seek_none (h : ¬ n.byteSize > Disk.maxName) (hv : v (loc ++ [n]) = none) :
    v.seek follow links loc (.name n :: rest) =
      ⟨[loc ++ [n]], if rest.isEmpty then .ok (links, .vacant loc n) else .error .noEntry⟩ := by
  rw [seek, if_neg h, hv]

theorem seek_stop (h : ¬ n.byteSize > Disk.maxName) (hv : v (loc ++ [n]) = some (.link target)) :
    v.seek false links loc [.name n] = ⟨[loc ++ [n]], .ok (links, .present (loc ++ [n]))⟩ := by
  rw [seek, if_neg h, hv]
  rfl

theorem seek_no_links (h : ¬ n.byteSize > Disk.maxName) (hv : v (loc ++ [n]) = some (.link target))
    (hrest : ¬ (rest.isEmpty && !follow) = true) :
    v.seek follow 0 loc (.name n :: rest) = ⟨[loc ++ [n]], .error .tooManyLinks⟩ := by
  rw [seek, if_neg h, hv]
  simp only [if_neg hrest]

theorem seek_empty_link (h : ¬ n.byteSize > Disk.maxName)
    (hv : v (loc ++ [n]) = some (.link target)) (hrest : ¬ (rest.isEmpty && !follow) = true)
    (hempty : target.isEmpty = true) :
    v.seek follow (links + 1) loc (.name n :: rest) = ⟨[loc ++ [n]], .error .noEntry⟩ := by
  rw [seek, if_neg h, hv]
  simp only [if_neg hrest, if_pos hempty]

theorem seek_link (h : ¬ n.byteSize > Disk.maxName) (hv : v (loc ++ [n]) = some (.link target))
    (hrest : ¬ (rest.isEmpty && !follow) = true) (hempty : ¬ target.isEmpty = true) :
    v.seek follow (links + 1) loc (.name n :: rest) =
      (v.seek follow links (target.origin loc) (target.steps ++ rest)).visit (loc ++ [n]) := by
  rw [seek, if_neg h, hv]
  simp only [if_neg hrest, if_neg hempty]

theorem seek_dir (h : ¬ n.byteSize > Disk.maxName) (hv : v (loc ++ [n]) = some .dir) :
    v.seek follow links loc (.name n :: rest) =
      (v.seek follow links (loc ++ [n]) rest).visit (loc ++ [n]) := by
  rw [seek, if_neg h, hv]

theorem seek_file (h : ¬ n.byteSize > Disk.maxName) {content : ByteArray} {x : Bool}
    (hv : v (loc ++ [n]) = some (.file content x)) :
    v.seek follow links loc (.name n :: rest) = ⟨[loc ++ [n]],
      if rest.isEmpty then .ok (links, .present (loc ++ [n])) else .error .notDirectory⟩ := by
  rw [seek, if_neg h, hv]

/-! ### Whole walks -/

/-- A walk reads only what it visits. -/
theorem seek_congr {steps : List Step}
    (h : ∀ l ∈ (v.seek follow links loc steps).visited, v' l = v l) :
    v'.seek follow links loc steps = v.seek follow links loc steps := by
  fun_induction v.seek follow links loc steps with
  | case1 => exact seek_nil
  | case2 links loc rest ih => rw [seek_here, ih h]
  | case3 links loc rest ih => rw [seek_up, ih h]
  | case4 links loc n rest hlong => exact seek_long hlong
  | case5 links loc n rest hshort hnone => exact seek_none hshort ((h _ (by simp)).trans hnone)
  | case6 links loc n rest hshort target hlink hend =>
      have hv := (h _ (by simp)).trans hlink
      obtain ⟨rfl, rfl⟩ : rest = [] ∧ follow = false := by simpa using hend
      exact seek_stop hshort hv
  | case7 loc n rest hshort target hlink hend =>
      exact seek_no_links hshort ((h _ (by simp)).trans hlink) hend
  | case8 loc n rest hshort target hlink hend links hempty =>
      exact seek_empty_link hshort ((h _ (by simp)).trans hlink) hend hempty
  | case9 loc n rest hshort target hlink hend links hempty ih =>
      rw [seek_link hshort ((h _ (by simp)).trans hlink) hend hempty,
        ih fun l hl => h l (List.mem_cons_of_mem _ hl)]
  | case10 links loc n rest hshort hdir ih =>
      rw [seek_dir hshort ((h _ (by simp)).trans hdir),
        ih fun l hl => h l (List.mem_cons_of_mem _ hl)]
  | case11 links loc n rest hshort content x hfile =>
      exact seek_file hshort ((h _ (by simp)).trans hfile)

/-- A walk does not read what is in files. -/
theorem seek_shape (v : View) (follow : Bool) (links : Nat) (loc : Location) (steps : List Step) :
    seek (fun l => (v l).map Label.shape) follow links loc steps = v.seek follow links loc steps := by
  have hv : ∀ {l label}, v l = some label → (v l).map Label.shape = some label.shape := by
    intro l label h
    rw [h, Option.map_some]
  fun_induction v.seek follow links loc steps with
  | case1 => exact seek_nil
  | case2 links loc rest ih => rw [seek_here, ih]
  | case3 links loc rest ih => rw [seek_up, ih]
  | case4 links loc n rest hlong => exact seek_long hlong
  | case5 links loc n rest hshort hnone => exact seek_none hshort (by rw [hnone]; rfl)
  | case6 links loc n rest hshort target hlink hend =>
      obtain ⟨rfl, rfl⟩ : rest = [] ∧ follow = false := by simpa using hend
      exact seek_stop hshort (hv hlink)
  | case7 loc n rest hshort target hlink hend => exact seek_no_links hshort (hv hlink) hend
  | case8 loc n rest hshort target hlink hend links hempty =>
      exact seek_empty_link hshort (hv hlink) hend hempty
  | case9 loc n rest hshort target hlink hend links hempty ih =>
      rw [seek_link hshort (hv hlink) hend hempty, ih]
  | case10 links loc n rest hshort hdir ih => rw [seek_dir hshort (hv hdir), ih]
  | case11 links loc n rest hshort content x hfile => exact seek_file hshort (hv hfile)

/-- A walk through at least one more step: all but the last steps lead to a directory. -/
theorem seek_append (v : View) (follow : Bool) (links : Nat) (loc : Location) (a : List Step)
    {rest : List Step} (hrest : rest ≠ []) :
    v.seek follow links loc (a ++ rest) =
      (v.seek true links loc (a ++ [.here])).andThen fun links loc =>
        v.seek follow links loc rest := by
  have hmore : ∀ b : List Step, ¬ ((b ++ rest).isEmpty && !follow) = true := by simp [hrest]
  have hmore' : ∀ b : List Step, ¬ ((b ++ [Step.here]).isEmpty && !true) = true := by simp
  match a with
  | [] =>
      rw [List.nil_append, List.nil_append, seek_here, seek_nil]
      simp [Trip.andThen]
  | .here :: a => rw [List.cons_append, List.cons_append, seek_here, seek_here,
        seek_append v follow links loc a hrest]
  | .up :: a => rw [List.cons_append, List.cons_append, seek_up, seek_up,
        seek_append v follow links loc.dropLast a hrest]
  | .name n :: a =>
      rw [List.cons_append, List.cons_append]
      by_cases hlong : n.byteSize > Disk.maxName
      · rw [seek_long hlong, seek_long hlong]
        rfl
      cases hv : v (loc ++ [n]) with
      | none =>
          rw [seek_none hlong hv, seek_none hlong hv]
          simp [Trip.andThen, hrest]
      | some label =>
          cases label with
          | file content x =>
              rw [seek_file hlong hv, seek_file hlong hv]
              simp [Trip.andThen, hrest]
          | dir =>
              rw [seek_dir hlong hv, seek_dir hlong hv, Trip.andThen_visit,
                seek_append v follow links (loc ++ [n]) a hrest]
          | link target =>
              cases links with
              | zero =>
                  rw [seek_no_links hlong hv (hmore a), seek_no_links hlong hv (hmore' a)]
                  rfl
              | succ links =>
                  by_cases hempty : target.isEmpty = true
                  · rw [seek_empty_link hlong hv (hmore a) hempty,
                      seek_empty_link hlong hv (hmore' a) hempty]
                    rfl
                  · rw [seek_link hlong hv (hmore a) hempty, seek_link hlong hv (hmore' a) hempty,
                      Trip.andThen_visit, ← List.append_assoc, ← List.append_assoc,
                      seek_append v follow links (target.origin loc) (target.steps ++ a) hrest]
termination_by (links, a.length)

/-- A walk to a name looks it up. -/
theorem mem_visited_name (h : ¬ n.byteSize > Disk.maxName) :
    loc ++ [n] ∈ (v.seek follow links loc (.name n :: rest)).visited := by
  cases hv : v (loc ++ [n]) with
  | none => simp [seek_none h hv]
  | some label =>
      cases label with
      | file content x => simp [seek_file h hv]
      | dir => simp [seek_dir h hv]
      | link target =>
          by_cases hend : (rest.isEmpty && !follow) = true
          · obtain ⟨rfl, rfl⟩ : rest = [] ∧ follow = false := by simpa using hend
            simp [seek_stop h hv]
          · cases links with
            | zero => simp [seek_no_links h hv hend]
            | succ links =>
                by_cases hempty : target.isEmpty = true
                · simp [seek_empty_link h hv hend hempty]
                · simp [seek_link h hv hend hempty]

/-- What is no link is found whether links are followed at the end or not. -/
theorem seek_follow {steps : List Step} {left : Nat} {g : Goal}
    (h : (v.seek false links loc steps).ending = .ok (left, g))
    (hlink : ∀ target, v g.location ≠ some (.link target)) :
    (v.seek true links loc steps).ending = .ok (left, g) := by
  have hmore : ∀ {rest : List Step}, ¬ (rest.isEmpty && !false) = true →
      ¬ (rest.isEmpty && !true) = true := by simp
  generalize hstop : false = stop at h
  fun_induction v.seek stop links loc steps with
  | case1 => rwa [seek_nil]
  | case2 links loc rest ih =>
      rw [seek_here]
      exact ih h
  | case3 links loc rest ih =>
      rw [seek_up]
      exact ih h
  | case4 => cases h
  | case5 links loc n rest hshort hnone =>
      rw [seek_none hshort hnone]
      exact h
  | case6 links loc n rest hshort target hv hend =>
      cases h
      exact absurd hv (hlink target)
  | case7 => cases h
  | case8 => cases h
  | case9 loc n rest hshort target hv hend links hempty ih =>
      subst hstop
      rw [seek_link hshort hv (hmore hend) hempty]
      exact ih h
  | case10 links loc n rest hshort hdir ih =>
      rw [seek_dir hshort hdir]
      exact ih h
  | case11 links loc n rest hshort content x hfile =>
      rw [seek_file hshort hfile]
      exact h

/-- A walk that fails without following a link at the end fails if it is followed. -/
theorem seek_follow_of_error {steps : List Step} {e : OsError} (h : (v.seek false links loc steps).ending = .error e) :
    (v.seek true links loc steps).ending = .error e := by
  have hmore : ∀ {rest : List Step}, ¬ (rest.isEmpty && !false) = true →
      ¬ (rest.isEmpty && !true) = true := by simp
  generalize hstop : false = stop at h
  fun_induction v.seek stop links loc steps with
  | case1 => cases h
  | case2 links loc rest ih =>
      rw [seek_here]
      exact ih h
  | case3 links loc rest ih =>
      rw [seek_up]
      exact ih h
  | case4 links loc n rest hlong =>
      rw [seek_long hlong]
      exact h
  | case5 links loc n rest hshort hnone =>
      rw [seek_none hshort hnone]
      exact h
  | case6 => cases h
  | case7 loc n rest hshort target hv hend =>
      subst hstop
      rw [seek_no_links hshort hv (hmore hend)]
      exact h
  | case8 loc n rest hshort target hv hend links hempty =>
      subst hstop
      rw [seek_empty_link hshort hv (hmore hend) hempty]
      exact h
  | case9 loc n rest hshort target hv hend links hempty ih =>
      subst hstop
      rw [seek_link hshort hv (hmore hend) hempty]
      exact ih h
  | case10 links loc n rest hshort hdir ih =>
      rw [seek_dir hshort hdir]
      exact ih h
  | case11 links loc n rest hshort content x hfile =>
      rw [seek_file hshort hfile]
      exact h

/-- A walk that succeeds meets no file but perhaps at its end. -/
theorem file_of_seek {steps : List Step} {left : Nat} {g : Goal}
    (h : (v.seek follow links loc steps).ending = .ok (left, g)) {l : Location}
    (hl : l ∈ (v.seek follow links loc steps).visited) {content : ByteArray} {x : Bool}
    (hv : v l = some (.file content x)) : g = .present l := by
  fun_induction v.seek follow links loc steps with
  | case1 => cases hl
  | case2 links loc rest ih => exact ih h hl
  | case3 links loc rest ih => exact ih h hl
  | case4 => cases hl
  | case5 links loc n rest hshort hnone =>
      obtain rfl := List.mem_singleton.1 hl
      cases hnone.symm.trans hv
  | case6 links loc n rest hshort target hlink hend =>
      obtain rfl := List.mem_singleton.1 hl
      cases hlink.symm.trans hv
  | case7 => cases h
  | case8 => cases h
  | case9 loc n rest hshort target hlink hend links hempty ih =>
      rcases List.mem_cons.1 hl with rfl | hl
      · cases hlink.symm.trans hv
      · exact ih h hl
  | case10 links loc n rest hshort hdir ih =>
      rcases List.mem_cons.1 hl with rfl | hl
      · cases hdir.symm.trans hv
      · exact ih h hl
  | case11 links loc n rest hshort content' x' hfile =>
      obtain rfl := List.mem_singleton.1 hl
      simp only at h
      split at h
      · cases h
        rfl
      · cases h

/-- A walk that succeeds meets nothing missing but perhaps its own end. -/
theorem missing_of_seek {steps : List Step} {left : Nat} {g : Goal}
    (h : (v.seek follow links loc steps).ending = .ok (left, g)) {l : Location}
    (hl : l ∈ (v.seek follow links loc steps).visited) (hv : v l = none) :
    ∃ parent n, g = .vacant parent n ∧ l = parent ++ [n] := by
  fun_induction v.seek follow links loc steps with
  | case1 => cases hl
  | case2 links loc rest ih => exact ih h hl
  | case3 links loc rest ih => exact ih h hl
  | case4 => cases hl
  | case5 links loc n rest hshort hnone =>
      obtain rfl := List.mem_singleton.1 hl
      simp only at h
      split at h
      · cases h
        exact ⟨loc, n, rfl, rfl⟩
      · cases h
  | case6 links loc n rest hshort target hlink hend =>
      obtain rfl := List.mem_singleton.1 hl
      rw [hv] at hlink
      cases hlink
  | case7 => cases h
  | case8 => cases h
  | case9 loc n rest hshort target hlink hend links hempty ih =>
      rcases List.mem_cons.1 hl with rfl | hl
      · rw [hv] at hlink
        cases hlink
      · exact ih h hl
  | case10 links loc n rest hshort hdir ih =>
      rcases List.mem_cons.1 hl with rfl | hl
      · rw [hv] at hdir
        cases hdir
      · exact ih h hl
  | case11 links loc n rest hshort content x hfile =>
      obtain rfl := List.mem_singleton.1 hl
      rw [hv] at hfile
      cases hfile

theorem ne_none_of_seek {steps : List Step} {left : Nat} {g : Location}
    (h : (v.seek follow links loc steps).ending = .ok (left, .present g)) :
    ∀ l ∈ (v.seek follow links loc steps).visited, v l ≠ none := by
  intro l hl hv
  obtain ⟨_, _, hg, _⟩ := missing_of_seek h hl hv
  cases hg

/-- The directories above a visited location are visited, or lie above the start. -/
theorem prefix_of_visited {steps : List Step} {l p : Location}
    (hl : l ∈ (v.seek follow links loc steps).visited) (hp : p <+: l) :
    p ∈ (v.seek follow links loc steps).visited ∨ p <+: loc := by
  have hname : ∀ {loc : Location} {n : Name} {ls : List Location}, p <+: loc ++ [n] →
      p ∈ (loc ++ [n]) :: ls ∨ p <+: loc := by
    intro loc n ls hpre
    rcases List.prefix_concat_iff.1 hpre with rfl | hpre
    · exact .inl (List.mem_cons_self ..)
    · exact .inr hpre
  fun_induction v.seek follow links loc steps with
  | case1 => cases hl
  | case2 links loc rest ih => exact ih hl
  | case3 links loc rest ih =>
      exact (ih hl).imp_right fun h => h.trans (List.dropLast_prefix loc)
  | case4 => cases hl
  | case5 => exact hname (List.mem_singleton.1 hl ▸ hp)
  | case6 => exact hname (List.mem_singleton.1 hl ▸ hp)
  | case7 => exact hname (List.mem_singleton.1 hl ▸ hp)
  | case8 => exact hname (List.mem_singleton.1 hl ▸ hp)
  | case9 loc n rest hshort target hlink hend links hempty ih =>
      rcases List.mem_cons.1 hl with rfl | hl
      · exact hname hp
      · rcases ih hl with h | h
        · exact .inl (List.mem_cons_of_mem _ h)
        · unfold Path.origin at h
          split at h
          · exact .inr (h.trans List.nil_prefix)
          · exact .inr h
  | case10 links loc n rest hshort hdir ih =>
      rcases List.mem_cons.1 hl with rfl | hl
      · exact hname hp
      · rcases ih hl with h | h
        · exact .inl (List.mem_cons_of_mem _ h)
        · exact hname h
  | case11 => exact hname (List.mem_singleton.1 hl ▸ hp)

/-- A walk ends at a place that it visits, or above its start. -/
theorem location_of_seek {steps : List Step} {left : Nat} {g : Goal}
    (h : (v.seek follow links loc steps).ending = .ok (left, g)) :
    g.location ∈ (v.seek follow links loc steps).visited ∨ g.location <+: loc := by
  fun_induction v.seek follow links loc steps with
  | case1 =>
      cases h
      exact .inr (List.prefix_refl _)
  | case2 links loc rest ih => exact ih h
  | case3 links loc rest ih =>
      exact (ih h).imp_right fun h => h.trans (List.dropLast_prefix loc)
  | case4 => cases h
  | case5 links loc n rest hshort hnone =>
      simp only at h
      split at h
      · cases h
        exact .inl (List.mem_singleton.2 rfl)
      · cases h
  | case6 =>
      cases h
      exact .inl (List.mem_singleton.2 rfl)
  | case7 => cases h
  | case8 => cases h
  | case9 loc n rest hshort target hlink hend links hempty ih =>
      rcases ih h with h | h
      · exact .inl (List.mem_cons_of_mem _ h)
      · unfold Path.origin at h
        split at h
        · exact .inr (h.trans List.nil_prefix)
        · exact .inr h
  | case10 links loc n rest hshort hdir ih =>
      rcases ih h with h | h
      · exact .inl (List.mem_cons_of_mem _ h)
      · rcases List.prefix_concat_iff.1 h with h | h
        · exact .inl (h ▸ List.mem_cons_self ..)
        · exact .inr h
  | case11 =>
      simp only at h
      split at h
      · cases h
        exact .inl (List.mem_singleton.2 rfl)
      · cases h

theorem none_of_seek_vacant {steps : List Step} {left : Nat} {parent : Location} {n : Name}
    (h : (v.seek follow links loc steps).ending = .ok (left, .vacant parent n)) :
    v (parent ++ [n]) = none := by
  fun_induction v.seek follow links loc steps with
  | case1 => cases h
  | case2 links loc rest ih => exact ih h
  | case3 links loc rest ih => exact ih h
  | case4 => cases h
  | case5 links loc n rest hshort hnone =>
      simp only at h
      split at h
      · cases h
        exact hnone
      · cases h
  | case6 => cases h
  | case7 => cases h
  | case8 => cases h
  | case9 loc n rest hshort target hlink hend links hempty ih => exact ih h
  | case10 links loc n rest hshort hdir ih => exact ih h
  | case11 =>
      simp only at h
      split at h <;> cases h

/-- Every location above a directory is a directory. -/
def Treelike (v : View) : Prop := ∀ l l', v l = some .dir → l' <+: l → v l' = some .dir

theorem Treelike.origin (hv : v.Treelike) (hloc : v loc = some .dir) (target : Path) :
    v (target.origin loc) = some .dir := by
  unfold Path.origin
  split
  · exact hv _ _ hloc List.nil_prefix
  · exact hloc

/-- A walk that starts in a directory stays in directories. -/
theorem dir_of_seek_vacant {steps : List Step} {left : Nat} {parent : Location} {n : Name}
    (hv : v.Treelike) (hloc : v loc = some .dir)
    (h : (v.seek follow links loc steps).ending = .ok (left, .vacant parent n)) :
    v parent = some .dir := by
  fun_induction v.seek follow links loc steps with
  | case1 => cases h
  | case2 links loc rest ih => exact ih hloc h
  | case3 links loc rest ih => exact ih (hv _ _ hloc (List.dropLast_prefix loc)) h
  | case4 => cases h
  | case5 links loc n rest hshort hnone =>
      simp only at h
      split at h
      · cases h
        exact hloc
      · cases h
  | case6 => cases h
  | case7 => cases h
  | case8 => cases h
  | case9 loc n rest hshort target hlink hend links hempty ih => exact ih (hv.origin hloc target) h
  | case10 links loc n rest hshort hdir ih => exact ih hdir h
  | case11 =>
      simp only at h
      split at h <;> cases h

/-- What a walk says when it has to end in a directory. -/
inductive Entered (v : View) : Except OsError (Nat × Goal) → Except OsError (Nat × Goal) → Prop
  | dir (links : Nat) (loc : Location) :
      Entered v (.ok (links, .present loc)) (.ok (links, .present loc))
  | file (links : Nat) {loc : Location} {content : ByteArray} {x : Bool}
      (h : v loc = some (.file content x)) :
      Entered v (.ok (links, .present loc)) (.error .notDirectory)
  | vacant (links : Nat) {loc : Location} {n : Name} (h : v (loc ++ [n]) = none) :
      Entered v (.ok (links, .vacant loc n)) (.error .noEntry)
  | error (e : OsError) : Entered v (.error e) (.error e)

theorem seek_concat_here (v : View) (links : Nat) (loc : Location) (a : List Step) :
    (v.seek true links loc (a ++ [.here])).visited = (v.seek true links loc a).visited ∧
      Entered v (v.seek true links loc a).ending (v.seek true links loc (a ++ [.here])).ending := by
  have hmore : ∀ b : List Step, ¬ (b.isEmpty && !true) = true := by simp
  match a with
  | [] =>
      rw [List.nil_append, seek_here, seek_nil]
      exact ⟨rfl, .dir ..⟩
  | .here :: a =>
      rw [List.cons_append, seek_here, seek_here]
      exact seek_concat_here v links loc a
  | .up :: a =>
      rw [List.cons_append, seek_up, seek_up]
      exact seek_concat_here v links loc.dropLast a
  | .name n :: a =>
      rw [List.cons_append]
      by_cases hlong : n.byteSize > Disk.maxName
      · rw [seek_long hlong, seek_long hlong]
        exact ⟨rfl, .error _⟩
      cases hv : v (loc ++ [n]) with
      | none =>
          rw [seek_none hlong hv, seek_none hlong hv]
          refine ⟨rfl, ?_⟩
          cases a with
          | nil => exact .vacant links hv
          | cons s a => exact .error _
      | some label =>
          cases label with
          | file content x =>
              rw [seek_file hlong hv, seek_file hlong hv]
              refine ⟨rfl, ?_⟩
              cases a with
              | nil => exact .file links hv
              | cons s a => exact .error _
          | dir =>
              rw [seek_dir hlong hv, seek_dir hlong hv]
              obtain ⟨hvisited, hending⟩ := seek_concat_here v links (loc ++ [n]) a
              exact ⟨congrArg (List.cons _) hvisited, hending⟩
          | link target =>
              cases links with
              | zero =>
                  rw [seek_no_links hlong hv (hmore _), seek_no_links hlong hv (hmore _)]
                  exact ⟨rfl, .error _⟩
              | succ links =>
                  by_cases hempty : target.isEmpty = true
                  · rw [seek_empty_link hlong hv (hmore _) hempty,
                      seek_empty_link hlong hv (hmore _) hempty]
                    exact ⟨rfl, .error _⟩
                  · rw [seek_link hlong hv (hmore _) hempty, seek_link hlong hv (hmore _) hempty,
                      ← List.append_assoc]
                    obtain ⟨hvisited, hending⟩ :=
                      seek_concat_here v links (target.origin loc) (target.steps ++ a)
                    exact ⟨congrArg (List.cons _) hvisited, hending⟩
termination_by (links, a.length)

/-- Steps that stay in place make no difference before a last one. -/
theorem seek_filter_here (v : View) (links : Nat) (loc : Location) (a : List Step) :
    v.seek true links loc (a.filter (fun s => !s.isHere) ++ [.here]) =
      v.seek true links loc (a ++ [.here]) := by
  have hmore : ∀ b : List Step, ¬ ((b ++ [Step.here]).isEmpty && !true) = true := by simp
  match a with
  | [] => rfl
  | .here :: a =>
      rw [List.filter_cons_of_neg (by simp [Step.isHere]), List.cons_append, seek_here]
      exact seek_filter_here v links loc a
  | .up :: a =>
      rw [List.filter_cons_of_pos (by simp [Step.isHere]), List.cons_append, List.cons_append,
        seek_up, seek_up]
      exact seek_filter_here v links loc.dropLast a
  | .name n :: a =>
      rw [List.filter_cons_of_pos (by simp [Step.isHere]), List.cons_append, List.cons_append]
      by_cases hlong : n.byteSize > Disk.maxName
      · rw [seek_long hlong, seek_long hlong]
      cases hv : v (loc ++ [n]) with
      | none =>
          rw [seek_none hlong hv, seek_none hlong hv]
          simp
      | some label =>
          cases label with
          | file content x =>
              rw [seek_file hlong hv, seek_file hlong hv]
              simp
          | dir =>
              rw [seek_dir hlong hv, seek_dir hlong hv, seek_filter_here v links (loc ++ [n]) a]
          | link target =>
              cases links with
              | zero => rw [seek_no_links hlong hv (hmore _), seek_no_links hlong hv (hmore _)]
              | succ links =>
                  by_cases hempty : target.isEmpty = true
                  · rw [seek_empty_link hlong hv (hmore _) hempty,
                      seek_empty_link hlong hv (hmore _) hempty]
                  · rw [seek_link hlong hv (hmore _) hempty, seek_link hlong hv (hmore _) hempty,
                      ← List.append_assoc, ← List.append_assoc,
                      ← seek_filter_here v links (target.origin loc) (target.steps ++ a),
                      ← seek_filter_here v links (target.origin loc)
                        (target.steps ++ a.filter fun s => !s.isHere),
                      List.filter_append, List.filter_append, List.filter_filter]
                    simp
termination_by (links, a.length)

theorem present_of_seek_here {a : List Step} {left : Nat} {g : Goal}
    (h : (v.seek true links loc (a ++ [.here])).ending = .ok (left, g)) :
    (∃ dir, g = .present dir) ∧ (v.seek true links loc a).ending = .ok (left, g) := by
  obtain ⟨-, hentered⟩ := seek_concat_here v links loc a
  rw [h] at hentered
  generalize (v.seek true links loc a).ending = ending at hentered ⊢
  cases hentered with
  | dir links dir => exact ⟨⟨dir, rfl⟩, rfl⟩

theorem seek_here_of_dir {a : List Step} {left : Nat} {g : Goal}
    (h : (v.seek true links loc a).ending = .ok (left, g)) (hdir : v g.location = some .dir) :
    (v.seek true links loc (a ++ [.here])).ending = .ok (left, .present g.location) := by
  obtain ⟨-, hentered⟩ := seek_concat_here v links loc a
  rw [h] at hentered
  generalize (v.seek true links loc (a ++ [.here])).ending = ending at hentered ⊢
  cases hentered with
  | dir links dir => rfl
  | file links hfile => cases hfile.symm.trans hdir
  | vacant links hnone => cases hnone.symm.trans hdir

theorem seek_here_of_error {a : List Step} {e : OsError}
    (h : (v.seek true links loc a).ending = .error e) :
    (v.seek true links loc (a ++ [.here])).ending = .error e := by
  obtain ⟨-, hentered⟩ := seek_concat_here v links loc a
  rw [h] at hentered
  generalize (v.seek true links loc (a ++ [.here])).ending = ending at hentered ⊢
  cases hentered with
  | error e => rfl

/-- A walk that fails before the last steps fails. -/
theorem seek_append_of_error {a rest : List Step} {e : OsError} (hrest : rest ≠ [])
    (h : (v.seek true links loc (a ++ [.here])).ending = .error e) :
    (v.seek follow links loc (a ++ rest)).ending = .error e := by
  rw [seek_append _ _ _ _ _ hrest, Trip.andThen, h]

/-- Where a walk over one more name ends. -/
theorem seek_name (hshort : ¬ n.byteSize > Disk.maxName)
    (hlink : follow = false ∨ ∀ target, v (loc ++ [n]) ≠ some (.link target)) :
    v.seek follow links loc [.name n] =
      ⟨[loc ++ [n]], .ok (links, if v (loc ++ [n]) = none then .vacant loc n else
        .present (loc ++ [n]))⟩ := by
  cases hv : v (loc ++ [n]) with
  | none => rw [seek_none hshort hv]; rfl
  | some label =>
      cases label with
      | file content x => rw [seek_file hshort hv]; rfl
      | dir => rw [seek_dir hshort hv, seek_nil]; rfl
      | link target =>
          rcases hlink with rfl | hlink
          · rw [seek_stop hshort hv]; rfl
          · exact absurd hv (hlink target)

end View

end Sideload
