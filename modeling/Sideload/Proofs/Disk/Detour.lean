import Sideload.Proofs.Disk.Effect

/-!
Walks on two disks that differ in a few places. Up to the first place where the disks differ both walks
are the same; from there on the second goes its own way, with the steps that are left. This settles where
a path leads after a link or a file was moved to it.
-/

namespace Sideload

namespace View

variable {v v' : View} {follow : Bool} {links : Nat} {loc : Location} {steps : List Step}

/-- With another number of links to follow, a walk that succeeds ends at the same place or runs out of
links, and it visits nothing else. -/
theorem seek_budget {left : Nat} {g : Goal}
    (h : (v.seek follow links loc steps).ending = .ok (left, g)) (links' : Nat) :
    ((∃ left', (v.seek follow links' loc steps).ending = .ok (left', g)) ∨
        (v.seek follow links' loc steps).ending = .error .tooManyLinks) ∧
      ∀ l ∈ (v.seek follow links' loc steps).visited, l ∈ (v.seek follow links loc steps).visited := by
  fun_induction v.seek follow links loc steps generalizing links' with
  | case1 =>
      cases h
      rw [seek_nil]
      exact ⟨.inl ⟨links', rfl⟩, fun _ hl => hl⟩
  | case2 links loc rest ih =>
      rw [seek_here]
      exact ih h links'
  | case3 links loc rest ih =>
      rw [seek_up]
      exact ih h links'
  | case4 => cases h
  | case5 links loc n rest hshort hnone =>
      simp only at h
      split at h
      · next hrest =>
          cases h
          rw [seek_none hshort hnone, if_pos hrest]
          exact ⟨.inl ⟨links', rfl⟩, fun _ hl => hl⟩
      · cases h
  | case6 links loc n rest hshort target hlink hend =>
      cases h
      obtain ⟨rfl, rfl⟩ : rest = [] ∧ follow = false := by simpa using hend
      rw [seek_stop hshort hlink]
      exact ⟨.inl ⟨links', rfl⟩, fun _ hl => hl⟩
  | case7 => cases h
  | case8 => cases h
  | case9 loc n rest hshort target hlink hend links hempty ih =>
      cases links' with
      | zero =>
          rw [seek_no_links hshort hlink hend]
          refine ⟨.inr rfl, fun l hl => ?_⟩
          obtain rfl := List.mem_singleton.1 hl
          exact List.mem_cons_self ..
      | succ links' =>
          rw [seek_link hshort hlink hend hempty]
          obtain ⟨hending, hvisited⟩ := ih h links'
          exact ⟨hending, List.cons_subset_cons _ hvisited⟩
  | case10 links loc n rest hshort hdir ih =>
      rw [seek_dir hshort hdir]
      obtain ⟨hending, hvisited⟩ := ih h links'
      exact ⟨hending, List.cons_subset_cons _ hvisited⟩
  | case11 links loc n rest hshort content x hfile =>
      simp only at h
      split at h
      · next hrest =>
          cases h
          rw [seek_file hshort hfile, if_pos hrest]
          exact ⟨.inl ⟨links', rfl⟩, fun _ hl => hl⟩
      · cases h

/-- Views that agree on what a walk visits, except perhaps at one place. -/
def AgreeOff (v v' : View) (place : Location) (visited : List Location) : Prop :=
  ∀ l ∈ visited, l ≠ place → v' l = v l

/-- A walk never comes to a place, or it comes there with some steps left. Then so does every walk on a
view that is the same on the way. -/
theorem seek_through (v : View) (links : Nat) (loc parent : Location) (n : Name)
    (steps : List Step) :
    parent ++ [n] ∉ (v.seek true links loc steps).visited ∨
      ∃ links', links' ≤ links ∧ ¬ n.byteSize > Disk.maxName ∧ ∃ more, ∀ v',
        AgreeOff v v' (parent ++ [n]) (v.seek true links loc steps).visited → ∀ rest,
          (v'.seek true links loc (steps ++ rest)).ending =
            (v'.seek true links' parent (.name n :: (more ++ rest))).ending := by
  have hmore : ∀ b : List Step, ¬ (b.isEmpty && !true) = true := by simp
  match steps with
  | [] =>
      rw [seek_nil]
      exact .inl List.not_mem_nil
  | .here :: steps =>
      simp only [List.cons_append, seek_here]
      exact seek_through v links loc parent n steps
  | .up :: steps =>
      simp only [List.cons_append, seek_up]
      exact seek_through v links loc.dropLast parent n steps
  | .name m :: steps =>
      by_cases hlong : m.byteSize > Disk.maxName
      · rw [seek_long hlong]
        exact .inl List.not_mem_nil
      by_cases hloc : loc ++ [m] = parent ++ [n]
      · obtain ⟨rfl, hmn⟩ := List.append_inj' hloc rfl
        cases hmn
        exact .inr ⟨links, le_refl _, hlong, steps, fun _ _ _ => rfl⟩
      have hadd : ∀ ls : List Location, parent ++ [n] ∉ ls → parent ++ [n] ∉ (loc ++ [m]) :: ls := by
        intro ls hls hmem
        rcases List.mem_cons.1 hmem with hmem | hmem
        · exact hloc hmem.symm
        · exact hls hmem
      have hone := hadd [] List.not_mem_nil
      cases hv : v (loc ++ [m]) with
      | none =>
          rw [seek_none hlong hv]
          exact .inl hone
      | some label =>
          cases label with
          | file content x =>
              rw [seek_file hlong hv]
              exact .inl hone
          | dir =>
              rw [seek_dir hlong hv]
              rcases seek_through v links (loc ++ [m]) parent n steps with
                hnot | ⟨links', hle, hshort, more, hcomes⟩
              · exact .inl (hadd _ hnot)
              · refine .inr ⟨links', hle, hshort, more, fun v' hagree rest => ?_⟩
                have hv' := (hagree _ (List.mem_cons_self ..) hloc).trans hv
                rw [List.cons_append, seek_dir hlong hv']
                exact hcomes v' (fun l hl => hagree l (List.mem_cons_of_mem _ hl)) rest
          | link target =>
              cases links with
              | zero =>
                  rw [seek_no_links hlong hv (hmore _)]
                  exact .inl hone
              | succ links =>
                  by_cases hempty : target.isEmpty = true
                  · rw [seek_empty_link hlong hv (hmore _) hempty]
                    exact .inl hone
                  rw [seek_link hlong hv (hmore _) hempty]
                  rcases seek_through v links (target.origin loc) parent n (target.steps ++ steps) with
                    hnot | ⟨links', hle, hshort, more, hcomes⟩
                  · exact .inl (hadd _ hnot)
                  · refine .inr ⟨links', Nat.le_succ_of_le hle, hshort, more, fun v' hagree rest => ?_⟩
                    have hv' := (hagree _ (List.mem_cons_self ..) hloc).trans hv
                    rw [List.cons_append, seek_link hlong hv' (hmore _) hempty, ← List.append_assoc]
                    exact hcomes v' (fun l hl => hagree l (List.mem_cons_of_mem _ hl)) rest
termination_by (links, steps.length)

/-! ### Walks in trees -/

theorem dir_of_seek_here (hv : v.Treelike) (links : Nat) (loc : Location) (a : List Step)
    (hloc : v loc = some .dir) {left : Nat} {g : Goal}
    (h : (v.seek true links loc (a ++ [.here])).ending = .ok (left, g)) :
    v g.location = some .dir := by
  have hmore : ∀ b : List Step, ¬ ((b ++ [Step.here]).isEmpty && !true) = true := by simp
  match a with
  | [] =>
      rw [List.nil_append, seek_here, seek_nil] at h
      cases h
      exact hloc
  | .here :: a =>
      rw [List.cons_append, seek_here] at h
      exact dir_of_seek_here hv links loc a hloc h
  | .up :: a =>
      rw [List.cons_append, seek_up] at h
      exact dir_of_seek_here hv links loc.dropLast a (hv _ _ hloc (List.dropLast_prefix loc)) h
  | .name n :: a =>
      rw [List.cons_append] at h
      by_cases hlong : n.byteSize > Disk.maxName
      · rw [seek_long hlong] at h
        cases h
      cases hl : v (loc ++ [n]) with
      | none =>
          rw [seek_none hlong hl] at h
          simp at h
      | some label =>
          cases label with
          | file content x =>
              rw [seek_file hlong hl] at h
              simp at h
          | dir =>
              rw [seek_dir hlong hl] at h
              exact dir_of_seek_here hv links (loc ++ [n]) a hl h
          | link target =>
              cases links with
              | zero =>
                  rw [seek_no_links hlong hl (hmore _)] at h
                  cases h
              | succ links =>
                  by_cases hempty : target.isEmpty = true
                  · rw [seek_empty_link hlong hl (hmore _) hempty] at h
                    cases h
                  · rw [seek_link hlong hl (hmore _) hempty, ← List.append_assoc] at h
                    exact dir_of_seek_here hv links (target.origin loc) (target.steps ++ a)
                      (hv.origin hloc target) h
termination_by (links, a.length)

/-- A walk whose last step is no name ends in a directory. -/
theorem dir_of_seek_step {follow : Bool} {left : Nat} {g : Goal} (hv : v.Treelike)
    (hloc : v loc = some .dir) {a : List Step} {s : Step} (hs : ∀ n, s ≠ .name n)
    (h : (v.seek follow links loc (a ++ [s])).ending = .ok (left, g)) : v g.location = some .dir := by
  rw [seek_append _ _ _ _ _ (by simp), Trip.andThen] at h
  split at h
  · next links' g' hlead =>
      have hdir := dir_of_seek_here hv _ _ _ hloc hlead
      cases s with
      | here =>
          simp only [seek_here, seek_nil] at h
          cases h
          exact hdir
      | up =>
          simp only [seek_up, seek_nil] at h
          cases h
          exact hv _ _ hdir (List.dropLast_prefix _)
      | name n => exact absurd rfl (hs n)
  · cases h

/-- A file is the end of every walk that comes to it. -/
theorem seek_here_of_file (hv : v.Treelike) (hloc : v loc = some .dir) {left : Nat} {l : Location}
    {content : ByteArray} {x : Bool} (h : (v.seek true links loc steps).ending = .ok (left, .present l))
    (hfile : v l = some (.file content x)) :
    (v.seek true links loc (steps ++ [.here])).ending = .error .notDirectory := by
  obtain ⟨-, hentered⟩ := seek_concat_here v links loc steps
  rw [h] at hentered
  generalize hend : (v.seek true links loc (steps ++ [.here])).ending = ending at hentered
  cases hentered with
  | file links hfile => rfl
  | dir links dir =>
      have hdir := dir_of_seek_here hv links loc steps hloc hend
      cases hfile.symm.trans hdir

/-- Only directories and links are passed on the way to a directory. -/
theorem not_file_of_seek_here {left : Nat} {g : Goal}
    (h : (v.seek true links loc (steps ++ [.here])).ending = .ok (left, g)) {l : Location}
    (hl : l ∈ (v.seek true links loc (steps ++ [.here])).visited) (hne : l ≠ [])
    (content : ByteArray) (x : Bool) : v l ≠ some (.file content x) := by
  intro hfile
  obtain ⟨parent, n, rfl⟩ := (List.eq_nil_or_concat' l).resolve_left hne
  rw [(seek_concat_here v links loc steps).1] at hl
  rcases seek_through v links loc parent n steps with hnot | ⟨links', -, hshort, more, hcomes⟩
  · exact hnot hl
  · rw [hcomes v (fun _ _ _ => rfl) [.here], seek_file hshort hfile] at h
    simp at h

/-! ### What is moved to a place -/

variable {parent : Location} {n m : Name} {lead : List Step} {left : Nat}

/-- A walk to a place comes to the place, whatever is there now and whatever was passed before. -/
theorem ending_at (hdir : v' parent = some .dir)
    (hlead : (v.seek true links loc (lead ++ [.here])).ending = .ok (left, .present parent))
    (hagree : AgreeOff v v' (parent ++ [n]) (v.seek true links loc lead).visited) :
    ∃ links' rest, (v'.seek true links loc (lead ++ [.name n])).ending =
      (v'.seek true links' parent (.name n :: rest)).ending := by
  rcases seek_through v links loc parent n lead with hnot | ⟨links', -, -, more, hcomes⟩
  · refine ⟨left, [], ?_⟩
    have hsame : v'.seek true links loc lead = v.seek true links loc lead :=
      seek_congr fun l hl => hagree l hl fun he => hnot (he ▸ hl)
    have hend : (v'.seek true links loc lead).ending = .ok (left, .present parent) := by
      rw [hsame]
      exact (present_of_seek_here hlead).2
    rw [seek_append _ _ _ _ _ (by simp), Trip.andThen, seek_here_of_dir hend hdir]
    rfl
  · exact ⟨links', more ++ [.name n], hcomes v' hagree [.name n]⟩

/-- A file that was written is where the walk that found its place leads. -/
theorem seek_written {f : Location} {content : ByteArray} {x : Bool} {g : Goal} (hv : v.Treelike)
    (hloc : v loc = some .dir)
    (h : (v.seek true links loc steps).ending = .ok (left, g)) (hg : g.location = f)
    (hold : v f = none ∨ ∃ c y, v f = some (.file c y))
    (hagree : ∀ l, l ≠ f → v' l = v l) (hnew : v' f = some (.file content x)) :
    ∃ left', (v'.seek true links loc steps).ending = .ok (left', .present f) := by
  have hnotDir : v f ≠ some .dir := by
    rcases hold with hnone | ⟨c, y, hfile⟩
    · rw [hnone]
      simp
    · rw [hfile]
      simp
  have hmem : f ∈ (v.seek true links loc steps).visited := by
    rcases location_of_seek h with hmem | hpre
    · exact hg ▸ hmem
    · exact absurd (hv _ _ hloc (hg ▸ hpre)) hnotDir
  obtain ⟨up, k, rfl⟩ : ∃ up k, f = up ++ [k] := by
    refine (List.eq_nil_or_concat' f).resolve_left ?_
    rintro rfl
    exact hnotDir (hv _ _ hloc List.nil_prefix)
  rcases seek_through v links loc up k steps with hnot | ⟨links', -, hshort, more, hcomes⟩
  · exact absurd hmem hnot
  · have hbefore := hcomes v (fun _ _ _ => rfl) []
    have hafter := hcomes v' (fun l _ hl => hagree l hl) []
    rw [List.append_nil, h, List.append_nil] at hbefore
    have hmore : more = [] := by
      by_contra hne
      rcases hold with hnone | ⟨c, y, hfile⟩
      · rw [seek_none hshort hnone] at hbefore
        simp [hne] at hbefore
      · rw [seek_file hshort hfile] at hbefore
        simp [hne] at hbefore
    rw [hmore, List.append_nil, List.append_nil, seek_file hshort hnew] at hafter
    exact ⟨links', hafter⟩

/-- The walk ends at a file with the content, or it cannot get through. -/
def LandsOn (v : View) (content : ByteArray) (x : Bool) : Except OsError (Nat × Goal) → Prop
  | .ok (_, g) => ∃ l, g = .present l ∧ v l = some (.file content x)
  | .error e => e = .notDirectory ∨ e = .tooManyLinks

section MovedLink

/-- Where a link stands that leads to a file, nothing goes on. -/
theorem stuck_of_link {target : Path} {f : Location} {content : ByteArray} {x : Bool} {k : Nat}
    (hv : v.Treelike) (hparent : v parent = some .dir) (hm : ¬ m.byteSize > Disk.maxName)
    (hlink : v (parent ++ [m]) = some (.link target)) (hempty : ¬ target.isEmpty = true)
    (hf : (v.seek true k (target.origin parent) target.steps).ending = .ok (left, .present f))
    (hfile : v f = some (.file content x)) {more : List Step} (hmore : more ≠ []) (links : Nat) :
    ∃ e, (v.seek true links parent (.name m :: more)).ending = .error e := by
  have hrest : ¬ (more.isEmpty && !true) = true := by simp
  cases links with
  | zero => exact ⟨_, by rw [seek_no_links hm hlink hrest]⟩
  | succ links =>
      rw [seek_link hm hlink hrest hempty, Trip.ending_visit]
      rcases (seek_budget hf links).1 with ⟨left', hend⟩ | hend
      · exact ⟨_, seek_append_of_error hmore
          (seek_here_of_file hv (hv.origin hparent target) hend hfile)⟩
      · exact ⟨_, seek_append_of_error hmore (seek_here_of_error hend)⟩

/-- What nothing goes on from is not on the way to a directory. -/
theorem not_mem_of_stuck (hstuck : ∀ links more, more ≠ [] →
      ∃ e, (v.seek true links parent (.name m :: more)).ending = .error e) {g : Goal}
    (h : (v.seek true links loc (lead ++ [.here])).ending = .ok (left, g)) :
    parent ++ [m] ∉ (v.seek true links loc lead).visited := by
  intro hmem
  rcases seek_through v links loc parent m lead with hnot | ⟨links', -, -, more, hcomes⟩
  · exact hnot hmem
  · obtain ⟨e, he⟩ := hstuck links' (more ++ [.here]) (by simp)
    rw [hcomes v (fun _ _ _ => rfl) [.here], he] at h
    cases h

/-- A walk that leads to `f` with as few links as possible does not pass its own beginning. -/
theorem exists_shortest {target : Path} {f : Location} {k : Nat}
    (hm : ¬ m.byteSize > Disk.maxName) (hlink : v (parent ++ [m]) = some (.link target))
    (hempty : ¬ target.isEmpty = true)
    (hstuck : ∀ links more, more ≠ [] →
      ∃ e, (v.seek true links parent (.name m :: more)).ending = .error e)
    (hf : (v.seek true k (target.origin parent) target.steps).ending = .ok (left, .present f)) :
    ∃ k' left', (v.seek true k' (target.origin parent) target.steps).ending =
        .ok (left', .present f) ∧
      parent ++ [m] ∉ (v.seek true k' (target.origin parent) target.steps).visited := by
  classical
  have hex : ∃ k' left', (v.seek true k' (target.origin parent) target.steps).ending =
      .ok (left', .present f) := ⟨k, left, hf⟩
  obtain ⟨left', hleft⟩ := Nat.find_spec hex
  refine ⟨Nat.find hex, left', hleft, fun hmem => ?_⟩
  rcases seek_through v (Nat.find hex) (target.origin parent) parent m target.steps with
    hnot | ⟨links', hle, -, more, hcomes⟩
  · exact hnot hmem
  · have hagain := hcomes v (fun _ _ _ => rfl) []
    rw [List.append_nil, List.append_nil, hleft] at hagain
    by_cases hmore : more = []
    · subst hmore
      cases links' with
      | zero =>
          rw [seek_no_links hm hlink (by simp)] at hagain
          cases hagain
      | succ j =>
          rw [seek_link hm hlink (by simp) hempty, Trip.ending_visit, List.append_nil] at hagain
          exact Nat.find_min hex hle ⟨left', hagain.symm⟩
    · obtain ⟨e, he⟩ := hstuck links' more hmore
      rw [he] at hagain
      cases hagain

/-- A link that is moved to another name of its directory leads where it led, or nowhere. -/
theorem landsOn_moved {target : Path} {f : Location} {content : ByteArray} {x : Bool} {k : Nat}
    (hv : v.Treelike) (hv' : v'.Treelike) (hparent : v parent = some .dir)
    (hparent' : v' parent = some .dir) (hm : ¬ m.byteSize > Disk.maxName)
    (hlink : v (parent ++ [m]) = some (.link target)) (hempty : ¬ target.isEmpty = true)
    (hf : (v.seek true k (target.origin parent) target.steps).ending = .ok (left, .present f))
    (hfile : v f = some (.file content x)) (hn : ¬ n.byteSize > Disk.maxName)
    (hagree : ∀ l, l ≠ parent ++ [n] → l ≠ parent ++ [m] → v' l = v l)
    (hmoved : v' (parent ++ [n]) = some (.link target)) (links : Nat) (rest : List Step) :
    v'.LandsOn content x (v'.seek true links parent (.name n :: rest)).ending := by
  obtain ⟨k', left', hend, hfree⟩ := exists_shortest hm hlink hempty
    (fun links more hmore => stuck_of_link hv hparent hm hlink hempty hf hfile hmore links) hf
  -- Each time the walk comes to the moved link it has one link less to follow.
  induction links using Nat.strong_induction_on generalizing rest with
  | _ links ih =>
      cases links with
      | zero =>
          rw [seek_no_links hn hmoved (by simp)]
          exact .inr rfl
      | succ j =>
          rw [seek_link hn hmoved (by simp) hempty, Trip.ending_visit]
          obtain ⟨hbudget, hvisited⟩ := seek_budget hend j
          have hsame : AgreeOff v v' (parent ++ [n])
              (v.seek true j (target.origin parent) target.steps).visited := fun l hl hne =>
            hagree l hne fun he => hfree (he ▸ hvisited l hl)
          rcases seek_through v j (target.origin parent) parent n target.steps with
            hnot | ⟨links', hle, -, more, hcomes⟩
          · have hseek : v'.seek true j (target.origin parent) target.steps =
                v.seek true j (target.origin parent) target.steps :=
              seek_congr fun l hl => hsame l hl fun he => hnot (he ▸ hl)
            rcases hbudget with ⟨left'', hok⟩ | herror
            · have hmem : f ∈ (v.seek true j (target.origin parent) target.steps).visited := by
                rcases location_of_seek hok with hmem | hpre
                · exact hmem
                · have hdir := hv _ _ (hv.origin hparent target) hpre
                  cases hfile.symm.trans hdir
              have hfile' : v' f = some (.file content x) :=
                (hsame f hmem fun he => hnot (he ▸ hmem)).trans hfile
              have hok' := hseek.symm ▸ hok
              by_cases hrest : rest = []
              · rw [hrest, List.append_nil, hok']
                exact ⟨f, rfl, hfile'⟩
              · rw [seek_append_of_error hrest
                  (seek_here_of_file hv' (hv'.origin hparent' target) hok' hfile')]
                exact .inl rfl
            · have herror' := hseek.symm ▸ herror
              by_cases hrest : rest = []
              · rw [hrest, List.append_nil, herror']
                exact .inr rfl
              · rw [seek_append_of_error hrest (seek_here_of_error herror')]
                exact .inr rfl
          · rw [hcomes v' hsame rest]
            exact ih links' (Nat.lt_succ_of_le hle) (more ++ rest)

end MovedLink

end View

end Sideload
