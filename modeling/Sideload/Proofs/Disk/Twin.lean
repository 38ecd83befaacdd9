import Sideload.Proofs.Disk.Reach

/-!
The same change on two disks. What a change at a name of a directory comes to depends on what there is under
that name, and on the name itself where it cannot be used: so it comes to the same on any two disks that have
the directory and the same thing under the name.
-/

namespace Sideload

namespace Disk

variable {d d' d₁ d₁' : Disk} {dir q src : Path} {loc l : Location} {n : Name}

/-- A failure that does not say that something is there or missing. -/
def Refusal (e : IoError) : Prop := e.isMissing = false ∧ e.isExisting = false

/-- A name that is too long is refused wherever the directory is. -/
theorem Enters.place_long (h : d.Enters dir loc) (hq : q.Adds dir n) (hadmits : admit? q = .ok ())
    (hlong : n.byteSize > maxName) : d.place q = .error (.os .nameTooLong) := by
  obtain ⟨links, htrip⟩ := h.leadTrip hq.route hq.last
  obtain ⟨-, hbegin, -⟩ := goal_eq_ok_iff.1 h.goal
  have horigin : d.origin q = d.origin dir := by rw [origin, origin, hq.route.absolute]
  rcases start_eq d q with ⟨c, hc, hfits, hloc, -⟩ | ⟨-, hnone⟩ | ⟨-, -, hnot⟩
  · have hagree := agree_lead d q hfits hloc
    have hlast := hq.last
    rw [Path.segments, List.getLast?_map, Option.map_eq_some_iff] at hlast
    obtain ⟨m, hm, hmn⟩ := hlast
    obtain ⟨rfl, hdot, hup⟩ := ofSegment_eq_name hmn
    unfold Disk.place
    rw [hadmits, hc]
    simp only [bind, Except.bind, Except.mapError]
    rw [hm]
    generalize walk d.top true maxLinks c _ = found at hagree ⊢
    rw [htrip] at hagree
    generalize hg : Goal.present loc = g at hagree
    cases hagree with
    | @ok s links hs =>
        cases s with
        | vacant c' k => cases hg
        | present c' =>
            cases hg
            have hdir : c'.node.isDir = true := by
              rw [Node.isDir_iff, ← Option.some_inj, ← h.dir]
              exact hs.look.symm
            simp only [hdir, Bool.not_true, Bool.false_eq_true, if_false, if_neg hdot, if_neg hup, if_pos hlong]
  · rw [horigin, hbegin] at hnone
    cases hnone
  · rw [horigin] at hnot
    exact absurd hbegin hnot

/-- A name names an entry of the directory wherever the directory is, or it is refused everywhere alike. -/
theorem slot_or_refused (hq : q.Adds dir n) :
    (∀ {d : Disk} {loc : Location}, d.Enters dir loc → d.Slot q loc n) ∨
    ∃ e, Refusal e ∧ ∀ {d : Disk} {loc : Location}, d.Enters dir loc →
      d.place q = .error e ∧ ∀ follow, d.goal q follow = .error e := by
  cases hadmits : admit? q with
  | error e =>
      refine .inr ⟨e, ?_, fun h => ⟨?_, fun follow => ?_⟩⟩
      · unfold admit? at hadmits
        split at hadmits
        · cases hadmits
          exact ⟨rfl, rfl⟩
        · rw [if_neg (by rw [hq.isEmpty]; simp)] at hadmits
          split at hadmits
          · cases hadmits
            exact ⟨rfl, rfl⟩
          · cases hadmits
      · unfold Disk.place
        rw [hadmits]
        rfl
      · rw [Disk.goal, hadmits]
  | ok u =>
      by_cases hlong : n.byteSize > maxName
      · refine .inr ⟨.os .nameTooLong, ⟨rfl, rfl⟩, fun {d loc} h => ⟨h.place_long hq hadmits hlong, fun follow => ?_⟩⟩
        obtain ⟨links, htrip⟩ := h.leadTrip hq.route hq.last
        obtain ⟨-, hbegin, -⟩ := goal_eq_ok_iff.1 h.goal
        have horigin : d.origin q = d.origin dir := by rw [origin, origin, hq.route.absolute]
        have hend : (d.trip q follow).ending = .error .nameTooLong := by
          rw [trip_eq_lead hq.last hq.slash, htrip, Trip.andThen]
          simp only [Goal.location_present, View.seek_long hlong]
        rw [Disk.goal, hadmits, horigin, hbegin, hend]
      · exact .inl fun h => (h.slot hq.route hadmits hq.last hlong).1

/-! ### Refused names -/

theorem run_createDirAll_of_refused {e : IoError} (hne : q.isEmpty = false) (he : Refusal e)
    (h : d.place q = .error e) : (DiskM.createDirAll q).run d = (.error e, d) := by
  obtain ⟨above, habove⟩ := q.ancestors_eq_cons
  have hmake : d.makeDir q = .error e := by
    rw [makeDir, h]
    rfl
  rw [DiskM.run_createDirAll hne, habove, run_bind, DiskM.reach_cons, if_neg (by rw [hne]; simp), hmake]
  dsimp only
  rw [he.1, he.2]
  rfl

theorem openFile_of_refused {e : IoError} {change : Option (ByteArray × Bool) → ByteArray × Bool}
    (hslash : q.endsInSlash = false) (h : d.goal q true = .error e) : d.openFile q change = .error e := by
  unfold openFile
  rw [if_neg (by rw [hslash]; simp)]
  rcases find_eq d q true with ⟨s, hfind, -, hgoal⟩ | ⟨e', hfind, hgoal⟩
  · cases h.symm.trans hgoal
  · cases h.symm.trans hgoal
    rw [hfind]
    rfl

/-- A directory is not written as a file. -/
theorem Slot.openFile_dir {change : Option (ByteArray × Bool) → ByteArray × Bool} (h : d.Slot q loc n)
    (hslash : q.endsInSlash = false) (hdir : d.look (loc ++ [n]) = some .dir) :
    d.openFile q change = .error (.os .isDirectory) := by
  have hgoal := h.goal_dir hdir true
  unfold openFile
  rw [if_neg (by rw [hslash]; simp)]
  rcases find_eq d q true with ⟨s, hfind, hfits, hfound⟩ | ⟨e, -, hfault⟩
  · rw [hfind]
    cases s with
    | vacant c m => cases hgoal.symm.trans hfound
    | present c =>
        have hloc : c.location = loc ++ [n] := Goal.present.inj (Except.ok.inj (hfound.symm.trans hgoal))
        have hlabel : c.node.label = .dir := by
          have hthere := Cursor.Fits.look hfits
          rw [hloc] at hthere
          exact Option.some_inj.1 (hthere.symm.trans hdir)
        obtain ⟨node, above⟩ := c
        cases node with
        | dir es => rfl
        | file content x => cases hlabel
        | link target => cases hlabel
  · cases hfault.symm.trans hgoal

/-! ### One entry on two disks -/

section Entry

variable (h : d.Enters dir loc) (h' : d'.Enters dir loc) (hq : q.Adds dir n)
  (hlink : ∀ target, d.look (loc ++ [n]) ≠ some (.link target))
  (hsame : d'.look (loc ++ [n]) = d.look (loc ++ [n]))
include h h' hq hlink hsame

/-- What is seen there is the same. -/
theorem see_agree : d'.see q true = d.see q true := by
  rcases slot_or_refused hq with hslot | ⟨e, -, hrefused⟩
  · rw [(hslot h).see hq.slash (.inr hlink), (hslot h').see hq.slash (.inr (hsame ▸ hlink)), hsame]
  · rw [Disk.see, Disk.see, (hrefused h).2, (hrefused h').2]

/-- Making a directory comes to the same. -/
theorem createDirAll_agree : ((DiskM.createDirAll q).run d').1 = ((DiskM.createDirAll q).run d).1 ∧
    (d'.opened q).look (loc ++ [n]) = (d.opened q).look (loc ++ [n]) := by
  have hlink' : ∀ target, d'.look (loc ++ [n]) ≠ some (.link target) := hsame ▸ hlink
  rcases slot_or_refused hq with hslot | ⟨e, he, hrefused⟩
  · by_cases hfree : d.look (loc ++ [n]) = none ∨ d.look (loc ++ [n]) = some .dir
    · have hok := (hslot h).createDirAll_isOk hq.isEmpty hfree
      have hok' := (hslot h').createDirAll_isOk hq.isEmpty (hsame ▸ hfree)
      refine ⟨hok'.trans hok.symm, ?_⟩
      rw [((createDirAll_adds h hq hlink).2 hok).dir, ((createDirAll_adds h' hq hlink').2 hok').dir]
    · have hthere : d.look (loc ++ [n]) ≠ none := fun hnone => hfree (.inl hnone)
      have hrun : ∀ {d : Disk}, d.Enters dir loc → d.look (loc ++ [n]) ≠ none →
          d.look (loc ++ [n]) ≠ some .dir → (∀ target, d.look (loc ++ [n]) ≠ some (.link target)) →
          (DiskM.createDirAll q).run d = (.error (.os .exists_), d) := by
        intro d h hthere hdir hlink
        obtain ⟨above, habove⟩ := q.ancestors_eq_cons
        have hnot : d.isDir q = false := by
          rw [Bool.eq_false_iff]
          intro hisDir
          obtain ⟨l, hl⟩ := isDir_iff.1 hisDir
          obtain rfl := h.child hl hq.route hlink
          exact hdir hl.dir
        rw [DiskM.run_createDirAll hq.isEmpty, habove, run_bind, DiskM.reach_cons,
          if_neg (by rw [hq.isEmpty]; simp), (hslot h).makeDir_taken hthere, hnot]
        rfl
      have hrun₁ := hrun h hthere (fun hdir => hfree (.inr hdir)) hlink
      have hrun₂ := hrun h' (hsame ▸ hthere) (fun hdir => hfree (.inr (hsame ▸ hdir))) hlink'
      rw [opened, opened, hrun₁, hrun₂]
      exact ⟨rfl, hsame⟩
  · rw [opened, opened, run_createDirAll_of_refused hq.isEmpty he (hrefused h).1,
      run_createDirAll_of_refused hq.isEmpty he (hrefused h').1]
    exact ⟨rfl, hsame⟩

/-- Writing a file comes to the same. -/
theorem openFile_agree (change : Option (ByteArray × Bool) → ByteArray × Bool) :
    (∃ e, d.openFile q change = .error e ∧ d'.openFile q change = .error e) ∨
    ∃ d₁ d₁', d.openFile q change = .ok d₁ ∧ d'.openFile q change = .ok d₁' ∧
      d₁'.look (loc ++ [n]) = d₁.look (loc ++ [n]) := by
  have hlink' : ∀ target, d'.look (loc ++ [n]) ≠ some (.link target) := hsame ▸ hlink
  rcases slot_or_refused hq with hslot | ⟨e, he, hrefused⟩
  · by_cases hdir : d.look (loc ++ [n]) = some .dir
    · exact .inl ⟨_, (hslot h).openFile_dir hq.slash hdir, (hslot h').openFile_dir hq.slash (hsame.trans hdir)⟩
    · have hfree : d.Writable (loc ++ [n]) := .of_ne hdir hlink
      obtain ⟨d₁, ho⟩ := (hslot h).openFile_isOk hq.slash hfree change
      obtain ⟨d₁', ho'⟩ := (hslot h').openFile_isOk hq.slash (by rwa [Writable, hsame]) change
      refine .inr ⟨d₁, d₁', ho, ho', ?_⟩
      obtain ⟨old, -, hold, hlook⟩ := look_openFile h hq hlink ho
      obtain ⟨old', -, hold', hlook'⟩ := look_openFile h' hq hlink' ho'
      obtain rfl : old' = old := by
        rw [hsame, hold] at hold'
        cases old <;> cases old' <;> simp_all [Prod.ext_iff]
      rw [hlook, hlook', Function.update_self, Function.update_self]
  · exact .inl ⟨e, openFile_of_refused hq.slash ((hrefused h).2 true),
      openFile_of_refused hq.slash ((hrefused h').2 true)⟩

end Entry

theorem readBytes_of_see {content : ByteArray} {x : Bool} (h : d.see src true = .ok (.file content x)) :
    d.readBytes src = .ok content := by
  rw [← stat_label] at h
  obtain ⟨node, hstat, hlabel⟩ := map_label_eq_ok.1 h
  unfold readBytes
  rw [hstat]
  cases node with
  | file content' x' =>
      cases hlabel
      rfl
  | link target => cases hlabel
  | dir es => cases hlabel

/-- A copied file is emptied first, and then filled. -/
theorem copyFile_of_see {content : ByteArray} {x : Bool} (h : d.see src true = .ok (.file content x)) :
    d.copyFile src q = (d.openFile q fun _ => (.empty, x)) >>= fun d₁ => d₁.readBytes src >>= fun bytes =>
      d₁.openFile q fun _ => (bytes, x) := by
  rw [← stat_label] at h
  obtain ⟨node, hstat, hlabel⟩ := map_label_eq_ok.1 h
  unfold copyFile
  rw [hstat]
  cases node with
  | file content' x' =>
      cases hlabel
      rfl
  | link target => cases hlabel
  | dir es => cases hlabel

theorem copyFile_of_error {e : IoError} (h : d.see src true = .error e) : d.copyFile src q = .error e := by
  rw [← stat_label] at h
  unfold copyFile
  cases hstat : d.stat src with
  | error e' =>
      rw [hstat] at h
      cases h
      rfl
  | ok node =>
      rw [hstat] at h
      cases h

theorem copyFile_of_other {label : Label} (h : d.see src true = .ok label)
    (hother : ∀ content x, label ≠ .file content x) : d.copyFile src q = .error .notRegular := by
  rw [← stat_label] at h
  obtain ⟨node, hstat, rfl⟩ := map_label_eq_ok.1 h
  unfold copyFile
  rw [hstat]
  cases node with
  | file content x => exact absurd rfl (hother content x)
  | link target => rfl
  | dir es => rfl

/-- A file is still there after the place where it is copied to was emptied. -/
theorem readBytes_emptied {content : ByteArray} {x : Bool} (h : d.Enters dir loc) (hq : q.Adds dir n)
    (hlink : ∀ target, d.look (loc ++ [n]) ≠ some (.link target))
    (hfar : ∀ l ∈ d.way src true, l ≠ loc ++ [n]) (hsee : d.see src true = .ok (.file content x))
    (ho : d.openFile q (fun _ => (.empty, x)) = .ok d₁) : d₁.readBytes src = .ok content := by
  obtain ⟨old, hcwd, -, hlook⟩ := look_openFile h hq hlink ho
  refine readBytes_of_see ((see_congr hcwd fun l hl => ?_).trans hsee)
  rw [hlook, Function.update_of_ne (hfar l hl)]

/-- Copying a file comes to the same, if the file is the same and is not where it is copied to. -/
theorem copyFile_agree (h : d.Enters dir loc) (h' : d'.Enters dir loc) (hq : q.Adds dir n)
    (hlink : ∀ target, d.look (loc ++ [n]) ≠ some (.link target))
    (hsame : d'.look (loc ++ [n]) = d.look (loc ++ [n])) (hsrc : d'.see src true = d.see src true)
    (hfar : ∀ l ∈ d.way src true, l ≠ loc ++ [n]) (hfar' : ∀ l ∈ d'.way src true, l ≠ loc ++ [n]) :
    (∃ e, d.copyFile src q = .error e ∧ d'.copyFile src q = .error e) ∨
    ∃ d₁ d₁', d.copyFile src q = .ok d₁ ∧ d'.copyFile src q = .ok d₁' ∧
      d₁'.look (loc ++ [n]) = d₁.look (loc ++ [n]) := by
  cases hsee : d.see src true with
  | error e => exact .inl ⟨e, copyFile_of_error hsee, copyFile_of_error (hsrc.trans hsee)⟩
  | ok label =>
      by_cases hfile : ∀ content x, label ≠ .file content x
      · exact .inl ⟨_, copyFile_of_other hsee hfile, copyFile_of_other (hsrc.trans hsee) hfile⟩
      push Not at hfile
      obtain ⟨content, x, rfl⟩ := hfile
      rw [copyFile_of_see hsee, copyFile_of_see (hsrc.trans hsee)]
      rcases openFile_agree h h' hq hlink hsame fun _ => (.empty, x) with ⟨e, ho, ho'⟩ | ⟨m, m', ho, ho', hm⟩
      · rw [ho, ho']
        exact .inl ⟨e, rfl, rfl⟩
      · have hread := readBytes_emptied h hq hlink hfar hsee ho
        have hread' := readBytes_emptied h' hq (hsame ▸ hlink) hfar' (hsrc.trans hsee) ho'
        obtain ⟨hfills, bytes, y, hnew⟩ := openFile_adds h hq hlink ho
        have hfills' := (openFile_adds h' hq (hsame ▸ hlink) ho').1
        rw [ho, ho']
        simp only [bind, Except.bind, hread, hread']
        exact openFile_agree (hfills.enters h).1 (hfills'.enters h').1 hq (by rw [hnew]; simp) hm _

/-! ### Where it changes the disk -/

section Place

variable (h : d.Enters dir loc) (hq : q.Adds dir n) (hlink : ∀ target, d.look (loc ++ [n]) ≠ some (.link target))
include h hq hlink

theorem createDirAll_differs : Differs (AtOrBelow (loc ++ [n])) d (d.opened q) := by
  refine (opened_differs d q).mono ?_
  rintro l ⟨place, hnone, hdir, hl⟩
  rcases (createDirAll_adds h hq hlink).1.look place with hsame | ⟨rfl, -, -⟩
  · cases hnone.symm.trans (hsame.symm.trans hdir)
  · exact hl

theorem openFile_differs_entry {change : Option (ByteArray × Bool) → ByteArray × Bool}
    (ho : d.openFile q change = .ok d₁) : Differs (AtOrBelow (loc ++ [n])) d d₁ := by
  obtain ⟨g, -, hgoal, -⟩ := openFile_ok ho
  rw [← (h.goal_child hq.route hq.last hq.slash hlink hgoal).1]
  exact openFile_differs ho hgoal

theorem copyFile_differs (hc : d.copyFile src q = .ok d₁) : Differs (AtOrBelow (loc ++ [n])) d d₁ := by
  cases hsee : d.see src true with
  | error e => cases (copyFile_of_error hsee).symm.trans hc
  | ok label =>
      by_cases hfile : ∀ content x, label ≠ .file content x
      · cases (copyFile_of_other hsee hfile).symm.trans hc
      push Not at hfile
      obtain ⟨content, x, rfl⟩ := hfile
      rw [copyFile_of_see hsee] at hc
      simp only [bind, Except.bind] at hc
      split at hc
      · cases hc
      next emptied ho =>
      split at hc
      · cases hc
      obtain ⟨hfills, bytes, y, hnew⟩ := openFile_adds h hq hlink ho
      exact (openFile_differs_entry h hq hlink ho).trans
        (openFile_differs_entry (hfills.enters h).1 hq (by rw [hnew]; simp) hc)

end Place

end Disk

end Sideload
