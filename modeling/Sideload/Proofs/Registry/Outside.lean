import Sideload.Proofs.Registry.Home

/-!
Registries that lie outside a directory. Whatever happens in the directory, the registry is saved at the
same place; and what is saved there leaves the directory alone.
-/

namespace Sideload

open Disk

variable {d d' : Disk} {p q path : Path} {parent loc top l : Location} {m n : Name}

/-! ### The way to an entry -/

/-- The way to an entry leads over the way to the directories above it. -/
theorem Disk.Slot.way_subset (h : d.Slot p parent n) (hq : d.Enters q l)
    (habsolute : q.isAbsolute = p.isAbsolute) (hcourse : q.course <+: p.course.dropLast) :
    ∀ l ∈ d.way q true, l ∈ d.approach p := by
  obtain ⟨links, hend⟩ := hq.seek
  have horigin : d.origin p = d.origin q := by rw [origin, origin, habsolute]
  obtain ⟨rest, hrest⟩ := hcourse
  have hlead : d.leadTrip p = (d.look.seek true maxLinks (d.origin q) (q.course ++ [.here])).andThen
      fun links loc => d.look.seek true links loc (rest ++ [.here]) := by
    rw [leadTrip_eq d h.last, ← hrest, horigin, List.append_assoc,
      View.seek_append _ _ _ _ _ (by simp)]
  rw [hend, Trip.andThen] at hlead
  intro l hl
  rw [approach, horigin, hlead]
  rcases List.mem_append.1 hl with hl | hl
  · exact List.mem_append_left _ hl
  · exact List.mem_append_right _ (List.mem_append_left _ hl)

/-- Where a file takes the place of a link on the way to an entry, nothing gets through. -/
theorem Disk.Slot.see_blocked (h : d.Slot p parent n) (hslash : p.endsInSlash = false)
    (hl : l ∈ d.approach p) (hdir : d.look l ≠ some .dir) (hcwd : d'.cwd = d.cwd)
    (hlook : ∀ l' ∈ d.approach p, l' ≠ l → d'.look l' = d.look l') {content : ByteArray} {x : Bool}
    (hfile : d'.look l = some (.file content x)) (follow : Bool) :
    d'.see p follow = .error (.os .notDirectory) := by
  have horigin : d'.origin p = d.origin p := by rw [origin, origin, hcwd]
  have habove : ∀ l', l' <+: d.origin p → l' ≠ l := by
    rintro l' hpre rfl
    exact hdir (look_eq_dir_above h.begins hpre)
  have hbegins : d'.look (d.origin p) = some .dir := by
    rw [hlook _ (List.mem_append_left _ ((List.mem_inits _ _).2 (List.prefix_refl _)))
      (habove _ (List.prefix_refl _)), h.begins]
  have hvisited : l ∈ (d.look.seek true maxLinks (d.origin p) p.lead).visited := by
    rcases List.mem_append.1 hl with hl | hl
    · exact absurd rfl (habove l ((List.mem_inits _ _).1 hl))
    · rwa [leadTrip, (View.seek_concat_here _ _ _ _).1] at hl
  obtain ⟨up, k, rfl⟩ : ∃ up k, l = up ++ [k] := by
    refine (List.eq_nil_or_concat' l).resolve_left ?_
    rintro rfl
    exact habove [] List.nil_prefix rfl
  -- the walk comes to the place with some steps left, and there it ends
  rcases View.seek_through d.look maxLinks (d.origin p) up k p.lead with
    hnot | ⟨links, -, hshort, more, hcomes⟩
  · exact absurd hvisited hnot
  have hagree : View.AgreeOff d.look d'.look (up ++ [k])
      (d.look.seek true maxLinks (d.origin p) p.lead).visited := by
    intro l' hl' hne
    refine hlook l' (List.mem_append_right _ ?_) hne
    rwa [leadTrip, (View.seek_concat_here _ _ _ _).1]
  have hlead : (d'.leadTrip p).ending = .error .notDirectory := by
    rw [leadTrip, horigin, hcomes d'.look hagree [.here], View.seek_file hshort hfile, if_neg (by simp)]
  have hend : (d'.trip p follow).ending = .error .notDirectory := by
    rw [trip_eq_lead h.last hslash, Trip.andThen, hlead]
  unfold Disk.see Disk.goal
  rw [h.admits, horigin, hbegins, hend]

namespace Registry

/-! ### Saving at an entry -/

/-- New directories for a registry are on the way to it. -/
theorem mem_approach_of_hosted (h : (hosted d path).Slot path parent n) (hslash : path.endsInSlash = false)
    (hl : (hosted d path).look l ≠ d.look l) : l ∈ (hosted d path).approach path := by
  cases hdir : path.parent? with
  | none => exact absurd (by rw [hosted, hdir]) hl
  | some dir =>
      have hopened : hosted d path = d.opened dir := by
        rw [hosted, hdir]
        rfl
      rw [hopened] at h hl ⊢
      obtain ⟨q, hq, hne, he⟩ := newOn_opened d dir l hl
      obtain ⟨front, hpath, -⟩ := Path.withExtension_eq h.last hslash slash_notMem_draft two_le_draft
      have hcomponents : q.components <+: front := by
        have hinitial := Path.components_of_mem_ancestors hq
        rwa [Path.components_parent hdir, hpath, List.dropLast_concat] at hinitial
      have habsolute := Path.isAbsolute_of_initial hne
        (hpath ▸ hcomponents.trans (List.prefix_append front [.name n]))
      have hcourse : q.course <+: path.course.dropLast := by
        rw [Path.course_concat hpath, List.dropLast_concat]
        exact hcomponents.filterMap _
      exact h.way_subset he habsolute hcourse l (he.mem_way (List.prefix_refl l))

/-- A registry whose directory is there: it has the name `n` in the directory, and its draft the name `m`. -/
structure Stands (path : Path) (parent : Location) (m n : Name) (d : Disk) : Prop where
  draft : d.Slot (draftPath path) parent m
  file : d.Slot path parent n
  way : d.approach (draftPath path) = d.approach path
  ne : m ≠ n
  slash : path.endsInSlash = false

namespace Stands

theorem places_ne (h : Stands path parent m n d) : parent ++ [m] ≠ parent ++ [n] := by
  have := h.ne
  simpa using this

theorem congr (h : Stands path parent m n d) (hcwd : d'.cwd = d.cwd)
    (hlook : ∀ l ∈ d.approach path, d'.look l = d.look l) :
    Stands path parent m n d' ∧ d'.approach path = d.approach path := by
  obtain ⟨hfile, hway⟩ := h.file.congr hcwd hlook
  obtain ⟨hdraft, hway'⟩ := h.draft.congr hcwd fun l hl => hlook l (h.way ▸ hl)
  exact ⟨⟨hdraft, hfile, by rw [hway', h.way, hway], h.ne, h.slash⟩, hway⟩

/-- A registry whose directory is there needs no new one. -/
theorem look_hosted (h : Stands path parent m n d) : (hosted d path).look = d.look := by
  obtain ⟨hslot, hway⟩ := (opens_hosted d path).slot h.file
  funext l
  by_contra hl
  have hmem := mem_approach_of_hosted hslot h.slash hl
  exact hl ((opens_hosted d path).look_of_ne_none (h.file.look_ne_none (hway ▸ hmem)))

theorem hosted (h : Stands path parent m n d) :
    Stands path parent m n (hosted d path) ∧ (Registry.hosted d path).approach path = d.approach path :=
  h.congr (opens_hosted d path).cwd fun l _ => congrFun h.look_hosted l

end Stands

/-- What a save that succeeds makes of the disk with the directory of the registry, if the draft is no
link: the text stands at the entry of the registry, and there is no draft beside it. -/
structure Replaced (path : Path) (parent : Location) (m n : Name) (content : String) (d d' : Disk) :
    Prop where
  before : Stands path parent m n d
  free : d.Writable (parent ++ [m])
  leaf : d.look (parent ++ [n]) ≠ some .dir
  cwd : d'.cwd = d.cwd
  look : ∃ x, d'.look = Function.update (Function.update d.look (parent ++ [m]) none) (parent ++ [n])
    (some (.file content.toUTF8 x))

theorem replaced_of_save {r : Registry} {w w' : World} (h : (r.save path).run w = (.ok (), w'))
    (hdraft : (hosted w.disk path).isLink (draftPath path) = false) :
    ∃ content parent m n, r.text = .ok content ∧
      Replaced path parent m n content (hosted w.disk path) w'.disk := by
  obtain ⟨-, content, d, htext, hw, hr⟩ := save_ok h
  rw [isLink_eq_false_iff] at hdraft
  obtain ⟨parent, m, n, x, hslot, hfile, hne, hslash, hdir, hleaf, -, hcwd, hlook⟩ :=
    look_replaced slash_notMem_draft dot_mem_draft two_le_draft hw hr hdraft
  change (hosted w.disk path).Slot (draftPath path) parent m at hslot
  obtain ⟨front, hpath, hdraftPath, hlast, -⟩ :=
    Path.withExtension_eq hfile.last hslash slash_notMem_draft two_le_draft
  obtain rfl : m = Path.otherName n draftExtension := by
    have := hslot.last.symm.trans hlast
    simpa using this
  obtain ⟨-, hway⟩ := hfile.sibling hpath
    (show (draftPath path).components = _ from hdraftPath) hslot.admits hlast hslot.short
  obtain ⟨-, -, -, -, hplain, -⟩ := openFile_ok (show (hosted w.disk path).write _ _ = .ok d from hw)
  refine ⟨content, parent, _, n, htext, ⟨hslot, hfile, hway, hne, hslash⟩, ?_, hleaf, hcwd, x, hlook⟩
  cases hlabel : (hosted w.disk path).look (parent ++ [Path.otherName n draftExtension]) with
  | none => exact .inl hlabel
  | some label =>
      cases label with
      | dir => exact absurd hlabel hdir
      | file content x => exact .inr ⟨content, x, hlabel⟩
      | link target =>
          refine absurd ?_ (hdraft target)
          rw [hslot.see hplain (.inl rfl), hlabel]
          rfl

namespace Replaced

variable {content : String}

theorem look_file (h : Replaced path parent m n content d d') :
    ∃ x, d'.look (parent ++ [n]) = some (.file content.toUTF8 x) := by
  obtain ⟨x, hlook⟩ := h.look
  exact ⟨x, by rw [hlook, Function.update_self]⟩

theorem look_draft (h : Replaced path parent m n content d d') : d'.look (parent ++ [m]) = none := by
  obtain ⟨x, hlook⟩ := h.look
  rw [hlook, Function.update_of_ne h.before.places_ne, Function.update_self]

theorem look_elsewhere (h : Replaced path parent m n content d d') (hfile : l ≠ parent ++ [n])
    (hdraft : l ≠ parent ++ [m]) : d'.look l = d.look l := by
  obtain ⟨x, hlook⟩ := h.look
  rw [hlook, Function.update_of_ne hfile, Function.update_of_ne hdraft]

/-- The draft is not on the way to anything. -/
theorem ne_draft {up : Location} {k : Name} (h : Replaced path parent m n content d d')
    (hs : d.Slot p up k) : ∀ l ∈ d.approach p, l ≠ parent ++ [m] := by
  rintro l hl rfl
  rcases h.free with hnone | ⟨c, x, hfile⟩
  · exact hs.look_ne_none hl hnone
  · exact hs.not_file hl c x hfile

/-- An entry that is still found was found the same way before. -/
theorem slot_before {up : Location} {k : Name} (h : Replaced path parent m n content d d')
    (hs : d'.Slot p up k) : d.Slot p up k ∧ d.approach p = d'.approach p := by
  obtain ⟨x, hfile⟩ := h.look_file
  refine hs.congr h.cwd.symm fun l hl => (h.look_elsewhere ?_ ?_).symm
  · rintro rfl
    exact hs.not_file hl _ _ hfile
  · rintro rfl
    exact hs.look_ne_none hl h.look_draft

/-- An entry is found the same way afterwards, unless the registry was a link on the way. -/
theorem slot_or_blocked {up : Location} {k : Name} (h : Replaced path parent m n content d d')
    (hs : d.Slot p up k) (hslash : p.endsInSlash = false) :
    (d'.Slot p up k ∧ d'.approach p = d.approach p) ∨
      ∀ follow, d'.see p follow = .error (.os .notDirectory) := by
  by_cases hmem : parent ++ [n] ∈ d.approach p
  · obtain ⟨x, hfile⟩ := h.look_file
    exact .inr fun follow => hs.see_blocked hslash hmem h.leaf h.cwd
      (fun l hl hne => h.look_elsewhere hne (h.ne_draft hs l hl)) hfile follow
  · left
    refine hs.congr h.cwd fun l hl => h.look_elsewhere ?_ (h.ne_draft hs l hl)
    rintro rfl
    exact hmem hl

/-- A registry that is not a link on the way to itself stays where it is. -/
theorem stands (h : Replaced path parent m n content d d') (hnot : parent ++ [n] ∉ d.approach path) :
    Stands path parent m n d' ∧ d'.approach path = d.approach path := by
  refine h.before.congr h.cwd fun l hl => h.look_elsewhere ?_ (h.ne_draft h.before.file l hl)
  rintro rfl
  exact hnot hl

/-- Where the registry is found afterwards, it is at the entry where it was saved. -/
theorem stands_of_see {label : Label} (h : Replaced path parent m n content d d')
    (hsee : d'.see path true = .ok label) :
    Stands path parent m n d' ∧ d'.approach path = d.approach path ∧
      parent ++ [n] ∉ d'.approach path := by
  obtain ⟨g, hgoal, -⟩ := see_eq_ok_iff.1 hsee
  obtain ⟨up, hslot⟩ := exists_slot_of_goal h.before.file.last h.before.slash hgoal
  obtain ⟨x, hfile⟩ := h.look_file
  have hnot : parent ++ [n] ∉ d'.approach path := fun hmem => hslot.not_file hmem _ _ hfile
  obtain ⟨-, happroach⟩ := h.slot_before hslot
  obtain ⟨hstands, hsame⟩ := h.stands (happroach ▸ hnot)
  exact ⟨hstands, hsame, hnot⟩

end Replaced

/-! ### Registries outside a directory -/

/-- What keeping a registry may do to a disk: the registry and its draft may change, and directories on
the way to it may be new. -/
inductive Touches (path : Path) (d d' : Disk) : Location → Prop
  | file {parent : Location} {n : Name} (h : d'.Slot path parent n) : Touches path d d' (parent ++ [n])
  | draft {parent : Location} {m : Name} (h : d'.Slot (draftPath path) parent m) :
      Touches path d d' (parent ++ [m])
  | host {l : Location} (hold : d.look l = none) (hnew : d'.look l = some .dir)
      (hway : l ∈ d'.approach path) : Touches path d d' l

/-- On a disk with the directory of the registry, the registry is not an entry of the directory `top`, the
way to it does not lead into that directory, and the draft is no link. -/
structure Aside (path : Path) (top : Location) (d : Disk) : Prop where
  entry : ∀ parent n, d.Slot path parent n → parent ≠ top ∧ ∀ l ∈ d.approach path, top <+: l → l = top
  draft : d.isLink (draftPath path) = false

/-- A registry is outside a directory if it is aside of it whatever the directory has in it. -/
def Outside (path : Path) (top : Location) (d : Disk) : Prop :=
  ∀ d', SameOff top d d' → d'.look top = some .dir → Aside path top (hosted d' path)

/-- Nothing at or below an entry of the directory is looked up or written. -/
theorem Aside.not_below (h : Aside path top d) (hs : d.Slot path parent n) (k : Name) :
    (∀ l ∈ d.approach path, ¬ top ++ [k] <+: l) ∧ ∀ name, ¬ top ++ [k] <+: parent ++ [name] := by
  have hway : ∀ l ∈ d.approach path, ¬ top ++ [k] <+: l := by
    intro l hl hpre
    have hsame := (h.entry parent n hs).2 l hl ((List.prefix_append _ _).trans hpre)
    have hlen := hpre.length_le
    simp [hsame] at hlen
  refine ⟨hway, fun name hpre => ?_⟩
  rcases List.prefix_concat_iff.1 hpre with heq | habove
  · exact (h.entry parent n hs).1 (List.append_inj' heq rfl).1.symm
  · exact hway parent (hs.mem_approach (List.prefix_refl _)) habove

end Registry

/-- A registry at its home is outside every directory that holds none of its places. -/
theorem Lodged.outside {home : Home} (h : Lodged d path home) (htop : d.look top = some .dir)
    (hplaces : ∀ l ∈ home.places d, top <+: l → l = top) (hdir : home.dir ≠ top) :
    Registry.Outside path top d := by
  intro d' hoff htop'
  have hlook : ∀ l ∈ home.places d, d'.look l = d.look l := by
    intro l hl
    by_cases hpre : top <+: l
    · rw [hplaces l hl hpre, htop', htop]
    · exact hoff.look l hpre
  obtain ⟨h', hsame⟩ := h.congr hoff.cwd hlook
  have hway := ((Registry.opens_hosted d' path).enters h'.enters).2
  refine ⟨fun parent n hs => ?_, h'.hosted.sited.isLink_draft h'.hosted.draft.ne_link⟩
  obtain rfl : n = home.name := by
    have := hs.last.symm.trans h.last
    simpa using this
  obtain ⟨rfl, happroach⟩ := h'.hosted.enters.slot_below h.route h.last h'.hosted.plain hs
  refine ⟨hdir, fun l hl hpre => hplaces l ?_ hpre⟩
  rw [← hsame, Home.places, Home.missing, ← hway, ← happroach]
  exact List.mem_append_left _ hl

end Sideload
