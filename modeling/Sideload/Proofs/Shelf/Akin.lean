import Sideload.Proofs.Registry.Abreast
import Sideload.Proofs.Shelf.Order
import Sideload.Proofs.Shelf.Outlook
import Sideload.Proofs.Shelf.Placing

/-!
Disks that are alike for one module. Calls for other modules may have been made on the one and not on the
other; for this module there is the same in the package directory and the same entry in the registry.
-/

namespace Sideload

open Disk

namespace Shelf

/-- What calls for a package directory may change: its entries, the registry and its draft, and the directories
above them that are missing. -/
def Grounds (home : Home) (loc : Location) (d : Disk) (l : Location) : Prop :=
  ∃ place, ((∃ n, place = loc ++ [n]) ∨ place = home.file ∨ place = home.draft ∨
    d.look place = none ∧ (place <+: loc ∨ place ∈ home.missing)) ∧ place <+: l

/-- A package directory in order, with a registry beside it that can be read. -/
structure Basis (shelf : Shelf) (home : Home) (target : Path) (loc : Location) (d : Disk) (r : Registry) : Prop where
  proper : d.Proper
  absolute : target.isAbsolute = true
  straight : .up ∉ target.components
  homed : Homed d shelf.registryPath home
  outside : ∀ l ∈ home.places d, ∀ n, ¬ loc ++ [n] <+: l
  beside : ¬ home.file <+: loc
  read : Registry.read d shelf.registryPath = .ok r
  back : r.ComesBack
  tended : ∃ start, Tended start target loc r.get? d

/-- A disk on which there is for one module what there is on another one. -/
structure Akin (shelf : Shelf) (home : Home) (target : Path) (loc : Location) (d : Disk) (r : Registry)
    (name : String) (u : Disk) : Prop where
  proper : u.Proper
  there : u = d ∨ u.Enters target loc
  differs : Differs (Grounds home loc d) d (u.opened target)
  way : ∀ l ∈ (d.opened target).way target true, (u.opened target).look l = (d.opened target).look l
  same : ∀ l, Owned loc name l → (u.opened target).look l = (d.opened target).look l
  homed : Homed u shelf.registryPath home
  places : home.places u = home.places d
  draft : (u.opened target).look home.draft = some .dir ↔ (d.opened target).look home.draft = some .dir
  read : ∃ r', Registry.read u shelf.registryPath = .ok r' ∧ r'.ComesBack ∧ r'.get? name = r.get? name

/-- A path of the package directory that a call for a module goes by. -/
inductive Addresses (target : Path) (r : Registry) (name : String) : Path → Prop
  | target : Addresses target r name target
  | recorded {e : Entry} {dir : Path} (hget : r.get? name = some e) (hdir : e.targetDir? = some dir) :
      Addresses target r name dir

variable {shelf : Shelf} {home : Home} {target dir source : Path} {loc l l' : Location} {d u : Disk} {r : Registry}
  {name : String} {e : Entry} {mode : Mode} {name? : Option String} {prior : Option Entry} {plan : Plan} {n : Name}

theorem Grounds.of_prefix (h : Grounds home loc d l) (hl : l <+: l') : Grounds home loc d l' := by
  obtain ⟨place, hplace, hpre⟩ := h
  exact ⟨place, hplace, hpre.trans hl⟩

theorem Grounds.of_owned (h : Owned loc name l) : Grounds home loc d l := by
  obtain ⟨n, -, hpre⟩ := h
  exact ⟨_, .inl ⟨n, rfl⟩, hpre⟩

namespace Basis

variable (b : shelf.Basis home target loc d r)
include b

theorem tidy : ∃ start, Tidy start target loc r.get? (d.opened target) := by
  obtain ⟨start, h⟩ := b.tended
  exact ⟨start, h.opened⟩

theorem enters : (d.opened target).Enters target loc := b.tidy.choose_spec.enters

theorem isEmpty : target.isEmpty = false := Path.isEmpty_of_isAbsolute b.absolute

/-- The directory is there, or it is missing and there are no entries. -/
theorem cases : d.Enters target loc ∨
    (∀ name, r.get? name = none) ∧ ∃ anc above names, d.Vacant target anc above names ∧ loc = above ++ names := by
  obtain ⟨start, h⟩ := b.tended
  generalize r.get? = book at h ⊢
  cases h with
  | there h => exact .inl h.enters
  | missing h hloc => exact .inr ⟨fun _ => rfl, _, _, _, h, hloc⟩

theorem of_entry (hget : r.get? name = some e) : d.Enters target loc := by
  rcases b.cases with he | ⟨hnone, -⟩
  · exact he
  · cases (hnone name).symm.trans hget

/-- The recorded artifact of a module. -/
theorem destined (hget : r.get? name = some e) : e.name = name ∧ ∃ m, e.Destined target m ∧
    (d.opened target).look (loc ++ [m]) ≠ none ∧ loc ++ [m] ∉ (d.opened target).way target true := by
  obtain ⟨start, h⟩ := b.tidy
  obtain ⟨m, hm, hthere, haside, -⟩ := h.placed name e hget
  exact ⟨h.named name e hget, m, hm, hthere, haside⟩

theorem opened_eq (he : u.Enters target loc) : u.opened target = u := by
  rw [opened, he.run_createDirAll b.isEmpty]

/-- Making the directory is the same on every disk that is alike. -/
theorem opened_differs : Differs (Grounds home loc d) d (d.opened target) := by
  refine (Disk.opened_differs d target).mono ?_
  rintro l ⟨place, hnone, hdir, hl⟩
  refine ⟨place, .inr (.inr (.inr ⟨hnone, .inl ?_⟩)), hl⟩
  rcases b.cases with he | ⟨-, anc, above, names, hvacant, rfl⟩
  · rw [b.opened_eq he, hnone] at hdir
    cases hdir
  · by_contra hout
    have hsame := hvacant.made.2.1.same place fun front _ hfront heq => hout
      (heq ▸ (List.prefix_append_right_inj _).2 hfront)
    rw [hdir, hnone] at hsame
    cases hsame

theorem refl (name : String) : shelf.Akin home target loc d r name d :=
  ⟨b.proper, .inl rfl, b.opened_differs, fun _ _ => rfl, fun _ _ => rfl, b.homed, rfl, .rfl, r, b.read, b.back, rfl⟩

end Basis

namespace Akin

variable (b : shelf.Basis home target loc d r) (a : shelf.Akin home target loc d r name u)
include b a

theorem enters : (u.opened target).Enters target loc ∧
    (u.opened target).way target true = (d.opened target).way target true :=
  b.enters.congr (a.differs.cwd.trans b.opened_differs.cwd.symm) a.way

theorem enters_of_there (he : d.Enters target loc) : u.Enters target loc := by
  rcases a.there with rfl | hin
  · exact he
  · exact hin

theorem differs_disk : Differs (Grounds home loc d) d u := by
  rcases a.there with rfl | hin
  · exact .refl _ _
  · have hdiffers := a.differs
    rwa [b.opened_eq hin] at hdiffers

/-- The directory can be made. -/
theorem made : ((DiskM.createDirAll target).run u).1 = .ok () := by
  have hmade : ∀ {d : Disk}, d.Enters target loc → ((DiskM.createDirAll target).run d).1 = .ok () := fun he => by
    rw [he.run_createDirAll b.isEmpty]
  rcases a.there with rfl | hin
  · rcases b.cases with he | ⟨-, anc, above, names, hvacant, -⟩
    · exact hmade he
    · exact hvacant.made.1
  · exact hmade hin

/-- By every path that a call for the module goes by, the directory is the same and can be made. -/
theorem addresses (h : Addresses target r name dir) : dir.components = target.components ∧
    ((DiskM.createDirAll dir).run u).1 = .ok () ∧ u.opened dir = u.opened target ∧
      (u.opened target).Enters dir loc := by
  cases h with
  | target => exact ⟨rfl, a.made b, rfl, (a.enters b).1⟩
  | recorded hget hdir =>
      obtain ⟨-, m, hm, -⟩ := b.destined hget
      have hin := a.enters_of_there b (b.of_entry hget)
      have hparent := Path.components_parent hdir
      rw [hm.components, List.dropLast_concat] at hparent
      have hempty : dir.isEmpty = false :=
        Path.isEmpty_of_isAbsolute ((Path.isAbsolute_congr hparent).trans b.absolute)
      have he : u.Enters dir loc :=
        (hm.slot hin).1.enters_dir (hparent ▸ hm.components) (admit?_parent hm.admits hdir hempty)
      have hopened : u.opened dir = u := by rw [opened, he.run_createDirAll hempty]
      refine ⟨hparent, ?_, hopened.trans (b.opened_eq hin).symm, (b.opened_eq hin).symm ▸ he⟩
      rw [he.run_createDirAll hempty]

/-- The same names of the module are taken in the directory. -/
theorem taken (h : Addresses target r name dir) {s : String} (hs : ModuleEntry name (Glyph.ofString s)) :
    u.occupied (dir.child s) = d.occupied (dir.child s) := by
  rcases a.there with rfl | hin
  · rfl
  have hq := dir.adds_join hs.proper
  have hsame := a.same _ ⟨_, hs, List.prefix_refl (loc ++ [Glyph.ofString s])⟩
  rcases b.cases with he | ⟨hnone, anc, above, names, hvacant, rfl⟩
  · obtain ⟨-, -, hopened, hu⟩ := a.addresses b h
    obtain ⟨-, -, -, hd⟩ := (b.refl name).addresses b h
    rw [b.opened_eq he] at hd hsame
    rw [b.opened_eq hin] at hu hsame
    exact hd.occupied_agrees hu hq (by rw [hsame])
  · cases h with
    | recorded hget => cases (hnone name).symm.trans hget
    | target =>
        rw [Path.child_eq, hvacant.not_occupied (target.components_join hs.proper) hq.last hq.slash, Bool.eq_false_iff]
        intro htaken
        obtain ⟨l, hgoal, hthere⟩ := occupied_iff.1 htaken
        obtain ⟨parent, hslot⟩ := exists_slot_of_goal hq.last hq.slash hgoal
        obtain ⟨rfl, -⟩ := hin.slot_adds hq hslot
        rw [hslot.goal hq.slash (.inl rfl)] at hgoal
        rw [b.opened_eq hin, hvacant.fresh.2 _ _ (List.prefix_refl _)] at hsame
        rw [if_pos hsame] at hgoal
        cases hgoal

/-- A plan for the module is for the same directory on every disk that is alike. -/
theorem site (h : Addresses target r name plan.target) (hname : plan.name = name) (hvalid : IsIdentifier name)
    (hprior : plan.prior = r.get? name) : Site target loc plan u := by
  obtain ⟨hcomponents, hmade, hopened, hin⟩ := a.addresses b h
  obtain ⟨he, hway⟩ := a.enters b
  refine ⟨a.proper, b.absolute, b.straight, hcomponents, hmade, hopened ▸ he, hopened ▸ hin, ?_, fun old hold => ?_⟩
  · obtain ⟨start, htidy⟩ := b.tidy
    rw [hopened, hway]
    exact htidy.clear _ (hname ▸ hvalid)
  · obtain ⟨hnamed, m, hm, -, haside⟩ := b.destined (hprior.symm.trans hold)
    exact ⟨hnamed.trans hname.symm, m, hm, hopened ▸ hway ▸ haside⟩

theorem twin (h : Addresses target r name dir) :
    Twin d (Grounds home loc d) (Owned loc name) (d.opened dir) (u.opened dir) := by
  rw [((b.refl name).addresses b h).2.2.1, (a.addresses b h).2.2.1]
  exact ⟨b.opened_differs, a.differs, a.same⟩

end Akin

end Shelf

end Sideload
