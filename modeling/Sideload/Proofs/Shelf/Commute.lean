import Sideload.Proofs.Shelf.Abreast

/-!
Calls for two modules commute. What a call for one module does depends on what there is of that module only, and
it leaves what there is of the others alone.
-/

namespace Sideload

open Disk

namespace Shelf

/-- What a call for a module makes of a disk: the package directory is there, and in it and in the registry nothing
has changed but what belongs to the module. -/
structure Acts (shelf : Shelf) (home : Home) (target : Path) (loc : Location) (d : Disk) (name : String) (u : Disk)
    (r : Registry) (u' : Disk) : Prop where
  proper : u'.Proper
  enters : u'.Enters target loc
  differs : Differs (Grounds home loc d) d u'
  way : ∀ l ∈ (d.opened target).way target true, u'.look l = (d.opened target).look l
  others : ∀ l, loc <+: l → ¬ Owned loc name l → u'.look l = (u.opened target).look l
  homed : Homed u' shelf.registryPath home
  places : home.places u' = home.places d
  draft : u'.look home.draft = some .dir ↔ (d.opened target).look home.draft = some .dir
  read : ∃ r', Registry.read u' shelf.registryPath = .ok r' ∧ r'.ComesBack ∧ ∀ k, k ≠ name → r'.get? k = r.get? k

variable {shelf : Shelf} {home : Home} {target : Path} {loc l : Location} {d u u' u₁ : Disk} {r r' r₁ r₁' : Registry}
  {name other : String} {w v : World} {c : Change} {f : Failure}

theorem not_owned_of_place (houtside : ∀ l ∈ home.places d, ∀ n, ¬ loc ++ [n] <+: l) (hl : l ∈ home.places d) :
    ¬ Owned loc name l := by
  rintro ⟨n, -, hpre⟩
  exact houtside l hl n hpre

/-- Making the package directory does not make one in the place of the registry. -/
theorem Basis.look_file (b : shelf.Basis home target loc d r) :
    (d.opened target).look home.file = d.look home.file := by
  rcases b.cases with he | ⟨-, anc, above, names, hvacant, rfl⟩
  · rw [b.opened_eq he]
  · refine hvacant.made.2.1.same _ fun front _ hfront heq => b.beside ?_
    rw [heq]
    exact (List.prefix_append_right_inj _).2 hfront

section Work

variable (b : shelf.Basis home target loc d r) (a : shelf.Akin home target loc d r name u)
include b a

theorem Akin.look_file : (u.opened target).look home.file = u.look home.file := by
  rcases a.there with rfl | hin
  · exact b.look_file
  · rw [b.opened_eq hin]

/-- Work for a module leaves the registry as it was. -/
theorem Akin.acts (hread : Registry.read u shelf.registryPath = .ok r') (hback : r'.ComesBack)
    (hworks : WorksFor target loc name (u.opened target) u') (hdiffers : Differs (Grounds home loc d) d u')
    (hproper : u'.Proper) : shelf.Acts home target loc d name u r' u' ∧
      Registry.read u' shelf.registryPath = .ok r' ∧ u'.look home.file ≠ some .dir := by
  obtain ⟨he, hway⟩ := a.enters b
  have hopens := opens_opened u target
  obtain ⟨hhomed, hplaces⟩ := a.homed.of_places hopens.cwd fun l _ => hopens.look l
  have hsame : ∀ l ∈ home.places (u.opened target), u'.look l = (u.opened target).look l := fun l hl =>
    hworks.look l (not_owned_of_place (hplaces ▸ a.places ▸ b.outside) hl)
  obtain ⟨hhomed', hplaces'⟩ := hhomed.of_places hworks.cwd fun l hl => .inl (hsame l hl)
  have hfile : u'.look home.file = u.look home.file := (hsame _ (by simp [Home.places])).trans (a.look_file b)
  have hdraft : u'.look home.draft = (u.opened target).look home.draft := hsame _ (by simp [Home.places])
  have hread' : Registry.read u' shelf.registryPath = .ok r' := by
    rw [Registry.read, readText_eq, hhomed'.see, hfile, ← a.homed.see, ← readText_eq]
    exact hread
  refine ⟨⟨hproper, (hworks.enters he fun _ hl => hl).1, hdiffers, fun l hl => ?_, fun l _ hown => hworks.look l hown,
    hhomed', hplaces'.trans (hplaces.trans a.places), by rw [hdraft]; exact a.draft, r', hread', hback,
    fun _ _ => rfl⟩, hread', fun hdir => ?_⟩
  · rw [hworks.kept l (hway ▸ hl)]
    exact a.way l hl
  · rw [Registry.read, readText_eq, hhomed'.see, hdir] at hread'
    cases hread'

end Work

/-- Saving changes the registry only. -/
theorem Acts.save (b : shelf.Basis home target loc d r) (h : shelf.Acts home target loc d name u r' w.disk)
    (hread : Registry.read w.disk shelf.registryPath = .ok r') (hback : r'.ComesBack)
    (hleaf : w.disk.look home.file ≠ some .dir) {r₀ : Registry} (halters : Registry.Alters name r₀ r' r₁ r₁') :
    shelf.Acts home target loc d name u r' ((r₁'.save shelf.registryPath).run w).2.disk ∧
    (∀ l, Owned loc name l → ((r₁'.save shelf.registryPath).run w).2.disk.look l = w.disk.look l) ∧
    Registry.read ((r₁'.save shelf.registryPath).run w).2.disk shelf.registryPath =
      .ok (match ((r₁'.save shelf.registryPath).run w).1 with
        | .ok _ => r₁'
        | .error _ => r') := by
  have hs := Registry.resaved h.homed hleaf r₁'
  have houtside : ∀ l ∈ home.places w.disk, ∀ n, ¬ loc ++ [n] <+: l := h.places ▸ b.outside
  have hsaved : ((r₁'.save shelf.registryPath).run w).1 = .ok () → r₁'.ComesBack ∧
      Registry.read ((r₁'.save shelf.registryPath).run w).2.disk shelf.registryPath = .ok r₁' := by
    intro hok
    have hsaved := Registry.saved (h.homed.housed_of_save hok).toLodged r₁'
    obtain ⟨s, -, htext, -⟩ := hsaved.done hok
    have hcomes := halters.comesBack hback htext
    exact ⟨hcomes, hsaved.read_eq hok hcomes.readable⟩
  have hread' : Registry.read ((r₁'.save shelf.registryPath).run w).2.disk shelf.registryPath =
      .ok (match ((r₁'.save shelf.registryPath).run w).1 with
        | .ok _ => r₁'
        | .error _ => r') := by
    cases hanswer : ((r₁'.save shelf.registryPath).run w).1 with
    | error f => exact (hs.read_eq h.homed hanswer).trans hread
    | ok _ => exact (hsaved hanswer).2
  have henters := (h.enters.congr hs.differs.cwd fun l hl => hs.kept h.enters hl).1
  have hbase := (h.homed.enters.congr hs.differs.cwd fun l hl => hs.kept h.homed.enters hl).2
  have hsame : ∀ l, loc <+: l → ((r₁'.save shelf.registryPath).run w).2.disk.look l = w.disk.look l := by
    intro l hl
    by_cases hloc : l = loc
    · exact hs.kept h.enters (hloc ▸ h.enters.mem_way (List.prefix_refl _))
    · obtain ⟨n, hn⟩ := Location.exists_entry hl hloc
      exact hs.look_elsewhere fun hplace => houtside l hplace n hn
  have hwas : w.disk.way target true = (d.opened target).way target true :=
    (b.enters.congr (h.differs.cwd.trans b.opened_differs.cwd.symm) h.way).2
  refine ⟨⟨hs.proper h.proper, henters, h.differs.trans (hs.differs.mono ?_), fun l hl => ?_, fun l hl hown => ?_,
    hs.homed, ?_, hs.draft.trans h.draft, _, hread', ?_, fun k hk => ?_⟩, ?_, hread'⟩
  · rintro l ⟨place, hplace, hl⟩
    rcases hplace with rfl | rfl | ⟨hmissing, hnone⟩
    · exact ⟨_, .inr (.inl rfl), hl⟩
    · exact ⟨_, .inr (.inr (.inl rfl)), hl⟩
    · by_cases hbefore : d.look place = none
      · exact ⟨place, .inr (.inr (.inr ⟨hbefore, .inr hmissing⟩)), hl⟩
      · refine Grounds.of_prefix (by_contra fun hout => hbefore ?_) hl
        rw [← h.differs.look place hout, hnone]
  · rw [hs.kept h.enters (hwas ▸ hl)]
    exact h.way l hl
  · rw [hsame l hl]
    exact h.others l hl hown
  · rw [← h.places, Home.places, Home.places, hbase]
  · cases hanswer : ((r₁'.save shelf.registryPath).run w).1 with
    | error f => exact hback
    | ok _ => exact (hsaved hanswer).1
  · cases hanswer : ((r₁'.save shelf.registryPath).run w).1 with
    | error f => rfl
    | ok _ => exact halters.others hk
  · exact fun l hl => hsame l hl.below

/-! ### A call on two disks -/

/-- What a call for a module comes to on two disks that are alike for it. -/
structure Matches (shelf : Shelf) (home : Home) (target : Path) (loc : Location) (d : Disk) (name : String) (u : Disk)
    (r r' : Registry) (c : Change) (run run' : Except Failure c.Answer × World) : Prop where
  answers : run'.1.map c.undated = run.1.map c.undated
  left : shelf.Acts home target loc d name d r run.2.disk
  right : shelf.Acts home target loc d name u r' run'.2.disk
  own : ∀ l, Owned loc name l → run'.2.disk.look l = run.2.disk.look l
  entries : ∃ r₂ r₂', Registry.read run.2.disk shelf.registryPath = .ok r₂ ∧
    Registry.read run'.2.disk shelf.registryPath = .ok r₂' ∧
      (r₂'.get? name).map Entry.undated = (r₂.get? name).map Entry.undated

/-- A call stops on both disks before it changes anything, or it does the same for its module on both and nothing
else. -/
theorem Akin.call (b : shelf.Basis home target loc d r) (a : shelf.Akin home target loc d r name u)
    (hinto : c.InstallsInto target) (habout : c.IsAbout d name)
    (hdraws : ∀ p, c.Draws r.get? p → Aloof (Grounds home loc d) d p) (hw : w.disk = d) (hv : v.disk = u)
    (hyear : 0 ≤ w.now.date.year ∧ w.now.date.year ≤ 9999) (hyear' : 0 ≤ v.now.date.year ∧ v.now.date.year ≤ 9999) :
    (∃ f, Halts ((c.run shelf).run w) f d ∧ Halts ((c.run shelf).run v) f u) ∨
    ∃ r', Registry.read u shelf.registryPath = .ok r' ∧
      Matches shelf home target loc d name u r r' c ((c.run shelf).run w) ((c.run shelf).run v) := by
  obtain ⟨r', hread, hback, hget⟩ := a.read
  rcases a.concurs b hinto habout hdraws hread hget hw hv hyear hyear' with hstops | ⟨d₁, u₁, htandem, hconcurs⟩
  · exact .inl hstops
  refine .inr ⟨r', hread, ?_⟩
  obtain ⟨hacts, hread₁, hleaf⟩ := (b.refl name).acts b b.read b.back htandem.left htandem.twin.left htandem.proper
  obtain ⟨hacts', hread₁', hleaf'⟩ := a.acts b hread hback htandem.right htandem.twin.right htandem.proper'
  generalize (c.run shelf).run w = run at hconcurs
  generalize (c.run shelf).run v = run' at hconcurs
  cases hconcurs with
  | halts h h' =>
      obtain ⟨hanswer, rfl⟩ := h
      obtain ⟨hanswer', rfl⟩ := h'
      exact ⟨by rw [hanswer, hanswer'], hacts, hacts', htandem.twin.same, r, r', hread₁, hread₁', by rw [hget]⟩
  | @saves r₁ r₁' x x' halters halike h h' =>
      obtain ⟨w₁, rfl, hdisk, hanswer⟩ := h
      obtain ⟨v₁, rfl, hdisk', hanswer'⟩ := h'
      have hsame := halters.save_agrees b.back hback hacts.homed hacts'.homed hleaf hleaf'
        (hacts'.draft.trans hacts.draft.symm)
      obtain ⟨hsaved, hown, hfile⟩ := hacts.save b hread₁ b.back hleaf halters.symm
      obtain ⟨hsaved', hown', hfile'⟩ := hacts'.save b hread₁' hback hleaf' halters
      rw [← hdisk] at hsaved hown hfile
      rw [← hdisk'] at hsaved' hown' hfile'
      rw [hsame] at hanswer' hfile'
      refine ⟨?_, hsaved, hsaved', fun l hl => ?_, _, _, hfile, hfile', ?_⟩
      · rw [hanswer, hanswer']
        cases ((r₁.save shelf.registryPath).run w₁).1 with
        | error f => rfl
        | ok _ =>
            rcases halike with ⟨f, rfl, rfl⟩ | ⟨y, y', rfl, rfl, hy⟩
            · rfl
            · exact congrArg Except.ok hy
      · rw [hown l hl, hown' l hl]
        exact htandem.twin.same l hl
      · cases ((r₁.save shelf.registryPath).run w₁).1 with
        | error f => exact congrArg _ hget
        | ok _ => exact halters.alike

/-- What there is for another module is as it was. -/
theorem Acts.akin (b : shelf.Basis home target loc d r) (h : shelf.Acts home target loc d name d r u')
    (hother : other ≠ name) (hname : ¬ IsRedirectLike name) (hother' : ¬ IsRedirectLike other) :
    shelf.Akin home target loc d r other u' := by
  have hopened := b.opened_eq h.enters
  obtain ⟨r', hread, hback, hget⟩ := h.read
  refine ⟨h.proper, .inr h.enters, hopened.symm ▸ h.differs, hopened.symm ▸ h.way, fun l hl => ?_, h.homed, h.places,
    hopened.symm ▸ h.draft, r', hread, hback, hget other hother⟩
  rw [hopened]
  exact h.others l hl.below fun hown => hother (hl.unique hown hother' hname)

/-- How a call for a module fares on a disk and on one that is alike for the module. -/
structure Fares (shelf : Shelf) (home : Home) (target : Path) (loc : Location) (d : Disk) (r : Registry) (name : String)
    (u : Disk) (c : Change) (run run' : Except Failure c.Answer × World) : Prop where
  answers : run'.1.map c.undated = run.1.map c.undated
  entries : ∃ r' r₂ r₂', Registry.read u shelf.registryPath = .ok r' ∧
    Registry.read run.2.disk shelf.registryPath = .ok r₂ ∧ Registry.read run'.2.disk shelf.registryPath = .ok r₂' ∧
      (∀ k, k ≠ name → r₂'.get? k = r'.get? k) ∧ (r₂'.get? name).map Entry.undated = (r₂.get? name).map Entry.undated
  others : ∀ l, loc <+: l → ¬ Owned loc name l →
    (run'.2.disk.opened target).look l = (u.opened target).look l
  own : ∀ l, Owned loc name l → (run'.2.disk.opened target).look l = (run.2.disk.opened target).look l
  there : run.2.disk = d ∧ run'.2.disk = u ∨ run.2.disk.Enters target loc ∧ run'.2.disk.Enters target loc
  akin : ∀ other, other ≠ name → ¬ IsRedirectLike name → ¬ IsRedirectLike other →
    shelf.Akin home target loc d r other run.2.disk

theorem Akin.fares (b : shelf.Basis home target loc d r) (a : shelf.Akin home target loc d r name u)
    (hinto : c.InstallsInto target) (habout : c.IsAbout d name)
    (hdraws : ∀ p, c.Draws r.get? p → Aloof (Grounds home loc d) d p) (hw : w.disk = d) (hv : v.disk = u)
    (hyear : 0 ≤ w.now.date.year ∧ w.now.date.year ≤ 9999) (hyear' : 0 ≤ v.now.date.year ∧ v.now.date.year ≤ 9999) :
    Fares shelf home target loc d r name u c ((c.run shelf).run w) ((c.run shelf).run v) := by
  rcases a.call b hinto habout hdraws hw hv hyear hyear' with ⟨f, h, h'⟩ | ⟨r', hread, h⟩
  · obtain ⟨r', hread, -, hget⟩ := a.read
    obtain ⟨hanswer, hdisk⟩ := h
    obtain ⟨hanswer', hdisk'⟩ := h'
    exact ⟨by rw [hanswer, hanswer'], ⟨r', r, r', hread, hdisk ▸ b.read, hdisk' ▸ hread, fun _ _ => rfl, by rw [hget]⟩,
      fun l _ _ => by rw [hdisk'], fun l hl => by rw [hdisk, hdisk']; exact a.same l hl, .inl ⟨hdisk, hdisk'⟩,
      fun other _ _ _ => hdisk ▸ b.refl other⟩
  · obtain ⟨r₂, r₂', hread₂, hread₂', hentry⟩ := h.entries
    obtain ⟨r₃, hread₃, -, hget⟩ := h.right.read
    cases hread₂'.symm.trans hread₃
    have hopened := b.opened_eq h.left.enters
    have hopened' := b.opened_eq h.right.enters
    exact ⟨h.answers, ⟨r', r₂, r₂', hread, hread₂, hread₂', hget, hentry⟩, fun l hl hown => by
      rw [hopened']; exact h.right.others l hl hown, fun l hl => by rw [hopened, hopened']; exact h.own l hl,
      .inr ⟨h.left.enters, h.right.enters⟩, fun other hother hname hother' => h.left.akin b hother hname hother'⟩

/-! ### Two calls -/

/-- A registry as a map from names, without the times. -/
def told (r : Registry) (name : String) : Option Entry := (r.get? name).map Entry.undated

section Two

variable {m n : String} {a c : Change} {x x' : Except Failure a.Answer × World} {y y' : Except Failure c.Answer × World}
  (b : shelf.Basis home target loc d r) (hne : m ≠ n) (hm : ¬ IsRedirectLike m) (hn : ¬ IsRedirectLike n)
  (ha₀ : Fares shelf home target loc d r m d a x x) (ha : Fares shelf home target loc d r m y'.2.disk a x x')
  (hc₀ : Fares shelf home target loc d r n d c y' y') (hc : Fares shelf home target loc d r n x.2.disk c y' y)
include b hne ha₀ ha hc₀ hc

include hm hn in
/-- In whichever order two calls are made, the same is in the package directory. -/
theorem same_tree (hl : loc <+: l) : y.2.disk.look l = x'.2.disk.look l := by
  have hopened : (y.2.disk.opened target).look l = (x'.2.disk.opened target).look l := by
    by_cases hown : Owned loc m l
    · rw [hc.others l hl fun hown' => hne (hown.unique hown' hm hn), ha.own l hown]
    · by_cases hown' : Owned loc n l
      · rw [hc.own l hown', ha.others l hl hown]
      · rw [hc.others l hl hown', ha₀.others l hl hown, ha.others l hl hown, hc₀.others l hl hown']
  have hthere : y.2.disk = x'.2.disk ∨ y.2.disk.Enters target loc ∧ x'.2.disk.Enters target loc := by
    rcases ha.there with ⟨hx, hx'⟩ | ⟨hx, hx'⟩ <;> rcases hc.there with ⟨hy', hy⟩ | ⟨hy', hy⟩
    · exact .inl (by rw [hy, hx, hx', hy'])
    · exact .inr ⟨hy, hx' ▸ hy'⟩
    · exact .inr ⟨hy ▸ hx, hx'⟩
    · exact .inr ⟨hy, hx'⟩
  rcases hthere with hsame | ⟨hy, hx'⟩
  · rw [hsame]
  · rwa [b.opened_eq hy, b.opened_eq hx'] at hopened

/-- In whichever order two calls are made, the same is in the registry. -/
theorem same_entries : ∃ r₁ r₂, Registry.read y.2.disk shelf.registryPath = .ok r₁ ∧
    Registry.read x'.2.disk shelf.registryPath = .ok r₂ ∧ told r₁ = told r₂ := by
  obtain ⟨r₀, -, rx, hr₀, -, hx, hx_others, -⟩ := ha₀.entries
  cases b.read.symm.trans hr₀
  obtain ⟨r₀, -, ry', hr₀, -, hy', hy'_others, -⟩ := hc₀.entries
  cases b.read.symm.trans hr₀
  obtain ⟨r₁, r₂, rx', h₁, h₂, hx', hx'_others, hx'_own⟩ := ha.entries
  cases hy'.symm.trans h₁
  cases hx.symm.trans h₂
  obtain ⟨r₁, r₂, ry, h₁, h₂, hy, hy_others, hy_own⟩ := hc.entries
  cases hx.symm.trans h₁
  cases hy'.symm.trans h₂
  refine ⟨ry, rx', hy, hx', funext fun k => ?_⟩
  unfold told
  by_cases hkm : k = m
  · rw [hkm, hy_others m hne, hx'_own]
  · by_cases hkn : k = n
    · rw [hkn, hx'_others n hne.symm, hy_own]
    · rw [hy_others k hkn, hx'_others k hkm, hx_others k hkm, hy'_others k hkn]

end Two

/-! ### What the calls come from -/

/-- The registry that is read after any calls comes back from its own text. -/
theorem Tends.comesBack {start : World} {book : Book} (hstart : shelf.Begins home target loc start)
    (h : shelf.Tends home target loc start w book) (hread : Registry.read w.disk shelf.registryPath = .ok r) :
    r.ComesBack := by
  induction h generalizing r with
  | start =>
      rw [Registry.read, readText_eq, hstart.homed.see, hstart.missing] at hread
      cases hread
      exact ⟨Registry.header ++ "\n", by cbv, by cbv⟩
  | stopped h c hinto hstops ih =>
      exact ih (((h.orderly hstart).stopped hstart.absolute hinto hstops).2 r hread)
  | @done w book h c a hinto hok ih =>
      rcases c.run_cases shelf w with ⟨f, -, hfail⟩ | ⟨r₁, w₁, -, ⟨f, w₂, -, hfail⟩ | ⟨w₂, hsave, hquiet⟩⟩
      · cases hok.symm.trans hfail
      · rw [hfail] at hok
        cases hok
      · rw [hquiet.disk] at hread
        obtain ⟨s, htext, hback⟩ := Registry.ofText_of_load hsave ((Registry.run_load _ w₂).1.trans hread)
        exact Registry.comesBack_of_ofText htext hback
  | @meanwhile w w' book h hproper hcwd hway hbelow hplaces ih =>
      have hhomed := (h.orderly hstart).homed
      obtain ⟨hhomed', -⟩ := hhomed.of_places hcwd fun l hl => .inl (hplaces l hl)
      exact ih (hhomed.read_eq_ok hhomed' (.inl (hplaces _ (by simp [Home.places]))) hread)

theorem Tends.basis {start : World} {book : Book} (hstart : shelf.Begins home target loc start)
    (h : shelf.Tends home target loc start w book) (hbeside : ¬ home.file <+: loc)
    (hread : Registry.read w.disk shelf.registryPath = .ok r) : shelf.Basis home target loc w.disk r := by
  have horderly := h.orderly hstart
  exact ⟨horderly.proper, hstart.absolute, hstart.straight, horderly.homed, horderly.outside, hbeside, hread,
    h.comesBack hstart hread, start.disk, horderly.agrees r hread ▸ horderly.tended⟩

end Shelf

namespace Change

/-- A call made at a time. -/
def runAt (shelf : Shelf) (c : Change) (now : Moment) (w : World) : Except Failure c.Answer × World :=
  (c.run shelf).run { w with now := now }

/-- Every call reads the registry first. -/
theorem halts_of_read (c : Change) (now : Moment) (hread : Registry.read w.disk shelf.registryPath = .error f) :
    Halts (c.runAt shelf now w) f w.disk := by
  cases c with
  | install target source mode name? =>
      refine (shelf.install_reads target source mode name?).halts (w := { w with now := now }) ?_
      unfold Shelf.plannedInstall
      rw [hread]
      rfl
  | update name =>
      refine (shelf.update_reads name).halts (w := { w with now := now }) ?_
      unfold Shelf.plannedUpdate
      rw [hread]
      rfl
  | uninstall name =>
      refine (shelf.uninstall_reads name).halts (w := { w with now := now }) ?_
      unfold Shelf.plannedRemoval
      rw [hread]
      rfl

/-- An install is about the module that it comes to. -/
theorem isAbout_install {d : Disk} {target source real : Path} {mode : Mode} {name? : Option String} {name : String}
    (hreal : resolveSource d source = .ok real) (hname : Shelf.nameOf d real name? = .ok name) :
    (install target source mode name?).IsAbout d name := by
  intro k hk
  cases hk with
  | install hreal' hname' =>
      cases hreal.symm.trans hreal'
      exact (Except.ok.inj (hname.symm.trans hname')).symm

end Change

namespace Shelf

/-- Calls for different modules commute. After any calls for a package directory, take two more calls into it for
two modules, neither with a name of redirects, by sources that are found and read apart from what such calls
change. Whichever comes first, and whenever they are made, both answer the same but for the time of the entry, and
they leave the same in the package directory and the same in the registry but for the times. -/
theorem calls_commute (shelf : Shelf) (home : Home) (target : Path) (loc : Location) (start w : World) (book : Book)
    (hstart : shelf.Begins home target loc start) (h : shelf.Tends home target loc start w book)
    (hbeside : ¬ home.file <+: loc) (a c : Change) (m n : String) (hne : m ≠ n) (hm : ¬ IsRedirectLike m)
    (hn : ¬ IsRedirectLike n) (hinto : a.InstallsInto target ∧ c.InstallsInto target)
    (habout : a.IsAbout w.disk m ∧ c.IsAbout w.disk n)
    (hdraws : ∀ p, a.Draws book p ∨ c.Draws book p → Aloof (Grounds home loc w.disk) w.disk p)
    (t : Fin 4 → Moment) (hyears : ∀ i, 0 ≤ (t i).date.year ∧ (t i).date.year ≤ 9999) :
    let x := a.runAt shelf (t 0) w
    let y := c.runAt shelf (t 1) x.2
    let y' := c.runAt shelf (t 2) w
    let x' := a.runAt shelf (t 3) y'.2
    x'.1.map a.undated = x.1.map a.undated ∧ y'.1.map c.undated = y.1.map c.undated ∧
      (∀ l, loc <+: l → x'.2.disk.look l = y.2.disk.look l) ∧
      ((Registry.load shelf.registryPath).run x'.2).1.map told =
        ((Registry.load shelf.registryPath).run y.2).1.map told := by
  intro x y y' x'
  rw [(Registry.run_load _ _).1, (Registry.run_load _ _).1]
  cases hread : Registry.read w.disk shelf.registryPath with
  | error f =>
      -- nothing is done, neither by the first call nor by the second
      have hx : Halts x f w.disk := a.halts_of_read (t 0) hread
      have hy' : Halts y' f w.disk := c.halts_of_read (t 2) hread
      have hy : Halts y f x.2.disk := c.halts_of_read (t 1) (hx.2 ▸ hread)
      have hx' : Halts x' f y'.2.disk := a.halts_of_read (t 3) (hy'.2 ▸ hread)
      have hdisk : x'.2.disk = y.2.disk := by rw [hx'.2, hy'.2, hy.2, hx.2]
      exact ⟨by rw [hx'.1, hx.1], by rw [hy'.1, hy.1], fun l _ => by rw [hdisk], by rw [hdisk]⟩
  | ok r =>
      have b := h.basis hstart hbeside hread
      obtain rfl : r.get? = book := (h.orderly hstart).agrees r hread
      have hdraws_a : ∀ p, a.Draws r.get? p → Aloof (Grounds home loc w.disk) w.disk p := fun p hp => hdraws p (.inl hp)
      have hdraws_c : ∀ p, c.Draws r.get? p → Aloof (Grounds home loc w.disk) w.disk p := fun p hp => hdraws p (.inr hp)
      have ha₀ : Fares shelf home target loc w.disk r m w.disk a x x :=
        (b.refl m).fares b hinto.1 habout.1 hdraws_a rfl rfl (hyears 0) (hyears 0)
      have hc₀ : Fares shelf home target loc w.disk r n w.disk c y' y' :=
        (b.refl n).fares b hinto.2 habout.2 hdraws_c rfl rfl (hyears 2) (hyears 2)
      have ha : Fares shelf home target loc w.disk r m y'.2.disk a x x' :=
        (hc₀.akin m hne hn hm).fares b hinto.1 habout.1 hdraws_a rfl rfl (hyears 0) (hyears 3)
      have hc : Fares shelf home target loc w.disk r n x.2.disk c y' y :=
        (ha₀.akin n hne.symm hm hn).fares b hinto.2 habout.2 hdraws_c rfl rfl (hyears 2) (hyears 1)
      obtain ⟨r₁, r₂, h₁, h₂, htold⟩ := same_entries b hne ha₀ ha hc₀ hc
      refine ⟨ha.answers, hc.answers.symm, fun l hl => (same_tree b hne hm hn ha₀ ha hc₀ hc hl).symm, ?_⟩
      rw [h₁, h₂]
      exact congrArg Except.ok htold.symm

/-- Two files, an empty package directory, and no registry yet. -/
def pairSite : World := .holding [(Glyph.ofString "m.py", .file .empty false),
  (Glyph.ofString "n.py", .file .empty false), (Glyph.ofString "site", .dir [])]

theorem pairSite_begins (target : Path) (loc : Location) (habsolute : target.isAbsolute = true)
    (hstraight : .up ∉ target.components) (hstands : pairSite.disk.Stands target loc)
    (hclear : ∀ name, IsIdentifier name → loc ++ [Glyph.ofString (stagingName name)] ∉ pairSite.disk.way target true)
    (houtside : ∀ l ∈ siteHome.places pairSite.disk, ∀ n, ¬ loc ++ [n] <+: l) :
    sampleShelf.Begins siteHome target loc pairSite where
  proper := proper_of_every (fun n hn => by cases hn) (by decide)
  absolute := habsolute
  straight := hstraight
  stands := hstands
  clear := hclear
  homed := by
    have hfile : pairSite.disk.look siteHome.file = none := by cbv
    have hdraft : pairSite.disk.look siteHome.draft = none := by cbv
    refine ⟨sited_siteHome ⟨by cbv, by cbv⟩ (.inl (by cbv)), fun _ hlink => ?_, fun _ hlink => ?_⟩
    · cases hfile.symm.trans hlink
    · cases hdraft.symm.trans hlink
  missing := by cbv
  outside := houtside

/-- What calls may change is in the package directory or in the directory of the registry. -/
theorem head_of_grounds {l : Location} (h : Grounds siteHome [Glyph.ofString "site"] pairSite.disk l) :
    l.head? = some (Glyph.ofString "site") ∨ l.head? = some (Glyph.ofString "home") := by
  obtain ⟨place, hplace, rest, rfl⟩ := h
  rcases hplace with ⟨n, rfl⟩ | rfl | rfl | ⟨hnone, hpre | hmem⟩
  · exact .inl rfl
  · exact .inr rfl
  · exact .inr rfl
  · rcases List.prefix_cons_iff.1 hpre with rfl | ⟨rest', rfl, -⟩
    · cases hnone
    · exact .inl rfl
  · obtain rfl : place = [Glyph.ofString "home"] := by
      rw [show siteHome.missing = [[Glyph.ofString "home"]] by cbv] at hmem
      exact List.mem_singleton.1 hmem
    exact .inr rfl

theorem aloof_pairSite {region : Location → Prop} {s : String} (hs : s = "m.py" ∨ s = "n.py")
    (hregion : ∀ l, region l → l.head? = some (Glyph.ofString "site") ∨ l.head? = some (Glyph.ofString "home")) :
    Aloof region pairSite.disk (.ofString ("/" ++ s)) := by
  have hgoal : pairSite.disk.goal (.ofString ("/" ++ s)) true = .ok (.present [Glyph.ofString s]) ∧
      pathOf [Glyph.ofString s] = .ofString ("/" ++ s) ∧
      pairSite.disk.way (.ofString ("/" ++ s)) true = [[], [Glyph.ofString s]] ∧
      pairSite.disk.look [Glyph.ofString s] = some (.file .empty false) ∧
      Glyph.ofString s ≠ Glyph.ofString "site" ∧ Glyph.ofString s ≠ Glyph.ofString "home" := by
    rcases hs with rfl | rfl
    · exact ⟨by cbv, by cbv, by cbv, by cbv, by decide, by decide⟩
    · exact ⟨by cbv, by cbv, by cbv, by cbv, by decide, by decide⟩
  obtain ⟨hgoal, hpath, hway, hfile, hsite, hhome⟩ := hgoal
  have hwayout : ∀ l ∈ pairSite.disk.way (.ofString ("/" ++ s)) true, ¬ region l := by
    rw [hway]
    rintro l hl hin
    have hhead := hregion l hin
    simp only [List.mem_cons, List.not_mem_nil, or_false] at hl
    rcases hl with rfl | rfl
    · simp at hhead
    · simp [hsite, hhome] at hhead
  have hno : ∀ loc, ¬ pairSite.disk.Enters (.ofString ("/" ++ s)) loc := by
    intro loc he
    cases hgoal.symm.trans he.goal
    cases hfile.symm.trans he.dir
  refine ⟨hwayout, fun s' hgoal' => ?_⟩
  cases hgoal.symm.trans hgoal'
  rw [hpath]
  intro l hl
  cases hl with
  | way hl => exact hwayout l hl
  | inside he => exact absurd he (hno _)
  | entry he => exact absurd he (hno _)

theorem pairSite_starts :
    sampleShelf.Begins siteHome (.ofString "/site") [Glyph.ofString "site"] pairSite := by
  refine pairSite_begins _ _ (by cbv) ?_ (.there ⟨by cbv, by cbv⟩) (fun name _ => ?_) (outside_siteHome (by cbv))
  · rw [show (Path.ofString "/site").components = [.root, .name (Glyph.ofString "site")] by cbv]
    decide
  · rw [show pairSite.disk.way (.ofString "/site") true = [[], [Glyph.ofString "site"]] by cbv]
    simp

def pairCopy : Change := .install (.ofString "/site") (.ofString "/m.py") .copy none

def pairRedirect : Change := .install (.ofString "/site") (.ofString "/n.py") .editable none

theorem pairDraws (p : Path) (h : pairCopy.Draws (fun _ => none) p ∨ pairRedirect.Draws (fun _ => none) p) :
    Aloof (Grounds siteHome [Glyph.ofString "site"] pairSite.disk) pairSite.disk p := by
  rcases h with h | h
  · cases h
    exact aloof_pairSite (s := "m.py") (.inl rfl) fun _ => head_of_grounds
  · cases h
    exact aloof_pairSite (s := "n.py") (.inr rfl) fun _ => head_of_grounds

/-- One file is copied, and for another one a redirect is written. -/
theorem calls_commute_pairSite :
    sampleShelf.Begins siteHome (.ofString "/site") [Glyph.ofString "site"] pairSite ∧
    sampleShelf.Tends siteHome (.ofString "/site") [Glyph.ofString "site"] pairSite pairSite (fun _ => none) ∧
    pairCopy.IsAbout pairSite.disk "m" ∧ pairRedirect.IsAbout pairSite.disk "n" ∧
    (∀ p, pairCopy.Draws (fun _ => none) p ∨ pairRedirect.Draws (fun _ => none) p →
      Aloof (Grounds siteHome [Glyph.ofString "site"] pairSite.disk) pairSite.disk p) ∧
    ∀ l, [Glyph.ofString "site"] <+: l →
      (pairCopy.runAt sampleShelf sampleMoment
        (pairRedirect.runAt sampleShelf sampleMoment pairSite).2).2.disk.look l =
      (pairRedirect.runAt sampleShelf sampleMoment
        (pairCopy.runAt sampleShelf sampleMoment pairSite).2).2.disk.look l := by
  have htends : sampleShelf.Tends siteHome (.ofString "/site") [Glyph.ofString "site"] pairSite pairSite
      fun _ => none := .start
  have habout : pairCopy.IsAbout pairSite.disk "m" ∧ pairRedirect.IsAbout pairSite.disk "n" :=
    ⟨Change.isAbout_install (show resolveSource _ _ = .ok (.ofString "/m.py") by cbv) (by cbv),
      Change.isAbout_install (show resolveSource _ _ = .ok (.ofString "/n.py") by cbv) (by cbv)⟩
  obtain ⟨-, -, htree, -⟩ := calls_commute sampleShelf siteHome (.ofString "/site") [Glyph.ofString "site"] pairSite
    pairSite (fun _ => none) pairSite_starts htends (by decide) pairCopy pairRedirect "m" "n" (by decide)
    (mt isRedirectLike_iff.1 (by decide)) (mt isRedirectLike_iff.1 (by decide)) ⟨rfl, rfl⟩ habout pairDraws
    (fun _ => sampleMoment) (fun _ => by decide)
  exact ⟨pairSite_starts, htends, habout.1, habout.2, pairDraws, htree⟩

/-- A source that is found over the directory of the registry. -/
def strayCopy : Change := .install (.ofString "/site") (.ofString "/home/../n.py") .copy none

/-- An install into a directory below the registry. -/
def buriedCopy (source : String) : Change :=
  .install (.ofString "/home/registry.txt/site") (.ofString source) .copy none

def buriedLoc : Location := [Glyph.ofString "home", Glyph.ofString "registry.txt", Glyph.ofString "site"]

/-- An entry whose year cannot be read again. -/
def lateEntry : Entry := { siteEntry with installedAt := ⟨⟨10000, 5, 6, by decide⟩, 0, 0, isTimeOfDay_midnight⟩ }

theorem pairSite_buried :
    sampleShelf.Begins siteHome (.ofString "/home/registry.txt/site") buriedLoc pairSite := by
  have hvacant : pairSite.disk.Vacant (.ofString "/home/registry.txt/site") (.ofString "/") [] buriedLoc :=
    ⟨⟨by cbv, by cbv⟩, ⟨by cbv, by cbv⟩, ⟨Glyph.ofString "site", by cbv⟩, ⟨_, _, rfl, by cbv⟩, by cbv, by decide⟩
  refine pairSite_begins _ _ (by cbv) ?_ (.missing hvacant) (fun name _ hmem => ?_) fun l hl n hpre => ?_
  · rw [show (Path.ofString "/home/registry.txt/site").components =
      .root :: buriedLoc.map .name by cbv]
    decide
  · rw [show pairSite.disk.way (.ofString "/home/registry.txt/site") true =
      [[], [Glyph.ofString "home"]] by cbv] at hmem
    simp [buriedLoc] at hmem
  · have hplaces : ∀ l ∈ siteHome.places pairSite.disk, l.length ≤ 2 := by
      rw [Home.places, show pairSite.disk.way siteHome.base true = [[]] by cbv]
      decide
    have hlong := hpre.length_le.trans (hplaces l hl)
    simp [buriedLoc] at hlong

set_option maxRecDepth 20000 in
/-- Calls do not commute where the source of one is found over the directory that the other makes for the registry,
where one is made at a time that cannot be read again, or where the package directory is below the registry. -/
theorem not_calls_commute :
    (sampleShelf.Begins siteHome (.ofString "/site") [Glyph.ofString "site"] pairSite ∧
      (strayCopy.runAt sampleShelf sampleMoment pairSite).1 = .error (.sourceNotFound (.ofString "/home/../n.py")) ∧
      (strayCopy.runAt sampleShelf sampleMoment (pairCopy.runAt sampleShelf sampleMoment pairSite).2).1.isOk = true) ∧
    ((pairRedirect.runAt sampleShelf sampleMoment pairSite).1.isOk = true ∧
      (pairRedirect.runAt sampleShelf sampleMoment
        (pairCopy.runAt sampleShelf lateEntry.installedAt pairSite).2).1.isOk = false) ∧
    sampleShelf.Begins siteHome (.ofString "/home/registry.txt/site") buriedLoc pairSite ∧
      ((buriedCopy "/n.py").runAt sampleShelf sampleMoment
        ((buriedCopy "/m.py").runAt sampleShelf sampleMoment pairSite).2).2.disk.look
          (buriedLoc ++ [Glyph.ofString "m.py"]) = some (.file .empty false) ∧
      ((buriedCopy "/m.py").runAt sampleShelf sampleMoment
        ((buriedCopy "/n.py").runAt sampleShelf sampleMoment pairSite).2).2.disk.look
          (buriedLoc ++ [Glyph.ofString "m.py"]) = none := by
  refine ⟨⟨pairSite_starts, by cbv, by cbv⟩, ⟨by cbv, ?_⟩, pairSite_buried, by cbv, by cbv⟩
  have hread : Registry.read pairSite.disk sampleShelf.registryPath = .ok Registry.empty := by cbv
  have hnone : ∀ f ∈ Registry.empty.entries, f.Readable := fun f hf => by cases hf
  have hrun : (pairCopy.runAt sampleShelf lateEntry.installedAt pairSite).1 = .ok lateEntry := by cbv
  obtain ⟨-, -, hlasts, -⟩ := lasts_install (w := { pairSite with now := lateEntry.installedAt }) hread hnone
    (Prod.ext hrun rfl)
  rw [(Registry.run_load _ _).1] at hlasts
  cases hlost : Registry.read (pairCopy.runAt sampleShelf lateEntry.installedAt pairSite).2.disk
      sampleShelf.registryPath with
  | ok r => exact absurd (hlasts.1 ⟨r, hlost⟩).1.2.2 (by decide)
  | error f =>
      rw [(pairRedirect.halts_of_read sampleMoment hlost).1]
      rfl

end Shelf

end Sideload
