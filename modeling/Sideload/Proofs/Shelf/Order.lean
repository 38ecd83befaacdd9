import Sideload.Proofs.Registry.Rewrite
import Sideload.Proofs.Shelf.Directory

/-!
Shelves of one package directory. Whatever is installed, updated and uninstalled there, the directory stays
in order: its entries have their artifacts in it, each at a place of its own, and nothing else comes or goes.
-/

namespace Sideload

open Disk Registry

variable {shelf : Shelf} {home : Home} {start base d : Disk} {target dir source : Path} {loc l : Location}
  {w w' w₁ w₂ : World} {r r' : Registry} {book : Book} {e : Entry} {name : String} {plan : Plan} {f : Failure}

namespace Change

/-- Updates, uninstalls, and installs into one package directory. -/
def InstallsInto (target : Path) : Change → Prop
  | install dir .. => dir = target
  | _ => True

/-- A call that fails before it takes an artifact away: an install or an update while it plans or builds,
and an uninstall while it looks for its entry. -/
def Stops (shelf : Shelf) (w : World) : Change → Prop
  | install target source mode name? => ∃ f, ((shelf.prepareInstall target source mode name?).run w).1 = .error f
  | update name => ∃ f, ((shelf.prepareUpdate name).run w).1 = .error f
  | uninstall name => ∃ f, shelf.plannedRemoval name w.disk = .error f

end Change

namespace Shelf

/-- The registry is at its home outside the package directory, it can be read as the book only, and the
package directory is in order. -/
structure Orderly (shelf : Shelf) (home : Home) (start : Disk) (target : Path) (loc : Location) (w : World)
    (book : Book) : Prop where
  proper : w.disk.Proper
  homed : Homed w.disk shelf.registryPath home
  outside : ∀ l ∈ home.places w.disk, ∀ n, ¬ loc ++ [n] <+: l
  agrees : ∀ r, Registry.read w.disk shelf.registryPath = .ok r → r.get? = book
  tended : Tended start target loc book w.disk

/-- A plan for the package directory, with the entry of its name to be replaced. -/
structure Suits (start : Disk) (target : Path) (loc : Location) (book : Book) (d : Disk) (dir : Path)
    (prior : Option Entry) (plan : Plan) : Prop where
  planned : ∃ source mode name?, Planned d dir source mode name? prior plan
  components : dir.components = target.components
  prior : prior = book plan.name
  opened : Tidy start target loc book (d.opened dir)

namespace Orderly

variable (h : shelf.Orderly home start target loc w book)
include h

theorem quiet (hquiet : w.Quiet w') : shelf.Orderly home start target loc w' book := by
  have hdisk := hquiet.disk
  exact ⟨hdisk ▸ h.proper, hdisk ▸ h.homed, hdisk ▸ h.outside, hdisk ▸ h.agrees, hdisk ▸ h.tended⟩

/-- The registry where directories were made and things were changed in the package directory. -/
theorem homed_after (hopens : Opens w.disk base) (hout : SameOutside loc base d) :
    Homed d shelf.registryPath home ∧ (∀ l ∈ home.places d, ∀ n, ¬ loc ++ [n] <+: l) ∧
      ∀ r, Registry.read d shelf.registryPath = .ok r → Registry.read w.disk shelf.registryPath = .ok r := by
  have hlook : ∀ l ∈ home.places w.disk, d.look l = w.disk.look l ∨ w.disk.look l = none ∧ d.look l = some .dir := by
    intro l hl
    rw [hout.look l (h.outside l hl)]
    exact hopens.look l
  obtain ⟨hhomed, hplaces⟩ := h.homed.of_places (hout.cwd.trans hopens.cwd) hlook
  refine ⟨hhomed, hplaces ▸ h.outside, fun r hread => h.homed.read_eq_ok hhomed ?_ hread⟩
  exact (hlook _ (by simp [Home.places])).imp_right (·.2)

/-- An install or an update that stops leaves everything in order, and the registry as it was. -/
theorem of_stopped {run : Except Failure (Registry × Plan) × World} {good : Registry → Plan → Prop}
    (hcases : Prepares w run good) (habsolute : target.isAbsolute = true)
    (hgood : ∀ r plan, good r plan → ∃ dir prior, Suits start target loc book w.disk dir prior plan)
    (hfail : run.1 = .error f) : shelf.Orderly home start target loc run.2 book ∧
      ∀ r, Registry.read run.2.disk shelf.registryPath = .ok r → Registry.read w.disk shelf.registryPath = .ok r := by
  rcases hcases with ⟨-, -, hquiet⟩ | ⟨r, plan, w₀, hg, hquiet, rfl⟩
  · exact ⟨h.quiet hquiet, fun r hread => hquiet.disk ▸ hread⟩
  · obtain ⟨dir, prior, ⟨source, mode, name?, hplan⟩, hdir, -, hopened⟩ := hgood r plan hg
    have hproper := h.proper
    rw [← hquiet.disk] at hplan hopened hproper
    rcases hopened.build habsolute hdir hplan hproper with ⟨f, -, htidy, hout⟩ | ⟨hok, -⟩
    · obtain ⟨hhomed, houtside, hback⟩ := h.homed_after (hquiet.disk ▸ opens_opened _ dir) hout
      exact ⟨⟨stable_proper.build plan w₀ hproper, hhomed, houtside, fun r hread => h.agrees r (hback r hread),
        .there htidy⟩, hback⟩
    · rw [hok] at hfail
      cases hfail

end Orderly

/-- A save that succeeds leaves everything in order, for the book of what was saved. -/
theorem orderly_of_save (hproper : w.disk.Proper) (hhomed : Homed w.disk shelf.registryPath home)
    (houtside : ∀ l ∈ home.places w.disk, ∀ n, ¬ loc ++ [n] <+: l) (htidy : Tidy start target loc r.get? w.disk)
    (hnames : ∀ e ∈ r.entries, e.name.toList.head? ≠ some '#')
    (hok : ((r.save shelf.registryPath).run w).1 = .ok ()) :
    shelf.Orderly home start target loc ((r.save shelf.registryPath).run w).2 r.get? := by
  have hhoused := hhomed.housed_of_save hok
  have hsaved := saved hhoused.toLodged r
  generalize (r.save shelf.registryPath).run w = run at hsaved hok
  have hway : ∀ {p place}, w.disk.Enters p place → ∀ l ∈ w.disk.way p true, run.2.disk.look l = w.disk.look l := by
    intro p place he l hl
    refine hsaved.look_of_ne_none (he.look_ne_none hl) ?_ ?_
    · rintro rfl
      exact he.not_writable hl hhoused.file
    · rintro rfl
      exact he.not_writable hl hhoused.draft
  have hplaces : home.places run.2.disk = home.places w.disk := by
    rw [Home.places, Home.places, (hhoused.enters.congr hsaved.cwd (hway hhoused.enters)).2]
  refine ⟨hsaved.proper hproper, (hsaved.housed_of_ok hok).homed, hplaces ▸ houtside, fun r' hread => ?_,
    .there (htidy.congr hsaved.cwd (hway htidy.enters) fun n l hl => ?_)⟩
  · rw [hsaved.eq_of_read hok hnames hread]
  · by_contra hchanged
    have hmem : l ∈ home.places w.disk := by
      rcases hsaved.look l hchanged with ⟨hmissing, -⟩ | rfl | rfl
      · simp [Home.places, hmissing]
      · simp [Home.places]
      · simp [Home.places]
    exact houtside l hmem n hl

namespace Orderly

variable (h : shelf.Orderly home start target loc w book)
include h

/-- An install or an update that succeeds puts its entry into the book and leaves everything in order. -/
theorem of_placed {run : Except Failure Entry × World} {good : Registry → Plan → Prop}
    (hcases : Places shelf w run good) (habsolute : target.isAbsolute = true) (hup : .up ∉ target.components)
    (hgood : ∀ r plan, good r plan → Registry.read w.disk shelf.registryPath = .ok r ∧
      ∃ dir prior, Suits start target loc book w.disk dir prior plan)
    (hok : run.1 = .ok e) : shelf.Orderly home start target loc run.2 (book.put e) := by
  rcases hcases with ⟨f, hfail, -⟩ | ⟨r, plan, w₀, hg, hquiet, ⟨f, -, hfail⟩ | ⟨w₁, hbuild, hanswer, hsay⟩⟩
  · cases hok.symm.trans hfail
  · cases hok.symm.trans hfail
  obtain ⟨hread, dir, prior, ⟨source, mode, name?, hplan⟩, hdir, hprior, hopened⟩ := hgood r plan hg
  have hproper := h.proper
  have hopens := opens_opened w.disk dir
  rw [← hquiet.disk] at hplan hopened hproper hopens
  have hbuilt := hopened.build habsolute hdir hplan hproper
  have hproper₁ := stable_proper.build plan w₀ hproper
  rw [hbuild] at hbuilt hproper₁
  obtain ⟨f, hfail, -⟩ | ⟨-, hbuilt⟩ := hbuilt
  · cases hfail
  rcases commit_cases shelf r plan w₁ with ⟨f, w₂, -, hcommit, -⟩ | ⟨w₂, hclear, -, hmove, -, hcommit⟩
  · rw [hok, hcommit] at hanswer
    cases hanswer
  rw [hcommit] at hanswer hsay
  have hdestined := hbuilt.destined hdir hplan hmove w₁.now
  have hrenewed := hopened.renewed hplan hbuilt hmove hprior hclear fun _ => hdir ▸ hup
  have hsave : ((r.insert (plan.entry w₁.now)).save shelf.registryPath |>.run w₂).1 = .ok () := by
    rcases hsaved : ((r.insert (plan.entry w₁.now)).save shelf.registryPath |>.run w₂).1 with f | u
    · rw [hok, hsaved] at hanswer
      cases hanswer
    · rfl
  obtain rfl : e = plan.entry w₁.now := by
    rw [hok, hsave] at hanswer
    exact Except.ok.inj hanswer
  have hbook : (r.insert (plan.entry w₁.now)).get? = book.put (plan.entry w₁.now) := by
    rw [get?_insert_eq_put, h.agrees r hread]
  have hproper₂ : w₂.disk.Proper := by
    refine Disk.Proper.rename ?_ hmove
    rcases plan.clear_cases w₁.disk with hsame | ⟨old, place, -, -, hshrinks, -⟩
    · rwa [hsame]
    · exact hproper₁.shrinks hshrinks
  obtain ⟨hhomed, houtside, -⟩ := h.homed_after (hquiet.disk ▸ hopens) hrenewed.outside
  have htidy : Tidy start target loc (book.put (plan.entry w₁.now)) w₂.disk := hopened.renew hdestined hrenewed
  rw [← hbook] at htidy ⊢
  refine (orderly_of_save hproper₂ hhomed houtside htidy (fun e' he' => ?_) hsave).quiet hsay
  rcases mem_insert he' with rfl | ⟨he', -⟩
  · exact hplan.valid.not_comment
  · exact not_comment_of_read hread he'

/-- An uninstall that succeeds strikes its entry out and leaves everything in order. -/
theorem of_removed {gone : Removal} (hok : ((shelf.uninstall name).run w).1 = .ok gone) :
    shelf.Orderly home start target loc ((shelf.uninstall name).run w).2 (book.strike name) := by
  rcases uninstall_cases shelf name w with
    ⟨f, hfail, -⟩ | ⟨r, e, w₁, hread, hget, -, hdisk, ⟨f, -, hfail⟩ | ⟨w₂, hsave, hsay, hanswer⟩⟩
  · cases hok.symm.trans hfail
  · cases hok.symm.trans hfail
  have hbook := h.agrees r hread
  have hentry : book name = some e := hbook ▸ hget
  have htidy : Tidy start target loc book w.disk := by
    have htended := h.tended
    cases htended with
    | there htidy => exact htidy
    | missing => cases hentry
  obtain ⟨n, hn, -, haside, -⟩ := htidy.placed name e hentry
  obtain ⟨hslot, happroach⟩ := hn.slot htidy.enters
  obtain ⟨b, -, hshrinks, hgone⟩ := DiskM.removeArtifact_of_slot hslot hn.slash fun l hl hpre =>
    haside (prefix_of_way (happroach ▸ hl) hpre)
  rw [← hdisk] at hshrinks hgone
  obtain ⟨hhomed, houtside, -⟩ := h.homed_after (.refl _) hshrinks.toSameOff.outside
  have hstruck := htidy.strike hentry hn hshrinks.toSameOff hgone
  rw [← hbook, ← get?_erase_eq_strike] at hstruck ⊢
  have horderly := orderly_of_save (h.proper.shrinks hshrinks) hhomed houtside hstruck
    (fun f hf => not_comment_of_read hread (mem_erase hf).1) (congrArg Prod.fst hsave)
  rw [hsave] at horderly
  exact horderly.quiet hsay

/-- What an install plans suits the directory that it is made for. -/
theorem suits_install {real : Path} {mode : Mode} {name : String}
    (hread : Registry.read w.disk shelf.registryPath = .ok r)
    (hplan : Planned w.disk target real mode (some name) (r.get? name) plan) :
    Suits start target loc book w.disk target (r.get? name) plan := by
  refine ⟨⟨real, mode, some name, hplan⟩, rfl, ?_, h.tended.opened⟩
  rw [h.agrees r hread, hplan.named]
  rfl

/-- What an update plans suits it as well: the recorded artifact is in it. -/
theorem suits_update (hread : Registry.read w.disk shelf.registryPath = .ok r) (hget : r.get? name = some e)
    (hdir : e.targetDir? = some dir)
    (hplan : Planned w.disk dir e.source e.mode (some e.name) (some e) plan) :
    Suits start target loc book w.disk dir (some e) plan := by
  have hentry : book name = some e := h.agrees r hread ▸ hget
  have hname : plan.name = name := hplan.named.trans (name_of_get? hget)
  have hcomponents : dir.components = target.components := by
    have htended := h.tended
    cases htended with
    | there htidy =>
        obtain ⟨n, hn, -⟩ := htidy.placed name e hentry
        rw [Path.components_parent hdir, hn.components, List.dropLast_concat]
    | missing => cases hentry
  exact ⟨⟨e.source, e.mode, some e.name, hplan⟩, hcomponents, by rw [hname, hentry],
    h.tended.opened_of_entry hentry hcomponents⟩

/-- A call that stops leaves everything in order, and the registry as it was. -/
theorem stopped (habsolute : target.isAbsolute = true) {c : Change} (hinto : c.InstallsInto target)
    (hstops : c.Stops shelf w) : shelf.Orderly home start target loc ((c.run shelf).run w).2 book ∧
      ∀ r, Registry.read ((c.run shelf).run w).2.disk shelf.registryPath = .ok r →
        Registry.read w.disk shelf.registryPath = .ok r := by
  cases c with
  | install dir source mode name? =>
      obtain rfl : dir = target := hinto
      obtain ⟨f, hfail⟩ := hstops
      have hrun : ((Change.install dir source mode name?).run shelf).run w =
          (.error f, ((shelf.prepareInstall dir source mode name?).run w).2) :=
        run_bind_of_error (Prod.ext hfail rfl) _
      rw [hrun]
      refine h.of_stopped (prepareInstall_cases shelf dir source mode name? w) habsolute ?_ hfail
      rintro r plan ⟨hread, real, name, hplan⟩
      exact ⟨dir, _, h.suits_install hread hplan⟩
  | update name =>
      obtain ⟨f, hfail⟩ := hstops
      have hrun : ((Change.update name).run shelf).run w =
          (.error f, ((shelf.prepareUpdate name).run w).2) :=
        run_bind_of_error (Prod.ext hfail rfl) _
      rw [hrun]
      refine h.of_stopped (prepareUpdate_cases shelf name w) habsolute ?_ hfail
      rintro r plan ⟨hread, e, dir, hget, hdir, hplan⟩
      exact ⟨dir, _, h.suits_update hread hget hdir hplan⟩
  | uninstall name =>
      obtain ⟨f, hfail⟩ := hstops
      have hquiet := ((uninstall_reads shelf name).of_error hfail).2
      exact ⟨h.quiet hquiet, fun r hread => hquiet.disk ▸ hread⟩

/-- A call that succeeds leaves everything in order for the book that goes on with its answer. -/
theorem done (habsolute : target.isAbsolute = true) (hup : .up ∉ target.components) {c : Change} {a : c.Answer}
    (hinto : c.InstallsInto target) (hok : ((c.run shelf).run w).1 = .ok a) :
    shelf.Orderly home start target loc ((c.run shelf).run w).2 (c.effect book (.ok a)) := by
  cases c with
  | install dir source mode name? =>
      obtain rfl : dir = target := hinto
      refine h.of_placed (install_cases shelf dir source mode name? w) habsolute hup ?_ hok
      rintro r plan ⟨hread, real, name, hplan⟩
      exact ⟨hread, dir, _, h.suits_install hread hplan⟩
  | update name =>
      refine h.of_placed (update_cases shelf name w) habsolute hup ?_ hok
      rintro r plan ⟨hread, e, dir, hget, hdir, hplan⟩
      exact ⟨hread, dir, _, h.suits_update hread hget hdir hplan⟩
  | uninstall name => exact h.of_removed hok

/-- Nor does it matter what happens elsewhere. -/
theorem elsewhere (hproper : w'.disk.Proper) (hcwd : w'.disk.cwd = w.disk.cwd)
    (hway : ∀ l ∈ w.disk.way target true, w'.disk.look l = w.disk.look l)
    (hbelow : ∀ n l, loc ++ [n] <+: l → w'.disk.look l = w.disk.look l)
    (hplaces : ∀ l ∈ home.places w.disk, w'.disk.look l = w.disk.look l) :
    shelf.Orderly home start target loc w' book := by
  obtain ⟨hhomed, hsame⟩ := h.homed.of_places hcwd fun l hl => .inl (hplaces l hl)
  have hfile : w'.disk.look home.file = w.disk.look home.file := hplaces _ (by simp [Home.places])
  exact ⟨hproper, hhomed, hsame ▸ h.outside,
    fun r hread => h.agrees r (h.homed.read_eq_ok hhomed (.inl hfile) hread), h.tended.congr hcwd hway hbelow⟩

end Orderly

/-! ### Runs -/

/-- A shelf at first: a package directory that is there or can be made, and a registry outside of it of
which there is nothing yet. -/
structure Begins (shelf : Shelf) (home : Home) (target : Path) (loc : Location) (w : World) : Prop where
  proper : w.disk.Proper
  absolute : target.isAbsolute = true
  straight : .up ∉ target.components
  stands : w.disk.Stands target loc
  /-- The directory is not reached over a name under which something is built in it. -/
  clear : ∀ name, IsIdentifier name → loc ++ [Glyph.ofString (stagingName name)] ∉ w.disk.way target true
  homed : Homed w.disk shelf.registryPath home
  missing : w.disk.look home.file = none
  outside : ∀ l ∈ home.places w.disk, ∀ n, ¬ loc ++ [n] <+: l

/-- The worlds that come about from one, each with the book of the calls that succeeded on the way. Calls
may also stop before they take an artifact away. In between everything may change but the package directory,
what is looked up to find it, and the places of the registry. -/
inductive Tends (shelf : Shelf) (home : Home) (target : Path) (loc : Location) (start : World) :
    World → Book → Prop
  | start : Tends shelf home target loc start start fun _ => none
  | stopped {w : World} {book : Book} (h : Tends shelf home target loc start w book) (c : Change)
      (hinto : c.InstallsInto target) (hstops : c.Stops shelf w) :
      Tends shelf home target loc start ((c.run shelf).run w).2 book
  | done {w : World} {book : Book} (h : Tends shelf home target loc start w book) (c : Change) {a : c.Answer}
      (hinto : c.InstallsInto target) (hok : ((c.run shelf).run w).1 = .ok a) :
      Tends shelf home target loc start ((c.run shelf).run w).2 (c.effect book (.ok a))
  | meanwhile {w w' : World} {book : Book} (h : Tends shelf home target loc start w book)
      (hproper : w'.disk.Proper) (hcwd : w'.disk.cwd = w.disk.cwd)
      (hway : ∀ l ∈ w.disk.way target true, w'.disk.look l = w.disk.look l)
      (hbelow : ∀ n l, loc ++ [n] <+: l → w'.disk.look l = w.disk.look l)
      (hplaces : ∀ l ∈ home.places w.disk, w'.disk.look l = w.disk.look l) :
      Tends shelf home target loc start w' book

theorem Tends.orderly {start : World} (hstart : shelf.Begins home target loc start)
    (h : shelf.Tends home target loc start w book) : shelf.Orderly home start.disk target loc w book := by
  induction h with
  | start =>
      refine ⟨hstart.proper, hstart.homed, hstart.outside, fun r hread => ?_, hstart.stands.tended hstart.clear⟩
      rw [Registry.read, readText_eq, hstart.homed.see, hstart.missing] at hread
      cases hread
      rfl
  | stopped h c hinto hstops ih => exact (ih.stopped hstart.absolute hinto hstops).1
  | done h c hinto hok ih => exact ih.done hstart.absolute hstart.straight hinto hok
  | meanwhile h hproper hcwd hway hbelow hplaces ih => exact ih.elsewhere hproper hcwd hway hbelow hplaces

end Shelf

/-- A location is at or below the artifact of an entry. -/
def Entry.Covers (e : Entry) (d : Disk) (l : Location) : Prop :=
  ∃ place, d.goal e.artifact false = .ok (.present place) ∧ place <+: l

theorem Location.exists_entry (hl : loc <+: l) (hne : l ≠ loc) : ∃ n, loc ++ [n] <+: l := by
  obtain ⟨_ | ⟨n, rest⟩, rfl⟩ := hl
  · exact absurd (List.append_nil loc) hne
  · exact ⟨n, rest, by rw [List.append_assoc]; rfl⟩

namespace Tidy

variable (h : Tidy start target loc book d)
include h

theorem covers {n : Name} (hget : book name = some e) (he : e.Destined target n) (hl : loc ++ [n] <+: l) :
    e.Covers d l :=
  ⟨_, he.goal h.enters (h.entry hget he).1, hl⟩

/-- No location belongs to two entries. -/
theorem covers_unique {f : Entry} {other : String} (hget : book name = some e) (hget' : book other = some f)
    (he : e.Covers d l) (hf : f.Covers d l) : e = f := by
  obtain ⟨n, hn, hthere, -⟩ := h.placed name e hget
  obtain ⟨m, hm, hthere', -⟩ := h.placed other f hget'
  obtain ⟨place, hgoal, hl⟩ := he
  obtain ⟨place', hgoal', hl'⟩ := hf
  cases hgoal.symm.trans (hn.goal h.enters hthere)
  cases hgoal'.symm.trans (hm.goal h.enters hthere')
  obtain rfl := Location.entry_unique hl hl'
  obtain rfl := h.apart name e other f n hget hget' hn hm
  exact Option.some.inj (hget.symm.trans hget')

/-- What is in the directory was there at first, or it belongs to an entry. -/
theorem look_cases (hl : loc <+: l) (hne : l ≠ loc) (hthere : d.look l ≠ none) : d.look l = start.look l ∨
    start.look l = none ∧ ∃! e, book e.name = some e ∧ e.Covers d l := by
  obtain ⟨n, hn⟩ := Location.exists_entry hl hne
  rcases h.rest n with hkept | ⟨name, e, hget, he⟩ | ⟨name, -, -, hgone⟩
  · exact .inl (hkept l hn)
  · obtain rfl := h.named name e hget
    obtain ⟨-, -, hfree⟩ := h.entry hget he
    refine .inr ⟨look_none_below hfree hn, e, ⟨hget, h.covers hget he hn⟩, ?_⟩
    rintro f ⟨hget', hf⟩
    exact h.covers_unique hget' hget hf (h.covers hget he hn)
  · exact absurd (hgone l hn) hthere

/-- What was there at first is there, unless something is built in its place. -/
theorem look_kept {label : Label} (hl : loc <+: l) (hne : l ≠ loc)
    (hstaging : ∀ name, IsIdentifier name → ¬ loc ++ [Glyph.ofString (stagingName name)] <+: l)
    (hlabel : start.look l = some label) : d.look l = some label := by
  obtain ⟨n, hn⟩ := Location.exists_entry hl hne
  rcases h.rest n with hkept | ⟨name, e, hget, he⟩ | ⟨name, hname, rfl, -⟩
  · rw [hkept l hn, hlabel]
  · rw [look_none_below (h.entry hget he).2.2 hn] at hlabel
    cases hlabel
  · exact absurd hn (hstaging name hname)

end Tidy

namespace Shelf

/-- The package directory stays in order. Fix a package directory that is there or can be made, and a
registry outside of it that is not there yet. After any installs into it, updates and uninstalls, each of
which succeeds or stops before it takes an artifact away: the registry can only be read as the book of what
has succeeded; every entry has its artifact at the destination of its own name, where something is; no two
entries have the same artifact; what was in the directory at first is as it was, but for places where
something is built; and everything else in the directory is at or below the artifact of exactly one entry. -/
theorem keeps_order (shelf : Shelf) (home : Home) (target : Path) (loc : Location) (start w : World) (book : Book)
    (hstart : shelf.Begins home target loc start) (h : shelf.Tends home target loc start w book) :
    (∀ r, ((Registry.load shelf.registryPath).run w).1 = .ok r → r.get? = book) ∧
    (∀ name e, book name = some e → e.name = name ∧ w.disk.occupied e.artifact = true ∧
      ∃ isDir, e.artifact.sameAs (destination target e.source name e.mode isDir) = true) ∧
    (∀ name e other f, book name = some e → book other = some f → e.artifact.sameAs f.artifact = true →
      name = other) ∧
    (∀ l label, loc <+: l → l ≠ loc →
      (∀ name, IsIdentifier name → ¬ loc ++ [Glyph.ofString (stagingName name)] <+: l) →
        start.disk.look l = some label → w.disk.look l = some label) ∧
    ∀ l, loc <+: l → l ≠ loc → w.disk.look l ≠ none → w.disk.look l = start.disk.look l ∨
      start.disk.look l = none ∧ ∃! e, book e.name = some e ∧ e.Covers w.disk l := by
  have horderly := h.orderly hstart
  refine ⟨fun r hload => horderly.agrees r ((run_load _ w).1 ▸ hload), ?_⟩
  have htended := horderly.tended
  cases htended with
  | there htidy =>
      refine ⟨fun name e hget => ?_, fun name e other f hget hget' hsame => ?_,
        fun l label => htidy.look_kept, fun l => htidy.look_cases⟩
      · obtain ⟨n, hn, hthere, -⟩ := htidy.placed name e hget
        obtain rfl := htidy.named name e hget
        exact ⟨rfl, occupied_iff.2 ⟨_, hn.goal htidy.enters hthere, hthere⟩, hn.sameAs_destination⟩
      · obtain ⟨n, hn, -⟩ := htidy.placed name e hget
        obtain ⟨m, hm, -⟩ := htidy.placed other f hget'
        have hcomponents := (Path.sameAs_iff.1 hsame).symm.trans hn.components
        rw [hm.components, List.append_cancel_left_eq] at hcomponents
        obtain rfl : m = n := by simpa using hcomponents
        exact htidy.apart name e other f m hget hget' hn hm
  | missing hvacant hloc hgone =>
      refine ⟨fun _ _ hget => (nomatch hget), fun _ _ _ _ hget => (nomatch hget), fun l label hl _ _ hlabel => ?_,
        fun l hl _ hthere => absurd (hvacant.fresh.1 l (hloc ▸ hl)) hthere⟩
      rw [hgone l hl] at hlabel
      cases hlabel

/-- The places of a registry in `/home` are outside of `/site`. -/
theorem outside_siteHome {w : World} (hway : w.disk.way siteHome.base true = [[]]) :
    ∀ l ∈ siteHome.places w.disk, ∀ n, ¬ [Glyph.ofString "site"] ++ [n] <+: l := by
  rw [Home.places, hway]
  rintro l hl n ⟨rest, rfl⟩
  have hplaces : ∀ l ∈ [[]] ++ siteHome.missing ++ [siteHome.file, siteHome.draft],
      l.head? ≠ some (Glyph.ofString "site") := by decide
  exact hplaces _ hl rfl

theorem emptySite_begins :
    sampleShelf.Begins siteHome (.ofString "/site") [Glyph.ofString "site"] emptySite where
  proper := emptySite_proper
  absolute := by cbv
  straight := by
    rw [show (Path.ofString "/site").components = [.root, .name (Glyph.ofString "site")] by cbv]
    decide
  stands := .there ⟨by cbv, by cbv⟩
  clear := by
    intro name _
    rw [show emptySite.disk.way (.ofString "/site") true = [[], [Glyph.ofString "site"]] by cbv]
    simp
  homed := (show Housed _ _ _ from ⟨lodged_emptySite, .inl (by cbv)⟩).homed
  missing := by cbv
  outside := outside_siteHome (by cbv)

/-- A file is installed into an empty directory. -/
theorem keeps_order_site :
    sampleShelf.Begins siteHome (.ofString "/site") [Glyph.ofString "site"] emptySite ∧
    sampleShelf.Tends siteHome (.ofString "/site") [Glyph.ofString "site"] emptySite filledSite
      (Book.put (fun _ => none) siteEntry) ∧
    filledSite.disk.occupied siteEntry.artifact = true := by
  have hanswer : (siteChange.run sampleShelf).run emptySite = (.ok siteEntry, filledSite) := siteInstall_ok
  have htends : sampleShelf.Tends siteHome (.ofString "/site") [Glyph.ofString "site"] emptySite filledSite
      (Book.put (fun _ => none) siteEntry) := by
    have hstart : sampleShelf.Tends siteHome (.ofString "/site") [Glyph.ofString "site"] emptySite emptySite
        fun _ => none := .start
    have hdone := hstart.done siteChange rfl (congrArg Prod.fst hanswer)
    rwa [hanswer] at hdone
  obtain ⟨-, hentry, -⟩ := keeps_order _ _ _ _ _ _ _ emptySite_begins htends
  exact ⟨emptySite_begins, htends, (hentry "m" siteEntry (Function.update_self ..)).2.1⟩

/-- A package directory with an absolute path, and a registry outside of it that is missing. -/
structure Starts (shelf : Shelf) (home : Home) (target : Path) (loc : Location) (w : World) : Prop where
  absolute : target.isAbsolute = true
  straight : .up ∉ target.components
  enters : w.disk.Enters target loc
  sited : Sited w.disk shelf.registryPath home
  missing : w.disk.look home.file = none
  outside : ∀ l ∈ home.places w.disk, ∀ n, ¬ loc ++ [n] <+: l

/-- A text in the package directory, and a link to it at the name of the draft. -/
def draftedSite : World := .holding [(Glyph.ofString "m.py", .file .empty false),
  (Glyph.ofString "site", .dir [(Glyph.ofString "keep.txt", .file "k".toUTF8 false)]),
  (Glyph.ofString "home", .dir [(Glyph.ofString "registry.txt.tmp", .link (.ofString "../site/keep.txt"))])]

theorem sited_siteHome {w : World} (henters : w.disk.Enters siteHome.base siteHome.loc)
    (hhome : w.disk.look [Glyph.ofString "home"] = none ∨ w.disk.look [Glyph.ofString "home"] = some .dir) :
    Sited w.disk sampleShelf.registryPath siteHome where
  admits := by cbv
  last := by cbv
  slash := by cbv
  route := ⟨by cbv, by cbv⟩
  short := by decide
  enters := henters
  plain := by
    intro front hfront
    rcases List.prefix_cons_iff.1 hfront with rfl | ⟨rest, rfl, hrest⟩
    · exact .inr henters.dir
    · obtain rfl := List.prefix_nil.1 hrest
      exact hhome

/-- Where the package directory is reached over the place where a module is built in it, an install takes
what was in it away; and where a link stands at the name of the draft, the registry is written through it
into a text of the package directory. -/
theorem not_keeps_order :
    (sampleShelf.Starts siteHome (.ofString "/site/.nopkg_m.partial") [Glyph.ofString "site"] detourWorld ∧
      ∃ w, (sampleShelf.install (.ofString "/site/.nopkg_m.partial") (.ofString "/src/m") .copy none).run
          detourWorld = (.ok { packageEntry with artifact := .ofString "/site/.nopkg_m.partial/m" }, w) ∧
        detourWorld.disk.occupied (.ofString "/site/.nopkg_m.partial/keep.txt") = true ∧
        w.disk.occupied (.ofString "/site/.nopkg_m.partial/keep.txt") = false) ∧
    sampleShelf.Starts siteHome (.ofString "/site") [Glyph.ofString "site"] draftedSite ∧
      ∃ w, siteInstall.run draftedSite = (.ok siteEntry, w) ∧
        draftedSite.disk.look [Glyph.ofString "site", Glyph.ofString "keep.txt"] = some (.file "k".toUTF8 false) ∧
        w.disk.look [Glyph.ofString "site", Glyph.ofString "keep.txt"] ≠ some (.file "k".toUTF8 false) := by
  have hdetour : (Path.ofString "/site/.nopkg_m.partial").components =
      [.root, .name (Glyph.ofString "site"), .name (Glyph.ofString ".nopkg_m.partial")] := by cbv
  have hsite : (Path.ofString "/site").components = [.root, .name (Glyph.ofString "site")] := by cbv
  refine ⟨⟨⟨by cbv, ?_, ⟨by cbv, by cbv⟩, sited_siteHome ⟨by cbv, by cbv⟩ (.inl (by cbv)), by cbv,
      outside_siteHome (by cbv)⟩, _, Prod.ext ?_ rfl, by cbv, by cbv⟩,
    ⟨by cbv, ?_, ⟨by cbv, by cbv⟩, sited_siteHome ⟨by cbv, by cbv⟩ (.inr (by cbv)), by cbv,
      outside_siteHome (by cbv)⟩, _, Prod.ext ?_ rfl, rfl, ?_⟩
  · rw [hdetour]
    decide
  · cbv
  · rw [hsite]
    decide
  · cbv
  · cbv
    simp

end Shelf

end Sideload
