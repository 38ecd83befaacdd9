import Sideload.Proofs.Disk.Making
import Sideload.Proofs.Installer.Kept
import Sideload.Proofs.Installer.Result
import Sideload.Proofs.Shelf.Book

/-!
A package directory in order. Every entry of a book has its artifact in the directory, at a place of its own
where nothing was at first, and everything else in the directory is as it was at first. What is built, placed
or taken away for one module at a time keeps that order.
-/

namespace Sideload

open Disk

variable {start base d d' d₁ : Disk} {target dir p source : Path} {loc l : Location} {book : Book}
  {e f : Entry} {m n : Name} {name : String} {w w₁ : World} {plan : Plan} {mode : Mode} {name? : Option String}
  {prior : Option Entry}

/-- A name in a directory is told from what lies at or below it. -/
theorem Location.entry_unique (hm : loc ++ [m] <+: l) (hn : loc ++ [n] <+: l) : m = n := by
  obtain ⟨rest, rfl⟩ := hm
  rw [List.append_assoc, List.prefix_append_right_inj] at hn
  exact (List.cons_prefix_cons.1 hn).1.symm

/-- The path of an artifact goes to the destination of its entry, a name in the package directory. -/
structure Entry.Destined (e : Entry) (target : Path) (n : Name) : Prop where
  valid : IsIdentifier e.name
  name : ∃ isDir, n = e.artifactEntry isDir
  components : e.artifact.components = target.components ++ [.name n]
  last : e.artifact.segments.getLast? = some (.name n)
  slash : e.artifact.endsInSlash = false
  admits : admit? e.artifact = .ok ()
  short : ¬ n.byteSize > maxName

namespace Entry.Destined

theorem unique (h : e.Destined target m) (h' : e.Destined target n) : m = n := by
  have hlast := h.last.symm.trans h'.last
  simpa using hlast

theorem endsInName (h : e.Destined target n) : e.artifact.EndsInName := ⟨h.slash, n, h.last⟩

theorem ne_staging (h : e.Destined target n) (name : String) : n ≠ Glyph.ofString (stagingName name) := by
  obtain ⟨isDir, rfl⟩ := h.name
  exact fun heq => artifactName_ne_stagingName h.valid _ _ _ _ (Glyph.ofString_inj.1 heq)

theorem slot (h : e.Destined target n) (he : d.Enters target loc) :
    d.Slot e.artifact loc n ∧ d.approach e.artifact = d.way target true :=
  he.slot (.of_concat h.components) h.admits h.last h.short

theorem goal (h : e.Destined target n) (he : d.Enters target loc) (hthere : d.look (loc ++ [n]) ≠ none) :
    d.goal e.artifact false = .ok (.present (loc ++ [n])) := by
  rw [(h.slot he).1.goal h.slash (.inl rfl), if_neg hthere]

/-- The artifact is where an install of the entry would put it. -/
theorem sameAs_destination (h : e.Destined target n) :
    ∃ isDir, e.artifact.sameAs (destination target e.source e.name e.mode isDir) = true := by
  obtain ⟨isDir, rfl⟩ := h.name
  refine ⟨isDir, Path.sameAs_iff.2 ?_⟩
  rw [destination_eq, Path.child_eq, target.components_join (artifactName_proper h.valid _ _ _)]
  exact h.components

end Entry.Destined

/-- A package directory in order: what it has is the artifacts of a book and what the disk `start` had in
it. Only names under which modules are built may have lost what was there. -/
structure Tidy (start : Disk) (target : Path) (loc : Location) (book : Book) (d : Disk) : Prop where
  enters : d.Enters target loc
  clear : ∀ name, IsIdentifier name → loc ++ [Glyph.ofString (stagingName name)] ∉ d.way target true
  named : ∀ name e, book name = some e → e.name = name
  /-- Every artifact is there, and the directory is not reached over it. -/
  placed : ∀ name e, book name = some e → ∃ n, e.Destined target n ∧ d.look (loc ++ [n]) ≠ none ∧
    loc ++ [n] ∉ d.way target true ∧ start.look (loc ++ [n]) = none
  apart : ∀ name e name' e' n, book name = some e → book name' = some e' → e.Destined target n →
    e'.Destined target n → name = name'
  rest : ∀ n, (∀ l, loc ++ [n] <+: l → d.look l = start.look l) ∨
    (∃ name e, book name = some e ∧ e.Destined target n) ∨
    ∃ name, IsIdentifier name ∧ n = Glyph.ofString (stagingName name) ∧ Gone (loc ++ [n]) d

namespace Tidy

/-- A directory with what was there at first, for a book without entries. -/
theorem unused (henters : d.Enters target loc)
    (hclear : ∀ name, IsIdentifier name → loc ++ [Glyph.ofString (stagingName name)] ∉ d.way target true)
    (hsame : ∀ n l, loc ++ [n] <+: l → d.look l = start.look l) : Tidy start target loc (fun _ => none) d where
  enters := henters
  clear := hclear
  named _ _ hget := nomatch hget
  placed _ _ hget := nomatch hget
  apart _ _ _ _ _ hget := nomatch hget
  rest n := .inl (hsame n)

/-- What is known of the artifact of an entry. -/
theorem entry (h : Tidy start target loc book d) (hget : book name = some e) (he : e.Destined target n) :
    d.look (loc ++ [n]) ≠ none ∧ loc ++ [n] ∉ d.way target true ∧ start.look (loc ++ [n]) = none := by
  obtain ⟨m, hm, hrest⟩ := h.placed name e hget
  obtain rfl := hm.unique he
  exact hrest

/-- The same disk with other things elsewhere. -/
theorem congr (h : Tidy start target loc book d) (hcwd : d'.cwd = d.cwd)
    (hway : ∀ l ∈ d.way target true, d'.look l = d.look l)
    (hbelow : ∀ n l, loc ++ [n] <+: l → d'.look l = d.look l) : Tidy start target loc book d' := by
  obtain ⟨henters, hsame⟩ := h.enters.congr hcwd hway
  refine ⟨henters, fun name hname => hsame ▸ h.clear name hname, h.named, fun name e hget => ?_, h.apart,
    fun n => ?_⟩
  · obtain ⟨n, hn, hthere, haside, hfree⟩ := h.placed name e hget
    exact ⟨n, hn, by rwa [hbelow n _ (List.prefix_refl _)], hsame ▸ haside, hfree⟩
  · refine (h.rest n).imp (fun hkept l hl => (hbelow n l hl).trans (hkept l hl)) (.imp_right ?_)
    rintro ⟨name, hname, heq, hgone⟩
    exact ⟨name, hname, heq, fun l hl => (hbelow n l hl).trans (hgone l hl)⟩

/-- Another spelling of the path of the directory leads to it. -/
theorem enters_of_same (h : Tidy start target loc book d) (hp : p.components = target.components)
    {loc' : Location} (he : d.Enters p loc') : loc' = loc ∧ ∀ l ∈ d.way p true, l ∈ d.way target true := by
  have hext : p.Extends target [] := ⟨Path.isAbsolute_congr hp, by simp [Path.course_congr hp]⟩
  refine ⟨?_, h.enters.way_subset he hext.absolute (Path.course_congr hp ▸ List.prefix_refl _)⟩
  have hloc := h.enters.below he hext fun front hfront => by
    rw [List.prefix_nil.1 hfront, List.append_nil]
    exact .inr h.enters.dir
  rwa [List.append_nil] at hloc

/-- Nothing is left at a place where something was built. -/
theorem swept (h : Tidy start target loc book d) (hname : IsIdentifier name)
    (hoff : SameOff (loc ++ [Glyph.ofString (stagingName name)]) d d') (hgone : Gone (loc ++ [Glyph.ofString (stagingName name)]) d') :
    Tidy start target loc book d' := by
  obtain ⟨henters, hsame⟩ := h.enters.sameOff hoff fun l hl hpre => h.clear name hname (prefix_of_way hl hpre)
  have hother : ∀ {m l}, m ≠ Glyph.ofString (stagingName name) → loc ++ [m] <+: l → d'.look l = d.look l :=
    fun hne hl => hoff.look _ fun hpre => hne (Location.entry_unique hl hpre)
  refine ⟨henters, fun name hname => hsame ▸ h.clear name hname, h.named, fun name e hget => ?_, h.apart,
    fun n => ?_⟩
  · obtain ⟨n, hn, hthere, haside, hfree⟩ := h.placed name e hget
    exact ⟨n, hn, by rwa [hother (hn.ne_staging _) (List.prefix_refl _)], hsame ▸ haside, hfree⟩
  · by_cases hn : n = Glyph.ofString (stagingName name)
    · exact .inr (.inr ⟨name, hname, hn, hn ▸ hgone⟩)
    · refine (h.rest n).imp (fun hkept l hl => (hother hn hl).trans (hkept l hl)) (.imp_right ?_)
      rintro ⟨name', hname', heq, hgone'⟩
      exact ⟨name', hname', heq, fun l hl => (hother hn hl).trans (hgone' l hl)⟩

/-- An entry is struck out when its artifact is taken away. -/
theorem strike (h : Tidy start target loc book d) (hget : book name = some e) (he : e.Destined target n)
    (hoff : SameOff (loc ++ [n]) d d') (hgone : Gone (loc ++ [n]) d') :
    Tidy start target loc (book.strike name) d' := by
  obtain ⟨-, haside, hfree⟩ := h.entry hget he
  obtain ⟨henters, hsame⟩ := h.enters.sameOff hoff fun l hl hpre => haside (prefix_of_way hl hpre)
  have hother : ∀ {m l}, m ≠ n → loc ++ [m] <+: l → d'.look l = d.look l :=
    fun hne hl => hoff.look _ fun hpre => hne (Location.entry_unique hl hpre)
  have hstrike : ∀ {other f}, book.strike name other = some f → other ≠ name ∧ book other = some f := by
    intro other f hf
    rw [Book.strike, Function.update_apply] at hf
    split at hf
    · cases hf
    · next hne => exact ⟨hne, hf⟩
  refine ⟨henters, fun name hname => hsame ▸ h.clear name hname, fun other f hf => h.named other f (hstrike hf).2,
    fun other f hf => ?_, fun other f other' f' m hf hf' =>
      h.apart other f other' f' m (hstrike hf).2 (hstrike hf').2, fun m => ?_⟩
  · obtain ⟨hne, hf⟩ := hstrike hf
    obtain ⟨m, hm, hthere, haside', hfree'⟩ := h.placed other f hf
    have hmn : m ≠ n := fun heq => hne (h.apart other f name e n hf hget (heq ▸ hm) he)
    exact ⟨m, hm, by rwa [hother hmn (List.prefix_refl _)], hsame ▸ haside', hfree'⟩
  · by_cases hmn : m = n
    · subst hmn
      exact .inl fun l hl => (hgone l hl).trans (look_none_below hfree hl).symm
    · rcases h.rest m with hkept | ⟨other, f, hf, hm⟩ | ⟨name', hname', heq, hgone'⟩
      · exact .inl fun l hl => (hother hmn hl).trans (hkept l hl)
      · refine .inr (.inl ⟨other, f, ?_, hm⟩)
        rw [Book.strike, Function.update_of_ne, hf]
        rintro rfl
        cases hf.symm.trans hget
        exact hmn (hm.unique he)
      · exact .inr (.inr ⟨name', hname', heq, fun l hl => (hother hmn hl).trans (hgone' l hl)⟩)

end Tidy

/-- A module was placed in a directory at the name `n`. What was at the name where it was built is gone, and
so is the artifact that it replaces, which was at a name for which `old` holds. -/
structure Supplanted (loc : Location) (staging n : Name) (old : Name → Prop) (d d' : Disk) : Prop where
  cwd : d'.cwd = d.cwd
  look : ∀ l, ¬ loc ++ [staging] <+: l → ¬ loc ++ [n] <+: l → (∀ m, old m → ¬ loc ++ [m] <+: l) →
    d'.look l = d.look l
  there : d'.look (loc ++ [n]) ≠ none
  gone : Gone (loc ++ [staging]) d'
  free : ¬ old n → d.look (loc ++ [n]) = none
  cleared : ∀ m, old m → m ≠ n → Gone (loc ++ [m]) d'

/-- The names of the artifact that an entry of a name has. -/
def Book.Fills (book : Book) (target : Path) (name : String) (m : Name) : Prop :=
  ∃ f, book name = some f ∧ f.Destined target m

/-- At a name that has nothing to do with the module, everything is as it was. -/
theorem Supplanted.look_other {staging : Name} {old : Name → Prop} (hr : Supplanted loc staging n old d d')
    (hstaging : m ≠ staging) (hn : m ≠ n) (hold : ¬ old m) (hl : loc ++ [m] <+: l) : d'.look l = d.look l :=
  hr.look l (fun hpre => hstaging (Location.entry_unique hl hpre)) (fun hpre => hn (Location.entry_unique hl hpre))
    fun _ hk hpre => hold (Location.entry_unique hl hpre ▸ hk)

theorem Book.put_cases {other : String} (hf : book.put e other = some f) :
    other = e.name ∧ f = e ∨ other ≠ e.name ∧ book other = some f := by
  rw [Book.put, Function.update_apply] at hf
  split at hf
  · next heq => exact .inl ⟨heq, (Option.some.inj hf).symm⟩
  · next hne => exact .inr ⟨hne, hf⟩

section Renew

variable (h : Tidy start target loc book d) (hfree : ¬ book.Fills target name n → d.look (loc ++ [n]) = none)
include h hfree

/-- The artifact of another entry is at none of the names that change. -/
theorem Tidy.alone {other : String} (hne : other ≠ name) (hf : book other = some f) (hm : f.Destined target m) :
    ¬ book.Fills target name m ∧ m ≠ n := by
  have hnot : ¬ book.Fills target name m := by
    rintro ⟨f', hf', hm'⟩
    exact hne (h.apart other f name f' m hf hf' hm hm')
  refine ⟨hnot, ?_⟩
  rintro rfl
  exact (h.entry hf hm).1 (hfree hnot)

/-- The directory is not reached over the name that an artifact is placed at, and at first nothing was there. -/
theorem Tidy.start_free (he : e.Destined target n) :
    loc ++ [n] ∉ d.way target true ∧ start.look (loc ++ [n]) = none := by
  by_cases hn : book.Fills target name n
  · obtain ⟨f, hf, hm⟩ := hn
    exact (h.entry hf hm).2
  refine ⟨fun hl => h.enters.look_ne_none hl (hfree hn), ?_⟩
  rcases h.rest n with hkept | ⟨other, f, hf, hm⟩ | ⟨staged, -, heq, -⟩
  · rw [← hkept _ (List.prefix_refl _), hfree hn]
  · exact absurd (hfree hn) (h.entry hf hm).1
  · exact absurd heq (he.ne_staging staged)

end Renew

/-- An entry is put down when its artifact is placed. -/
theorem Tidy.renew (h : Tidy start target loc book d) (he : e.Destined target n)
    (hr : Supplanted loc (Glyph.ofString (stagingName e.name)) n (book.Fills target e.name) d d') :
    Tidy start target loc (book.put e) d' := by
  have hold : ∀ {m}, book.Fills target e.name m →
      loc ++ [m] ∉ d.way target true ∧ start.look (loc ++ [m]) = none := by
    rintro m ⟨f, hf, hm⟩
    exact (h.entry hf hm).2
  obtain ⟨haside, hstart⟩ := h.start_free hr.free he
  have hway : ∀ l ∈ d.way target true, d'.look l = d.look l := fun l hl =>
    hr.look l (fun hpre => h.clear _ he.valid (prefix_of_way hl hpre)) (fun hpre => haside (prefix_of_way hl hpre))
      fun m hm hpre => (hold hm).1 (prefix_of_way hl hpre)
  obtain ⟨henters, hsame⟩ := h.enters.congr hr.cwd hway
  refine ⟨henters, fun name hname => hsame ▸ h.clear name hname, fun other f hf => ?_, fun other f hf => ?_,
    fun other f other' f' m hf hf' hm hm' => ?_, fun m => ?_⟩
  · rcases Book.put_cases hf with ⟨rfl, rfl⟩ | ⟨-, hf⟩
    · rfl
    · exact h.named other f hf
  · rcases Book.put_cases hf with ⟨-, rfl⟩ | ⟨hne, hf⟩
    · exact ⟨n, he, hr.there, hsame ▸ haside, hstart⟩
    · obtain ⟨m, hm, hthere, haside', hfree'⟩ := h.placed other f hf
      obtain ⟨hnot, hmn⟩ := h.alone hr.free hne hf hm
      exact ⟨m, hm, by rwa [hr.look_other (hm.ne_staging _) hmn hnot (List.prefix_refl _)], hsame ▸ haside', hfree'⟩
  · rcases Book.put_cases hf with ⟨rfl, rfl⟩ | ⟨hne, hbook⟩ <;> rcases Book.put_cases hf' with ⟨rfl, rfl⟩ | ⟨hne', hbook'⟩
    · rfl
    · exact absurd (hm.unique he) (h.alone hr.free hne' hbook' hm').2
    · exact absurd (hm'.unique he) (h.alone hr.free hne hbook hm).2
    · exact h.apart other f other' f' m hbook hbook' hm hm'
  · by_cases hn : m = n
    · exact .inr (.inl ⟨e.name, e, Function.update_self .., hn ▸ he⟩)
    by_cases hm : book.Fills target e.name m
    · exact .inl fun l hl => (hr.cleared m hm hn l hl).trans (look_none_below (hold hm).2 hl).symm
    by_cases hstaging : m = Glyph.ofString (stagingName e.name)
    · exact .inr (.inr ⟨e.name, he.valid, hstaging, hstaging ▸ hr.gone⟩)
    rcases h.rest m with hkept | ⟨other, f, hf, hdest⟩ | ⟨name, hname, heq, hgone⟩
    · exact .inl fun l hl => (hr.look_other hstaging hn hm hl).trans (hkept l hl)
    · refine .inr (.inl ⟨other, f, ?_, hdest⟩)
      rw [Book.put, Function.update_of_ne, hf]
      rintro rfl
      exact hm ⟨f, hf, hdest⟩
    · exact .inr (.inr ⟨name, hname, heq, fun l hl => (hr.look_other hstaging hn hm hl).trans (hgone l hl)⟩)

/-! ### What plans do to a directory -/

/-- Nothing differs but what is in the directory at a location. -/
structure Disk.SameOutside (loc : Location) (d d' : Disk) : Prop where
  cwd : d'.cwd = d.cwd
  look : ∀ l, (∀ n, ¬ loc ++ [n] <+: l) → d'.look l = d.look l

theorem Disk.SameOff.outside (h : SameOff (loc ++ [n]) d d') : SameOutside loc d d' :=
  ⟨h.cwd, fun l hl => h.look l (hl n)⟩

theorem Supplanted.outside {staging : Name} {old : Name → Prop} (h : Supplanted loc staging n old d d') :
    SameOutside loc d d' :=
  ⟨h.cwd, fun l hl => h.look l (hl _) (hl _) fun m _ => hl m⟩

section Plans

variable (h : Tidy start target loc book (w.disk.opened dir)) (habsolute : target.isAbsolute = true)
  (hdir : dir.components = target.components) (hplan : Planned w.disk dir source mode name? prior plan)
include hplan

section Build

include h habsolute hdir

/-- The package directory of the plan is the directory, and it is not reached over what is built in it. -/
theorem Tidy.target_of_plan {loc' : Location} (he : (w.disk.opened plan.target).Enters plan.target.hub loc') :
    loc' = loc ∧ ∀ l ∈ (w.disk.opened plan.target).way plan.target.hub true, ¬ loc ++ [plan.stagingEntry] <+: l := by
  have hne : dir.isEmpty = false :=
    Path.isEmpty_of_isAbsolute ((Path.isAbsolute_congr hdir).trans habsolute)
  rw [hplan.target_eq, dir.hub_of_ne hne] at he ⊢
  obtain ⟨hloc, hway⟩ := h.enters_of_same hdir he
  exact ⟨hloc, fun l hl hpre => h.clear _ hplan.valid (prefix_of_way (hway l hl) hpre)⟩

/-- A build that fails leaves the directory in order. -/
theorem Tidy.build (hproper : w.disk.Proper) :
    (∃ f, ((build plan).run w).1 = .error f ∧ Tidy start target loc book ((build plan).run w).2.disk ∧
      SameOutside loc (w.disk.opened dir) ((build plan).run w).2.disk) ∨
    ((build plan).run w).1 = .ok () ∧ Built plan loc (w.disk.opened dir) ((build plan).run w).2.disk := by
  have hempty : plan.target.isEmpty = false := by
    rw [hplan.target_eq]
    exact Path.isEmpty_of_isAbsolute ((Path.isAbsolute_congr hdir).trans habsolute)
  have hinto : ∀ {loc'}, (w.disk.opened plan.target).Enters plan.target.hub loc' → _ :=
    h.target_of_plan habsolute hdir hplan
  rcases build_cases hplan.valid (fun h' => nomatch hempty.symm.trans h') hproper
    (fun loc' he hl => (hinto he).2 _ hl ((hinto he).1 ▸ List.prefix_refl _)) with
    ⟨f, hrun⟩ | ⟨loc', he, hleaves⟩
  · rw [hrun, hplan.target_eq]
    exact .inl ⟨f, rfl, h, rfl, fun _ _ => rfl⟩
  · obtain ⟨rfl, hway⟩ := hinto he
    have hoff := hleaves.sameOff
    rcases hanswer : ((Sideload.build plan).run w).1 with f | u
    · rw [hplan.target_eq] at hoff
      exact .inl ⟨f, rfl, h.swept hplan.valid hoff (hleaves.gone f hanswer), hoff.outside⟩
    · refine .inr ⟨rfl, ?_⟩
      rw [← hplan.target_eq]
      exact ⟨he, hway, hoff⟩

end Build

variable (hbuilt : Built plan loc (w.disk.opened dir) d)
  (hr : (plan.clear d).2.rename plan.staging plan.dest = .ok d')
include hbuilt hr

include hdir in
/-- What was placed is at its destination. -/
theorem Built.destined (now : Moment) : (plan.entry now).Destined target plan.artifactEntry := by
  have hmoved := hbuilt.moved hplan hr
  have hname : plan.artifactEntry.Proper := artifactName_proper hplan.valid _ _ _
  have hdest : (plan.entry now).artifact = dir.join (.ofName plan.artifactEntry) := hplan.dest_eq_join
  refine ⟨hplan.valid, ⟨plan.isDir, rfl⟩, ?_, ?_, ?_, hmoved.dest.admits, hmoved.dest.short⟩
  · rw [hdest, dir.components_join hname, hdir]
  · rw [hdest, dir.last_join hname]
  · rw [hdest, dir.endsInSlash_join hname]

include h in
/-- What settling did to the directory. -/
theorem Tidy.renewed (hprior : prior = book plan.name) (hok : (plan.clear d).1 = .ok ())
    (hup : w.disk.isDir dir.hub = false → .up ∉ dir.components) :
    Supplanted loc plan.stagingEntry plan.artifactEntry (book.Fills target plan.name) (w.disk.opened dir) d' := by
  have hmoved := hbuilt.moved hplan hr
  have hne := hplan.artifactEntry_ne
  obtain rfl : plan.prior = prior := hplan.prior_eq
  have hfills : ∀ {m}, book.Fills target plan.name m → ∃ old, plan.prior = some old ∧ old.Destined target m ∧
      (w.disk.opened dir).goal old.artifact false = .ok (.present (loc ++ [m])) := by
    rintro m ⟨old, hold, hm⟩
    exact ⟨old, hprior.trans hold, hm, hm.goal h.enters (h.entry hold hm).1⟩
  have hrecorded : ∀ {old}, plan.prior = some old → ∃ m, book.Fills target plan.name m ∧ old.Destined target m := by
    intro old hold
    obtain ⟨m, hm, -⟩ := h.placed plan.name old (hprior.symm.trans hold)
    exact ⟨m, ⟨old, hprior.symm.trans hold, hm⟩, hm⟩
  -- the replaced artifact is not reached over what was built
  have haway : ∀ old, plan.prior = some old → ∀ l ∈ (w.disk.opened dir).way old.artifact false,
      ¬ loc ++ [plan.stagingEntry] <+: l := by
    intro old hold l hl hpre
    obtain ⟨m, -, hm⟩ := hrecorded hold
    obtain ⟨hslot, happroach⟩ := hm.slot h.enters
    rcases hslot.way_unfollowed hm.slash l hl with hl | rfl
    · rw [happroach] at hl
      exact h.clear _ hplan.valid (prefix_of_way hl hpre)
    · exact hm.ne_staging _ (Location.entry_unique (List.prefix_refl _) hpre)
  have hkept : ∀ {l}, ¬ loc ++ [plan.stagingEntry] <+: l →
      (∀ m, book.Fills target plan.name m → ¬ loc ++ [m] <+: l) →
      (plan.clear d).2.look l = (w.disk.opened dir).look l := by
    intro l hstaging hl
    rw [hbuilt.look_clear haway, hbuilt.sameOff.look l hstaging]
    intro old place hold hgoal
    obtain ⟨m, hm, hdest⟩ := hrecorded hold
    obtain ⟨old', hold', -, hgoal'⟩ := hfills hm
    cases hold.symm.trans hold'
    cases hgoal.symm.trans hgoal'
    exact hl m hm
  refine ⟨?_, fun l hstaging hn hl => ?_, ?_, hmoved.gone_staging hne, fun hnot => ?_, fun m hm hmn l hl => ?_⟩
  · rw [hmoved.cwd, plan.cwd_clear, hbuilt.sameOff.cwd]
  · rw [hmoved.look_elsewhere hstaging hn, hkept hstaging hl]
  · have hsame := hmoved.look_artifact []
    rw [List.append_nil, List.append_nil] at hsame
    rw [hsame]
    exact hmoved.built
  · rw [← hkept (fun hpre => hne (Location.entry_unique (List.prefix_refl _) hpre))
      fun m hm hpre => hnot (Location.entry_unique (List.prefix_refl _) hpre ▸ hm)]
    refine hbuilt.freed hplan hup (fun old hold => ?_) hplan.dest_mem hplan.dest_eq_join
      (artifactName_proper hplan.valid _ _ _) hne hmoved.dest.admits hmoved.dest.short hok
    obtain ⟨m, -, hm⟩ := hrecorded hold
    exact hm.endsInName
  · obtain ⟨old, hold, hdest, hgoal⟩ := hfills hm
    rw [hmoved.look_elsewhere
      (fun hpre => hdest.ne_staging _ (Location.entry_unique hl hpre)) fun hpre => hmn (Location.entry_unique hl hpre)]
    have hbefore : d.goal old.artifact false = .ok (.present (loc ++ [m])) := by
      rw [hbuilt.goal_prior (haway old hold), hgoal]
    rcases plan.clear_cases d with hsame | ⟨old', place, hold', hgoal', -, hgone⟩
    · exact absurd (hsame.symm ▸ hbefore) (plan.absent_of_clear hold hok _)
    · cases hold.symm.trans hold'
      cases hbefore.symm.trans hgoal'
      exact hgone hok l hl

end Plans

/-! ### A directory that may be missing -/

/-- A package directory that is there, or can be made there: its path goes on from a directory down names
the first of which is missing. -/
inductive Disk.Stands (d : Disk) (target : Path) : Location → Prop
  | there {loc : Location} (h : d.Enters target loc) : Stands d target loc
  | missing {anc : Path} {above : Location} {names : List Name} (h : d.Vacant target anc above names) :
      Stands d target (above ++ names)

/-- A package directory in order, or one that is missing still, for a book without entries. -/
inductive Tended (start : Disk) (target : Path) (loc : Location) : Book → Disk → Prop
  | there {book : Book} {d : Disk} (h : Tidy start target loc book d) : Tended start target loc book d
  | missing {d : Disk} {anc : Path} {above : Location} {names : List Name}
      (h : d.Vacant target anc above names) (hloc : loc = above ++ names) (hstart : Gone loc start) :
      Tended start target loc (fun _ => none) d

/-- At first the directory has what it has. -/
theorem Disk.Stands.tended (h : d.Stands target loc)
    (hclear : ∀ name, IsIdentifier name → loc ++ [Glyph.ofString (stagingName name)] ∉ d.way target true) :
    Tended d target loc (fun _ => none) d := by
  cases h with
  | there h => exact .there (.unused h hclear fun _ _ _ => rfl)
  | missing h => exact .missing h rfl h.fresh.1

namespace Tended

/-- The same disk with other things elsewhere. -/
theorem congr (h : Tended start target loc book d) (hcwd : d'.cwd = d.cwd)
    (hway : ∀ l ∈ d.way target true, d'.look l = d.look l)
    (hbelow : ∀ n l, loc ++ [n] <+: l → d'.look l = d.look l) : Tended start target loc book d' := by
  cases h with
  | there h => exact .there (h.congr hcwd hway hbelow)
  | missing h hloc hstart => exact .missing (h.congr hcwd hway) hloc hstart

/-- Once the directory is made it is in order. -/
theorem opened (h : Tended start target loc book d) : Tidy start target loc book (d.opened target) := by
  cases h with
  | there h =>
      have hlook := look_opened h.enters (List.prefix_refl _)
      exact h.congr (opens_opened d target).cwd (fun l _ => by rw [hlook]) fun _ l _ => by rw [hlook]
  | missing h hloc hstart =>
      obtain ⟨-, hfresh⟩ := h.fresh
      rw [← hloc] at hfresh
      have henters : (d.opened target).Enters target loc := hloc ▸ h.made.2.2
      refine .unused henters (fun name _ hl => ?_) fun n l hl => ?_
      · exact henters.look_ne_none hl (hfresh _ _ (List.prefix_refl _))
      · rw [hfresh n l hl, hstart l ((List.prefix_append _ _).trans hl)]

/-- A directory with an entry is there, and making it by another spelling of its path changes nothing. -/
theorem opened_of_entry (h : Tended start target loc book d) (hget : book name = some e)
    (hdir : dir.components = target.components) : Tidy start target loc book (d.opened dir) := by
  cases h with
  | there h =>
      have hlook := look_opened (q := dir) h.enters (by rw [hdir])
      exact h.congr (opens_opened d dir).cwd (fun l _ => by rw [hlook]) fun _ l _ => by rw [hlook]
  | missing => cases hget

end Tended

end Sideload
