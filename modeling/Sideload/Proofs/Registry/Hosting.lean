import Sideload.Proofs.Disk.Copied
import Sideload.Proofs.Disk.Making
import Sideload.Proofs.Registry.Atomic
import Sideload.Proofs.Registry.Home

/-!
The directory of a registry can always be made where the way down to it is not taken by anything else.
-/

namespace Sideload

open Disk

/-- The path above another one is a beginning of it. -/
theorem Path.glyphs_parent {p q : Path} (h : p.parent? = some q) (hne : q.isEmpty = false) : q.glyphs <+: p.glyphs := by
  have hjoin := joinSlash_splitSlash p.glyphs
  rw [splitSlash_glyphs] at hjoin
  have hbody : ∀ {a : Anchor} {body : List Name}, p.anchored.1 = a → body <+: p.anchored.2 →
      p.anchored.2 ≠ [] → (ofSegments a body).isEmpty = false → (ofSegments a body).glyphs <+: p.glyphs := by
    intro a body ha hpre hrest hne
    rw [← hjoin, ha]
    have hplain : a.segments ++ body ≠ [] → joinSlash (a.segments ++ body) <+: joinSlash (a.segments ++ p.anchored.2) :=
      fun hnil => joinSlash_prefix hnil ((List.prefix_append_right_inj _).2 hpre)
    cases a with
    | root =>
        cases body with
        | nil =>
            obtain ⟨m, rest, hcons⟩ := List.exists_cons_of_ne_nil hrest
            rw [hcons]
            exact ⟨joinSlash (m :: rest), rfl⟩
        | cons n body => exact hplain (by simp)
    | here => exact hplain (by simp [Anchor.segments])
    | free =>
        cases body with
        | nil => cases hne
        | cons n body => exact hplain (by simp)
  unfold parent? at h
  split at h
  · cases h
    cases hne
  · cases h
  · next a body _ _ heq =>
      cases h
      have htrimmed : p.anchored.2.rdropWhile isBlank = body := congrArg Prod.snd heq
      have hpre := htrimmed ▸ List.rdropWhile_prefix (l := p.anchored.2) isBlank
      refine hbody (congrArg Prod.fst heq)
        ((List.rdropWhile_prefix _ _).trans ((List.dropLast_prefix body).trans hpre)) ?_ hne
      rintro hnil
      rw [hnil] at hpre
      exact absurd (List.prefix_nil.1 hpre) ‹_›

theorem Disk.admit?_parent {p q : Path} (h : admit? p = .ok ()) (hq : p.parent? = some q) (hne : q.isEmpty = false) :
    admit? q = .ok () :=
  admit?_of_prefix hne (Path.glyphs_parent hq hne) h

/-- A path that goes one name further than another one adds that name to the directory of it. -/
theorem Path.adds_hub_of_concat {p q : Path} {n : Name} (h : q.components = p.components ++ [.name n])
    (hlast : q.segments.getLast? = some (.name n)) (hslash : q.endsInSlash = false) : q.Adds p.hub n := by
  have hupper : ∀ r : Path, r.isEmpty = false → r.components <+: q.components →
      r.Extends p [n] ∨ r.isAbsolute = p.isAbsolute ∧ r.course <+: p.course := by
    intro r hne hr
    rw [h, List.prefix_concat_iff] at hr
    rcases hr with hall | hr
    · exact .inl (.of_concat hall)
    · exact .inr ⟨isAbsolute_of_initial hne hr, course_initial hr⟩
  have hroute : q.Extends p [n] := .of_concat h
  cases hempty : p.isEmpty with
  | false =>
      rw [hub_of_ne hempty]
      exact ⟨hroute, hlast, hslash, hupper⟩
  | true =>
      -- an empty path and a lone dot start from the same place and take no step
      obtain rfl : p = empty := congrArg mk (List.isEmpty_iff.1 hempty)
      exact ⟨⟨hroute.absolute, hroute.course⟩, hlast, hslash, fun r hne hr =>
        (hupper r hne hr).imp_left fun hroute => ⟨hroute.absolute, hroute.course⟩⟩

namespace Disk

variable {d : Disk} {base p q : Path} {loc up : Location} {names : List Name} {n : Name}

/-- A path leads to a directory, or there is a place where it can be made. -/
def Makeable (d : Disk) (p : Path) (loc : Location) : Prop :=
  d.Enters p loc ∨ ∃ anc above rest, d.Vacant p anc above rest ∧ above ++ rest = loc

/-- A name in a directory that is free or a directory. -/
theorem Enters.makeable (h : d.Enters q up) (hext : p.Extends q [n]) (hlast : p.segments.getLast? = some (.name n))
    (hadmits : admit? p = .ok ()) (hshort : ¬ n.byteSize > maxName)
    (hplain : d.look (up ++ [n]) = none ∨ d.look (up ++ [n]) = some .dir) : d.Makeable p (up ++ [n]) := by
  rcases hplain with hnone | hdir
  · exact .inr ⟨q, up, [n], ⟨h, hext, ⟨n, hlast⟩, ⟨n, [], rfl, hnone⟩, hadmits, by simpa using hshort⟩, rfl⟩
  · exact .inl ((h.slot hext hadmits hlast hshort).1.enters_entry hdir)

/-- Names down from a directory that are free or directories. -/
theorem Enters.makeable_below (h : d.Enters base loc) (hplain : d.look.Plain loc (names ++ [n]))
    (hshort : ∀ m ∈ names ++ [n], ¬ m.byteSize > maxName) (hext : p.Extends base (names ++ [n]))
    (hlast : p.segments.getLast? = some (.name n)) (hadmits : admit? p = .ok ()) :
    d.Makeable p (loc ++ (names ++ [n])) := by
  induction names using List.reverseRecOn generalizing p n with
  | nil => exact h.makeable hext hlast hadmits (hshort n (by simp)) (hplain _ (List.prefix_refl _))
  | append_singleton names m ih =>
      have hcourse : p.course = base.course ++ names.map .name ++ [.name m] ++ [.name n] := by
        rw [hext.course]
        simp
      obtain ⟨q, -, hq, habsolute, hqlast, -, hqne, hglyphs⟩ := Path.parent_of_course hcourse
      have hqext : q.Extends base (names ++ [m]) := ⟨habsolute.trans hext.absolute, by rw [hq]; simp⟩
      have hpext : p.Extends q [n] := ⟨habsolute.symm, by rw [hcourse, hq]; rfl⟩
      have hlastShort := hshort n (by simp)
      rcases ih (fun front hfront => hplain front (hfront.trans (List.prefix_append _ _)))
        (fun k hk => hshort k (List.mem_append_left _ hk)) hqext hqlast ( admit?_of_prefix hqne hglyphs hadmits) with
        hin | ⟨anc, above, rest, hvacant, hrest⟩
      · have := hin.makeable hpext hlast hadmits hlastShort
          (by simpa using hplain _ (List.prefix_refl _))
        rwa [List.append_assoc] at this
      · -- the path above is missing, and so this one is
        refine .inr ⟨anc, above, rest ++ [n], ?_, by rw [← List.append_assoc, hrest]; simp⟩
        obtain ⟨first, rest', rfl, hfree⟩ := hvacant.free
        refine ⟨hvacant.enters, ⟨habsolute.symm.trans hvacant.route.absolute, ?_⟩, ⟨n, hlast⟩,
          ⟨first, rest' ++ [n], rfl, hfree⟩, hadmits, fun k hk => ?_⟩
        · rw [hcourse, ← hq, hvacant.route.course]
          simp
        · rcases List.mem_append.1 hk with hk | hk
          · exact hvacant.short k hk
          · exact List.mem_singleton.1 hk ▸ hlastShort

/-- Making all directories of a path that can be made. -/
theorem Makeable.made (h : d.Makeable p loc) (hne : p.isEmpty = false) :
    ((DiskM.createDirAll p).run d).1 = .ok () ∧ (d.opened p).Enters p loc := by
  rcases h with hin | ⟨anc, above, rest, hvacant, rfl⟩
  · rw [opened, hin.run_createDirAll hne]
    exact ⟨rfl, hin⟩
  · obtain ⟨hok, -, hin⟩ := hvacant.made
    exact ⟨hok, hin⟩

end Disk

namespace Sited

variable {d d' : Disk} {path : Path} {home : Home} {w : World}

/-- The directory of a registry is above its path, and it can be made. -/
theorem hosts (h : Sited d path home) : ∃ q, path.parent? = some q ∧
    path.components = q.components ++ [.name home.name] ∧ ((DiskM.createDirAll q).run d).1 = .ok () ∧
      (Registry.hosted d path).Enters q.hub home.dir := by
  have hcourse : path.course = home.base.course ++ home.names.map .name ++ [.name home.name] := by
    rw [h.route.course]
    simp
  obtain ⟨body, hbody, -, hup⟩ := Path.trimmed_of_course hcourse
  have hname : path.fileName? = some home.name := by
    rw [Path.fileName?, hbody, List.getLast?_concat]
    exact if_neg hup
  obtain ⟨q, hparent⟩ := Option.ne_none_iff_exists'.1 (Path.parent?_of_fileName? hname)
  obtain ⟨front, hpath, -⟩ := h.route_draft
  have hcomponents : path.components = q.components ++ [.name home.name] := by
    rw [Path.components_parent hparent, hpath, List.dropLast_concat]
  refine ⟨q, hparent, hcomponents, ?_⟩
  rw [Registry.hosted_of_parent hparent]
  have hadds := Path.adds_hub_of_concat hcomponents h.last h.slash
  cases hempty : q.isEmpty with
  | true =>
      have hhub : q.hub = .ofName Name.dot := if_pos hempty
      -- the path is a single name, so the directory is that from which the home is reached
      have hlength := congrArg List.length (hadds.route.course.symm.trans hcourse)
      have hnames : home.names = [] := by
        have hdot : (q.hub).course = [] := by
          rw [hhub]
          decide
        rw [hdot] at hlength
        simp only [List.map_cons, List.map_nil, List.nil_append, List.length_append, List.length_map,
          List.length_singleton] at hlength
        exact List.length_eq_zero_iff.1 (by omega)
      have hroute := h.route
      rw [hnames] at hroute
      obtain ⟨hslot, -⟩ := h.enters.slot hroute h.admits h.last (h.short _ (by simp))
      rw [opened_of_isEmpty hempty, Home.dir, hnames, List.append_nil]
      refine ⟨?_, hslot.enters_upper hadds.route (by rw [hhub]; decide)⟩
      unfold DiskM.createDirAll
      rw [hempty]
      rfl
  | false =>
      rw [Path.hub_of_ne hempty] at hadds ⊢
      have hadmits := admit?_parent h.admits hparent hempty
      refine Makeable.made ?_ hempty
      rcases List.eq_nil_or_concat' home.names with hnil | ⟨names, n, hnames⟩
      · have hroute := h.route
        rw [hnil] at hroute
        obtain ⟨hslot, -⟩ := h.enters.slot hroute h.admits h.last (h.short _ (by simp))
        rw [Home.dir, hnil, List.append_nil]
        exact .inl (hslot.enters_upper hadds.route hadmits)
      · have hcourse' : path.course = home.base.course ++ names.map .name ++ [.name n] ++ [.name home.name] := by
          rw [h.route.course, hnames]
          simp
        obtain ⟨q', hq', -, -, hlast, -⟩ := Path.parent_of_course hcourse'
        cases hparent.symm.trans hq'
        have hext := h.route.upper hcomponents
        have hplain := h.plain
        rw [hnames] at hext hplain
        rw [Home.dir, hnames]
        refine h.enters.makeable_below hplain (fun m hm => h.short m ?_) hext hlast hadmits
        rw [hnames]
        exact List.mem_append_left _ hm

/-- Making the directory of a registry succeeds. -/
theorem run_makeHost (h : Sited w.disk path home) :
    (Registry.makeHost path).run w = (.ok (), { w with disk := Registry.hosted w.disk path }) := by
  refine Prod.ext ?_ (Registry.run_makeHost path w)
  obtain ⟨q, hparent, -, hmade, -⟩ := h.hosts
  unfold Registry.makeHost
  rw [hparent]
  dsimp only
  rw [Work.run_orFail, Work.run_onDisk, mapError_eq_ok_iff]
  exact hmade

end Sited

end Sideload
