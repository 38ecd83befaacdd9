import Sideload.Proofs.Disk.Copied
import Sideload.Proofs.Installer.Build

/-!
What is built. A copied file is the file, a copied directory is its tree with links resolved and a package
marker, and a redirect names the directory of the source. There are no links in what is built.
-/

namespace Sideload

open Disk

/-- The name of the file that makes a directory a package. -/
def markerName : Name := Glyph.ofString packageMarker

/-- What a module consists of that is built from a source. -/
def product (d : Disk) (source : Path) : Mode → View
  | .copy => fun rel =>
      if d.isDir source = true ∧ rel = [markerName] then
        some ((d.tree source rel).getD (.file .empty false))
      else d.tree source rel
  | .editable => fun rel =>
      if rel = [] then
        source.parent?.map fun parent => .file s!"{parent.display}\n".toUTF8 false
      else none

/-- A location holds what a view tells, and no links. -/
structure Holds (top : Location) (v : View) (d : Disk) : Prop where
  noLinks : NoLinks top d
  look : ∀ rel, Location.Proper rel → d.look (top ++ rel) = v rel

variable {base d d' : Disk} {source staging target : Path} {mode : Mode} {isDir : Bool}
  {loc top : Location} {n : Name} {w w' : World}

/-- A source that is far from a location consists of the same whatever happens there. -/
theorem product_sameOff (hfar : mode = .copy → Far top base source) (hoff : SameOff top base d)
    {rel : Location} (hrel : rel.Proper) : product d source mode rel = product base source mode rel := by
  cases mode with
  | editable => rfl
  | copy =>
      have htree : d.tree source rel = base.tree source rel := by
        rw [tree, tree, (hfar rfl).see hoff hrel]
      have hisDir : d.isDir source = true ↔ base.isDir source = true := by
        rw [isDir_see, isDir_see]
        rw [(hfar rfl).see_self hoff]
      simp only [product, htree, hisDir]

/-- A file where nothing was. -/
theorem holds_file {content : ByteArray} {x : Bool} {v : View} (hgone : Gone top d)
    (hlook : d'.look = Function.update d.look top (some (.file content x)))
    (htop : v [] = some (.file content x))
    (hbelow : ∀ rel, rel ≠ [] → Location.Proper rel → v rel = none) : Holds top v d' := by
  have hrest : ∀ rel, rel ≠ [] → d'.look (top ++ rel) = none := by
    intro rel hrel
    rw [hlook, Function.update_of_ne (by simpa using hrel)]
    exact hgone _ (List.prefix_append _ _)
  refine ⟨?_, fun rel hproper => ?_⟩
  · rintro l ⟨rel, rfl⟩ link
    by_cases hrel : rel = []
    · rw [hrel, List.append_nil, hlook, Function.update_self]
      simp
    · rw [hrest rel hrel]
      simp
  · by_cases hrel : rel = []
    · rw [hrel, List.append_nil, hlook, Function.update_self, htop]
    · rw [hrest rel hrel, hbelow rel hrel hproper]

/-- Something is there under a name in a directory just when the entry is there. -/
theorem exists_adds {dir q : Path} (hslot : d.Slot q loc n) (hq : q.Adds dir n)
    (hlink : ∀ target, d.look (loc ++ [n]) ≠ some (.link target)) :
    d.exists_ q = true ↔ d.look (loc ++ [n]) ≠ none := by
  have hsee : d.see q true = answer (d.look (loc ++ [n])) := hslot.see hq.slash (.inr hlink)
  rw [← stat_label] at hsee
  unfold exists_
  cases hstat : d.stat q with
  | error e =>
      rw [hstat] at hsee
      refine ⟨nofun, fun hthere => ?_⟩
      obtain ⟨label, hlabel⟩ := Option.ne_none_iff_exists'.1 hthere
      rw [hlabel] at hsee
      cases hsee
  | ok node =>
      rw [hstat] at hsee
      refine ⟨fun _ hnone => ?_, fun _ => rfl⟩
      rw [hnone] at hsee
      cases hsee

/-- A path that names something has a place for its last name. -/
theorem slot_of_exists {dir q : Path} (h : d.Enters dir loc) (hq : q.Adds dir n)
    (hlink : ∀ target, d.look (loc ++ [n]) ≠ some (.link target)) (hthere : d.exists_ q = true) :
    d.Slot q loc n := by
  unfold exists_ at hthere
  cases hstat : d.stat q with
  | error e =>
      rw [hstat] at hthere
      cases hthere
  | ok node =>
      have hsee : d.see q true = .ok node.label := by
        rw [← stat_label, hstat]
        rfl
      obtain ⟨l, hgoal, -⟩ := see_eq_ok_iff.1 hsee
      exact (h.goal_child hq.route hq.last hq.slash hlink hgoal).2

/-- A tree with an empty marker if it has none. -/
def packaged (v : View) : View := fun rel =>
  if rel = [markerName] then some ((v rel).getD (.file .empty false)) else v rel

/-- A copied directory is packaged. -/
theorem product_copy (hdir : base.isDir source = true) :
    product base source .copy = packaged (base.tree source) := by
  funext rel
  by_cases hrel : rel = [markerName]
  · exact (if_pos ⟨hdir, hrel⟩).trans (if_pos hrel).symm
  · exact (if_neg fun hboth => hrel hboth.2).trans (if_neg hrel).symm

/-- A package directory gets an empty marker if it has none. -/
theorem marked {dir : Path} {v : View} (h : d.Enters dir top) (hlinks : NoLinks top d)
    (hview : ∀ rel, Location.Proper rel → d.look (top ++ rel) = v rel)
    (hmarked : (d.exists_ (dir.child packageMarker) = true ∧ d' = d) ∨
      d.exists_ (dir.child packageMarker) = false ∧ d.write (dir.child packageMarker) .empty = .ok d') :
    Holds top (packaged v) d' := by
  have hq : (dir.child packageMarker).Adds dir markerName := dir.adds_join packageMarker_proper
  have hlink := hlinks (top ++ [markerName]) (List.prefix_append _ _)
  have hmarker : d.look (top ++ [markerName]) = v [markerName] :=
    hview _ fun m hm => List.mem_singleton.1 hm ▸ packageMarker_proper
  have hother : ∀ rel, rel ≠ [markerName] → packaged v rel = v rel := fun rel hrel => if_neg hrel
  have hown : packaged v [markerName] =
      some ((d.look (top ++ [markerName])).getD (.file .empty false)) := by
    rw [hmarker]
    exact if_pos rfl
  rcases hmarked with ⟨hthere, rfl⟩ | ⟨hnot, hwrite⟩
  · refine ⟨hlinks, fun rel hrel => ?_⟩
    by_cases hrel' : rel = [markerName]
    · obtain ⟨label, hlabel⟩ := Option.ne_none_iff_exists'.1
        ((exists_adds (slot_of_exists h hq hlink hthere) hq hlink).1 hthere)
      rw [hrel', hown, hlabel]
      rfl
    · rw [hview rel hrel, hother rel hrel']
  · obtain ⟨old, -, hold, hlook⟩ := look_openFile h hq hlink hwrite
    obtain ⟨g, -, hgoal, -⟩ := openFile_ok hwrite
    have hnone : d.look (top ++ [markerName]) = none := by
      by_contra hthere
      rw [(exists_adds (h.goal_child hq.route hq.last hq.slash hlink hgoal).2 hq hlink).2 hthere] at hnot
      cases hnot
    obtain rfl : old = none := by
      rw [hnone] at hold
      exact Option.map_eq_none_iff.1 hold.symm
    refine ⟨fun l hl link => ?_, fun rel hrel => ?_⟩
    · rw [hlook]
      by_cases hl' : l = top ++ [markerName]
      · rw [hl', Function.update_self]
        simp
      · rw [Function.update_of_ne hl']
        exact hlinks l hl link
    · rw [hlook]
      by_cases hrel' : rel = [markerName]
      · rw [hrel', Function.update_self, hown, hnone]
        rfl
      · rw [Function.update_of_ne (by simpa using hrel'), hview rel hrel, hother rel hrel']

/-- What is built at a free name of a directory is what the module consists of. -/
theorem stage_ok (h : w.disk.Enters target loc) (hq : staging.Adds target n)
    (hgone : Gone (loc ++ [n]) w.disk) (hproper : w.disk.Proper) (hne : source.isEmpty = false)
    (hisDir : mode = .copy → isDir = true → w.disk.isDir source = true)
    (hfar : mode = .copy → Far (loc ++ [n]) w.disk source) (hwhole : mode = .copy → Whole staging source)
    (hrun : (stage source staging mode isDir).run w = (.ok (), w')) :
    Holds (loc ++ [n]) (product w.disk source mode) w'.disk := by
  have hlink : ∀ target, w.disk.look (loc ++ [n]) ≠ some (.link target) := fun target => by
    rw [hgone _ (List.prefix_refl _)]
    simp
  rcases stage_cases hrun with
    ⟨rfl, rfl, count, t, hcopy, hmarked⟩ | ⟨rfl, rfl, hcopied⟩ | ⟨rfl, parent, hparent, hwrite⟩
  · have hdir := hisDir rfl rfl
    have hin := (copyTree_grows source h hq hgone hproper).2 count (by rw [hcopy])
    rw [hcopy] at hin
    obtain ⟨hlinks, htree⟩ := copyTree_ok (isDir_see.1 hdir) hne h hq hgone hproper (hfar rfl)
      (hwhole rfl) hcopy
    rw [product_copy hdir]
    exact marked hin.enters hlinks htree hmarked
  · have hway : ∀ l ∈ w.disk.way source true, l ≠ loc ++ [n] := by
      rintro l hl rfl
      exact hfar rfl [] nofun _ hl (List.prefix_refl _)
    obtain ⟨content, x, hsee, -, hlook⟩ := look_copyFile h hq hlink hway hcopied
    have hplain : product w.disk source .copy = w.disk.tree source := by
      funext rel
      refine if_neg ?_
      rw [isDir_see, hsee]
      simp
    have htop : w.disk.tree source [] = some (.file content x) := tree_eq_some_iff.2 hsee
    rw [hplain]
    refine holds_file hgone hlook htop fun rel hrel hproper => ?_
    exact tree_below hne (show w.disk.tree source [] ≠ _ by rw [htop]; simp) hrel hproper
  · unfold writeText write at hwrite
    obtain ⟨old, -, hold, hlook⟩ := look_openFile h hq hlink hwrite
    obtain rfl : old = none := by
      rw [hgone _ (List.prefix_refl _)] at hold
      exact Option.map_eq_none_iff.1 hold.symm
    refine holds_file hgone hlook ?_ fun rel hrel _ => if_neg hrel
    show source.parent?.map _ = _
    rw [hparent]
    rfl

/-- What is built in a package directory is what the module consists of, if no path of a copied source
leads over the place where it is built. -/
theorem stageOrClean_holds {start : Disk} {name? : Option String} {prior : Option Entry} {source : Path} {plan : Plan}
    (hplan : Planned start plan.target source plan.mode name? prior plan) (hopens : Opens start base)
    (hcleared : Cleared plan.target.hub plan.staging loc plan.stagingEntry base w.disk)
    (hfar : plan.mode = .copy → Far (loc ++ [plan.stagingEntry]) base plan.source)
    (hrun : (stageOrClean plan.source plan.staging plan.mode plan.isDir).run w = (.ok (), w')) :
    Holds (loc ++ [plan.stagingEntry]) (product base plan.source plan.mode) w'.disk := by
  have hfar' : plan.mode = .copy → Far (loc ++ [plan.stagingEntry]) w.disk plan.source := by
    intro hcopy rel hrel l hl
    rw [(hfar hcopy).way hcleared.sameOff hrel] at hl
    exact hfar hcopy rel hrel l hl
  have hne := Path.isEmpty_of_isAbsolute hplan.source_absolute
  have hisDir : plan.mode = .copy → plan.isDir = true → w.disk.isDir plan.source = true := by
    intro hcopy hdir
    rw [hplan.isDir_eq] at hdir
    rw [isDir_see]
    exact ((hfar hcopy).see_self hcleared.sameOff).trans (isDir_see.1 (hopens.isDir hdir))
  have hwhole : plan.mode = .copy → Whole plan.staging plan.source := fun hcopy =>
    whole_of_far hcleared.enters (plan.adds_staging hplan.valid).route
      ⟨_, _, Path.components_join _ (stagingName_proper hplan.valid), stagingName_proper hplan.valid⟩
      hcleared.slot.short (hfar' hcopy)
  have hholds := stage_ok hcleared.enters (plan.adds_staging hplan.valid) hcleared.gone hcleared.proper
    hne hisDir hfar' hwhole (stageOrClean_ok hrun)
  refine ⟨hholds.noLinks, fun rel hrel => ?_⟩
  rw [hholds.look rel hrel]
  exact product_sameOff hfar hcleared.sameOff hrel

end Sideload
