import Sideload.Proofs.Disk.Differs
import Sideload.Proofs.Disk.Canonical
import Sideload.Proofs.Disk.Mirror

/-!
Everything that a copy of a path looks at. Where two disks differ only in a region that a path does not
reach, every question that is asked about the path and what is below it has the same answer on both.
-/

namespace Sideload

open Disk

namespace Disk

variable {d d' : Disk} {p : Path} {loc l : Location} {n : Name} {region : Location → Prop}

/-- What is looked at to copy what is at a path: everything on the way to it, everything in the directory
that it leads to, and whatever the entries of that directory reach, which may be links. -/
inductive Reaches (d : Disk) : Path → Location → Prop
  | way {p : Path} {l : Location} (h : l ∈ d.way p true) : Reaches d p l
  | inside {p : Path} {loc l : Location} (h : d.Enters p loc) (hl : loc <+: l) : Reaches d p l
  | entry {p : Path} {loc l : Location} {n : Name} (h : d.Enters p loc) (hn : d.look (loc ++ [n]) ≠ none)
      (hl : Reaches d (p.join (.ofName n)) l) : Reaches d p l

/-- A path that reaches no part of a region. -/
def Avoids (region : Location → Prop) (d : Disk) (p : Path) : Prop := ∀ l, d.Reaches p l → ¬ region l

/-! ### Questions about a path -/

theorem locate_eq (d : Disk) (p : Path) : d.locate p =
    match d.goal p true with
    | .error e => .error e
    | .ok (.present loc) => .ok loc
    | .ok (.vacant ..) => .error (.os .noEntry) := by
  unfold locate
  rcases find_eq d p true with ⟨s, hfind, -, hgoal⟩ | ⟨e, hfind, hgoal⟩
  · rw [hfind, hgoal]
    cases s <;> rfl
  · rw [hfind, hgoal]
    rfl

theorem list_of_error {e : IoError} (h : d.see p true = .error e) : d.list p = .error e := by
  rw [← stat_label] at h
  unfold list
  cases hstat : d.stat p with
  | error e' =>
      rw [hstat] at h
      cases h
      rfl
  | ok node =>
      rw [hstat] at h
      cases h

theorem list_of_ne_dir {label : Label} (h : d.see p true = .ok label) (hne : label ≠ .dir) :
    d.list p = .error (.os .notDirectory) := by
  rw [← stat_label] at h
  obtain ⟨node, hstat, rfl⟩ := map_label_eq_ok.1 h
  unfold list
  rw [hstat]
  cases node with
  | dir es => exact absurd rfl hne
  | file content x => rfl
  | link target => rfl

theorem isDir_congr (h : d'.see p true = d.see p true) : d'.isDir p = d.isDir p := by
  rw [Bool.eq_iff_iff, isDir_see, isDir_see, h]

theorem exists_eq (d : Disk) (p : Path) : d.exists_ p = (d.see p true).isOk := by
  rw [exists_, ← stat_label]
  cases d.stat p <;> rfl

theorem resolveSource_eq (d : Disk) (source : Path) : resolveSource d source =
    match d.goal source true with
    | .ok (.present s) => .ok (pathOf s)
    | _ => .error (.sourceNotFound source) := by
  unfold resolveSource exists_ stat canonical
  rcases find_eq d source true with ⟨s, hfind, -, hgoal⟩ | ⟨e, hfind, hgoal⟩
  · rw [hfind, hgoal]
    cases s <;> rfl
  · rw [hfind, hgoal]
    rfl

theorem deriveName_congr {source : Path} (h : d'.isDir source = d.isDir source) :
    deriveName d' source = deriveName d source := by
  unfold deriveName
  rw [h]

/-! ### The same answers -/

namespace Avoids

theorem not_way (h : Avoids region d p) (hl : l ∈ d.way p true) : ¬ region l := h l (.way hl)

theorem entry (h : Avoids region d p) (he : d.Enters p loc) (hn : d.look (loc ++ [n]) ≠ none) :
    Avoids region d (p.join (.ofName n)) := fun l hl => h l (.entry he hn hl)

variable (h : Avoids region d p) (hdiffers : Differs region d d')
include h hdiffers

theorem way : d'.way p true = d.way p true := way_congr hdiffers.cwd fun l hl => hdiffers.look l (h.not_way hl)

theorem goal : d'.goal p true = d.goal p true := goal_congr hdiffers.cwd fun l hl => hdiffers.look l (h.not_way hl)

theorem see : d'.see p true = d.see p true := see_congr hdiffers.cwd fun l hl => hdiffers.look l (h.not_way hl)

theorem enters_iff : d'.Enters p loc ↔ d.Enters p loc := by
  constructor
  · intro he
    have hgoal := (h.goal hdiffers).symm.trans he.goal
    exact ⟨hgoal, (hdiffers.look loc (h.not_way (present_mem_way hgoal))).symm.trans he.dir⟩
  · exact fun he => ⟨(h.goal hdiffers).trans he.goal,
      (hdiffers.look loc (h.not_way (present_mem_way he.goal))).trans he.dir⟩

/-- The same directory has the same entries. -/
theorem list : d'.list p = d.list p := by
  cases hsee : d.see p true with
  | error e => rw [list_of_error hsee, list_of_error ((h.see hdiffers).trans hsee)]
  | ok label =>
      by_cases hdir : label = .dir
      · subst hdir
        obtain ⟨loc, hgoal, hlook⟩ := see_eq_ok_iff.1 hsee
        have he : d.Enters p loc := ⟨hgoal, hlook⟩
        have he' := (h.enters_iff hdiffers).2 he
        obtain ⟨es, hes⟩ := he.list
        obtain ⟨es', hes'⟩ := he'.list
        obtain ⟨loc₁, he₁, hget⟩ := list_eq_ok hes
        obtain ⟨loc₂, he₂, hget'⟩ := list_eq_ok hes'
        obtain rfl := he₁.unique he
        obtain rfl := he₂.unique he'
        rw [hdiffers.tree _ fun l' hl' => h l' (.inside he hl'), hget] at hget'
        cases hget'
        rw [hes, hes']
      · rw [list_of_ne_dir hsee hdir, list_of_ne_dir ((h.see hdiffers).trans hsee) hdir]

theorem locate : d'.locate p = d.locate p := by rw [locate_eq, locate_eq, h.goal hdiffers]

theorem classify (above : List Ancestor) (node : Node) : classify d' above p node = classify d above p node := by
  cases hlink : node.isLink with
  | false => rw [classify_plain hlink, classify_plain hlink]
  | true =>
      have hsame := h.see hdiffers
      cases hsee : d.see p true with
      | error e => rw [classify_dangling hlink hsee, classify_dangling hlink (hsame.trans hsee)]
      | ok label =>
          by_cases hdir : label = .dir
          · subst hdir
            obtain ⟨loc, hgoal, hlook⟩ := see_eq_ok_iff.1 hsee
            have he : d.Enters p loc := ⟨hgoal, hlook⟩
            rw [classify_entered hlink he, classify_entered hlink ((h.enters_iff hdiffers).2 he)]
          · rw [classify_other hlink hsee hdir, classify_other hlink (hsame.trans hsee) hdir]

/-- Disks that differ in a region that a path does not reach agree about what it reaches. -/
theorem of_differs : Avoids region d' p := by
  intro l hl
  induction hl with
  | way hl => exact h.not_way (h.way hdiffers ▸ hl)
  | inside he hl => exact h _ (.inside ((h.enters_iff hdiffers).1 he) hl)
  | @entry p loc l n he hn _ ih =>
      have he' := (h.enters_iff hdiffers).1 he
      rw [hdiffers.look _ (h _ (.inside he' (List.prefix_append _ _)))] at hn
      exact ih (h.entry he' hn)

end Avoids

end Disk

end Sideload
