import Mathlib
import Sideload.Disk.Change

/-!
Trees seen as functions of locations. A label is a node without what is below it, and `look` gives
the label at a location. Whatever changes a tree is described by what it does to `look`: everything
at or below one location, and nothing else.
-/

namespace Sideload

/-- A node without what is below it. -/
inductive Label where
  | file (content : ByteArray) (executable : Bool)
  | link (target : Path)
  | dir
  deriving DecidableEq

/-- A label without what is in a file. -/
def Label.shape : Label → Label
  | .file _ _ => .file .empty false
  | label => label

/-- The label at each location. -/
abbrev View := Location → Option Label

namespace Node

def label : Node → Label
  | file content x => .file content x
  | link target => .link target
  | dir _ => .dir

/-- The label at a location, if there is a node. -/
def look (n : Node) : View
  | loc => (n.get? loc).map label

@[simp] theorem label_dir (es : List (Name × Node)) : (dir es).label = .dir := rfl

theorem label_eq_dir_iff {n : Node} : n.label = .dir ↔ ∃ es, n = dir es := by
  cases n with
  | dir es => exact ⟨fun _ => ⟨es, rfl⟩, fun _ => rfl⟩
  | file content x => exact ⟨by simp [label], by simp⟩
  | link target => exact ⟨by simp [label], by simp⟩

theorem isDir_iff {n : Node} : n.isDir = true ↔ n.label = .dir := by
  cases n <;> simp [isDir, label]

@[simp] theorem look_nil (n : Node) : n.look [] = some n.label := by
  rw [look, get?_nil]
  rfl

theorem get?_append (n : Node) (a b : Location) :
    n.get? (a ++ b) = (n.get? a).bind fun m => m.get? b := by
  induction a generalizing n with
  | nil => simp
  | cons x a ih =>
      rw [List.cons_append, get?_cons, get?_cons, Option.bind_assoc]
      congr 1
      funext m
      exact ih m

theorem look_append {n m : Node} {a : Location} (h : n.get? a = some m) (b : Location) :
    n.look (a ++ b) = m.look b := by
  rw [look, get?_append, h]
  rfl

/-- Only directories have something below them. -/
theorem child?_eq_none {n : Node} (h : n.label ≠ .dir) (x : Name) : n.child? x = none := by
  cases n with
  | dir es => exact absurd rfl h
  | file content e => rfl
  | link target => rfl

theorem look_cons (n : Node) (x : Name) (loc : Location) :
    n.look (x :: loc) = (n.child? x).bind fun m => m.look loc := by
  rw [look, get?_cons, Option.map_bind]
  rfl

theorem look_eq_dir_of_append {n : Node} {a b : Location} (hb : b ≠ [])
    (h : n.look (a ++ b) ≠ none) : n.look a = some .dir := by
  obtain ⟨x, b, rfl⟩ := List.exists_cons_of_ne_nil hb
  cases ha : n.get? a with
  | none =>
      rw [look, get?_append, ha] at h
      exact absurd rfl h
  | some m =>
      rw [look, ha, Option.map_some]
      by_contra hm
      rw [look_append ha, look_cons, child?_eq_none (fun he => hm (by rw [he]))] at h
      exact h rfl

theorem look_append_eq_none {n : Node} {a : Location} (h : n.look a ≠ some .dir) {b : Location}
    (hb : b ≠ []) : n.look (a ++ b) = none := by
  by_contra hne
  exact h (look_eq_dir_of_append hb hne)

/-! ### Changes -/

/-- A change at one location leaves everything that is not at or below it. -/
theorem look_update_elsewhere (f : Node → Node) {loc l : Location} (h : ¬ loc <+: l)
    (n : Node) : (n.update f loc).look l = n.look l := by
  induction loc generalizing l n with
  | nil => exact absurd List.nil_prefix h
  | cons x loc ih =>
      unfold update
      split
      · next es m hm =>
          cases l with
          | nil => simp
          | cons y l =>
              rw [look_cons, look_cons]
              by_cases hxy : y = x
              · subst hxy
                have hl : ¬ loc <+: l := fun hp => h ((List.prefix_cons_inj y).2 hp)
                have hself : (dir (setEntry y (m.update f loc) es)).child? y =
                    some (m.update f loc) := lookup?_setEntry_self _ _ _
                rw [hself, hm, Option.bind_some, Option.bind_some, ih hl]
              · have hother : (dir (setEntry x (m.update f loc) es)).child? y =
                    (dir es).child? y := lookup?_setEntry_of_ne hxy _ _
                rw [hother]
      · rfl

theorem get?_update {n m : Node} {loc : Location} (h : n.get? loc = some m) (f : Node → Node) :
    (n.update f loc).get? loc = some (f m) := by
  induction loc generalizing n with
  | nil =>
      rw [get?_nil, Option.some.injEq] at h
      subst h
      simp [update]
  | cons x loc ih =>
      rw [get?_cons] at h
      obtain ⟨k, hk, hm⟩ := Option.bind_eq_some_iff.1 h
      have hdir : n.label = .dir := by
        by_contra hne
        rw [child?_eq_none hne] at hk
        cases hk
      obtain ⟨es, rfl⟩ := label_eq_dir_iff.1 hdir
      unfold update
      rw [hk]
      simp only
      have hself : (dir (setEntry x (k.update f loc) es)).child? x = some (k.update f loc) :=
        lookup?_setEntry_self _ _ _
      rw [get?_cons, hself, Option.bind_some, ih hm]

theorem look_update {n m : Node} {loc : Location} (h : n.get? loc = some m) (f : Node → Node)
    (l : Location) : (n.update f loc).look (loc ++ l) = (f m).look l :=
  look_append (get?_update h f) l

theorem get?_dir_of_look {n : Node} {loc : Location} (h : n.look loc = some .dir) :
    ∃ es, n.get? loc = some (dir es) := by
  obtain ⟨m, hm, hl⟩ := Option.map_eq_some_iff.1 h
  obtain ⟨es, rfl⟩ := label_eq_dir_iff.1 hl
  exact ⟨es, hm⟩

theorem prefix_concat_iff {α : Type} {loc : List α} {x : α} {l : List α} :
    loc ++ [x] <+: l ↔ ∃ rest, l = loc ++ x :: rest := by
  constructor
  · rintro ⟨rest, rfl⟩
    exact ⟨rest, by simp⟩
  · rintro ⟨rest, rfl⟩
    exact ⟨rest, by simp⟩

/-- A new entry is there with all that is below it. -/
theorem get?_insert {n : Node} {loc : Location} (h : n.look loc = some .dir) (x : Name) (m : Node) :
    (n.insert loc x m).get? (loc ++ [x]) = some m := by
  obtain ⟨es, hes⟩ := get?_dir_of_look h
  rw [get?_append, insert, get?_update hes]
  have hself : (dir (setEntry x m es)).child? x = some m := lookup?_setEntry_self _ _ _
  simp [get?_cons, hself]

theorem setEntry_lookup {x : Name} {es : List (Name × Node)} {m : Node}
    (h : lookup? x es = some m) : setEntry x m es = es := by
  induction es with
  | nil => cases h
  | cons e es ih =>
      obtain ⟨k, n⟩ := e
      unfold lookup? at h
      unfold setEntry
      split at h
      · next hk =>
          cases h
          rw [if_pos hk]
      · next hk => rw [if_neg hk, ih h]

theorem update_of_get?_eq_none {n : Node} {loc : Location} (h : n.get? loc = none)
    (f : Node → Node) : n.update f loc = n := by
  induction loc generalizing n with
  | nil => simp at h
  | cons x loc ih =>
      unfold update
      split
      · next es k hk =>
          rw [get?_cons, hk, Option.bind_some] at h
          have hsame : setEntry x k es = es := setEntry_lookup hk
          rw [ih h, hsame]
      · rfl

/-- A change of the entries of one directory leaves everything not below a name whose entry it
leaves. -/
theorem look_update_entries {f : List (Name × Node) → List (Name × Node)} {x : Name}
    (hf : ∀ y es, y ≠ x → lookup? y (f es) = lookup? y es) (n : Node) {loc l : Location}
    (h : ¬ loc ++ [x] <+: l) :
    (n.update (fun d => match d with
      | dir es => dir (f es)
      | d => d) loc).look l = n.look l := by
  by_cases hl : loc <+: l
  · obtain ⟨rest, rfl⟩ := hl
    cases hloc : n.get? loc with
    | none => rw [update_of_get?_eq_none hloc]
    | some k =>
        rw [look_update hloc, look_append hloc]
        cases k with
        | dir es =>
            cases rest with
            | nil => simp
            | cons y rest =>
                have hyx : y ≠ x := by
                  rintro rfl
                  exact h (prefix_concat_iff.2 ⟨rest, rfl⟩)
                have hother : (dir (f es)).child? y = (dir es).child? y := hf y es hyx
                rw [look_cons, look_cons, hother]
        | file content e => rfl
        | link target => rfl
  · exact look_update_elsewhere _ hl n

/-- Besides the new entry nothing changes. -/
theorem look_insert_elsewhere (n : Node) {loc l : Location} {x : Name} (m : Node)
    (h : ¬ loc ++ [x] <+: l) : (n.insert loc x m).look l = n.look l :=
  look_update_entries (fun _ _ hy => lookup?_setEntry_of_ne hy _ _) n h

/-- Besides the entry that is taken out nothing changes. -/
theorem look_remove_elsewhere (n : Node) {loc l : Location} {x : Name}
    (h : ¬ loc ++ [x] <+: l) : (n.remove loc x).look l = n.look l :=
  look_update_entries (fun _ _ hy => lookup?_filter_of_ne hy _) n h

/-- An entry that is taken out is gone with all that is below it. -/
theorem look_remove {n : Node} {loc : Location} (h : n.look loc = some .dir) {l : Location} {x : Name}
    (hl : loc ++ [x] <+: l) : (n.remove loc x).look l = none := by
  obtain ⟨rest, rfl⟩ := prefix_concat_iff.1 hl
  obtain ⟨es, hes⟩ := get?_dir_of_look h
  rw [remove, look_update hes, look_cons]
  have hgone : (dir (es.filter fun e => e.1 ≠ x)).child? x = none := lookup?_filter_self x es
  simp only [hgone, Option.bind_none]

/-- What is below a new entry is below the node that was put there. -/
theorem look_insert {n : Node} {loc : Location} (h : n.look loc = some .dir) (x : Name) (m : Node)
    (rest : Location) : (n.insert loc x m).look (loc ++ x :: rest) = m.look rest := by
  rw [← look_append (get?_insert h x m), List.append_assoc, List.singleton_append]

end Node

end Sideload
