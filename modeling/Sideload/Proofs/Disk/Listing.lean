import Sideload.Proofs.Disk.Copied
import Sideload.Proofs.Disk.Stable

/-!
The entries of directories. On a disk where no directory has two entries of one name, a directory lists
each name just once, with what there is under that name; every change keeps it so.
-/

namespace Sideload

namespace Node

variable {n m : Node} {name : Name} {es : List (Name × Node)}

/-- No directory of a tree has two entries of one name. -/
def Distinct (n : Node) : Prop :=
  ∀ loc es, n.get? loc = some (.dir es) → (es.map Prod.fst).Nodup

theorem distinct_of_not_dir (h : n.isDir = false) : n.Distinct := by
  intro loc es hget
  cases loc with
  | nil =>
      rw [get?_nil] at hget
      cases hget
      cases h
  | cons name loc =>
      have hchild : n.child? name = none := child?_eq_none (fun hdir => by
        rw [isDir_iff.2 hdir] at h
        cases h) name
      rw [get?_cons, hchild] at hget
      cases hget

theorem Distinct.child (h : (dir es).Distinct) (hm : lookup? name es = some m) : m.Distinct := by
  intro loc es' hget
  refine h (name :: loc) es' ?_
  have hchild : (dir es).child? name = some m := hm
  rw [get?_cons, hchild]
  exact hget

theorem distinct_dir (hes : (es.map Prod.fst).Nodup) (h : ∀ name m, lookup? name es = some m → m.Distinct) :
    (dir es).Distinct := by
  intro loc es' hget
  cases loc with
  | nil =>
      rw [get?_nil] at hget
      cases hget
      exact hes
  | cons name loc =>
      have hchild : (dir es).child? name = lookup? name es := rfl
      rw [get?_cons, hchild] at hget
      cases hm : lookup? name es with
      | none =>
          rw [hm] at hget
          cases hget
      | some m =>
          rw [hm] at hget
          exact h name m hm loc es' hget

theorem mem_of_lookup? (h : lookup? name es = some m) : (name, m) ∈ es := by
  induction es with
  | nil => cases h
  | cons e es ih =>
      obtain ⟨k, node⟩ := e
      rw [lookup?] at h
      split at h
      · next heq =>
          cases h
          rw [heq]
          exact List.mem_cons_self ..
      · exact List.mem_cons_of_mem _ (ih h)

theorem lookup?_of_mem (hes : (es.map Prod.fst).Nodup) (h : (name, m) ∈ es) : lookup? name es = some m := by
  induction es with
  | nil => cases h
  | cons e es ih =>
      obtain ⟨k, node⟩ := e
      rw [List.map_cons, List.nodup_cons] at hes
      rw [lookup?]
      rcases List.mem_cons.1 h with heq | hmem
      · cases heq
        exact if_pos rfl
      · rw [if_neg, ih hes.2 hmem]
        rintro rfl
        exact hes.1 (List.mem_map.2 ⟨_, hmem, rfl⟩)

/-- An entry keeps its place, and a new one comes last. -/
theorem map_fst_setEntry (name : Name) (m : Node) (es : List (Name × Node)) :
    (setEntry name m es).map Prod.fst =
      if name ∈ es.map Prod.fst then es.map Prod.fst else es.map Prod.fst ++ [name] := by
  induction es with
  | nil => rfl
  | cons e es ih =>
      obtain ⟨k, node⟩ := e
      rw [setEntry]
      by_cases hk : name = k
      · simp [hk]
      · rw [if_neg hk, List.map_cons, ih]
        by_cases hmem : name ∈ es.map Prod.fst
        · simp [hmem]
        · simp [hmem, hk]

theorem nodup_setEntry (hes : (es.map Prod.fst).Nodup) (name : Name) (m : Node) :
    ((setEntry name m es).map Prod.fst).Nodup := by
  rw [map_fst_setEntry]
  split
  · exact hes
  · next hnew => exact List.nodup_append.2 ⟨hes, List.nodup_singleton name, by
      rintro a ha b hb rfl
      exact hnew (List.mem_singleton.1 hb ▸ ha)⟩

/-- An entry is replaced by what is well kept itself. -/
theorem Distinct.setEntry (h : (dir es).Distinct) (hm : m.Distinct) (name : Name) :
    (dir (setEntry name m es)).Distinct := by
  refine distinct_dir (nodup_setEntry (h [] es (get?_nil _)) name m) fun k node hk => ?_
  by_cases heq : k = name
  · rw [heq, lookup?_setEntry_self] at hk
    cases hk
    exact hm
  · rw [lookup?_setEntry_of_ne heq] at hk
    exact h.child hk

theorem Distinct.update {f : Node → Node} (hf : ∀ m : Node, m.Distinct → (f m).Distinct) {loc : Location}
    (h : n.Distinct) : (n.update f loc).Distinct := by
  induction loc generalizing n with
  | nil =>
      rw [Node.update]
      exact hf n h
  | cons name loc ih =>
      cases n with
      | file content x => exact h
      | link target => exact h
      | dir es =>
          unfold Node.update
          split
          · next hdir hm =>
              cases hdir
              exact h.setEntry (ih (h.child hm)) name
          · exact h

theorem Distinct.insert (h : n.Distinct) (hm : m.Distinct) (loc : Location) (name : Name) :
    (n.insert loc name m).Distinct := by
  refine h.update fun node hnode => ?_
  cases node with
  | file content x => exact hnode
  | link target => exact hnode
  | dir es => exact hnode.setEntry hm name

theorem distinct_empty : (dir []).Distinct := distinct_dir List.nodup_nil nofun

theorem Distinct.remove (h : n.Distinct) (loc : Location) (name : Name) : (n.remove loc name).Distinct := by
  refine h.update fun node hnode => ?_
  cases node with
  | file content x => exact hnode
  | link target => exact hnode
  | dir es =>
      have hes : ((es.filter fun e => e.1 ≠ name).map Prod.fst).Nodup :=
        (List.filter_sublist.map Prod.fst).nodup (hnode [] es (get?_nil _))
      refine distinct_dir hes fun k m hk => ?_
      by_cases heq : k = name
      · rw [heq, lookup?_filter_self] at hk
        cases hk
      · rw [lookup?_filter_of_ne heq] at hk
        exact hnode.child hk

/-- What is below a well kept tree is well kept. -/
theorem Distinct.below (h : n.Distinct) {loc : Location} (hm : n.get? loc = some m) : m.Distinct := by
  intro rest es hget
  refine h (loc ++ rest) es ?_
  rw [get?_append, hm]
  exact hget

end Node

namespace Disk

variable {d d' : Disk} {p : Path} {loc : Location} {n : Name} {node : Node} {es : List (Name × Node)}

/-- No directory on a disk has two entries of one name. -/
def Distinct (d : Disk) : Prop := d.root.Distinct

namespace Distinct

theorem makeDir (h : d.Distinct) (hm : d.makeDir p = .ok d') : d'.Distinct := by
  unfold Disk.makeDir at hm
  cases hspot : d.place p with
  | error e =>
      rw [hspot] at hm
      cases hm
  | ok spot =>
      rw [hspot] at hm
      dsimp only [bind, Except.bind] at hm
      split at hm
      · split at hm
        · cases hm
        · cases hm
          exact Node.Distinct.insert h Node.distinct_empty _ _
      · cases hm

theorem opened (h : d.Distinct) (p : Path) : (d.opened p).Distinct :=
  DiskM.createDirAll_keeps (fun _ _ _ _ hd hm => Distinct.makeDir hd hm) h

theorem openFile {change : Option (ByteArray × Bool) → ByteArray × Bool} (h : d.Distinct)
    (ho : d.openFile p change = .ok d') : d'.Distinct := by
  unfold Disk.openFile at ho
  split at ho
  · cases hplace : d.place p with
    | error e =>
        rw [hplace] at ho
        cases ho
    | ok spot =>
        rw [hplace] at ho
        cases ho
  · cases hfind : d.find p true with
    | error e =>
        rw [hfind] at ho
        cases ho
    | ok spot =>
        rw [hfind] at ho
        cases spot with
        | vacant parent n =>
            cases ho
            exact Node.Distinct.insert h (Node.distinct_of_not_dir rfl) _ _
        | present c =>
            dsimp only [bind, Except.bind] at ho
            split at ho
            · cases ho
              exact Node.Distinct.insert h (Node.distinct_of_not_dir rfl) _ _
            · cases ho

theorem removeFile (h : d.Distinct) (hm : d.removeFile p = .ok d') : d'.Distinct := by
  unfold Disk.removeFile at hm
  cases hspot : d.place p with
  | error e =>
      rw [hspot] at hm
      cases hm
  | ok spot =>
      rw [hspot] at hm
      dsimp only [bind, Except.bind] at hm
      split at hm
      · split at hm
        · cases hm
        · split at hm
          · cases hm
          · split at hm
            · cases hm
            · cases hm
              exact Node.Distinct.remove h _ _
      · cases hm

theorem removeDir (h : d.Distinct) (hm : d.removeDir p = .ok d') : d'.Distinct := by
  unfold Disk.removeDir at hm
  cases hspot : d.place p with
  | error e =>
      rw [hspot] at hm
      cases hm
  | ok spot =>
      rw [hspot] at hm
      dsimp only [bind, Except.bind] at hm
      split at hm
      · split at hm
        · cases hm
        · cases hm
          exact Node.Distinct.remove h _ _
        · cases hm
        · cases hm
      all_goals cases hm

theorem rename {q : Path} (h : d.Distinct) (hm : d.rename p q = .ok d') : d'.Distinct := by
  unfold Disk.rename at hm
  cases hold : d.place p with
  | error e =>
      rw [hold] at hm
      cases hm
  | ok old =>
  cases hnew : d.place q with
  | error e =>
      rw [hold, hnew] at hm
      cases hm
  | ok new =>
      rw [hold, hnew] at hm
      dsimp only [bind, Except.bind] at hm
      split at hm
      · next a b hlast hlast' =>
          split at hm
          · cases hm
          · next node hnode =>
              obtain ⟨-, hfits, -⟩ := slot_of_place hold hlast
              -- the node that is moved is part of the disk
              have hpart : node.Distinct := by
                refine @Node.Distinct.below _ _ h (old.parent.location ++ [a]) ?_
                rw [Node.get?_append, hfits.get?]
                exact (Node.get?_cons ..).trans (by rw [hnode]; exact Node.get?_nil _)
              split at hm
              · cases hm
              · split at hm
                · cases hm
                  exact h
                · split at hm
                  · cases hm
                  · split at hm
                    · cases hm
                    · split at hm
                      · cases hm
                      · cases hm
                        exact Node.Distinct.insert (Node.Distinct.remove h _ _) hpart _ _
      · cases hm

end Distinct

/-- The entries of the directory that a path leads to. -/
theorem list_eq_ok (h : d.list p = .ok es) :
    ∃ loc, d.Enters p loc ∧ d.root.get? loc = some (.dir es) := by
  unfold Disk.list stat at h
  rcases find_eq d p true with ⟨s, hfind, hfits, hgoal⟩ | ⟨e, hfind, -⟩ <;>
    rw [hfind] at h <;> simp only [bind, Except.bind] at h
  · cases s with
    | vacant c m => cases h
    | present c =>
        dsimp only at h
        split at h
        next es' hnode =>
          cases h
          have hget : d.root.get? c.location = some (.dir es) := hnode ▸ Cursor.Fits.get? hfits
          exact ⟨c.location, ⟨hgoal, by rw [look, Node.look, hget]; rfl⟩, hget⟩
        · cases h
  · cases h

theorem Enters.list (h : d.Enters p loc) : ∃ es, d.list p = .ok es := by
  have hsee : (d.stat p).map Node.label = .ok .dir := by
    rw [stat_label]
    exact see_eq_ok_iff.2 ⟨loc, h.goal, h.dir⟩
  obtain ⟨node, hstat, hnode⟩ := map_label_eq_ok.1 hsee
  obtain ⟨es, rfl⟩ := Node.label_eq_dir_iff.1 hnode
  exact ⟨es, by rw [Disk.list, hstat]; rfl⟩

theorem Enters.locate (h : d.Enters p loc) : d.locate p = .ok loc := by
  unfold Disk.locate
  rcases find_eq d p true with ⟨s, hfind, -, hgoal⟩ | ⟨e, -, hgoal⟩
  · rw [hfind]
    cases s with
    | vacant c m => cases hgoal.symm.trans h.goal
    | present c =>
        cases hgoal.symm.trans h.goal
        rfl
  · cases hgoal.symm.trans h.goal

/-- No name is listed twice. -/
theorem Distinct.nodup_list (hd : d.Distinct) (hl : d.list p = .ok es) : (es.map Prod.fst).Nodup := by
  obtain ⟨loc, -, hget⟩ := list_eq_ok hl
  exact hd loc es hget

section Listed

variable (he : d.Enters p loc) (hl : d.list p = .ok es)
include he hl

/-- What is listed under a name is what there is. -/
theorem look_of_list (hd : d.Distinct) (hmem : (n, node) ∈ es) :
    d.look (loc ++ [n]) = some node.label := by
  obtain ⟨loc', he', hget⟩ := list_eq_ok hl
  obtain rfl := he'.unique he
  have hlookup : Node.lookup? n es = some node := Node.lookup?_of_mem (hd _ es hget) hmem
  have hchild : (Node.dir es).get? [n] = some node := by
    rw [Node.get?_cons, Node.child?, Node.entries, hlookup, Option.bind_some, Node.get?_nil]
  rw [look, Node.look, Node.get?_append, hget, Option.bind_some, hchild]
  rfl

/-- Everything that there is is listed. -/
theorem exists_mem_list (h : d.look (loc ++ [n]) ≠ none) : ∃ node, (n, node) ∈ es := by
  obtain ⟨loc', he', hget⟩ := list_eq_ok hl
  obtain rfl := he'.unique he
  cases hlookup : Node.lookup? n es with
  | some node => exact ⟨node, Node.mem_of_lookup? hlookup⟩
  | none =>
      have hchild : (Node.dir es).get? [n] = none := by
        rw [Node.get?_cons, Node.child?, Node.entries, hlookup, Option.bind_none]
      rw [look, Node.look, Node.get?_append, hget, Option.bind_some, hchild] at h
      exact absurd rfl h

end Listed

end Disk

open Disk

/-- No change gives a directory two entries of one name. -/
theorem stable_distinct : Stable fun w => w.disk.Distinct := by
  refine ⟨fun w d halter hd => ?_, fun _ _ hd => hd⟩
  dsimp only at hd ⊢
  cases halter with
  | makeDir hm => exact hd.makeDir hm
  | removeFile hm => exact hd.removeFile hm
  | removeDir hm => exact hd.removeDir hm
  | emptied hdir => exact Node.Distinct.update (fun _ _ => Node.distinct_empty) hd
  | openFile ho => exact hd.openFile ho
  | rename hr => exact hd.rename hr

end Sideload
