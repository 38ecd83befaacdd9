import Sideload.Proofs.Disk.Copied

/-!
Checking trees. A test of every entry of a tree is a finite computation; it settles whether all names on a
disk are proper and whether there are links on it.
-/

namespace Sideload

namespace Node

mutual

/-- Whether all entries below a node pass a test. -/
def every (test : Name → Label → Bool) : Node → Bool
  | dir es => everyEntry test es
  | _ => true

def everyEntry (test : Name → Label → Bool) : List (Name × Node) → Bool
  | [] => true
  | (k, n) :: es => test k n.label && n.every test && everyEntry test es

end

theorem of_everyEntry {test : Name → Label → Bool} {es : List (Name × Node)} {k : Name} {m : Node}
    (h : everyEntry test es = true) (hm : lookup? k es = some m) :
    test k m.label = true ∧ m.every test = true := by
  induction es with
  | nil => cases hm
  | cons e es ih =>
      obtain ⟨k', n⟩ := e
      rw [everyEntry, Bool.and_eq_true, Bool.and_eq_true] at h
      rw [lookup?] at hm
      split at hm
      · next heq =>
          cases hm
          exact ⟨heq ▸ h.1.1, h.1.2⟩
      · exact ih h.2 hm

/-- What passes the test of a tree passes it at every location. -/
theorem of_every {test : Name → Label → Bool} {n : Node} (h : n.every test = true) {k : Name}
    {loc : Location} {label : Label} (hlook : n.look (loc ++ [k]) = some label) : test k label = true := by
  have hchild : ∀ {n : Node} {k : Name} {m : Node}, n.every test = true → n.child? k = some m →
      test k m.label = true ∧ m.every test = true := by
    intro n k m h hm
    cases n with
    | file c x => cases hm
    | link t => cases hm
    | dir es => exact of_everyEntry (by rwa [every] at h) hm
  induction loc generalizing n with
  | nil =>
      rw [List.nil_append, look_cons] at hlook
      obtain ⟨m, hm, hlook⟩ := Option.bind_eq_some_iff.1 hlook
      rw [look_nil] at hlook
      exact Option.some_inj.1 hlook ▸ (hchild h hm).1
  | cons k' loc ih =>
      rw [List.cons_append, look_cons] at hlook
      obtain ⟨m, hm, hlook⟩ := Option.bind_eq_some_iff.1 hlook
      exact ih (hchild h hm).2 hlook

end Node

/-- Whether a label is that of a link. -/
def Label.isLink : Label → Bool
  | link _ => true
  | _ => false

instance (n : Name) : Decidable n.Proper :=
  decidable_of_iff (n ≠ [] ∧ n ≠ Name.dot ∧ n ≠ Name.dotDot ∧ slash ∉ n)
    ⟨fun ⟨h₁, h₂, h₃, h₄⟩ => ⟨h₁, h₂, h₃, h₄⟩, fun ⟨h₁, h₂, h₃, h₄⟩ => ⟨h₁, h₂, h₃, h₄⟩⟩

namespace Disk

variable {d : Disk}

/-- Every name on a disk is proper if every entry has a proper name. -/
theorem proper_of_every (hcwd : d.cwd.Proper) (h : d.root.every (fun n _ => decide n.Proper) = true) :
    d.Proper := by
  refine ⟨hcwd, fun l hl => ?_⟩
  induction l using List.reverseRecOn with
  | nil =>
      intro n hn
      cases hn
  | append_singleton l n ih =>
      obtain ⟨label, hlabel⟩ := Option.ne_none_iff_exists'.1 hl
      exact (ih (look_ne_none_above hl (List.prefix_append _ _))).concat
        (of_decide_eq_true (Node.of_every h hlabel))

end Disk

/-- A walk down names that meets no link visits the locations on the way. -/
theorem View.prefix_of_visited_names {v : View} (hlinks : ∀ l n target, v (l ++ [n]) ≠ some (.link target))
    {follow : Bool} {links : Nat} {loc l : Location} {names : List Name}
    (hl : l ∈ (v.seek follow links loc (names.map .name)).visited) : l <+: loc ++ names := by
  induction names generalizing loc with
  | nil =>
      rw [List.map_nil, seek_nil] at hl
      cases hl
  | cons n names ih =>
      have hfirst : loc ++ [n] <+: loc ++ n :: names := by
        rw [List.append_cons loc n names]
        exact List.prefix_append _ _
      rw [List.map_cons] at hl
      by_cases hlong : n.byteSize > Disk.maxName
      · rw [seek_long hlong] at hl
        cases hl
      cases hv : v (loc ++ [n]) with
      | none =>
          rw [seek_none hlong hv] at hl
          exact List.mem_singleton.1 hl ▸ hfirst
      | some label =>
          cases label with
          | link target => exact absurd hv (hlinks _ _ target)
          | file c x =>
              rw [seek_file hlong hv] at hl
              exact List.mem_singleton.1 hl ▸ hfirst
          | dir =>
              rw [seek_dir hlong hv] at hl
              rcases List.mem_cons.1 hl with rfl | hl
              · exact hfirst
              · rw [List.append_cons]
                exact ih hl

namespace Path

theorem segments_joins (p : Path) {names : List Name} (h : Location.Proper names) :
    (p.joins names).segments = p.segments ++ names.map .name := by
  induction names using List.reverseRecOn with
  | nil => exact (List.append_nil _).symm
  | append_singleton names n ih =>
      rw [joins_concat, segments_join _ (h n (by simp)), ih (h.initial (List.prefix_append _ _))]
      simp

theorem endsInSlash_joins {p : Path} (hp : p.endsInSlash = false) {names : List Name}
    (h : Location.Proper names) : (p.joins names).endsInSlash = false := by
  induction names using List.reverseRecOn with
  | nil => exact hp
  | append_singleton names n ih =>
      rw [joins_concat]
      exact endsInSlash_join _ (h n (by simp))

theorem isAbsolute_joins (p : Path) {names : List Name} (h : Location.Proper names) :
    (p.joins names).isAbsolute = p.isAbsolute := by
  induction names using List.reverseRecOn with
  | nil => rfl
  | append_singleton names n ih =>
      rw [joins_concat, isAbsolute_join _ (h n (by simp)), ih (h.initial (List.prefix_append _ _))]

end Path

namespace Disk

variable {d : Disk} {p : Path} {names : List Name} {top : Location}

/-- On a disk without links, the way to what is below an absolute path without dots goes straight down. -/
theorem way_joins_of_linkless (hlinks : d.root.every (fun _ label => !label.isLink) = true)
    (habsolute : p.isAbsolute = true) (hslash : p.endsInSlash = false)
    (hsegments : p.segments = names.map .name) {rel l : Location} (hrel : rel.Proper)
    (hl : l ∈ d.way (p.joins rel) true) : l <+: names ++ rel := by
  have hnone : ∀ l n target, d.look (l ++ [n]) ≠ some (.link target) := fun l n target hlook => by
    have hcheck := Node.of_every hlinks hlook
    cases hcheck
  have horigin : d.origin (p.joins rel) = [] := by
    rw [origin, Path.isAbsolute_joins p hrel, if_pos habsolute]
  rcases List.mem_append.1 hl with hl | hl
  · rw [horigin] at hl
    rw [List.mem_singleton.1 hl]
    exact List.nil_prefix
  · rw [trip, horigin, Path.steps_eq, Path.endsInSlash_joins hslash hrel, if_neg Bool.false_ne_true,
      List.append_nil, Path.segments_joins p hrel, hsegments, ← List.map_append] at hl
    simpa using View.prefix_of_visited_names hnone hl

/-- On a disk without links, the tree below an absolute path without dots is far from every location
outside of it. -/
theorem far_of_linkless (hlinks : d.root.every (fun _ label => !label.isLink) = true)
    (habsolute : p.isAbsolute = true) (hslash : p.endsInSlash = false)
    (hsegments : p.segments = names.map .name) (houtside : ¬ top <+: names ∧ ¬ names <+: top) :
    Far top d p := by
  intro rel hrel l hl htop
  have hle := way_joins_of_linkless hlinks habsolute hslash hsegments hrel hl
  rcases List.prefix_or_prefix_of_prefix (htop.trans hle) (List.prefix_append names rel) with h | h
  · exact houtside.1 h
  · exact houtside.2 h

/-- On a disk without links, names lead straight down from a directory. -/
theorem Enters.joins_of_linkless {here loc : Location} (h : d.Enters p here)
    (hlinks : d.root.every (fun _ label => !label.isLink) = true) (hnames : Location.Proper names)
    (hto : d.Enters (p.joins names) loc) : loc = here ++ names := by
  induction names using List.reverseRecOn generalizing loc with
  | nil =>
      rw [List.append_nil]
      exact h.unique hto
  | append_singleton names n ih =>
      have hfront : Location.Proper names := hnames.initial (List.prefix_append _ _)
      have hn : n.Proper := hnames n (by simp)
      rw [Path.joins_concat] at hto
      have hsee := see_of_join (isEmpty_joins h.isEmpty hfront) hn (see_eq_ok_iff.2 ⟨loc, hto.goal, hto.dir⟩)
      obtain ⟨above, hgoal, hdir⟩ := see_eq_ok_iff.1 hsee
      obtain rfl := ih hfront ⟨hgoal, hdir⟩
      rw [← List.append_assoc]
      refine Enters.child ⟨hgoal, hdir⟩ hto (Path.extends_join _ hn) fun target hlink => ?_
      cases Node.of_every hlinks hlink

end Disk

end Sideload
