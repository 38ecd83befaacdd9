import Sideload.Proofs.Run
import Sideload.Surface.Basic

/-!
The parameters that a surface tells. They are the names before the first star of a parameter list, but for
the receiver; comments, slashes and what comes after two stars do not count. A default is shown where there
is one and nowhere else.
-/

namespace Sideload.Surface

variable {α β : Type} {P : α → β → Prop} {x : α} {xs ys : List α} {as bs : List β}

/-! ### What a list has of some kind -/

/-- The values that `P` allots to the items of a list, in their order. Items without a value are passed
over. -/
inductive Gathers (P : α → β → Prop) : List α → List β → Prop
  | nil : Gathers P [] []
  | take {x : α} {xs : List α} {a : β} {as : List β} (hx : P x a) (h : Gathers P xs as) :
      Gathers P (x :: xs) (a :: as)
  | pass {x : α} {xs : List α} {as : List β} (hx : ∀ a, ¬ P x a) (h : Gathers P xs as) :
      Gathers P (x :: xs) as

/-- Where every item has one value at most, which can be computed, the values can be too. -/
theorem gathers_iff {f : α → Option β} (hf : ∀ x a, f x = some a ↔ P x a) :
    Gathers P xs as ↔ xs.filterMap f = as := by
  induction xs generalizing as with
  | nil =>
      refine ⟨fun h => ?_, fun h => h ▸ .nil⟩
      cases h
      rfl
  | cons x xs ih =>
      cases hx : f x with
      | none =>
          have hnone : ∀ a, ¬ P x a := fun a ha => by cases hx.symm.trans ((hf x a).2 ha)
          rw [List.filterMap_cons_none hx, ← ih]
          refine ⟨fun h => ?_, .pass hnone⟩
          cases h with
          | take ha _ => exact absurd ha (hnone _)
          | pass _ h => exact h
      | some a =>
          have hsome : P x a := (hf x a).1 hx
          rw [List.filterMap_cons_some hx]
          constructor
          · intro h
            cases h with
            | take hb h =>
                cases hx.symm.trans ((hf x _).2 hb)
                rw [ih.1 h]
            | pass hnone _ => exact absurd hsome (hnone a)
          · rintro rfl
            exact .take hsome (ih.2 rfl)

/-! ### Names -/

namespace Ident

/-- Only characters of identifiers stand in a name. -/
theorem not_mem (n : Ident) {c : Char} (hstart : isIdentifierStart c = false)
    (hpart : isIdentifierPart c = false) : c ∉ n.text.toList := by
  have hspelled := n.spelled
  cases hchars : n.text.toList with
  | nil => simp
  | cons first rest =>
      rw [hchars, spellsIdentifier, Bool.and_eq_true, List.all_eq_true] at hspelled
      rintro (_ | ⟨_, hc⟩)
      · exact absurd (hstart.symm.trans hspelled.1) (by simp)
      · exact absurd (hpart.symm.trans (hspelled.2 c hc)) (by simp)

theorem text_ne_empty (n : Ident) : n.text ≠ "" := by
  intro hempty
  have hspelled := n.spelled
  rw [hempty] at hspelled
  cases hspelled

end Ident

/-! ### Parameters -/

namespace Param

/-- What ends the parameters that are passed by position: a star, alone or before a name, which may have an
annotation. -/
def isStar : Param → Bool
  | star => true
  | rest => true
  | annotated .rest => true
  | _ => false

/-- An item that stands for a parameter passed by position, unless a star comes before it. -/
inductive Stands : Param → Parameter → Prop
  | name (n : Ident) : Stands (.name n) ⟨n.text, false⟩
  | annotated (n : Ident) : Stands (.annotated (.name n)) ⟨n.text, false⟩
  | defaulted (n : Ident) : Stands (.defaulted n) ⟨n.text, true⟩
  | annotatedDefaulted (n : Ident) : Stands (.annotatedDefaulted n) ⟨n.text, true⟩
  | bracketed (text : String) : Stands (.bracketed text true) ⟨text, true⟩

theorem reading_eq_stop_iff {p : Param} : p.reading = .stop ↔ p.isStar = true := by
  cases p with
  | annotated on => cases on <;> simp [reading, isStar]
  | bracketed text hasDefault => cases hasDefault <;> simp [reading, isStar]
  | _ => simp [reading, isStar]

theorem reading_eq_take_iff {p : Param} {a : Parameter} : p.reading = .take a ↔ p.Stands a := by
  constructor
  · intro h
    cases p with
    | annotated on =>
        cases on with
        | name n =>
            cases h
            exact .annotated n
        | _ => cases h
    | bracketed text hasDefault =>
        cases hasDefault with
        | true =>
            cases h
            exact .bracketed text
        | false => cases h
    | name n =>
        cases h
        exact .name n
    | defaulted n =>
        cases h
        exact .defaulted n
    | annotatedDefaulted n =>
        cases h
        exact .annotatedDefaulted n
    | _ => cases h
  · rintro (_ | _ | _ | _ | _) <;> rfl

/-- The parameter that an item stands for, if it is no receiver. -/
def parameter? (p : Param) : Option Parameter :=
  match p.reading with
  | .take a => if a.name = receiver then none else some a
  | _ => none

theorem parameter?_eq_some_iff {p : Param} {a : Parameter} :
    p.parameter? = some a ↔ p.Stands a ∧ a.name ≠ receiver := by
  rw [parameter?, ← reading_eq_take_iff]
  cases p.reading with
  | take b =>
      dsimp only
      split
      · next hb =>
          refine ⟨nofun, ?_⟩
          rintro ⟨hba, hne⟩
          cases hba
          exact absurd hb hne
      · next hb =>
          refine ⟨fun h => ?_, fun h => ?_⟩
          · cases h
            exact ⟨rfl, hb⟩
          · cases h.1
            rfl
  | pass => simp
  | stop => simp

/-- A parameter without a default has the name of an item. -/
theorem Stands.ident {p : Param} {a : Parameter} (h : p.Stands a) (hdefault : a.hasDefault = false) :
    ∃ n : Ident, a.name = n.text := by
  cases h with
  | name n => exact ⟨n, rfl⟩
  | annotated n => exact ⟨n, rfl⟩
  | _ => cases hdefault

end Param

/-- Reading a parameter list comes to its first star and no further. -/
theorem positional_eq (ps : List Param) :
    positional ps = (ps.takeWhile fun p => !p.isStar).filterMap Param.parameter? := by
  induction ps with
  | nil => rfl
  | cons p ps ih =>
      rw [positional]
      cases hp : p.reading with
      | stop =>
          have hstar := Param.reading_eq_stop_iff.1 hp
          rw [List.takeWhile_cons_of_neg (by simp [hstar])]
          rfl
      | pass =>
          have hstar : p.isStar = false := Bool.eq_false_iff.2 fun h => by
            cases hp.symm.trans (Param.reading_eq_stop_iff.2 h)
          have hnone : p.parameter? = none := by rw [Param.parameter?, hp]
          rw [List.takeWhile_cons_of_pos (by simp [hstar]), List.filterMap_cons_none hnone]
          exact ih
      | take a =>
          have hstar : p.isStar = false := Bool.eq_false_iff.2 fun h => by
            cases hp.symm.trans (Param.reading_eq_stop_iff.2 h)
          rw [List.takeWhile_cons_of_pos (by simp [hstar])]
          dsimp only
          split
          · next hreceiver =>
              have hnone : p.parameter? = none := by rw [Param.parameter?, hp]; exact if_pos hreceiver
              rw [List.filterMap_cons_none hnone, ih]
          · next hother =>
              have hsome : p.parameter? = some a := by rw [Param.parameter?, hp]; exact if_neg hother
              rw [List.filterMap_cons_some hsome, ih]

/-- Nothing after a star is passed by position. -/
theorem positional_append_star {p : Param} (h : p.isStar = true) (ps after : List Param) :
    positional (ps ++ p :: after) = positional ps := by
  rw [positional_eq, positional_eq]
  induction ps with
  | nil => simp [h]
  | cons q ps ih =>
      rw [List.cons_append, List.takeWhile_cons, List.takeWhile_cons]
      split
      · rw [List.filterMap_cons, List.filterMap_cons, ih]
      · rfl

theorem Parameter.text_eq (a : Parameter) : a.text = a.name ++ if a.hasDefault then "=..." else "" := by
  obtain ⟨name, hasDefault⟩ := a
  cases hasDefault with
  | true => rfl
  | false => exact String.append_empty.symm

/-- A text shows a default exactly if there is one. -/
theorem Parameter.suffix_text_iff {a : Parameter} (h : a.hasDefault = false → ∃ n : Ident, a.name = n.text) :
    "=...".toList <:+ a.text.toList ↔ a.hasDefault = true := by
  cases hdefault : a.hasDefault with
  | true =>
      simp [a.text_eq, hdefault]
  | false =>
      obtain ⟨n, hn⟩ := h hdefault
      simp only [a.text_eq, hdefault, hn, Bool.false_eq_true, if_false, String.append_empty, iff_false]
      intro hsuffix
      exact n.not_mem (by decide) (by decide) (hsuffix.subset (by decide : '=' ∈ "=...".toList))

/-- The parameters that are told are those that can be passed by position: the names before the first star,
in their order, each with whether it has a default, but for a name that is that of the receiver. What comes
after the star makes no difference, and of the texts just those with a default end in one. -/
theorem positional_tells (ps : List Param) :
    (∀ as, positional ps = as ↔
      Gathers (fun p a => p.Stands a ∧ a.name ≠ receiver) (ps.takeWhile fun p => !p.isStar) as) ∧
    (∀ p after, p.isStar = true → positional (ps ++ p :: after) = positional ps) ∧
    ∀ a ∈ positional ps, a.text = a.name ++ (if a.hasDefault then "=..." else "") ∧
      ("=...".toList <:+ a.text.toList ↔ a.hasDefault = true) := by
  refine ⟨fun as => ?_, fun p after h => positional_append_star h ps after, fun a ha => ⟨a.text_eq, ?_⟩⟩
  · rw [positional_eq, gathers_iff fun _ _ => Param.parameter?_eq_some_iff]
  · rw [positional_eq, List.mem_filterMap] at ha
    obtain ⟨p, -, hp⟩ := ha
    exact a.suffix_text_iff (Param.parameter?_eq_some_iff.1 hp).1.ident

/-- The parameters `self, a: T, /, b=1, *args: T, c`. -/
example : positional [.name ⟨"self", by decide⟩, .annotated (.name ⟨"a", by decide⟩), .slash, .comment,
    .defaulted ⟨"b", by decide⟩, .annotated .rest, .name ⟨"c", by decide⟩] =
      [⟨"a", false⟩, ⟨"b", true⟩] := by decide

end Sideload.Surface
