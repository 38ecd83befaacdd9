import Sideload.Registry.Basic

/-!
The registry as a map. The view is `get?`: what `insert` and `erase` do is said by what they do to
it, and the entries of a registry are those that it gives back, one for each name and in the order
of the names.
-/

namespace Sideload

/-! ### Entry lists in name order -/

theorem name_ne_of_nameBefore {a b : String} (h : nameBefore a b = true) : a ≠ b := by
  rintro rfl
  rw [nameBefore_irrefl] at h
  cases h

theorem pairwise_of_inNameOrder {es : List Entry} (h : inNameOrder es) :
    es.Pairwise fun e f => nameBefore e.name f.name = true := by
  induction es with
  | nil => exact List.Pairwise.nil
  | cons e es ih => exact List.pairwise_cons.2 ⟨h.1, ih h.2⟩

theorem find?_eq_some_iff_mem {es : List Entry} (h : inNameOrder es) {name : String} {e : Entry} :
    es.find? (·.name = name) = some e ↔ e ∈ es ∧ e.name = name := by
  induction es with
  | nil => simp
  | cons f fs ih =>
      obtain ⟨hf, hfs⟩ := h
      rw [List.find?_cons]
      by_cases hname : f.name = name
      · simp only [hname, decide_true, Option.some.injEq, List.mem_cons]
        constructor
        · rintro rfl
          exact ⟨.inl rfl, hname⟩
        · rintro ⟨rfl | he, hen⟩
          · rfl
          · exact absurd (hname.trans hen.symm) (name_ne_of_nameBefore (hf e he))
      · simp only [hname, decide_false, List.mem_cons]
        rw [ih hfs]
        constructor
        · rintro ⟨he, hen⟩
          exact ⟨.inr he, hen⟩
        · rintro ⟨rfl | he, hen⟩
          · exact absurd hen hname
          · exact ⟨he, hen⟩

namespace Registry

theorem ext_entries {r r' : Registry} (h : r.entries = r'.entries) : r = r' := by
  cases r
  cases r'
  cases h
  rfl

theorem get?_eq_some_iff {r : Registry} {name : String} {e : Entry} :
    r.get? name = some e ↔ e ∈ r.entries ∧ e.name = name :=
  find?_eq_some_iff_mem r.ordered

theorem name_of_get? {r : Registry} {name : String} {e : Entry} (h : r.get? name = some e) :
    e.name = name :=
  (get?_eq_some_iff.1 h).2

theorem mem_of_get? {r : Registry} {name : String} {e : Entry} (h : r.get? name = some e) :
    e ∈ r.entries :=
  (get?_eq_some_iff.1 h).1

theorem get?_of_mem {r : Registry} {e : Entry} (h : e ∈ r.entries) : r.get? e.name = some e :=
  get?_eq_some_iff.2 ⟨h, rfl⟩

/-- A registry is what it gives back. -/
theorem ext_get? {r r' : Registry} (h : ∀ name, r.get? name = r'.get? name) : r = r' := by
  have hmem : ∀ e, e ∈ r.entries ↔ e ∈ r'.entries := fun e =>
    ⟨fun he => mem_of_get? (h e.name ▸ get?_of_mem he), fun he => mem_of_get? (h e.name ▸ get?_of_mem he)⟩
  have hnodup : ∀ r : Registry, r.entries.Nodup := by
    intro r
    refine (pairwise_of_inNameOrder r.ordered).imp ?_
    rintro e f hbefore rfl
    exact name_ne_of_nameBefore hbefore rfl
  have hr := pairwise_of_inNameOrder r.ordered
  have hr' := pairwise_of_inNameOrder r'.ordered
  have hperm := (List.perm_ext_iff_of_nodup (hnodup r) (hnodup r')).2 hmem
  refine ext_entries (hperm.eq_of_pairwise (fun e f _ _ hef hfe => ?_) hr hr')
  exact absurd rfl (name_ne_of_nameBefore (nameBefore_trans hef hfe))

@[simp] theorem get?_empty (name : String) : empty.get? name = none := rfl

/-! ### Changes -/

theorem find?_place (e : Entry) (es : List Entry) (name : String) :
    (place e es).find? (·.name = name) =
      if e.name = name then some e else es.find? (·.name = name) := by
  induction es with
  | nil =>
      by_cases h : e.name = name <;> simp [place, h]
  | cons f fs ih =>
      unfold place
      by_cases h : e.name = name
      · rw [if_pos h] at ih ⊢
        split
        · simp [h]
        · split
          · simp [h]
          · next hne _ =>
              have hfn : ¬ f.name = name := fun hf => hne (h.trans hf.symm)
              simpa [hfn] using ih
      · rw [if_neg h] at ih ⊢
        split
        · next heq => simp [h, ← heq]
        · split
          · simp [h]
          · by_cases hfn : f.name = name
            · simp [hfn]
            · simpa [hfn] using ih

theorem get?_insert (r : Registry) (e : Entry) (name : String) :
    (r.insert e).get? name = if e.name = name then some e else r.get? name :=
  find?_place e r.entries name

@[simp] theorem get?_insert_self (r : Registry) (e : Entry) : (r.insert e).get? e.name = some e := by
  rw [get?_insert, if_pos rfl]

theorem get?_erase (r : Registry) (gone name : String) :
    (r.erase gone).get? name = if name = gone then none else r.get? name := by
  unfold get? erase
  rw [List.find?_filter]
  by_cases h : name = gone
  · subst h
    rw [if_pos rfl, List.find?_eq_none]
    simp
  · rw [if_neg h]
    congr 1
    funext e
    by_cases he : e.name = name
    · simp [he, h]
    · simp [he]

/-- An entry with a new name that is put in and taken out again leaves no trace. -/
theorem erase_insert {r : Registry} {e : Entry} (h : r.get? e.name = none) :
    (r.insert e).erase e.name = r := by
  apply ext_get?
  intro name
  rw [get?_erase, get?_insert]
  by_cases hname : name = e.name
  · rw [if_pos hname, hname, h]
  · rw [if_neg hname, if_neg (Ne.symm hname)]

theorem mem_insert {r : Registry} {e f : Entry} (h : f ∈ (r.insert e).entries) :
    f = e ∨ f ∈ r.entries ∧ f.name ≠ e.name := by
  have hget := get?_of_mem h
  rw [get?_insert] at hget
  split at hget
  · exact .inl (Option.some.inj hget).symm
  · next hne => exact .inr ⟨mem_of_get? hget, fun heq => hne heq.symm⟩

theorem mem_insert_self (r : Registry) (e : Entry) : e ∈ (r.insert e).entries :=
  mem_of_get? (get?_insert_self r e)

theorem mem_erase {r : Registry} {name : String} {f : Entry} (h : f ∈ (r.erase name).entries) :
    f ∈ r.entries ∧ f.name ≠ name := by
  obtain ⟨hmem, hne⟩ := List.mem_filter.1 h
  exact ⟨hmem, by simpa using hne⟩

/-! ### Building a registry entry by entry -/

/-- An entry whose name comes after all others is put at the end. -/
theorem place_of_forall_before {e : Entry} {es : List Entry}
    (h : ∀ f ∈ es, nameBefore f.name e.name = true) : place e es = es ++ [e] := by
  induction es with
  | nil => rfl
  | cons f fs ih =>
      have hf := h f (by simp)
      have hne : e.name ≠ f.name := (name_ne_of_nameBefore hf).symm
      have hnot : ¬ nameBefore e.name f.name = true := fun hback => by
        have := nameBefore_trans hf hback
        rw [nameBefore_irrefl] at this
        cases this
      rw [place, if_neg hne, if_neg hnot, ih fun g hg => h g (by simp [hg])]
      rfl

theorem entries_foldl_insert {es : List Entry} {r : Registry}
    (h : inNameOrder es) (hr : ∀ e ∈ es, ∀ f ∈ r.entries, nameBefore f.name e.name = true) :
    (es.foldl insert r).entries = r.entries ++ es := by
  induction es generalizing r with
  | nil => simp
  | cons e es ih =>
      have hplace : (r.insert e).entries = r.entries ++ [e] :=
        place_of_forall_before fun f hf => hr e (by simp) f hf
      rw [List.foldl_cons, ih h.2, hplace, List.append_assoc]
      · rfl
      · intro g hg f hf
        rw [hplace] at hf
        rcases List.mem_append.1 hf with hf | hf
        · exact hr g (by simp [hg]) f hf
        · rw [List.mem_singleton.1 hf]
          exact h.1 g hg

/-- The entries of a registry build it again. -/
theorem ofList_entries (r : Registry) : ofList r.entries = r := by
  apply ext_entries
  rw [ofList, entries_foldl_insert r.ordered fun _ _ f hf => absurd hf (by simp [empty])]
  rfl

theorem mem_of_mem_foldl_insert {es : List Entry} {r : Registry} {e : Entry}
    (h : e ∈ (es.foldl insert r).entries) : e ∈ r.entries ∨ e ∈ es := by
  induction es generalizing r with
  | nil => exact .inl h
  | cons f fs ih =>
      rcases ih h with h | h
      · rcases mem_insert h with rfl | ⟨h, _⟩
        · exact .inr (by simp)
        · exact .inl h
      · exact .inr (by simp [h])

theorem mem_of_mem_ofList {es : List Entry} {e : Entry} (h : e ∈ (ofList es).entries) : e ∈ es :=
  (mem_of_mem_foldl_insert h).resolve_left (by simp [empty])

end Registry

end Sideload
