import Sideload.Registry.Entry

/-!
The registry: entries by name.

The entries stand in the byte order of their names, one for each name.
-/

namespace Sideload

/-- The order of texts character by character, a text before its continuations. -/
def charsBefore : List Char → List Char → Bool
  | _, [] => false
  | [], _ :: _ => true
  | c :: cs, d :: ds => c.toNat < d.toNat || (c = d && charsBefore cs ds)

/-- The order of names: that of their bytes in UTF-8, which for text is that of the characters. -/
def nameBefore (a b : String) : Bool := charsBefore a.toList b.toList

/-- Every entry has its name before those of the entries after it. -/
def inNameOrder : List Entry → Prop
  | [] => True
  | e :: es => (∀ f ∈ es, nameBefore e.name f.name = true) ∧ inNameOrder es

namespace Registry

/-- The entry list with `e` in its place; an entry of the same name goes. -/
def place (e : Entry) : List Entry → List Entry
  | [] => [e]
  | f :: fs =>
    if e.name = f.name then e :: fs
    else if nameBefore e.name f.name then e :: f :: fs
    else f :: place e fs

end Registry

theorem charsBefore_irrefl (cs : List Char) : charsBefore cs cs = false := by
  induction cs with
  | nil => rfl
  | cons c cs ih => simp [charsBefore, ih]

theorem charsBefore_trans {as bs cs : List Char} (h : charsBefore as bs = true)
    (h' : charsBefore bs cs = true) : charsBefore as cs = true := by
  induction as generalizing bs cs with
  | nil =>
    cases cs with
    | nil => cases bs <;> simp [charsBefore] at h'
    | cons c cs => rfl
  | cons a as ih =>
    cases bs with
    | nil => simp [charsBefore] at h
    | cons b bs =>
      cases cs with
      | nil => simp [charsBefore] at h'
      | cons c cs =>
        simp only [charsBefore, Bool.or_eq_true, decide_eq_true_eq, Bool.and_eq_true] at *
        rcases h with h | ⟨rfl, h⟩
        · rcases h' with h' | ⟨rfl, _⟩
          · exact .inl (Nat.lt_trans h h')
          · exact .inl h
        · rcases h' with h' | ⟨rfl, h'⟩
          · exact .inl h'
          · exact .inr ⟨rfl, ih h h'⟩

theorem charsBefore_total {as bs : List Char} (hne : as ≠ bs) (h : charsBefore as bs = false) :
    charsBefore bs as = true := by
  induction as generalizing bs with
  | nil =>
    cases bs with
    | nil => exact absurd rfl hne
    | cons b bs => simp [charsBefore] at h
  | cons a as ih =>
    cases bs with
    | nil => rfl
    | cons b bs =>
      simp only [charsBefore, Bool.or_eq_false_iff, decide_eq_false_iff_not, Bool.and_eq_false_imp,
        decide_eq_true_eq, Bool.or_eq_true, Bool.and_eq_true] at *
      by_cases hab : a = b
      · subst hab
        exact .inr ⟨rfl, ih (fun hs => hne (by rw [hs])) (h.2 rfl)⟩
      · have hcode : a.toNat ≠ b.toNat := fun hn => hab (Char.toNat_inj.1 hn)
        have hle := h.1
        exact .inl (by omega)

theorem nameBefore_irrefl (a : String) : nameBefore a a = false := charsBefore_irrefl a.toList

theorem nameBefore_trans {a b c : String} (h : nameBefore a b = true) (h' : nameBefore b c = true) :
    nameBefore a c = true := charsBefore_trans h h'

theorem nameBefore_total {a b : String} (hne : a ≠ b) (h : nameBefore a b = false) :
    nameBefore b a = true :=
  charsBefore_total (fun hs => hne (String.toList_inj.1 hs)) h

theorem Registry.mem_place {e f : Entry} {es : List Entry} (h : f ∈ place e es) : f = e ∨ f ∈ es := by
  induction es with
  | nil => simpa [place] using h
  | cons g gs ih =>
    unfold place at h
    split at h
    · rcases List.mem_cons.1 h with rfl | h
      · exact .inl rfl
      · exact .inr (List.mem_cons_of_mem _ h)
    · split at h
      · simpa using h
      · rcases List.mem_cons.1 h with rfl | h
        · exact .inr (by simp)
        · exact (ih h).imp_right (List.mem_cons_of_mem _)

theorem Registry.inNameOrder_place (e : Entry) {es : List Entry} (h : inNameOrder es) :
    inNameOrder (place e es) := by
  induction es with
  | nil => exact ⟨by simp, trivial⟩
  | cons f fs ih =>
    obtain ⟨hf, hfs⟩ := h
    unfold place
    split
    · next heq => exact ⟨fun g hg => by rw [heq]; exact hf g hg, hfs⟩
    · next hne =>
      split
      · next hlt =>
        refine ⟨fun g hg => ?_, hf, hfs⟩
        rcases List.mem_cons.1 hg with rfl | hg
        · exact hlt
        · exact nameBefore_trans hlt (hf g hg)
      · next hlt =>
        refine ⟨fun g hg => ?_, ih hfs⟩
        rcases mem_place hg with rfl | hg
        · exact nameBefore_total hne (by simpa using hlt)
        · exact hf g hg

theorem inNameOrder_filter (keep : Entry → Bool) {es : List Entry} (h : inNameOrder es) :
    inNameOrder (es.filter keep) := by
  induction es with
  | nil => trivial
  | cons e es ih =>
    obtain ⟨he, hes⟩ := h
    by_cases hk : keep e
    · simp only [List.filter_cons, hk, if_true]
      exact ⟨fun f hf => he f (List.mem_filter.1 hf).1, ih hes⟩
    · simpa [hk] using ih hes

/-- Entries by name, in name order. -/
structure Registry where
  entries : List Entry
  ordered : inNameOrder entries

namespace Registry

def empty : Registry := ⟨[], trivial⟩

instance : Inhabited Registry := ⟨empty⟩

def get? (r : Registry) (name : String) : Option Entry := r.entries.find? (·.name = name)

def contains (r : Registry) (name : String) : Bool := (r.get? name).isSome

/-- Puts an entry under its name; the one that was there goes. -/
def insert (r : Registry) (e : Entry) : Registry := ⟨place e r.entries, inNameOrder_place e r.ordered⟩

def erase (r : Registry) (name : String) : Registry :=
  ⟨r.entries.filter (·.name ≠ name), inNameOrder_filter _ r.ordered⟩

def size (r : Registry) : Nat := r.entries.length

def isEmpty (r : Registry) : Bool := r.entries.isEmpty

def ofList (es : List Entry) : Registry := es.foldl insert empty

end Registry

end Sideload
