import Sideload.Proofs.Time.RoundTrip

/-!
The written form of every moment is read back where signed years are read: leap seconds and years of any length
included.
-/

namespace Sideload

namespace Moment

variable {c : Char} {n : Nat} {y : Int} {rest : List Char}

/-! ### Numbers -/

theorem trimStart_cons (h : isBlank c = false) : trimStart (c :: rest) = c :: rest := by
  rw [trimStart, List.dropWhile_cons_of_neg (by simp [h])]

/-- A digit is no blank. -/
theorem isBlank_of_isDigit (h : c.isDigit = true) : isBlank c = false := by
  obtain ⟨hlo, hhi⟩ := Char.isDigit_iff_toNat.1 h
  have hzero : '0'.toNat = 48 := rfl
  have hnine : '9'.toNat = 57 := rfl
  simp only [isBlank, Bool.or_eq_false_iff, Bool.and_eq_false_iff, decide_eq_false_iff_not, beq_eq_false_iff_ne]
  omega

theorem padded_ne_nil (width n : Nat) : padded width n ≠ [] := by
  have hdigits : Nat.toDigits 10 n ≠ [] := List.ne_nil_of_length_pos Nat.length_toDigits_pos
  exact List.append_ne_nil_of_right_ne_nil _ hdigits

/-- A number begins with a digit. -/
theorem exists_padded_eq_cons (width n : Nat) : ∃ d ds, padded width n = d :: ds ∧ d.isDigit = true := by
  obtain ⟨d, ds, hds⟩ := List.exists_cons_of_ne_nil (padded_ne_nil width n)
  exact ⟨d, ds, hds, isDigit_of_mem_padded (hds ▸ List.mem_cons_self ..)⟩

theorem trimStart_padded (width n : Nat) (rest : List Char) :
    trimStart (padded width n ++ rest) = padded width n ++ rest := by
  obtain ⟨d, ds, hds, hd⟩ := exists_padded_eq_cons width n
  rw [hds, List.cons_append]
  exact trimStart_cons (isBlank_of_isDigit hd)

/-- All digits of a number are read if there is room for them and something else comes behind. -/
theorem readSomeDigits_padded {width most : Nat} (hmost : (padded width n).length ≤ most)
    (hc : c.isDigit = false) :
    readSomeDigits most (padded width n ++ c :: rest) = .ok ((padded width n).length, n, c :: rest) := by
  have htake : ((padded width n ++ c :: rest).take most).takeWhile Char.isDigit = padded width n := by
    rw [List.take_append, List.take_of_length_le hmost,
      List.takeWhile_append_of_pos fun d hd => isDigit_of_mem_padded hd]
    cases hk : most - (padded width n).length with
    | zero => simp
    | succ k => simp [hc]
  rw [readSomeDigits_of_takeWhile (padded_ne_nil _ _) htake, ofDigitChars_padded, List.drop_left]

theorem readShort_padded (h : n < 100) (hc : c.isDigit = false) :
    readShort (padded 2 n ++ c :: rest) = .ok (n, c :: rest) := by
  rw [readShort, trimStart_padded,
    readSomeDigits_padded (length_padded 2 n (by decide) h).le hc]
  rfl

/-- A year is read with or without a sign. -/
theorem readYear_yearText (hc : c.isDigit = false) (y : Int) (rest : List Char) :
    readYear (yearText y ++ c :: rest) = .ok (y, c :: rest) := by
  have hsigned : ∀ cs : List Char, cs = padded 4 y.natAbs ++ c :: rest →
      readSomeDigits cs.length cs = .ok ((padded 4 y.natAbs).length, y.natAbs, c :: rest) := by
    rintro cs rfl
    exact readSomeDigits_padded (by rw [List.length_append]; omega) hc
  unfold yearText
  split
  · next hyear =>
      have hlength := length_padded 4 y.toNat (by decide) (by omega)
      have hcast : (y.toNat : Int) = y := by omega
      have hsign : ∀ c' ∈ ['-', '+'], ∀ ds, padded 4 y.toNat ++ c :: rest ≠ c' :: ds := by
        obtain ⟨d, ds', hds, hd⟩ := exists_padded_eq_cons 4 y.toNat
        rw [hds]
        rintro c' hc' ds heq
        obtain ⟨rfl, -⟩ := List.cons.inj heq
        simp only [List.mem_cons, List.not_mem_nil, or_false] at hc'
        rcases hc' with rfl | rfl <;> exact absurd hd (by decide)
      rw [readYear, trimStart_padded]
      split
      · next heq => exact absurd heq (hsign '-' (by simp) _)
      · next heq => exact absurd heq (hsign '+' (by simp) _)
      · rw [readSomeDigits_padded hlength.le hc]
        simp [bind, Except.bind, hcast]
  · split
    · next hneg =>
        rw [List.cons_append, readYear, trimStart_cons (by decide)]
        simp only [bind, Except.bind, hsigned _ rfl]
        congr 2
        omega
    · next hpos =>
        rw [List.cons_append, readYear, trimStart_cons (by decide)]
        simp only [bind, Except.bind, hsigned _ rfl]
        congr 2
        omega

/-! ### Whole moments -/

/-- Behind the seconds there is no further digit. -/
theorem exists_fractionText_eq_cons (n : Nat) :
    ∃ c rest, fractionText n ++ ['Z'] = c :: rest ∧ c.isDigit = false := by
  unfold fractionText
  split
  · exact ⟨'Z', [], rfl, rfl⟩
  · split
    · exact ⟨'.', _, rfl, rfl⟩
    · split <;> exact ⟨'.', _, rfl, rfl⟩

theorem orRange_some {α : Type} (a : α) : orRange (some a) = .ok a := rfl

/-- A moment is read back from its written form, whatever its year. -/
theorem readRelaxed_text (m : Moment) : readRelaxed (String.ofList m.text) = .ok m := by
  have hs := m.second_lt
  obtain ⟨extra, htime, hextra⟩ := m.timeOfDay?_shown
  have hshape : m.text = yearText m.date.year ++ '-' :: (padded 2 m.date.month ++
      '-' :: (padded 2 m.date.day ++ 'T' :: (padded 2 m.hour ++ ':' :: (padded 2 m.minute ++
      ':' :: (padded 2 m.shownSecond ++ (fractionText m.fraction ++ ['Z'])))))) := by
    simp [text, dateText, clockText]
  unfold readRelaxed
  rw [String.toList_ofList, hshape]
  simp only [bind, Except.bind]
  rw [readYear_yearText (by decide)]
  simp only [trimStart_cons (show isBlank '-' = false by decide), readChar, if_true]
  rw [readShort_padded (month_lt m.date) (by decide)]
  simp only [trimStart_cons (show isBlank '-' = false by decide), if_true]
  rw [readShort_padded (day_lt m.date) (by decide)]
  simp only [readMark, true_or, if_true]
  rw [readShort_padded (by unfold hour; omega) (by decide)]
  simp only [trimStart_cons (show isBlank ':' = false by decide), if_true]
  rw [readShort_padded (by unfold minute; omega) (by decide)]
  simp only [trimStart_cons (show isBlank ':' = false by decide), if_true]
  obtain ⟨c, rest, hrest, hc⟩ := exists_fractionText_eq_cons m.fraction
  rw [hrest, readShort_padded m.shownSecond_lt hc, ← hrest]
  simp only [readFraction_fractionText m.fraction_lt]
  have hmark : trimStart ['Z'] = ['Z'] := rfl
  have hoffset : readOffset skipColons ['Z'] = .ok (0, []) := rfl
  have hend : trimStart [] = [] := rfl
  rw [hmark, if_neg (by decide)]
  have hrange : ¬ ((0 : Int) ≤ -86400 ∨ 86400 ≤ (0 : Int)) := by omega
  simp only [hoffset, hend, ne_eq, not_true, if_false]
  rw [Date.ofNumbers?_self, htime, orRange_some, orRange_some]
  simp only
  rw [if_neg hrange, hextra, ofLocal?_zero, orRange_some]

end Moment

end Sideload
