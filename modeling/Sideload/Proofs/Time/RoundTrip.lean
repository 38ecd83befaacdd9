import Mathlib
import Sideload.Time.Reader

/-!
The written form of a moment reads back exactly when the year has four digits. A year outside
0 to 9999 is written with a sign, and the strict reader wants a digit there.
-/

namespace Sideload

namespace Moment

/-! ### Digits -/

theorem ofDigitChars_eq_foldl (ds : List Char) (acc : Nat) :
    ds.foldl (fun n c => n * 10 + (c.toNat - 48)) acc = Nat.ofDigitChars 10 ds acc := by
  rw [Nat.ofDigitChars_eq_foldl]
  congr 1
  funext n c
  rw [Nat.mul_comm]
  rfl

theorem readDigits_append {ds : List Char} (h : ∀ c ∈ ds, c.isDigit = true) (acc : Nat)
    (rest : List Char) :
    readDigits ds.length acc (ds ++ rest) = .ok (Nat.ofDigitChars 10 ds acc, rest) := by
  induction ds generalizing acc with
  | nil => rfl
  | cons c ds ih =>
      have hc : digit? c = some (c.toNat - 48) := by
        rw [digit?, if_pos (h c (by simp))]
      rw [List.length_cons, List.cons_append, readDigits, hc]
      simp only
      rw [ih fun d hd => h d (by simp [hd]), ← ofDigitChars_eq_foldl, ← ofDigitChars_eq_foldl]
      rfl

theorem length_padded (width n : Nat) (hw : 0 < width) (h : n < 10 ^ width) :
    (padded width n).length = width := by
  have hle : (Nat.toDigits 10 n).length ≤ width :=
    (Nat.length_toDigits_le_iff (by decide) hw).2 h
  simp only [padded, List.length_append, List.length_replicate]
  omega

theorem isDigit_of_mem_padded {width n : Nat} {c : Char} (h : c ∈ padded width n) :
    c.isDigit = true := by
  rcases List.mem_append.1 h with h | h
  · rw [List.eq_of_mem_replicate h]
    rfl
  · exact Nat.isDigit_of_mem_toDigits (by decide) (by decide) h

theorem ofDigitChars_padded (width n : Nat) : Nat.ofDigitChars 10 (padded width n) 0 = n := by
  rw [padded, Nat.ofDigitChars_append, Nat.ofDigitChars_replicate_zero, Nat.mul_zero,
    Nat.ofDigitChars_ten_toDigits]

theorem readDigits_padded {width n : Nat} (hw : 0 < width) (h : n < 10 ^ width)
    (rest : List Char) : readDigits width 0 (padded width n ++ rest) = .ok (n, rest) := by
  have hread := readDigits_append (fun c (hc : c ∈ padded width n) => isDigit_of_mem_padded hc) 0 rest
  rwa [length_padded width n hw h, ofDigitChars_padded] at hread

/-! ### Fractions -/

theorem readSomeDigits_of_takeWhile {most : Nat} {cs ds : List Char} (hne : ds ≠ [])
    (h : (cs.take most).takeWhile Char.isDigit = ds) :
    readSomeDigits most cs =
      .ok (ds.length, Nat.ofDigitChars 10 ds 0, cs.drop ds.length) := by
  obtain ⟨d, rest, rfl⟩ := List.exists_cons_of_ne_nil hne
  unfold readSomeDigits
  simp only [h, ofDigitChars_eq_foldl]

/-- Up to nine digits after a point, with something else behind them, are read as they stand. -/
theorem readFraction_padded (width n : Nat) (hw : 0 < width) (hw' : width ≤ 9)
    (h : n < 10 ^ width) {c : Char} (hc : c.isDigit = false) (rest : List Char) :
    readFraction ('.' :: (padded width n ++ c :: rest)) =
      .ok (n * 10 ^ (9 - width), c :: rest) := by
  have hlen := length_padded width n hw h
  have hne : padded width n ≠ [] := List.ne_nil_of_length_pos (by omega)
  have htake : ((padded width n ++ c :: rest).take 9).takeWhile Char.isDigit = padded width n := by
    rw [List.take_append, List.take_of_length_le (by omega),
      List.takeWhile_append_of_pos fun d hd => isDigit_of_mem_padded hd]
    cases hk : 9 - (padded width n).length with
    | zero => simp
    | succ k => simp [hc]
  rw [readFraction, readSomeDigits_of_takeWhile hne htake, ofDigitChars_padded, hlen,
    List.drop_left' hlen]
  simp [hc, bind, Except.bind]

/-- The shortest exact fraction is read back, whatever its length. -/
theorem readFraction_fractionText {n : Nat} (h : n < 1000000000) :
    readFraction (fractionText n ++ ['Z']) = .ok (n, ['Z']) := by
  unfold fractionText
  split
  · next hzero =>
      subst hzero
      rfl
  · split
    · next hmilli =>
        have hread := readFraction_padded 3 (n / 1000000) (by decide) (by decide) (by omega)
          (show Char.isDigit 'Z' = false from rfl) []
        rw [List.cons_append, hread, show n / 1000000 * 10 ^ (9 - 3) = n by omega]
    · split
      · next hmicro =>
          have hread := readFraction_padded 6 (n / 1000) (by decide) (by decide) (by omega)
            (show Char.isDigit 'Z' = false from rfl) []
          rw [List.cons_append, hread, show n / 1000 * 10 ^ (9 - 6) = n by omega]
      · have hread := readFraction_padded 9 n (by decide) (by decide) (by omega)
          (show Char.isDigit 'Z' = false from rfl) []
        rw [List.cons_append, hread, show n * 10 ^ (9 - 9) = n by omega]

/-! ### The time of day -/

theorem second_lt (m : Moment) : m.second < 86400 := by
  have := m.valid
  simp only [isTimeOfDay, Bool.and_eq_true, decide_eq_true_eq] at this
  exact this.1.1

theorem nanos_lt (m : Moment) : m.nanos < 2000000000 := by
  have := m.valid
  simp only [isTimeOfDay, Bool.and_eq_true, decide_eq_true_eq] at this
  exact this.1.2

/-- Nanoseconds past a whole second stand for a leap second, at the end of a minute. -/
theorem second_mod_of_leap (m : Moment) (h : 1000000000 ≤ m.nanos) : m.second % 60 = 59 := by
  have := m.valid
  simp only [isTimeOfDay, Bool.and_eq_true, Bool.or_eq_true, decide_eq_true_eq, beq_iff_eq] at this
  rcases this.2 with h' | h'
  · omega
  · exact h'

theorem shownSecond_lt (m : Moment) : m.shownSecond < 100 := by
  have := m.nanos_lt
  unfold shownSecond
  omega

theorem fraction_lt (m : Moment) : m.fraction < 1000000000 := Nat.mod_lt _ (by decide)

/-- The parts of the clock that are shown give the second and the nanoseconds back. -/
theorem timeOfDay?_shown (m : Moment) :
    ∃ extra, timeOfDay? m.hour m.minute m.shownSecond = some (m.second, extra) ∧
      extra + m.fraction = m.nanos := by
  have hs := m.second_lt
  have hn := m.nanos_lt
  have hhour : m.hour < 24 ∧ m.minute < 60 := by
    unfold hour minute
    omega
  unfold timeOfDay?
  rw [if_pos hhour]
  by_cases hleap : m.nanos < 1000000000
  · refine ⟨0, ?_, ?_⟩
    · have hshown : m.shownSecond = m.second % 60 := by unfold shownSecond; omega
      rw [if_pos (by omega), hshown]
      congr 2
      unfold hour minute
      omega
    · unfold fraction
      omega
  · have hmod := m.second_mod_of_leap (by omega)
    have hshown : m.shownSecond = 60 := by unfold shownSecond; omega
    refine ⟨1000000000, ?_, ?_⟩
    · rw [if_neg (by omega), if_pos hshown]
      congr 2
      unfold hour minute
      omega
    · unfold fraction
      omega

theorem ofLocal?_zero (m : Moment) : ofLocal? m.date m.second m.nanos 0 = some m := by
  have hs := m.second_lt
  have hdate : (if (m.second : Int) - 0 < 0 then m.date.previous?
      else if (m.second : Int) - 0 < 86400 then some m.date else m.date.next?) = some m.date := by
    rw [if_neg (by omega), if_pos (by omega)]
  have hsecond : (((m.second : Int) - 0) % 86400).toNat = m.second := by omega
  simp only [ofLocal?, hdate, hsecond, Option.bind_some, ofParts?_self]

/-! ### The date -/

theorem month_lt (d : Date) : d.month < 100 := by
  have := d.valid
  simp only [isDate, Bool.and_eq_true, decide_eq_true_eq] at this
  omega

theorem day_lt (d : Date) : d.day < 100 := by
  have := d.valid
  simp only [isDate, Bool.and_eq_true, decide_eq_true_eq] at this
  have hmonth : daysInMonth d.year d.month ≤ 31 := by
    unfold daysInMonth
    split
    · split <;> omega
    · split <;> omega
  omega

/-! ### Whole moments -/

theorem length_le_byteLength (cs : List Char) : cs.length ≤ byteLength cs := by
  induction cs with
  | nil => simp
  | cons c cs ih =>
      have := c.utf8Size_pos
      simp only [List.length_cons, byteLength]
      omega

theorem leastLength_le_byteLength {m : Moment} (h : 0 ≤ m.date.year ∧ m.date.year ≤ 9999) :
    ¬ byteLength m.text < leastLength := by
  have h1 := length_padded 4 m.date.year.toNat (by decide) (by omega)
  have h2 := length_padded 2 _ (by decide) (month_lt m.date)
  have h3 := length_padded 2 _ (by decide) (day_lt m.date)
  have hsecond := m.second_lt
  have h4 := length_padded 2 m.hour (by decide) (by unfold hour; omega)
  have h5 := length_padded 2 m.minute (by decide) (by unfold minute; omega)
  have h6 := length_padded 2 _ (by decide) (shownSecond_lt m)
  have hlen : 19 ≤ m.text.length := by
    simp only [text, dateText, clockText, yearText, if_pos h, List.length_append,
      List.length_cons, h1, h2, h3, h4, h5, h6]
    omega
  have := length_le_byteLength m.text
  unfold leastLength
  omega

/-- A moment whose year has four digits is read back from its written form. -/
theorem read_text {m : Moment} (h : 0 ≤ m.date.year ∧ m.date.year ≤ 9999) :
    read (String.ofList m.text) = .ok m := by
  have hyear : m.date.year.toNat < 10 ^ 4 := by omega
  have hcast : (m.date.year.toNat : Int) = m.date.year := by omega
  have hs := m.second_lt
  obtain ⟨extra, htime, hextra⟩ := m.timeOfDay?_shown
  have hshape : m.text = padded 4 m.date.year.toNat ++ '-' :: (padded 2 m.date.month ++
      '-' :: (padded 2 m.date.day ++ 'T' :: (padded 2 m.hour ++ ':' :: (padded 2 m.minute ++
      ':' :: (padded 2 m.shownSecond ++ (fractionText m.fraction ++ ['Z'])))))) := by
    simp [text, dateText, clockText, yearText, if_pos h]
  unfold read
  rw [String.toList_ofList, if_neg (leastLength_le_byteLength h), hshape]
  simp only [bind, Except.bind]
  rw [readDigits_padded (by decide) hyear]
  simp only [readChar, if_true]
  rw [readDigits_padded (by decide) (month_lt m.date)]
  simp only [if_true]
  rw [readDigits_padded (by decide) (day_lt m.date)]
  simp only [hcast, Date.ofNumbers?_self, orRange, readMark, true_or, if_true]
  rw [readDigits_padded (by decide) (by unfold hour; omega)]
  simp only [if_true]
  rw [readDigits_padded (by decide) (by unfold minute; omega)]
  simp only [if_true]
  rw [readDigits_padded (by decide) (shownSecond_lt m)]
  simp only [readFraction_fractionText m.fraction_lt, htime]
  simp [readOffset, hextra, ofLocal?_zero]

/-- A year that is written with a sign is not read back. -/
theorem read_text_error {m : Moment} (h : ¬(0 ≤ m.date.year ∧ m.date.year ≤ 9999)) :
    ∃ why, read (String.ofList m.text) = .error why := by
  have hsign : ∃ c rest, m.text = c :: rest ∧ digit? c = none := by
    by_cases hneg : m.date.year < 0
    · exact ⟨'-', _, by simp [text, dateText, yearText, if_neg h, if_pos hneg]; rfl, rfl⟩
    · exact ⟨'+', _, by simp [text, dateText, yearText, if_neg h, if_neg hneg]; rfl, rfl⟩
  obtain ⟨c, rest, htext, hc⟩ := hsign
  unfold read
  rw [String.toList_ofList]
  by_cases hlen : byteLength m.text < leastLength
  · exact ⟨.tooShort, by rw [if_pos hlen]; rfl⟩
  · refine ⟨.invalid, ?_⟩
    rw [if_neg hlen, htext]
    simp only [bind, Except.bind, readDigits, hc]

end Moment

end Sideload
