import Mathlib.Tactic.SplitIfs
import Sideload.Toml.Scalar
import Sideload.Toml.Text

/-!
A string that is written in TOML is read back, in whichever of the four forms it is written. Between plain quotes
everything has an escape that needs one; between three quotes a run of quotes may also stand at the end, where the
reader has to tell them from those that close the string.
-/

namespace Sideload.Toml

variable {c : Char} {cs rest acc t : List Char} {run : Nat} {multi : Bool}

/-! ### The form of a string -/

theorem notMem_of_longestRun_eq_zero (h : longestRun c run cs = 0) : c ∉ cs := by
  induction cs generalizing run with
  | nil => simp
  | cons d ds ih =>
      rw [longestRun] at h
      split at h
      · omega
      · next hd =>
          rw [List.mem_cons, not_or]
          exact ⟨Ne.symm hd, ih h⟩

/-- A character may stand in a string as it is, unless it is part of the syntax. -/
theorem isPlain_of_not_isControl (h : isControl c = false) (hc : c ≠ '\n') : isPlain c = true := by
  by_cases htab : c = '\t'
  · simp [isPlain, htab]
  · simp only [isControl, htab, hc, ne_eq, not_false_eq_true, decide_true, Bool.true_and, Bool.or_eq_false_iff,
      decide_eq_false_iff_not] at h
    simp [isPlain, htab]
    omega

/-- What a form needs to hold a string. Where there are escapes nothing is needed. -/
inductive Form.Suits (cs : List Char) : Form → Prop
  | basic : Suits cs .basic
  | literal (hplain : ∀ c ∈ cs, isPlain c = true) (hquote : '\'' ∉ cs) : Suits cs .literal
  | multiBasic : Suits cs .multiBasic
  | multiLiteral (hplain : ∀ c ∈ cs, isPlain c = true ∨ c = '\n') (hrun : longestRun '\'' 0 cs ≤ 2) :
      Suits cs .multiLiteral

theorem Form.of_suits (cs : List Char) : Form.Suits cs (Form.of cs) := by
  have hcontrol : cs.any isControl = false → ∀ c ∈ cs, isControl c = false := fun h c hc =>
    Bool.eq_false_iff.2 fun hc' => by simp [List.any_eq_true.2 ⟨c, hc, hc'⟩] at h
  unfold Form.of
  dsimp only
  split_ifs with hbasic hliteral hmulti hmultiLiteral hbreaks
  · exact .basic
  · simp only [Bool.and_eq_true, Bool.not_eq_true', decide_eq_true_eq] at hliteral
    obtain ⟨⟨hcontrols, hline⟩, hquote⟩ := hliteral
    refine .literal (fun c hc => isPlain_of_not_isControl (hcontrol hcontrols c hc) ?_)
      (notMem_of_longestRun_eq_zero hquote)
    rintro rfl
    simp [hc] at hline
  · exact .multiBasic
  · simp only [Bool.and_eq_true, Bool.not_eq_true', decide_eq_true_eq] at hmultiLiteral
    refine .multiLiteral (fun c hc => ?_) hmultiLiteral.2
    by_cases hline : c = '\n'
    · exact .inr hline
    · exact .inl (isPlain_of_not_isControl (hcontrol hmultiLiteral.1 c hc) hline)
  · exact .multiBasic
  · exact .basic

/-! ### Escapes -/

theorem hexDigit?_hexDigit : ∀ n < 16, hexDigit? (hexDigit n) = some n := by decide

/-- An escape with a number stands for the character of that number. -/
theorem escape?_number (h : c.toNat < 256) (t : List Char) :
    escape? ('u' :: '0' :: '0' :: hexDigit (c.toNat / 16) :: hexDigit (c.toNat % 16) :: t) = some (c, 5) := by
  have hzero : hexDigit? '0' = some 0 := rfl
  have hvalue : (((0 * 16 + 0) * 16 + 0) * 16 + c.toNat / 16) * 16 + c.toNat % 16 = c.toNat := by omega
  simp only [escape?, hexChar?, List.take_succ_cons, List.take_zero, List.mapM_cons, List.mapM_nil,
    hexDigit?_hexDigit (c.toNat / 16) (by omega), hexDigit?_hexDigit (c.toNat % 16) (by omega), hzero,
    Option.bind_eq_bind, Option.bind_some, Option.pure_def, List.foldl_cons, List.foldl_nil, hvalue]
  simp
  omega

/-- How a character that is no quote is written between quotes. -/
inductive Written (multi : Bool) (c : Char) : List Char → Prop
  | escape {e : List Char} (hne : e ≠ []) (h : ∀ t, escape? (e ++ t) = some (c, e.length))
      (hbreak : ∀ t, continuation? (e ++ t) = none) : Written multi c ('\\' :: e)
  | lineBreak (hmulti : multi = true) (h : c = '\n') : Written multi c ['\n']
  | plain (h : isPlain c = true) (hslash : c ≠ '\\') (hline : c ≠ '\n') : Written multi c [c]

theorem escapedChar_written (multi : Bool) (c : Char) : Written multi c (escapedChar multi c) := by
  have hshort : ∀ {e : Char}, (∀ t, escape? (e :: t) = some (c, 1)) → (∀ t, continuation? (e :: t) = none) →
      Written multi c ['\\', e] := fun h hbreak => .escape (by simp) h hbreak
  unfold escapedChar
  split_ifs with hback htab hline hmulti hfeed hreturn hslash hcontrol
  · exact hshort (fun t => by rw [hback]; rfl) fun t => rfl
  · exact hshort (fun t => by rw [htab]; rfl) fun t => rfl
  · exact .lineBreak hmulti hline
  · exact hshort (fun t => by rw [hline]; rfl) fun t => rfl
  · exact hshort (fun t => by rw [hfeed]; rfl) fun t => rfl
  · exact hshort (fun t => by rw [hreturn]; rfl) fun t => rfl
  · exact hshort (fun t => by rw [hslash]; rfl) fun t => rfl
  · refine .escape (by simp) (fun t => escape?_number ?_ t) fun t => rfl
    simp only [isControl, Bool.and_eq_true, Bool.or_eq_true, decide_eq_true_eq] at hcontrol
    omega
  · exact .plain (isPlain_of_not_isControl (by simpa using hcontrol) hline) hslash hline

/-- A written character does not begin with a quote. -/
theorem Written.head?_ne (h : Written multi c cs) (hc : c ≠ '"') : (cs ++ t).head? ≠ some '"' := by
  cases h with
  | escape _ _ _ => simp
  | lineBreak _ _ => simp
  | plain _ _ _ => simpa using hc

/-- Escaped text begins with a quote only if that is a quote without an escape. -/
theorem head?_escaped_ne {limit : Nat} (h : c ≠ '"' ∨ ¬ run < limit) :
    (escaped multi limit run (c :: cs) ++ t).head? ≠ some '"' := by
  by_cases hc : c = '"'
  · subst hc
    rw [escaped, if_neg (h.resolve_left (by simp))]
    simp
  · rw [escaped, List.append_assoc]
    · exact (escapedChar_written multi c).head?_ne hc
    · exact hc

/-! ### Plain quotes -/

theorem readBasic_escape {e : List Char} (h : ∀ t, escape? (e ++ t) = some (c, e.length)) :
    readBasic acc ('\\' :: (e ++ t)) = readBasic (c :: acc) t := by
  rw [readBasic, h]
  simp

theorem readBasic_plain (hquote : c ≠ '"') (hslash : c ≠ '\\') (h : isPlain c = true) :
    readBasic acc (c :: t) = readBasic (c :: acc) t := by
  rw [readBasic, if_pos h]
  · exact hquote
  · exact hslash

theorem readBasic_escapedChar (hc : c ≠ '"') :
    readBasic acc (escapedChar false c ++ t) = readBasic (c :: acc) t := by
  have hwritten := escapedChar_written false c
  generalize escapedChar false c = cs at hwritten
  cases hwritten with
  | escape _ h _ => exact readBasic_escape h
  | lineBreak hmulti _ => cases hmulti
  | plain h hslash _ => exact readBasic_plain hc hslash h

/-- Escaped text is read up to the closing quote. -/
theorem readBasic_escaped (cs acc rest : List Char) (run : Nat) :
    readBasic acc (escaped false 0 run cs ++ '"' :: rest) = some (String.ofList (acc.reverse ++ cs), rest) := by
  induction cs generalizing acc run with
  | nil => simp [escaped, readBasic]
  | cons c cs ih =>
      by_cases hc : c = '"'
      · subst hc
        have hquote := @readBasic_escape '"' acc (escaped false 0 0 cs ++ '"' :: rest) ['"'] fun _ => rfl
        rw [escaped, if_neg (Nat.not_lt_zero run)]
        simp only [List.cons_append, List.nil_append] at hquote ⊢
        rw [hquote, ih]
        simp
      · rw [escaped, List.append_assoc, readBasic_escapedChar hc, ih]
        · simp
        · exact hc

/-! ### Single quotes -/

/-- Plain text is read up to the closing quote. -/
theorem readLiteral_append (hplain : ∀ c ∈ cs, isPlain c = true) (hquote : '\'' ∉ cs) (acc rest : List Char) :
    readLiteral acc (cs ++ '\'' :: rest) = some (String.ofList (acc.reverse ++ cs), rest) := by
  induction cs generalizing acc with
  | nil => simp [readLiteral]
  | cons c cs ih =>
      rw [List.mem_cons, not_or] at hquote
      rw [List.cons_append, readLiteral, if_pos (hplain c (List.mem_cons_self ..)),
        ih (fun c hc => hplain c (List.mem_cons_of_mem _ hc)) hquote.2]
      · simp
      · exact Ne.symm hquote.1

/-! ### Three quotes -/

/-- What follows a string begins with no quote of that kind. -/
theorem close_append {quote : Char} (n : Nat) (hn : n ≤ 2) (hrest : rest.head? ≠ some quote) (acc : List Char) :
    close quote acc (List.replicate n quote ++ rest) =
      (String.ofList (acc.reverse ++ List.replicate n quote), rest) := by
  have hextra : closingExtra quote (List.replicate n quote ++ rest) = n := by
    obtain rfl | rfl | rfl : n = 0 ∨ n = 1 ∨ n = 2 := by omega
    · cases rest with
      | nil => rfl
      | cons c rest =>
          have hc : c ≠ quote := by simpa using hrest
          cases rest <;> simp [closingExtra, hc]
    · cases rest with
      | nil => simp [closingExtra]
      | cons c rest =>
          have hc : c ≠ quote := by simpa using hrest
          simp [closingExtra, hc]
    · simp [closingExtra, List.replicate]
  rw [close, hextra]
  simp

/-- A character that begins no escape, line break or closing quotes stands for itself. -/
theorem readMultiBasic_plain (h : isPlain c = true) (hslash : c ≠ '\\') (hclose : ¬ ['"', '"', '"'] <+: c :: t) :
    readMultiBasic acc (c :: t) = readMultiBasic (c :: acc) t := by
  have hfeed : c ≠ '\r' := by
    rintro rfl
    cases h
  by_cases hline : c = '\n'
  · subst hline
    cases h
  · rw [readMultiBasic, if_pos h]
    · rintro u rfl rfl
      exact hclose (by simp)
    · exact hslash
    · exact hline
    · exact fun _ h _ => hfeed h

theorem readMultiBasic_escape {e : List Char} (h : ∀ t, escape? (e ++ t) = some (c, e.length))
    (hbreak : ∀ t, continuation? (e ++ t) = none) :
    readMultiBasic acc ('\\' :: (e ++ t)) = readMultiBasic (c :: acc) t := by
  rw [readMultiBasic]
  split
  · next hcontinued => cases (hbreak t).symm.trans hcontinued
  · rw [h]
    simp

theorem readMultiBasic_escapedChar (hc : c ≠ '"') :
    readMultiBasic acc (escapedChar true c ++ t) = readMultiBasic (c :: acc) t := by
  have hwritten := escapedChar_written true c
  generalize escapedChar true c = cs at hwritten
  cases hwritten with
  | escape _ h hbreak => exact readMultiBasic_escape h hbreak
  | lineBreak _ h =>
      subst h
      rw [List.singleton_append, readMultiBasic]
  | plain h hslash _ =>
      refine readMultiBasic_plain h hslash fun hclose => hc ?_
      exact (List.cons_prefix_cons.1 hclose).1.symm

/-- Quotes that are not closing ones stand for themselves. -/
theorem readMultiBasic_quote (h : ¬ ['"', '"'] <+: t) :
    readMultiBasic acc ('"' :: t) = readMultiBasic ('"' :: acc) t :=
  readMultiBasic_plain rfl (by decide) fun hclose => h (List.cons_prefix_cons.1 hclose).2

theorem readMultiBasic_close (n : Nat) (hn : n ≤ 2) (hrest : rest.head? ≠ some '"') (acc : List Char) :
    readMultiBasic acc ('"' :: '"' :: '"' :: (List.replicate n '"' ++ rest)) =
      some (String.ofList (acc.reverse ++ List.replicate n '"'), rest) := by
  rw [readMultiBasic, close_append n hn hrest]

theorem head?_eq_of_initial {q : Char} {u : List Char} (h : q :: u <+: t) : t.head? = some q := by
  obtain ⟨v, rfl⟩ := h
  rfl

/-- After a quote without an escape two more come first only where all text ends in such quotes. -/
theorem not_two_quotes (hrun : run < 2) (h : ¬ (c = '"' ∧ cs = [] ∧ run = 0)) :
    ¬ ['"', '"'] <+: escaped true 2 (run + 1) (c :: cs) ++ t := by
  intro htwo
  by_cases hfirst : c = '"' ∧ run = 0
  · obtain ⟨rfl, rfl⟩ := hfirst
    obtain ⟨d, ds, rfl⟩ := List.exists_cons_of_ne_nil fun hnil => h ⟨rfl, hnil, rfl⟩
    rw [escaped, if_pos (by decide), List.cons_append, List.cons_prefix_cons] at htwo
    exact head?_escaped_ne (.inr (by decide)) (head?_eq_of_initial htwo.2)
  · refine head?_escaped_ne ?_ (head?_eq_of_initial htwo)
    by_cases hc : c = '"'
    · exact .inr fun hlt => hfirst ⟨hc, by omega⟩
    · exact .inl hc

/-- Escaped text is read up to the three closing quotes, and quotes before these belong to it. -/
theorem readMultiBasic_escaped (hrest : rest.head? ≠ some '"') (cs acc : List Char) (run : Nat) :
    readMultiBasic acc (escaped true 2 run cs ++ '"' :: '"' :: '"' :: rest) =
      some (String.ofList (acc.reverse ++ cs), rest) := by
  induction cs generalizing acc run with
  | nil => simpa [escaped] using readMultiBasic_close 0 (by decide) hrest acc
  | cons c cs ih =>
      by_cases hc : c = '"'
      · subst hc
        rw [escaped]
        split
        · next hrun =>
            -- a quote without an escape may belong to the closing ones, together with one before it
            cases cs with
            | nil => simpa [escaped] using readMultiBasic_close 1 (by decide) hrest acc
            | cons c cs =>
                by_cases htwo : c = '"' ∧ cs = [] ∧ run = 0
                · obtain ⟨rfl, rfl, rfl⟩ := htwo
                  simpa [escaped] using readMultiBasic_close 2 (by decide) hrest acc
                · rw [List.cons_append, readMultiBasic_quote, ih]
                  · simp
                  · exact not_two_quotes hrun htwo
        · have hescape := @readMultiBasic_escape '"' acc (escaped true 2 0 cs ++ '"' :: '"' :: '"' :: rest) ['"']
            (fun _ => rfl) fun _ => rfl
          simp only [List.cons_append, List.nil_append] at hescape ⊢
          rw [hescape, ih]
          simp
      · rw [escaped, List.append_assoc, readMultiBasic_escapedChar hc, ih]
        · simp
        · exact hc

/-! ### Three single quotes -/

theorem readMultiLiteral_plain (h : isPlain c = true) (hclose : ¬ ['\'', '\'', '\''] <+: c :: t) :
    readMultiLiteral acc (c :: t) = readMultiLiteral (c :: acc) t := by
  have hfeed : c ≠ '\r' := by
    rintro rfl
    cases h
  have hline : c ≠ '\n' := by
    rintro rfl
    cases h
  rw [readMultiLiteral, if_pos h]
  · rintro u rfl rfl
    exact hclose (by simp)
  · exact hline
  · exact fun _ h _ => hfeed h

theorem readMultiLiteral_close (n : Nat) (hn : n ≤ 2) (hrest : rest.head? ≠ some '\'') (acc : List Char) :
    readMultiLiteral acc ('\'' :: '\'' :: '\'' :: (List.replicate n '\'' ++ rest)) =
      some (String.ofList (acc.reverse ++ List.replicate n '\''), rest) := by
  rw [readMultiLiteral, close_append n hn hrest]

theorem longestRun_tail {n : Nat} (h : longestRun '\'' run (c :: cs) ≤ n) : ∃ run', longestRun '\'' run' cs ≤ n := by
  rw [longestRun] at h
  split at h
  · exact ⟨_, Nat.le_trans (Nat.le_max_right ..) h⟩
  · exact ⟨_, h⟩

/-- After a quote two more come first only where all text ends in such quotes. -/
theorem not_two_singles (hrun : longestRun '\'' run ('\'' :: c :: cs) ≤ 2) (h : ¬ (c = '\'' ∧ cs = [])) :
    ¬ ['\'', '\''] <+: c :: cs ++ t := by
  intro htwo
  rw [List.cons_append, List.cons_prefix_cons] at htwo
  obtain ⟨rfl, hsecond⟩ := htwo
  obtain ⟨d, ds, rfl⟩ := List.exists_cons_of_ne_nil fun hnil => h ⟨rfl, hnil⟩
  obtain rfl : d = '\'' := by simpa using head?_eq_of_initial hsecond
  simp only [longestRun, if_true] at hrun
  omega

/-- Text with short runs of quotes is read up to the three closing ones. -/
theorem readMultiLiteral_append (hrest : rest.head? ≠ some '\'') (hplain : ∀ c ∈ cs, isPlain c = true ∨ c = '\n')
    (hrun : longestRun '\'' run cs ≤ 2) (acc : List Char) :
    readMultiLiteral acc (cs ++ '\'' :: '\'' :: '\'' :: rest) = some (String.ofList (acc.reverse ++ cs), rest) := by
  induction cs generalizing acc run with
  | nil => simpa using readMultiLiteral_close 0 (by decide) hrest acc
  | cons c cs ih =>
      obtain ⟨run', hrun'⟩ := longestRun_tail hrun
      have htail := fun acc => ih (fun c hc => hplain c (List.mem_cons_of_mem _ hc)) hrun' acc
      by_cases hc : c = '\''
      · subst hc
        cases cs with
        | nil => simpa using readMultiLiteral_close 1 (by decide) hrest acc
        | cons c cs =>
            by_cases htwo : c = '\'' ∧ cs = []
            · obtain ⟨rfl, rfl⟩ := htwo
              simpa using readMultiLiteral_close 2 (by decide) hrest acc
            · rw [List.cons_append, readMultiLiteral_plain rfl, htail]
              · simp
              · exact fun hclose => not_two_singles hrun htwo (List.cons_prefix_cons.1 hclose).2
      · rcases hplain c (List.mem_cons_self ..) with hc' | rfl
        · rw [List.cons_append, readMultiLiteral_plain hc', htail]
          · simp
          · exact fun hclose => hc (List.cons_prefix_cons.1 hclose).1.symm
        · rw [List.cons_append, readMultiLiteral, htail]
          simp

/-! ### Every form -/

theorem newline?_cons (hfeed : c ≠ '\n') (hreturn : c ≠ '\r') : newline? (c :: t) = none := by
  unfold newline?
  split
  · next h => exact absurd (List.cons.inj h).1 hfeed
  · next h => exact absurd (List.cons.inj h).1 hreturn
  · rfl

theorem Written.newline?_append (h : Written multi c cs) (hc : c ≠ '\n') : newline? (cs ++ t) = none := by
  cases h with
  | escape _ _ _ => exact newline?_cons (by decide) (by decide)
  | lineBreak _ h => exact absurd h hc
  | plain h _ hline =>
      refine newline?_cons hline ?_
      rintro rfl
      cases h

theorem newline?_escaped (h : '\n' ∉ cs) : newline? (escaped true 2 0 cs ++ '"' :: t) = none := by
  cases cs with
  | nil => rfl
  | cons c cs =>
      rw [List.mem_cons, not_or] at h
      by_cases hc : c = '"'
      · subst hc
        rw [escaped, if_pos (by decide)]
        exact newline?_cons (by decide) (by decide)
      · rw [escaped, List.append_assoc]
        · exact (escapedChar_written true c).newline?_append (Ne.symm h.1)
        · exact hc

theorem newline?_plain (hplain : ∀ c ∈ cs, isPlain c = true ∨ c = '\n') (h : '\n' ∉ cs) :
    newline? (cs ++ '\'' :: t) = none := by
  cases cs with
  | nil => rfl
  | cons c cs =>
      rw [List.mem_cons, not_or] at h
      refine newline?_cons (Ne.symm h.1) ?_
      rintro rfl
      rcases hplain '\r' (List.mem_cons_self ..) with hreturn | hreturn <;> cases hreturn

/-- A line break that is put after three opening quotes is taken off again. -/
theorem afterOpening_append {body : List Char} (h : '\n' ∉ cs → newline? body = none) :
    afterOpening ((if cs.contains '\n' then ['\n'] else []) ++ body) = body := by
  split
  · rfl
  · next hline => rw [List.nil_append, afterOpening, h (by simpa using hline), Option.getD_none]

theorem readAnyString_basic (h : ¬ ['"', '"'] <+: t) : readAnyString ('"' :: t) = readBasic [] t := by
  rw [readAnyString]
  rintro u rfl
  exact h (by simp)

theorem readAnyString_literal (h : ¬ ['\'', '\''] <+: t) : readAnyString ('\'' :: t) = readLiteral [] t := by
  rw [readAnyString]
  rintro u rfl
  exact h (by simp)

/-- A string is read back from its written form, if no quote follows. -/
theorem readAnyString_stringText (s : String) (hquote : rest.head? ≠ some '"') (hsingle : rest.head? ≠ some '\'') :
    readAnyString (stringText s ++ rest) = some (s, rest) := by
  have hsuits := Form.of_suits s.toList
  have hs : String.ofList s.toList = s := String.ofList_toList
  unfold stringText
  dsimp only
  generalize Form.of s.toList = form at hsuits ⊢
  generalize s.toList = cs at hsuits hs ⊢
  cases hsuits with
  | basic =>
      have hopen : ¬ ['"', '"'] <+: escaped false 0 0 cs ++ '"' :: rest := by
        cases cs with
        | nil => exact fun htwo => hquote (head?_eq_of_initial (List.cons_prefix_cons.1 htwo).2)
        | cons c cs => exact fun htwo => head?_escaped_ne (.inr (by decide)) (head?_eq_of_initial htwo)
      simp only [Form.delimiter, Form.isMulti, Form.quoteLimit, Bool.false_and, Bool.false_eq_true, if_false,
        List.append_nil, List.append_assoc, List.cons_append, List.nil_append]
      rw [readAnyString_basic hopen, readBasic_escaped]
      simp [hs]
  | literal hplain hnone =>
      have hopen : ¬ ['\'', '\''] <+: cs ++ '\'' :: rest := by
        cases cs with
        | nil => exact fun htwo => hsingle (head?_eq_of_initial (List.cons_prefix_cons.1 htwo).2)
        | cons c cs =>
            rintro htwo
            obtain rfl : c = '\'' := by simpa using head?_eq_of_initial htwo
            exact hnone (List.mem_cons_self ..)
      simp only [Form.delimiter, Form.isMulti, Bool.false_and, Bool.false_eq_true, if_false, List.append_nil,
        List.append_assoc, List.cons_append, List.nil_append]
      rw [readAnyString_literal hopen, readLiteral_append hplain hnone]
      simp [hs]
  | multiBasic =>
      simp only [Form.delimiter, Form.isMulti, Form.quoteLimit, Bool.true_and, List.append_assoc, List.cons_append,
        List.nil_append]
      rw [readAnyString, afterOpening_append newline?_escaped, readMultiBasic_escaped hquote]
      simp [hs]
  | multiLiteral hplain hrun =>
      simp only [Form.delimiter, Form.isMulti, Bool.true_and, List.append_assoc, List.cons_append, List.nil_append]
      rw [readAnyString, afterOpening_append (newline?_plain hplain), readMultiLiteral_append hsingle hplain hrun]
      simp [hs]

end Sideload.Toml
