import Mathlib.Data.List.DropRight
import Mathlib.Tactic.SplitIfs
import Sideload.Json.Printer
import Sideload.Json.Reader

/-!
What is written as JSON is read back. The escapes of a string name its characters again, and the blanks of the
layout stand where they are passed over. A value has no form of its own if it is a number that came from somewhere
else, a moment, or nothing that can be read.
-/

namespace Sideload.Json

variable {c : Char} {cs rest acc : List Char} {depth fuel : Nat} {d : Data} {ds : List Data}

/-! ### Strings -/

theorem hexDigit?_hexDigit : ∀ n < 16, hexDigit? (hexDigit n) = some n := by decide

/-- A control character is the one that its escape names. -/
theorem hexValue?_control (h : c.toNat < 0x20) :
    hexValue? '0' '0' (hexDigit (c.toNat / 16)) (hexDigit (c.toNat % 16)) = some c.toNat := by
  have hzero : hexDigit? '0' = some 0 := rfl
  simp only [hexValue?, hexDigit?_hexDigit (c.toNat / 16) (by omega), hexDigit?_hexDigit (c.toNat % 16) (by omega),
    hzero, Option.bind_eq_bind, Option.bind_some, Option.some.injEq]
  omega

/-- An escape of one character gives that character. -/
theorem readString_short {e : Char} (h : shortEscape? c = some e) :
    readString (some acc) ('\\' :: c :: rest) = readString (some (e :: acc)) rest := by
  have hu : c ≠ 'u' := by
    rintro rfl
    cases h
  rw [readString, h]
  · rfl
  · exact fun _ _ _ _ _ hc _ => hu hc

/-- An escape of four digits gives the character of that number, if it is no half of a pair. -/
theorem readString_control (h : c.toNat < 0x20) :
    readString (some acc) ('\\' :: 'u' :: '0' :: '0' :: hexDigit (c.toNat / 16) :: hexDigit (c.toNat % 16) :: rest) =
      readString (some (c :: acc)) rest := by
  have hlow : isLow c.toNat = false := by simp [isLow]; omega
  have hhigh : isHigh c.toNat = false := by simp [isHigh]; omega
  rw [readString, hexValue?_control h]
  simp [hlow, hhigh]

/-- How a character is written. -/
inductive Written (c : Char) : List Char → Prop
  | short {e : Char} (h : shortEscape? e = some c) : Written c ['\\', e]
  | control (h : c.toNat < 0x20) :
      Written c ['\\', 'u', '0', '0', hexDigit (c.toNat / 16), hexDigit (c.toNat % 16)]
  | plain (hquote : c ≠ '"') (hslash : c ≠ '\\') (h : ¬ c.toNat < 0x20) : Written c [c]

theorem escapedChar_written (c : Char) : Written c (escapedChar c) := by
  unfold escapedChar
  split_ifs with hquote hslash hback hfeed hline hreturn htab hcontrol
  · exact .short (by rw [hquote]; rfl)
  · exact .short (by rw [hslash]; rfl)
  · exact .short (by rw [hback]; rfl)
  · exact .short (by rw [hfeed]; rfl)
  · exact .short (by rw [hline]; rfl)
  · exact .short (by rw [hreturn]; rfl)
  · exact .short (by rw [htab]; rfl)
  · exact .control hcontrol
  · exact .plain hquote hslash hcontrol

theorem readString_escapedChar (c : Char) (acc rest : List Char) :
    readString (some acc) (escapedChar c ++ rest) = readString (some (c :: acc)) rest := by
  have hwritten := escapedChar_written c
  generalize escapedChar c = cs at hwritten
  cases hwritten with
  | short h => exact readString_short h
  | control h => exact readString_control h
  | plain hquote hslash h =>
      rw [List.singleton_append, readString]
      · simp [h]
      · exact hquote
      · exact fun _ _ _ _ _ hc _ => hslash hc
      · exact fun _ _ hc _ => hslash hc

/-- The characters of a string are read up to its closing quote. -/
theorem readString_flatMap (cs acc rest : List Char) :
    readString (some acc) (cs.flatMap escapedChar ++ '"' :: rest) =
      some (some (String.ofList (acc.reverse ++ cs)), rest) := by
  induction cs generalizing acc with
  | nil => simp [readString]
  | cons c cs ih =>
      rw [List.flatMap_cons, List.append_assoc, readString_escapedChar, ih]
      simp

theorem readString_stringText (s : String) (rest : List Char) :
    ∃ cs, stringText s ++ rest = '"' :: cs ∧ readString (some []) cs = some (some s, rest) := by
  refine ⟨s.toList.flatMap escapedChar ++ '"' :: rest, by simp [stringText], ?_⟩
  rw [readString_flatMap]
  simp

/-! ### Blanks -/

theorem skipBlanks_cons (h : isBlank c = false) : skipBlanks (c :: rest) = c :: rest :=
  List.dropWhile_cons_of_neg (by simp [h])

theorem skipBlanks_newline (cs : List Char) : skipBlanks ('\n' :: cs) = skipBlanks cs := rfl

theorem skipBlanks_indent (depth : Nat) (cs : List Char) : skipBlanks (indent depth ++ cs) = skipBlanks cs := by
  rw [skipBlanks, List.dropWhile_append_of_pos fun c hc => by rw [List.eq_of_mem_replicate hc]; rfl]
  rfl

theorem skipBlanks_skipBlanks (cs : List Char) : skipBlanks (skipBlanks cs) = skipBlanks cs :=
  List.dropWhile_idempotent _ _

/-- Blanks before a value make no difference. -/
theorem readValue_congr (h : skipBlanks cs = skipBlanks rest) : readValue fuel cs = readValue fuel rest := by
  cases fuel with
  | zero => rfl
  | succ fuel => rw [readValue, readValue, h]

theorem readItems_congr (h : skipBlanks cs = skipBlanks rest) : readItems fuel cs = readItems fuel rest := by
  cases fuel with
  | zero => rfl
  | succ fuel => rw [readItems, readItems, readValue_congr h]

theorem readMembers_congr (h : skipBlanks cs = skipBlanks rest) : readMembers fuel cs = readMembers fuel rest := by
  cases fuel with
  | zero => rfl
  | succ fuel => rw [readMembers, readMembers, h]

/-! ### Values -/

/-- A value that is written in a form of its own. -/
inductive Plain : Data → Prop
  | null : Plain .null
  | bool (b : Bool) : Plain (.bool b)
  | string (s : String) : Plain (.string s)
  | list {ds : List Data} (h : ∀ d ∈ ds, Plain d) : Plain (.list ds)
  | record {ms : List (String × Data)} (h : ∀ m ∈ ms, Plain m.2) : Plain (.record ms)

/-- Where a value begins there is neither a blank nor the end of a list. -/
theorem Plain.exists_pretty_eq_cons (h : Plain d) (depth : Nat) :
    ∃ c cs, pretty depth d = c :: cs ∧ isBlank c = false ∧ c ≠ ']' := by
  have hblock : ∀ {opening closing : Char} {lines : List (List Char)},
      ∃ cs, block opening depth lines closing = opening :: cs := by
    intro opening closing lines
    unfold block
    split <;> exact ⟨_, rfl⟩
  cases h with
  | null => exact ⟨'n', _, rfl, rfl, by decide⟩
  | bool b => cases b <;> exact ⟨_, _, rfl, rfl, by decide⟩
  | string s => exact ⟨'"', _, rfl, rfl, by decide⟩
  | list _ =>
      rw [pretty]
      obtain ⟨cs, hcs⟩ := hblock
      exact ⟨_, cs, hcs, rfl, by decide⟩
  | record _ =>
      rw [pretty]
      obtain ⟨cs, hcs⟩ := hblock
      exact ⟨_, cs, hcs, rfl, by decide⟩

/-- A list that does not end at once is read item by item. -/
theorem readValue_list (hcs : skipBlanks cs = c :: rest) (hc : c ≠ ']') :
    readValue (fuel + 1) ('[' :: cs) = (readItems fuel cs).map fun p => (.list p.1, p.2) := by
  have hitems : readItems fuel (c :: rest) = readItems fuel cs := by
    rw [← hcs]
    exact readItems_congr (skipBlanks_skipBlanks cs)
  rw [readValue, skipBlanks_cons (by decide)]
  simp only [hcs]
  split
  · next heq => exact absurd (List.cons.inj heq).1 hc
  · rw [hitems]
    cases readItems fuel cs <;> rfl

theorem readValue_record (hcs : skipBlanks cs = '"' :: rest) :
    readValue (fuel + 1) ('\x7b' :: cs) =
      (readMembers fuel cs).map fun p => ((p.1.map Data.record).getD .unreadable, p.2) := by
  have hmembers : readMembers fuel ('"' :: rest) = readMembers fuel cs := by
    rw [← hcs]
    exact readMembers_congr (skipBlanks_skipBlanks cs)
  rw [readValue, skipBlanks_cons (by decide)]
  simp only [hcs]
  split
  · next heq => exact absurd (List.cons.inj heq).1 (by decide)
  · rw [hmembers]
    cases readMembers fuel cs <;> rfl

/-- A value that is read back wherever it stands. -/
def ReadBack (d : Data) : Prop := ∀ depth fuel rest, (pretty depth d).length < fuel →
  readValue fuel (pretty depth d ++ rest) = some (d, rest)

theorem ReadBack.indented (h : ReadBack d) (hfuel : (pretty depth d).length < fuel) :
    readValue fuel (indent depth ++ pretty depth d ++ rest) = some (d, rest) := by
  rw [← h depth fuel rest hfuel, List.append_assoc]
  exact readValue_congr (skipBlanks_indent ..)

theorem length_indent (depth : Nat) : (indent depth).length = 2 * depth := List.length_replicate

/-- One line of a list is one item. -/
theorem readItems_item (h : ReadBack d) (hfuel : (pretty depth d).length < fuel) (rest : List Char) :
    readItems (fuel + 1) (indent depth ++ pretty depth d ++ rest) = match skipBlanks rest with
      | ']' :: rest => some ([d], rest)
      | ',' :: rest => do
        let (ds, rest) ← readItems fuel rest
        some (d :: ds, rest)
      | _ => none := by
  rw [readItems, h.indented hfuel]
  rfl

/-- One line of a record is one member. -/
theorem readMembers_member (h : ReadBack d) (hfuel : (pretty depth d).length < fuel) (name : String)
    (rest : List Char) :
    readMembers (fuel + 1) (indent depth ++ stringText name ++ ':' :: ' ' :: pretty depth d ++ rest) =
      match skipBlanks rest with
      | '\x7d' :: rest => some (some [(name, d)], rest)
      | ',' :: rest => do
        let (ms?, rest) ← readMembers fuel rest
        some (do some ((name, d) :: (← ms?)), rest)
      | _ => none := by
  have hblank : readValue fuel (' ' :: (pretty depth d ++ rest)) = some (d, rest) := by
    rw [← h depth fuel rest hfuel]
    exact readValue_congr rfl
  obtain ⟨cs, hcs, hname⟩ := readString_stringText name (':' :: ' ' :: (pretty depth d ++ rest))
  rw [List.append_assoc, List.append_assoc, List.cons_append, List.cons_append, hcs, readMembers, skipBlanks_indent,
    skipBlanks_cons rfl]
  simp only [hname, Option.bind_eq_bind, Option.bind_some, skipBlanks_cons (show isBlank ':' = false from rfl),
    hblank]
  rfl

/-- Items are read up to the end of their list. -/
theorem readItems_joinLines (hne : ds ≠ []) (h : ∀ d ∈ ds, ReadBack d) (depth : Nat) (rest : List Char)
    (hfuel : (joinLines (itemLines (depth + 1) ds)).length < fuel) :
    readItems fuel (joinLines (itemLines (depth + 1) ds) ++ '\n' :: (indent depth ++ ']' :: rest)) =
      some (ds, rest) := by
  induction ds generalizing fuel with
  | nil => exact absurd rfl hne
  | cons d ds ih =>
      obtain ⟨fuel, rfl⟩ := Nat.exists_eq_add_one_of_ne_zero (Nat.ne_zero_of_lt hfuel)
      have hd := h d (List.mem_cons_self ..)
      cases ds with
      | nil =>
          have hlines : joinLines (itemLines (depth + 1) [d]) = indent (depth + 1) ++ pretty (depth + 1) d := rfl
          rw [hlines, List.length_append, length_indent] at hfuel
          rw [hlines, readItems_item hd (by omega), skipBlanks_newline, skipBlanks_indent, skipBlanks_cons rfl]
          rfl
      | cons d' ds =>
          have hlines : joinLines (itemLines (depth + 1) (d :: d' :: ds)) = indent (depth + 1) ++
              pretty (depth + 1) d ++ ',' :: '\n' :: joinLines (itemLines (depth + 1) (d' :: ds)) := rfl
          rw [hlines] at hfuel ⊢
          simp only [List.length_append, List.length_cons, length_indent] at hfuel
          have htail := @ih fuel (by simp) (fun d hd => h d (List.mem_cons_of_mem _ hd)) (by omega)
          rw [List.append_assoc, readItems_item hd (by omega), List.cons_append, skipBlanks_cons rfl]
          simp only [List.cons_append, readItems_congr (skipBlanks_newline _), htail]
          rfl

/-- Members are read up to the end of their record. -/
theorem readMembers_joinLines {ms : List (String × Data)} (hne : ms ≠ []) (h : ∀ m ∈ ms, ReadBack m.2)
    (depth : Nat) (rest : List Char) (hfuel : (joinLines (memberLines (depth + 1) ms)).length < fuel) :
    readMembers fuel (joinLines (memberLines (depth + 1) ms) ++ '\n' :: (indent depth ++ '\x7d' :: rest)) =
      some (some ms, rest) := by
  induction ms generalizing fuel with
  | nil => exact absurd rfl hne
  | cons m ms ih =>
      obtain ⟨name, d⟩ := m
      obtain ⟨fuel, rfl⟩ := Nat.exists_eq_add_one_of_ne_zero (Nat.ne_zero_of_lt hfuel)
      have hd : ReadBack d := h (name, d) (List.mem_cons_self ..)
      cases ms with
      | nil =>
          have hlines : joinLines (memberLines (depth + 1) [(name, d)]) =
              indent (depth + 1) ++ stringText name ++ ':' :: ' ' :: pretty (depth + 1) d := rfl
          rw [hlines] at hfuel ⊢
          simp only [List.length_append, List.length_cons, length_indent] at hfuel
          rw [readMembers_member hd (by omega), skipBlanks_newline, skipBlanks_indent, skipBlanks_cons rfl]
          rfl
      | cons m' ms =>
          have hlines : joinLines (memberLines (depth + 1) ((name, d) :: m' :: ms)) = indent (depth + 1) ++
              stringText name ++ ':' :: ' ' :: pretty (depth + 1) d ++
              ',' :: '\n' :: joinLines (memberLines (depth + 1) (m' :: ms)) := rfl
          rw [hlines] at hfuel ⊢
          simp only [List.length_append, List.length_cons, length_indent] at hfuel
          have htail := @ih fuel (by simp) (fun m hm => h m (List.mem_cons_of_mem _ hm)) (by omega)
          rw [List.append_assoc, readMembers_member hd (by omega), List.cons_append, skipBlanks_cons rfl]
          simp only [List.cons_append, readMembers_congr (skipBlanks_newline _), htail]
          rfl

/-- The lines between brackets, each of which ends where the next begins. -/
theorem block_append {lines : List (List Char)} (hne : lines ≠ []) (opening closing : Char) (depth : Nat) :
    block opening depth lines closing ++ rest =
      opening :: '\n' :: (joinLines lines ++ '\n' :: (indent depth ++ closing :: rest)) := by
  rw [block, List.isEmpty_eq_false_iff.2 hne]
  simp

theorem length_block {lines : List (List Char)} (hne : lines ≠ []) (opening closing : Char) (depth : Nat) :
    (block opening depth lines closing).length = (joinLines lines).length + 2 * depth + 4 := by
  rw [← List.append_nil (block ..), block_append hne]
  simp only [List.length_cons, List.length_append, length_indent, List.length_nil]
  omega

theorem exists_joinLines_eq_append (first : List Char) (lines : List (List Char)) :
    ∃ more, joinLines (first :: lines) = first ++ more := by
  cases lines with
  | nil => exact ⟨[], (List.append_nil first).symm⟩
  | cons => exact ⟨_, rfl⟩

theorem ReadBack.list (hplain : ∀ d ∈ ds, Plain d) (h : ∀ d ∈ ds, ReadBack d) : ReadBack (.list ds) := by
  intro depth fuel rest hfuel
  obtain ⟨fuel, rfl⟩ := Nat.exists_eq_add_one_of_ne_zero (Nat.ne_zero_of_lt hfuel)
  cases ds with
  | nil => rfl
  | cons d ds =>
      have hlines : itemLines (depth + 1) (d :: ds) ≠ [] := nofun
      obtain ⟨c, cs, hcs, hblank, hc⟩ := (hplain d (List.mem_cons_self ..)).exists_pretty_eq_cons (depth + 1)
      obtain ⟨more, hmore⟩ := exists_joinLines_eq_append (indent (depth + 1) ++ pretty (depth + 1) d)
        (itemLines (depth + 1) ds)
      have hfirst : ∃ cs, skipBlanks ('\n' :: (joinLines (itemLines (depth + 1) (d :: ds)) ++
          '\n' :: (indent depth ++ ']' :: rest))) = c :: cs := by
        rw [skipBlanks_newline, itemLines, hmore, List.append_assoc, List.append_assoc, skipBlanks_indent, hcs]
        exact ⟨_, skipBlanks_cons hblank⟩
      obtain ⟨cs', hfirst⟩ := hfirst
      rw [pretty, length_block hlines] at hfuel
      rw [pretty, block_append hlines, readValue_list hfirst hc, readItems_congr (skipBlanks_newline _),
        readItems_joinLines (List.cons_ne_nil d ds) h depth rest (by omega)]
      rfl

theorem ReadBack.record {ms : List (String × Data)} (h : ∀ m ∈ ms, ReadBack m.2) : ReadBack (.record ms) := by
  intro depth fuel rest hfuel
  obtain ⟨fuel, rfl⟩ := Nat.exists_eq_add_one_of_ne_zero (Nat.ne_zero_of_lt hfuel)
  cases ms with
  | nil => rfl
  | cons m ms =>
      obtain ⟨name, d⟩ := m
      have hlines : memberLines (depth + 1) ((name, d) :: ms) ≠ [] := nofun
      obtain ⟨more, hmore⟩ := exists_joinLines_eq_append
        (indent (depth + 1) ++ stringText name ++ ':' :: ' ' :: pretty (depth + 1) d) (memberLines (depth + 1) ms)
      have hfirst : ∃ cs, skipBlanks ('\n' :: (joinLines (memberLines (depth + 1) ((name, d) :: ms)) ++
          '\n' :: (indent depth ++ '\x7d' :: rest))) = '"' :: cs := by
        rw [skipBlanks_newline, memberLines, hmore, List.append_assoc, List.append_assoc, List.append_assoc,
          skipBlanks_indent]
        exact ⟨_, skipBlanks_cons rfl⟩
      obtain ⟨cs, hfirst⟩ := hfirst
      rw [pretty, length_block hlines] at hfuel
      rw [pretty, block_append hlines, readValue_record hfirst, readMembers_congr (skipBlanks_newline _),
        readMembers_joinLines (List.cons_ne_nil _ ms) h depth rest (by omega)]
      rfl

/-- Every value with a form of its own is read back, at any depth and whatever follows. -/
theorem Plain.readBack (h : Plain d) : ReadBack d := by
  induction h with
  | null =>
      intro depth fuel rest hfuel
      obtain ⟨fuel, rfl⟩ := Nat.exists_eq_add_one_of_ne_zero (Nat.ne_zero_of_lt hfuel)
      rfl
  | bool b =>
      intro depth fuel rest hfuel
      obtain ⟨fuel, rfl⟩ := Nat.exists_eq_add_one_of_ne_zero (Nat.ne_zero_of_lt hfuel)
      cases b <;> rfl
  | string s =>
      intro depth fuel rest hfuel
      obtain ⟨fuel, rfl⟩ := Nat.exists_eq_add_one_of_ne_zero (Nat.ne_zero_of_lt hfuel)
      obtain ⟨cs, hcs, hs⟩ := readString_stringText s rest
      rw [pretty, hcs, readValue, skipBlanks_cons rfl]
      simp only [hs]
      rfl
  | list hplain ih => exact .list hplain ih
  | record _ ih => exact .record ih

/-- A value is read from its own text, and blanks may follow. -/
theorem ofText?_text (h : Plain d) {blanks : String} (hblanks : ∀ c ∈ blanks.toList, isBlank c = true) :
    ofText? (text d ++ blanks) = some d := by
  have hend : skipBlanks blanks.toList = [] := List.dropWhile_eq_nil_iff.2 hblanks
  rw [ofText?, text, String.toList_append, String.toList_ofList]
  simp only [Option.bind_eq_bind]
  rw [h.readBack 0 _ _ (by rw [List.length_append]; omega)]
  simp [hend]

end Sideload.Json
