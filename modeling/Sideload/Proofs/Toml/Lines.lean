import Sideload.Proofs.Toml.String
import Sideload.Toml.Reader

/-!
A text of sections is read back: each begins with a header, and each of its lines names a member and its value. A
line adds one member to the last table, so what has been read is the sections so far, in order.
-/

namespace Sideload.Toml

variable {c : Char} {rest : List Char} {fuel : Nat} {name : String} {d : Draft}

/-! ### Names -/

/-- A name that needs no quotes. -/
structure IsBare (name : String) : Prop where
  nonempty : name.toList ≠ []
  all : name.toList.all isBareKeyChar = true

instance : Decidable (IsBare name) :=
  decidable_of_iff (name.toList ≠ [] ∧ name.toList.all isBareKeyChar = true)
    ⟨fun h => ⟨h.1, h.2⟩, fun h => ⟨h.1, h.2⟩⟩

theorem IsBare.chars (h : IsBare name) : ∀ c ∈ name.toList, isBareKeyChar c = true := List.all_eq_true.1 h.all

theorem skipBlanks_cons (h : isBlank c = false) : skipBlanks (c :: rest) = c :: rest :=
  List.dropWhile_cons_of_neg (by simp [h])

/-- A name begins with a character that has no other part at the beginning of a line. -/
theorem IsBare.exists_cons (h : IsBare name) :
    ∃ c cs, name.toList = c :: cs ∧ isBlank c = false ∧ c ∉ ['[', '#', '"', '\'', '\n', '\r'] := by
  obtain ⟨c, cs, hcs⟩ := List.exists_cons_of_ne_nil h.nonempty
  have hc := h.chars c (hcs ▸ List.mem_cons_self ..)
  refine ⟨c, cs, hcs, Bool.eq_false_iff.2 fun hblank => ?_, fun hmem => ?_⟩
  · simp only [isBlank, Bool.or_eq_true, decide_eq_true_eq] at hblank
    rcases hblank with rfl | rfl <;> cases hc
  · simp only [List.mem_cons, List.not_mem_nil, or_false] at hmem
    rcases hmem with rfl | rfl | rfl | rfl | rfl | rfl <;> cases hc

theorem IsBare.readKeyPart (h : IsBare name) (hc : isBareKeyChar c = false) :
    readKeyPart (name.toList ++ c :: rest) = some (name, c :: rest) := by
  obtain ⟨b, bs, hbs, -, hb⟩ := h.exists_cons
  simp only [List.mem_cons, not_or] at hb
  have htake : (name.toList ++ c :: rest).takeWhile isBareKeyChar = b :: bs := by
    rw [List.takeWhile_append_of_pos h.chars, List.takeWhile_cons_of_neg (by simp [hc]), List.append_nil, hbs]
  have hdrop : (name.toList ++ c :: rest).dropWhile isBareKeyChar = c :: rest := by
    rw [List.dropWhile_append_of_pos h.chars, List.dropWhile_cons_of_neg (by simp [hc])]
  have hname : String.ofList (b :: bs) = name := by rw [← hbs, String.ofList_toList]
  rw [Toml.readKeyPart, htake, hdrop]
  · exact congrArg (fun name => some (name, c :: rest)) hname
  · intro cs hcs
    rw [hbs, List.cons_append] at hcs
    exact hb.2.2.1 (List.cons.inj hcs).1
  · intro cs hcs
    rw [hbs, List.cons_append] at hcs
    exact hb.2.2.2.1 (List.cons.inj hcs).1

/-- A name alone is a key, with the empty path. -/
theorem IsBare.readKey (h : IsBare name) (hc : isBareKeyChar c = false)
    (hdot : (skipBlanks (c :: rest)).head? ≠ some '.') :
    readKey (name.toList ++ c :: rest) = some ([], name, skipBlanks (c :: rest)) := by
  have hparts : readKeyParts (maxDepth + 1) (name.toList ++ c :: rest) = some ([name], skipBlanks (c :: rest)) := by
    obtain ⟨b, bs, hbs, hb, -⟩ := h.exists_cons
    rw [readKeyParts, show skipBlanks (name.toList ++ c :: rest) = name.toList ++ c :: rest by
      rw [hbs, List.cons_append, skipBlanks_cons hb], h.readKeyPart hc]
    simp only [Option.bind_eq_bind, Option.bind_some]
    split
    · next heq => simp [heq] at hdot
    · rfl
  rw [Toml.readKey, hparts]
  rfl

/-! ### Values -/

/-- A written value is read back where it ends its line. -/
def Stands (written : List Char) (data : Data) : Prop := ∀ fuel depth rest,
  readValue (fuel + 1) depth (skipBlanks (written ++ '\n' :: rest)) = some (data, '\n' :: rest)

theorem exists_stringText_eq_cons (s : String) : ∃ c cs, stringText s = c :: cs ∧ (c = '"' ∨ c = '\'') := by
  unfold stringText
  dsimp only
  cases Form.of s.toList with
  | basic => exact ⟨_, _, rfl, .inl rfl⟩
  | literal => exact ⟨_, _, rfl, .inr rfl⟩
  | multiBasic => exact ⟨_, _, rfl, .inl rfl⟩
  | multiLiteral => exact ⟨_, _, rfl, .inr rfl⟩

theorem stands_stringText (s : String) : Stands (stringText s) (.string s) := by
  intro fuel depth rest
  have hread : readAnyString (stringText s ++ '\n' :: rest) = some (s, '\n' :: rest) :=
    readAnyString_stringText s (by simp) (by simp)
  obtain ⟨c, cs, hcs, hc⟩ := exists_stringText_eq_cons s
  rw [hcs, List.cons_append] at hread ⊢
  rcases hc with rfl | rfl
  · rw [skipBlanks_cons rfl]
    simp [readValue, hread]
  · rw [skipBlanks_cons rfl]
    simp [readValue, hread]

/-! ### Tables -/

theorem alterMember_append {front back : Members} {f : Option Item → Option Item} (h : name ∉ front.map Prod.fst) :
    alterMember name f (front ++ back) = (alterMember name f back).map (front ++ ·) := by
  induction front with
  | nil => simp
  | cons m front ih =>
      rw [List.map_cons, List.mem_cons, not_or] at h
      rw [List.cons_append, alterMember, if_neg (Ne.symm h.1), ih h.2, Option.map_map]
      rfl

/-- A new name comes last. -/
theorem alterMember_new {ms : Members} {f : Option Item → Option Item} (h : name ∉ ms.map Prod.fst) :
    alterMember name f ms = (f none).map fun i => ms ++ [(name, i)] := by
  have happend : alterMember name f (ms ++ []) = _ := alterMember_append h
  rw [List.append_nil] at happend
  rw [happend, alterMember, Option.map_map]
  rfl

/-- Names that are new are so after another one was added. -/
theorem notMem_concat {α : Type} {f : α → String} {a : α} {as : List α} {ms : Members} {m : String × Item}
    (hm : m.1 = f a) (ha : f a ∉ as.map f) (has : ∀ b ∈ as, f b ∉ ms.map Prod.fst) :
    ∀ b ∈ as, f b ∉ (ms ++ [m]).map Prod.fst := by
  intro b hb
  rw [List.map_append, List.mem_append, not_or]
  refine ⟨has b hb, fun h => ha ?_⟩
  rw [← hm, ← List.mem_singleton.1 h]
  exact List.mem_map_of_mem hb

theorem membersData_eq_map (ms : Members) : membersData ms = ms.map fun m => (m.1, m.2.data) := by
  induction ms with
  | nil => rfl
  | cons m ms ih => rw [membersData, ih, List.map_cons]

/-! ### Lines -/

/-- A name with a value, as they are written on a line. -/
structure Setting where
  name : String
  written : List Char
  data : Data
  bare : IsBare name
  stands : Stands written data

namespace Setting

/-- The line of a setting. -/
def line (e : Setting) : List Char := e.name.toList ++ " = ".toList ++ e.written ++ ['\n']

/-- The member that the line stands for. -/
def member (e : Setting) : String × Item := (e.name, .value e.data)

end Setting

theorem readLineEnd_newline (cs : List Char) : readLineEnd ('\n' :: cs) = some cs := rfl

/-- A line that begins with neither a blank nor a mark is read as a whole. -/
theorem readLines_cons (hblank : isBlank c = false) (hc : c ∉ ['#', '\n', '\r']) :
    readLines (fuel + 1) d (c :: rest) = (readLine d (c :: rest)).bind fun p => readLines fuel p.1 p.2 := by
  simp only [List.mem_cons, List.not_mem_nil, or_false, not_or] at hc
  rw [readLines, skipBlanks_cons hblank]
  split
  · next heq => cases heq
  · next heq => exact absurd (List.cons.inj heq).1 hc.1
  · rw [newline?_cons hc.2.1 hc.2.2]
    rfl

theorem readLines_blank (cs : List Char) : readLines (fuel + 1) d ('\n' :: cs) = readLines fuel d cs := rfl

theorem readLine_setting (e : Setting) (rest : List Char) :
    readLine d (e.line ++ rest) = (d.add [] e.name (.value e.data)).map (·, rest) := by
  obtain ⟨c, cs, hcs, -, hc⟩ := e.bare.exists_cons
  have hline : e.line ++ rest = e.name.toList ++ ' ' :: '=' :: ' ' :: (e.written ++ '\n' :: rest) := by
    simp [Setting.line]
  have hkey : readKey (e.line ++ rest) = some ([], e.name, '=' :: ' ' :: (e.written ++ '\n' :: rest)) := by
    rw [hline, e.bare.readKey rfl (by simp [skipBlanks, isBlank])]
    rfl
  have hvalue := e.stands (' ' :: (e.written ++ '\n' :: rest)).length maxDepth rest
  have hfirst : ∀ cs', e.line ++ rest ≠ '[' :: cs' := by
    intro cs' h
    rw [hline, hcs, List.cons_append] at h
    exact hc (by simp [(List.cons.inj h).1])
  rw [readLine, hkey]
  · simp only [Option.bind_eq_bind, Option.bind_some]
    rw [show skipBlanks (' ' :: (e.written ++ '\n' :: rest)) = skipBlanks (e.written ++ '\n' :: rest) from rfl,
      hvalue]
    simp only [Option.bind_some, readLineEnd_newline]
    cases d.add [] e.name (.value e.data) <;> rfl
  · exact fun cs' h => hfirst _ h
  · exact fun cs' h => hfirst _ h

/-- A setting is added to the last table. -/
theorem readLines_setting {front inner : Members} {current : String} (e : Setting)
    (hfront : current ∉ front.map Prod.fst) (hinner : e.name ∉ inner.map Prod.fst) (rest : List Char) :
    readLines (fuel + 1) ⟨front ++ [(current, .table .header inner)], [current]⟩ (e.line ++ rest) =
      readLines fuel ⟨front ++ [(current, .table .header (inner ++ [e.member]))], [current]⟩ rest := by
  obtain ⟨c, cs, hcs, hblank, hc⟩ := e.bare.exists_cons
  have hcons : e.line ++ rest = c :: (cs ++ " = ".toList ++ e.written ++ '\n' :: rest) := by
    simp [Setting.line, hcs]
  have hadd : Draft.add ⟨front ++ [(current, .table .header inner)], [current]⟩ [] e.name (.value e.data) =
      some ⟨front ++ [(current, .table .header (inner ++ [e.member]))], [current]⟩ := by
    simp only [Draft.add, alterTable]
    rw [alterMember_append hfront, alterMember, if_pos rfl]
    simp only [addDotted, addMember]
    rw [alterMember_new hinner]
    rfl
  rw [hcons, readLines_cons hblank fun h => hc ?_, ← hcons, readLine_setting, hadd]
  · rfl
  · simp only [List.mem_cons, List.not_mem_nil, or_false] at h ⊢
    rcases h with rfl | rfl | rfl <;> simp

/-- All lines after a header are members of its table. -/
theorem readLines_settings {front inner : Members} {current : String} {es : List Setting}
    (hfront : current ∉ front.map Prod.fst) (hes : (es.map Setting.name).Nodup)
    (hinner : ∀ e ∈ es, e.name ∉ inner.map Prod.fst) (rest : List Char) :
    readLines (fuel + es.length) ⟨front ++ [(current, .table .header inner)], [current]⟩
        (es.flatMap Setting.line ++ rest) =
      readLines fuel ⟨front ++ [(current, .table .header (inner ++ es.map Setting.member))], [current]⟩ rest := by
  induction es generalizing inner with
  | nil => simp
  | cons e es ih =>
      rw [List.map_cons, List.nodup_cons] at hes
      have hrest : ∀ e' ∈ es, e'.name ∉ (inner ++ [e.member]).map Prod.fst :=
        notMem_concat rfl hes.1 fun e' he' => hinner e' (List.mem_cons_of_mem _ he')
      rw [List.length_cons, ← Nat.add_assoc, List.flatMap_cons, List.append_assoc,
        readLines_setting e hfront (hinner e (List.mem_cons_self ..)), ih hes.2 hrest]
      simp

/-! ### Sections -/

/-- A table with a header of its own. -/
structure Section where
  name : String
  settings : List Setting
  bare : IsBare name
  nodup : (settings.map Setting.name).Nodup

namespace Section

def header (s : Section) : List Char := '[' :: (s.name.toList ++ [']', '\n'])

def text (s : Section) : List Char := s.header ++ s.settings.flatMap Setting.line

/-- The table that the section stands for. -/
def member (s : Section) : String × Item := (s.name, .table .header (s.settings.map Setting.member))

/-- The value of the section. -/
def data (s : Section) : Data := .record (s.settings.map fun e => (e.name, e.data))

theorem member_data (s : Section) : s.member.2.data = s.data := by
  simp only [member, data, Item.data, membersData_eq_map, List.map_map]
  rfl

theorem length_settings_lt (s : Section) : s.settings.length + 1 < s.text.length := by
  have hsettings : s.settings.length ≤ (s.settings.flatMap Setting.line).length := by
    induction s.settings with
    | nil => simp
    | cons e es ih =>
        simp only [List.flatMap_cons, List.length_append, List.length_cons, Setting.line]
        omega
  simp only [text, header, List.length_append, List.length_cons, List.length_nil]
  omega

end Section

/-- A header begins a new table. -/
theorem readLines_header (s : Section) (ms : Members) (current : List String) (hname : s.name ∉ ms.map Prod.fst)
    (rest : List Char) :
    readLines (fuel + 1) ⟨ms, current⟩ (s.header ++ rest) =
      readLines fuel ⟨ms ++ [(s.name, .table .header [])], [s.name]⟩ rest := by
  obtain ⟨c, cs, hcs, -, hc⟩ := s.bare.exists_cons
  have hheader : s.header ++ rest = '[' :: (s.name.toList ++ ']' :: '\n' :: rest) := by simp [Section.header]
  have hkey : readKey (s.name.toList ++ ']' :: '\n' :: rest) = some ([], s.name, ']' :: '\n' :: rest) := by
    rw [s.bare.readKey rfl (by simp [skipBlanks, isBlank])]
    rfl
  have hopen : Draft.table ⟨ms, current⟩ [] s.name = some ⟨ms ++ [(s.name, .table .header [])], [s.name]⟩ := by
    simp only [Draft.table, alterTable, openTable]
    rw [alterMember_new hname]
    rfl
  rw [hheader, readLines_cons rfl (by decide), readLine, hkey]
  · simp only [Option.bind_eq_bind, Option.bind_some, hopen, readLineEnd_newline]
  · intro cs' h
    rw [hcs, List.cons_append] at h
    exact hc (by simp [(List.cons.inj h).1])

/-- A section becomes the last table. -/
theorem readLines_section (s : Section) (ms : Members) (current : List String) (hname : s.name ∉ ms.map Prod.fst)
    (rest : List Char) :
    readLines (fuel + s.settings.length + 1) ⟨ms, current⟩ (s.text ++ rest) =
      readLines fuel ⟨ms ++ [s.member], [s.name]⟩ rest := by
  rw [Section.text, List.append_assoc, readLines_header s ms current hname,
    readLines_settings hname s.nodup (by simp)]
  rfl

/-- Sections with an empty line before each become tables, in order. -/
theorem readLines_sections {ss : List Section} {ms : Members} (hss : (ss.map Section.name).Nodup)
    (hms : ∀ s ∈ ss, s.name ∉ ms.map Prod.fst) (current : List String)
    (hfuel : (ss.flatMap fun s => '\n' :: s.text).length < fuel) :
    (readLines fuel ⟨ms, current⟩ (ss.flatMap fun s => '\n' :: s.text)).map Draft.members =
      some (ms ++ ss.map Section.member) := by
  induction ss generalizing fuel ms current with
  | nil =>
      obtain ⟨fuel, rfl⟩ := Nat.exists_eq_succ_of_ne_zero (Nat.ne_of_gt hfuel)
      simp [readLines, skipBlanks]
  | cons s ss ih =>
      rw [List.map_cons, List.nodup_cons] at hss
      have hrest : ∀ t ∈ ss, t.name ∉ (ms ++ [s.member]).map Prod.fst :=
        notMem_concat rfl hss.1 fun t ht => hms t (List.mem_cons_of_mem _ ht)
      rw [List.flatMap_cons, List.cons_append] at hfuel ⊢
      rw [List.length_cons, List.length_append] at hfuel
      have hlength := s.length_settings_lt
      obtain ⟨k, rfl⟩ : ∃ k, fuel = k + s.settings.length + 1 + 1 := ⟨fuel - (s.settings.length + 2), by omega⟩
      rw [readLines_blank, readLines_section s ms current (hms s (List.mem_cons_self ..)),
        ih hss.2 hrest _ (by omega)]
      simp

/-- A text of sections stands for a record of records. -/
theorem ofText?_sections {s : Section} {ss : List Section} (h : ((s :: ss).map Section.name).Nodup) :
    ofText? (String.ofList (s.text ++ ss.flatMap fun s => '\n' :: s.text)) =
      some (.record ((s :: ss).map fun s => (s.name, s.data))) := by
  obtain ⟨cs, hcs⟩ : ∃ cs, s.text ++ ss.flatMap (fun s => '\n' :: s.text) = '[' :: cs := ⟨_, rfl⟩
  have hnew : ∀ t ∈ s :: ss, t.name ∉ ([] : Members).map Prod.fst := fun _ _ => List.not_mem_nil
  have hread := readLines_sections h hnew [] (Nat.lt_succ_self _)
  rw [List.flatMap_cons, List.cons_append, hcs, List.length_cons, readLines_blank] at hread
  obtain ⟨d, hd, hmembers⟩ := Option.map_eq_some_iff.1 hread
  have hdata : membersData ((s :: ss).map Section.member) = (s :: ss).map fun s => (s.name, s.data) := by
    rw [membersData_eq_map, List.map_map]
    exact List.map_congr_left fun s _ => by rw [Function.comp_apply, s.member_data]; rfl
  rw [hcs, ofText?, String.toList_ofList]
  change (readLines (('[' :: cs).length + 1) ⟨[], []⟩ ('[' :: cs)).bind
    (fun d => some (Data.record (membersData d.members))) = _
  rw [hd, Option.bind_some, hmembers, List.nil_append, hdata]

end Sideload.Toml
