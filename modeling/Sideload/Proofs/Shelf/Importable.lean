import Sideload.Proofs.Shelf.Run
import Sideload.Surface.Lexeme

/-!
Names that can be imported. The check of names knows no reserved words, and it tells letters and digits
where the grammar of identifiers has classes of its own. Where the two classes are the same for every
character of a name, and the name is no reserved word, it is accepted just if it can be imported.
-/

namespace Sideload

open Surface (reservedWords)

variable {name : String} {c : Char}

/-- An identifier that is no reserved word. -/
def IsImportable (name : String) : Prop := spellsIdentifier name.toList = true ∧ name ∉ reservedWords

/-- A character that the check of names and the grammar of identifiers take alike, at the front of a name and
further on. -/
structure ClassedAlike (c : Char) : Prop where
  first : isAlphabetic c = true ∨ c = '_' ↔ isIdentifierStart c = true
  later : isAlphanumeric c = true ∨ c = '_' ↔ isIdentifierPart c = true

/-! ### Characters -/

/-- There is no difference for the characters that all keyboards have. -/
theorem classedAlike_of_ascii (h : c.toNat < 0x80) : ClassedAlike c := by
  constructor
  · rw [isAlphabetic, if_pos h, isIdentifierStart, if_pos h, Bool.or_eq_true, decide_eq_true_eq, or_comm]
  · rw [isAlphanumeric, if_pos h, isIdentifierPart, if_pos h, Bool.or_eq_true, decide_eq_true_eq, or_comm]

namespace RangeTable

theorem exists_of_holds {t : RangeTable} {n : Nat} (h : t.holds n = true) : ∃ r ∈ t, r.1 ≤ n ∧ n ≤ r.2 := by
  induction t with
  | nil => cases h
  | cons r rest ih =>
      rw [holds] at h
      split at h
      · cases h
      · next hlo =>
          rw [Bool.or_eq_true, decide_eq_true_eq] at h
          rcases h with hhi | h
          · exact ⟨r, List.mem_cons_self .., Nat.le_of_not_lt hlo, hhi⟩
          · obtain ⟨r', hr', hn⟩ := ih h
            exact ⟨r', List.mem_cons_of_mem _ hr', hn⟩

/-- Whether each range of the second table lies in one of the first. As both ascend, one walk over them
tells. -/
def covers : RangeTable → RangeTable → Bool
  | [], u => u.isEmpty
  | r :: t, u => covers t (u.dropWhile fun s => r.1 ≤ s.1 && s.2 ≤ r.2)

theorem exists_of_covers {t u : RangeTable} (h : t.covers u = true) :
    ∀ s ∈ u, ∃ r ∈ t, r.1 ≤ s.1 ∧ s.2 ≤ r.2 := by
  induction t generalizing u with
  | nil =>
      rw [covers, List.isEmpty_iff] at h
      rw [h]
      exact fun s hs => nomatch hs
  | cons r t ih =>
      intro s hs
      rw [← List.takeWhile_append_dropWhile (p := fun s => r.1 ≤ s.1 && s.2 ≤ r.2) (l := u), List.mem_append] at hs
      rcases hs with hs | hs
      · have hwithin := List.mem_takeWhile_imp hs
        rw [Bool.and_eq_true, decide_eq_true_eq, decide_eq_true_eq] at hwithin
        exact ⟨r, List.mem_cons_self .., hwithin⟩
      · obtain ⟨r', hr', hwithin⟩ := ih h s hs
        exact ⟨r', List.mem_cons_of_mem _ hr', hwithin⟩

theorem lt_of_isAscending {r : Nat × Nat} {t : RangeTable} (h : isAscending (r :: t) = true) :
    r.1 ≤ r.2 ∧ isAscending t = true ∧ ∀ s ∈ t, r.2 < s.1 := by
  induction t generalizing r with
  | nil => exact ⟨by simpa [isAscending] using h, rfl, fun s hs => nomatch hs⟩
  | cons s t ih =>
      simp only [isAscending, Bool.and_eq_true, decide_eq_true_eq] at h
      obtain ⟨⟨hr, hrs⟩, hrest⟩ := h
      obtain ⟨hs, -, hlt⟩ := ih hrest
      refine ⟨hr, hrest, fun s' hs' => ?_⟩
      rcases List.mem_cons.1 hs' with rfl | hs'
      · exact hrs
      · exact hrs.trans (hs.trans_lt (hlt s' hs'))

theorem holds_of_mem {t : RangeTable} (hasc : t.isAscending = true) {r : Nat × Nat} (hr : r ∈ t) {n : Nat}
    (hlo : r.1 ≤ n) (hhi : n ≤ r.2) : t.holds n = true := by
  induction t with
  | nil => cases hr
  | cons s t ih =>
      obtain ⟨hs, hrest, hlt⟩ := lt_of_isAscending hasc
      rw [holds]
      rcases List.mem_cons.1 hr with rfl | hr
      · rw [if_neg (Nat.not_lt.2 hlo), decide_eq_true hhi, Bool.true_or]
      · rw [if_neg (Nat.not_lt.2 (hs.trans ((hlt r hr).le.trans hlo))), ih hrest hr, Bool.or_true]

end RangeTable

/-- The characters that begin an identifier and are no letters: the script capital p and the estimated
symbol. -/
def unlettered : List Nat := [0x2118, 0x212E]

theorem isAscending_alphabeticRanges : alphabeticRanges.isAscending = true := by decide +kernel

/-- The two ranges of first characters that the unlettered ones are in. -/
def mixedRanges : RangeTable := [(0x2118, 0x211D), (0x212A, 0x2139)]

theorem covers_identifierStartRanges :
    alphabeticRanges.covers (identifierStartRanges.filter (· ∉ mixedRanges)) = true := by
  decide +kernel

theorem holds_of_mem_mixedRanges {s : Nat × Nat} (hs : s ∈ mixedRanges) {n : Nat} (hlo : s.1 ≤ n)
    (hhi : n ≤ s.2) : alphabeticRanges.holds n = true ∨ n ∈ unlettered := by
  have hletter : ∀ r ∈ alphabeticRanges, r.1 ≤ n → n ≤ r.2 → alphabeticRanges.holds n = true :=
    fun r hr => RangeTable.holds_of_mem isAscending_alphabeticRanges hr
  rw [unlettered, List.mem_pair]
  rw [mixedRanges, List.mem_pair] at hs
  rcases hs with rfl | rfl
  · have hcases : n = 0x2118 ∨ 0x2119 ≤ n ∧ n ≤ 0x211D := by omega
    rcases hcases with hn | ⟨hlo', hhi'⟩
    · exact .inr (.inl hn)
    · exact .inl (hletter (0x2119, 0x211D) (by decide +kernel) hlo' hhi')
  · have hcases : n = 0x212E ∨ (0x212A ≤ n ∧ n ≤ 0x212D) ∨ 0x212F ≤ n ∧ n ≤ 0x2139 := by omega
    rcases hcases with hn | ⟨hlo', hhi'⟩ | ⟨hlo', hhi'⟩
    · exact .inr (.inr hn)
    · exact .inl (hletter (0x212A, 0x212D) (by decide +kernel) hlo' hhi')
    · exact .inl (hletter (0x212F, 0x2139) (by decide +kernel) hlo' hhi')

/-- All but two of the characters that can begin an identifier are letters or the underscore. -/
theorem isAlphabetic_of_isIdentifierStart (h : isIdentifierStart c = true) :
    isAlphabetic c = true ∨ c = '_' ∨ c.toNat ∈ unlettered := by
  by_cases hlow : c.toNat < 0x80
  · exact ((classedAlike_of_ascii hlow).first.2 h).imp_right .inl
  rw [isIdentifierStart, if_neg hlow, Bool.or_eq_true, decide_eq_true_eq] at h
  rcases h with h | h
  · exact .inr (.inl h)
  obtain ⟨s, hs, hlo, hhi⟩ := RangeTable.exists_of_holds h
  rw [isAlphabetic, if_neg hlow]
  by_cases hmixed : s ∈ mixedRanges
  · exact (holds_of_mem_mixedRanges hmixed hlo hhi).imp_right .inr
  · obtain ⟨r, hr, hlo', hhi'⟩ := RangeTable.exists_of_covers covers_identifierStartRanges s
      (List.mem_filter.2 ⟨hs, decide_eq_true hmixed⟩)
    exact .inl (RangeTable.holds_of_mem isAscending_alphabeticRanges hr (hlo'.trans hlo) (hhi.trans hhi'))

/-! ### Names -/

/-- Names are accepted by their first character and the later ones. -/
theorem validateName_cons {cs : List Char} (h : name.toList = c :: cs) : validateName name = .ok () ↔
    (isAlphabetic c = true ∨ c = '_') ∧ ∀ d ∈ cs, isAlphanumeric d = true ∨ d = '_' := by
  have hchecks : ∀ a b : Bool, (if (!a) = true then some NameFault.badStart
      else if (!b) = true then some .badPart else none) = none ↔ a = true ∧ b = true := by decide
  rw [validateName_eq_ok_iff, IsIdentifier, h, nameFault?, ← List.not_all_eq_any_not, hchecks, Bool.or_eq_true,
    decide_eq_true_eq, List.all_eq_true]
  simp only [Bool.or_eq_true, decide_eq_true_eq]

theorem spellsIdentifier_cons {cs : List Char} :
    spellsIdentifier (c :: cs) = true ↔ isIdentifierStart c = true ∧ ∀ d ∈ cs, isIdentifierPart d = true := by
  rw [spellsIdentifier, Bool.and_eq_true, List.all_eq_true]

theorem validateName_iff_isImportable (halike : ∀ c ∈ name.toList, ClassedAlike c)
    (hfree : name ∉ reservedWords) : validateName name = .ok () ↔ IsImportable name := by
  rw [IsImportable, and_iff_left hfree]
  cases hname : name.toList with
  | nil =>
      rw [validateName_eq_ok_iff, IsIdentifier, hname]
      exact ⟨nofun, nofun⟩
  | cons c cs =>
      rw [hname, List.forall_mem_cons] at halike
      rw [validateName_cons hname, spellsIdentifier_cons, halike.1.first]
      exact and_congr_right' (forall₂_congr fun d hd => (halike.2 d hd).later)

/-- Reserved words are accepted as names, though none can be imported. -/
theorem validateName_of_mem_reservedWords : ∀ word ∈ reservedWords, validateName word = .ok () := by
  decide

/-- Where the classes differ, there is a name of one or two characters that is not taken rightly. -/
theorem classedAlike_iff : ClassedAlike c ↔
    ∀ name ∈ [String.ofList [c], String.ofList ['_', c]], (validateName name = .ok () ↔ IsImportable name) := by
  have hfirst : String.ofList [c] ∉ reservedWords := fun hmem => by
    have hlength : ∀ word ∈ reservedWords, word.toList.length ≠ 1 := by decide
    exact hlength _ hmem (by rw [String.toList_ofList]; rfl)
  have hlater : String.ofList ['_', c] ∉ reservedWords := fun hmem => by
    have hhead : ∀ word ∈ reservedWords, word.toList.head? ≠ some '_' := by decide
    exact hhead _ hmem (by rw [String.toList_ofList]; rfl)
  have hunderscore : ClassedAlike '_' := classedAlike_of_ascii (by decide)
  rw [List.forall_mem_cons, List.forall_mem_singleton, IsImportable, IsImportable, and_iff_left hfirst,
    and_iff_left hlater, validateName_cons String.toList_ofList, validateName_cons String.toList_ofList,
    String.toList_ofList, String.toList_ofList, spellsIdentifier_cons, spellsIdentifier_cons,
    List.forall_mem_singleton, List.forall_mem_singleton, ← hunderscore.first]
  simp only [List.not_mem_nil, false_implies, implies_true, and_true, or_true, true_and]
  exact ⟨fun h => ⟨h.first, h.later⟩, fun h => ⟨h.1, h.2⟩⟩

/-- Whatever is installed has a name that was accepted. -/
theorem validateName_of_install {shelf : Shelf} {target source : Path} {mode : Mode} {name? : Option String}
    {w w' : World} {e : Entry} (h : (shelf.install target source mode name?).run w = (.ok e, w')) :
    validateName e.name = .ok () := by
  have hcases := Shelf.install_cases shelf target source mode name? w
  rw [h] at hcases
  obtain ⟨f, hfault, -⟩ | ⟨r, plan, w₀, ⟨-, real, name, hplan⟩, -, hrun⟩ := hcases
  · cases hfault
  obtain ⟨f, -, hfault⟩ | ⟨w₁, -, hanswer, -⟩ := hrun
  · cases hfault
  obtain ⟨f, w₂, -, hcommit, -⟩ | ⟨w₂, -, -, -, -, hcommit⟩ := Shelf.commit_cases shelf r plan w₁
  · rw [hcommit] at hanswer
    cases hanswer
  · rw [hcommit] at hanswer
    have hentry : e = plan.entry w₁.now := by
      cases hsave : ((((r.insert (plan.entry w₁.now)).save shelf.registryPath).run w₂).1) with
      | error f =>
          rw [hsave] at hanswer
          cases hanswer
      | ok u =>
          rw [hsave] at hanswer
          exact Except.ok.inj hanswer
    rw [hentry]
    exact validateName_eq_ok_iff.2 hplan.valid

/-- A name that is no reserved word is accepted just if it can be imported, and so can what is installed under
it, as long as letters, digits and the underscore are the characters that the grammar allows. That condition
is exact: it holds for all characters below 128, and every other one that breaks it spoils a name of one or
two characters. Of the first characters that the grammar allows just two are refused. A reserved word is
accepted all the same. -/
theorem validateName_decides (name : String) :
    ((∀ c ∈ name.toList, ClassedAlike c) → name ∉ reservedWords →
      (validateName name = .ok () ↔ IsImportable name) ∧
      ∀ shelf target source mode name? w w' e, (Shelf.install shelf target source mode name?).run w = (.ok e, w') →
        e.name = name → IsImportable name) ∧
    (∀ c ∈ name.toList, c.toNat < 0x80 → ClassedAlike c) ∧
    (∀ c ∈ name.toList, ClassedAlike c ↔ ∀ other ∈ [String.ofList [c], String.ofList ['_', c]],
      (validateName other = .ok () ↔ IsImportable other)) ∧
    (∀ c ∈ name.toList, isIdentifierStart c = true → isAlphabetic c = true ∨ c = '_' ∨ c.toNat ∈ unlettered) ∧
    (name ∈ reservedWords → validateName name = .ok () ∧ ¬ IsImportable name) := by
  refine ⟨fun halike hfree => ⟨validateName_iff_isImportable halike hfree, ?_⟩, fun c _ => classedAlike_of_ascii,
    fun c _ => classedAlike_iff, fun c _ => isAlphabetic_of_isIdentifierStart,
    fun hword => ⟨validateName_of_mem_reservedWords name hword, fun h => h.2 hword⟩⟩
  rintro shelf target source mode name? w w' e hrun rfl
  exact (validateName_iff_isImportable halike hfree).1 (validateName_of_install hrun)

/-- A name with a letter beyond the first 128 characters. -/
theorem validateName_decides_word :
    (∀ c ∈ "größe".toList, ClassedAlike c) ∧ "größe" ∉ reservedWords ∧ IsImportable "größe" := by
  have halike : ∀ c ∈ "größe".toList, ClassedAlike c := by
    rw [show "größe".toList = ['g', 'r', 'ö', 'ß', 'e'] from rfl]
    simp only [List.forall_mem_cons]
    exact ⟨classedAlike_of_ascii (by decide), classedAlike_of_ascii (by decide),
      ⟨by decide +kernel, by decide +kernel⟩, ⟨by decide +kernel, by decide +kernel⟩,
      classedAlike_of_ascii (by decide), by simp⟩
  have hfree : "größe" ∉ reservedWords := by decide
  have haccepted : IsIdentifier "größe" := by
    unfold IsIdentifier
    decide +kernel
  obtain ⟨hiff, -⟩ := (validateName_decides "größe").1 halike hfree
  exact ⟨halike, hfree, hiff.1 (validateName_eq_ok_iff.2 haccepted)⟩

/-- A reserved word is accepted, and a letter with an accent of its own is not. -/
theorem validateName_misjudges :
    (validateName "class" = .ok () ∧ ¬ IsImportable "class") ∧
      IsImportable "e\u0301" ∧ validateName "e\u0301" ≠ .ok () := by
  refine ⟨⟨by decide, fun h => h.2 (by decide)⟩, ⟨by decide +kernel, by decide +kernel⟩, ?_⟩
  rw [Ne, validateName_eq_ok_iff, IsIdentifier]
  decide +kernel

end Sideload
