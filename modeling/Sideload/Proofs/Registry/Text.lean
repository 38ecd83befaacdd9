import Mathlib.Data.List.Forall2
import Mathlib.Data.List.TakeWhile
import Sideload.Registry.File
import Sideload.Proofs.Registry.Line
import Sideload.Proofs.Registry.Order

/-!
A registry and its text. Reading is first described line by line, without the line numbers: a text
is a registry exactly if every line that counts is an entry. Applied to a written text this says
when the registry comes back: every entry has to be fit for its line, and no name may begin with
the sign of a comment.
-/

namespace Sideload

/-- What an entry needs to come back from a registry file. -/
structure Entry.Readable (e : Entry) : Prop extends e.Encodable where
  not_comment : e.name.toList.head? ≠ some '#'

namespace Registry

/-! ### Reading line by line -/

theorem readLines_eq_ok_iff {nl : List (Nat × String)} {es : List Entry} :
    readLines nl = (es, none) ↔
      List.Forall₂ (fun p e => Entry.ofLine p.2 = .ok e) nl es := by
  induction nl generalizing es with
  | nil =>
      rw [readLines, List.forall₂_nil_left_iff, Prod.mk.injEq]
      exact ⟨fun h => h.1.symm, fun h => ⟨h.symm, rfl⟩⟩
  | cons p nl ih =>
      obtain ⟨n, l⟩ := p
      rw [readLines, List.forall₂_cons_left_iff]
      cases hl : Entry.ofLine l with
      | error e => simp
      | ok e =>
          simp only [Prod.mk.injEq, Except.ok.injEq]
          constructor
          · rintro ⟨rfl, hnone⟩
            exact ⟨e, _, rfl, ih.1 (Prod.ext rfl hnone), rfl⟩
          · rintro ⟨e', es', rfl, hes, rfl⟩
            rw [ih.2 hes]
            exact ⟨rfl, rfl⟩

theorem ofText_eq_ok_iff_readLines {s : String} {r : Registry} :
    ofText s = .ok r ↔ ∃ es, readLines (numberedLines s) = (es, none) ∧ r = ofList es := by
  unfold ofText
  split
  · next es hes =>
      rw [hes]
      constructor
      · intro h
        exact ⟨es, rfl, (Except.ok.inj h).symm⟩
      · rintro ⟨es', heq, rfl⟩
        cases heq
        rfl
  · next es fault hes =>
      rw [hes]
      constructor
      · intro h
        cases h
      · rintro ⟨es', heq, -⟩
        cases heq

theorem map_snd_numberedLines (s : String) :
    (numberedLines s).map Prod.snd = (lines s).filter fun l => !isSkipped l := by
  unfold numberedLines
  generalize lines s = ls
  suffices h : ∀ n, (((ls.zipIdx n).map fun p => (p.2 + 1, p.1)).filter
      fun p => !isSkipped p.2).map Prod.snd = ls.filter fun l => !isSkipped l from h 0
  induction ls with
  | nil => exact fun n => rfl
  | cons l ls ih =>
      intro n
      rw [List.zipIdx_cons, List.map_cons, List.filter_cons, List.filter_cons]
      cases isSkipped l with
      | true => simpa using ih (n + 1)
      | false => simpa using ih (n + 1)

/-- A text is a registry if and only if each line that is not passed over is an entry. -/
theorem ofText_eq_ok_iff {s : String} {r : Registry} :
    ofText s = .ok r ↔
      ∃ es, List.Forall₂ (fun l e => Entry.ofLine l = .ok e)
        ((lines s).filter fun l => !isSkipped l) es ∧ r = ofList es := by
  rw [ofText_eq_ok_iff_readLines, ← map_snd_numberedLines]
  simp only [readLines_eq_ok_iff, List.forall₂_map_left_iff]

theorem ofText_of_line {content l : String} {e : Entry}
    (hlines : (lines content).filter (fun l => !isSkipped l) = [l]) (hline : Entry.ofLine l = .ok e) :
    ofText content = .ok (ofList [e]) :=
  ofText_eq_ok_iff.2 ⟨[e], by rw [hlines]; exact .cons hline .nil, rfl⟩

/-! ### Lines of a written text -/

theorem toList_foldl_append (ss : List String) (acc : String) :
    (ss.foldl (· ++ ·) acc).toList = acc.toList ++ ss.flatMap String.toList := by
  induction ss generalizing acc with
  | nil => simp
  | cons s ss ih => simp [ih]

theorem splitAt_flatMap {sep : Char} {parts : List (List Char)} (h : ∀ p ∈ parts, sep ∉ p) :
    splitAt sep (parts.flatMap fun p => p ++ [sep]) = parts ++ [[]] := by
  induction parts with
  | nil => rfl
  | cons p parts ih =>
      rw [List.flatMap_cons, List.append_assoc, List.singleton_append,
        splitAt_append (h p (by simp)), ih fun q hq => h q (by simp [hq])]
      rfl

/-- A line is kept as it is if it holds no line feed and does not end in a carriage return. -/
structure IsPlainLine (l : String) : Prop where
  no_feed : '\n' ∉ l.toList
  no_return : l.toList.getLast? ≠ some '\r'

theorem dropWhile_return_of_plain {cs : List Char} (h : cs.getLast? ≠ some '\r') :
    (cs.reverse.dropWhile (· = '\r')).reverse = cs := by
  rw [← List.head?_reverse] at h
  cases hrev : cs.reverse with
  | nil =>
      rw [List.reverse_eq_nil_iff.1 hrev]
      rfl
  | cons c rest =>
      rw [hrev] at h
      rw [List.dropWhile_cons_of_neg (by simpa using h), ← hrev, List.reverse_reverse]

theorem lines_join {ls : List String} (h : ∀ l ∈ ls, IsPlainLine l) :
    lines (String.join (ls.map (· ++ "\n"))) = ls ++ [""] := by
  have htext : (String.join (ls.map (· ++ "\n"))).toList =
      (ls.map String.toList).flatMap fun p => p ++ ['\n'] := by
    rw [String.join, toList_foldl_append, List.flatMap_map, List.flatMap_map]
    simp
  have hsplit : splitAt '\n' (String.join (ls.map (· ++ "\n"))).toList =
      ls.map String.toList ++ [[]] := by
    rw [htext]
    apply splitAt_flatMap
    intro p hp
    obtain ⟨l, hl, rfl⟩ := List.mem_map.1 hp
    exact (h l hl).no_feed
  rw [lines, hsplit, List.map_append, List.map_map]
  congr 1
  rw [List.map_congr_left (g := id), List.map_id]
  intro l hl
  simp only [Function.comp_apply]
  rw [dropWhile_return_of_plain (h l hl).no_return, String.ofList_toList, id]

theorem isPlainLine_header : IsPlainLine header := ⟨by decide, by decide⟩

theorem isPlainLine_toLine {e : Entry} {l : String} (h : e.toLine = .ok l) : IsPlainLine l := by
  obtain ⟨source, artifact, -, -, hs, ha, hn, hl⟩ := Entry.toLine_eq_ok h
  have hlast : l.toList.getLast? = some 'Z' := by
    rw [hl]
    simp only [joinWith, ← List.append_assoc, ← List.cons_append, List.getLast?_append,
      List.getLast?_cons, Moment.getLast?_text, Option.getD_some, Option.some_or]
  refine ⟨?_, by rw [hlast]; decide⟩
  rw [hl]
  simp only [joinWith, List.mem_append, List.mem_cons, not_or]
  exact ⟨(not_mem_of_fitsField hn).2.1, by decide, (not_mem_of_fitsField hs).2.1, by decide,
    e.mode.not_mem_keyword.2.1, by decide, (not_mem_of_fitsField ha).2.1, by decide,
    Moment.not_mem_text (by decide) (by decide)⟩

theorem isSkipped_header : isSkipped header = true := by decide

theorem trim_ne_nil_of_mem {cs : List Char} {c : Char} (hc : c ∈ cs) (hb : isBlank c = false) :
    trim cs ≠ [] := by
  intro h
  rw [trim, List.reverse_eq_nil_iff, List.dropWhile_eq_nil_iff] at h
  have hmem : c ∈ trimStart cs := by
    have hsplit := List.takeWhile_append_dropWhile (p := isBlank) (l := cs)
    rw [← hsplit] at hc
    refine (List.mem_append.1 hc).resolve_left fun htake => ?_
    have := List.mem_takeWhile_imp htake
    rw [hb] at this
    cases this
  have := h c (List.mem_reverse.2 hmem)
  rw [hb] at this
  cases this

/-- Only a name that begins like a comment makes the line of an entry be passed over. -/
theorem isSkipped_toLine {e : Entry} {l : String} (h : e.toLine = .ok l) :
    isSkipped l = true ↔ e.name.toList.head? = some '#' := by
  obtain ⟨source, artifact, -, -, -, -, -, hl⟩ := Entry.toLine_eq_ok h
  have hbar : fieldBar ∈ l.toList := by
    rw [hl]
    simp [joinWith]
  have htrim : (trim l.toList).isEmpty = false := by
    rw [List.isEmpty_eq_false_iff]
    exact trim_ne_nil_of_mem hbar (by decide)
  have hhead : l.toList.head? = some '#' ↔ e.name.toList.head? = some '#' := by
    rw [hl]
    cases hname : e.name.toList with
    | nil => simp [joinWith, fieldBar]
    | cons c cs => simp [joinWith]
  rw [isSkipped, htrim, Bool.false_or, beq_iff_eq, hhead]

/-! ### Whole registries -/

theorem writeLines_eq_ok_iff {es : List Entry} {ls : List String} :
    writeLines es = .ok ls ↔ List.Forall₂ (fun e l => e.toLine = .ok l) es ls := by
  induction es generalizing ls with
  | nil =>
      rw [writeLines, List.forall₂_nil_left_iff]
      exact ⟨fun h => (Except.ok.inj h).symm, fun h => by rw [h]⟩
  | cons e es ih =>
      rw [writeLines, List.forall₂_cons_left_iff]
      cases he : e.toLine with
      | error f => simp [Except.mapError, bind, Except.bind]
      | ok l =>
          simp only [Except.mapError, bind, Except.bind, Except.ok.injEq]
          cases hes : writeLines es with
          | error f =>
              simp only [reduceCtorEq, false_iff, not_exists, not_and]
              intro l' ls' _ hls'
              rw [← ih, hes] at hls'
              cases hls'
          | ok ls' =>
              simp only [Except.ok.injEq]
              constructor
              · rintro rfl
                exact ⟨l, ls', rfl, ih.1 hes, rfl⟩
              · rintro ⟨l', ls'', rfl, hls'', rfl⟩
                rw [← ih, hes] at hls''
                cases hls''
                rfl

/-- A registry has a text if and only if each entry has a line. -/
theorem text_eq_ok_iff {r : Registry} {s : String} :
    r.text = .ok s ↔ ∃ ls, List.Forall₂ (fun e l => e.toLine = .ok l) r.entries ls ∧
      s = String.join ((header :: ls).map (· ++ "\n")) := by
  unfold text
  simp only [← writeLines_eq_ok_iff]
  cases h : writeLines r.entries with
  | error f => simp [bind, Except.bind]
  | ok ls =>
      simp only [bind, Except.bind, Except.ok.injEq]
      constructor
      · rintro rfl
        exact ⟨ls, rfl, rfl⟩
      · rintro ⟨ls', rfl, rfl⟩
        rfl

theorem forall₂_toLine_mem {es : List Entry} {ls : List String}
    (h : List.Forall₂ (fun e l => e.toLine = .ok l) es ls) {l : String} (hl : l ∈ ls) :
    ∃ e ∈ es, e.toLine = .ok l := by
  induction h with
  | nil => cases hl
  | cons he hes ih =>
      rcases List.mem_cons.1 hl with rfl | hl
      · exact ⟨_, by simp, he⟩
      · obtain ⟨e, hmem, heq⟩ := ih hl
        exact ⟨e, by simp [hmem], heq⟩

/-- The lines of a written text that count are those of the entries, without the comments. -/
theorem filter_lines_text {es : List Entry} {ls : List String}
    (h : List.Forall₂ (fun e l => e.toLine = .ok l) es ls) :
    ((lines (String.join ((header :: ls).map (· ++ "\n")))).filter fun l => !isSkipped l) =
      ls.filter fun l => !isSkipped l := by
  have hplain : ∀ l ∈ header :: ls, IsPlainLine l := by
    intro l hl
    rcases List.mem_cons.1 hl with rfl | hl
    · exact isPlainLine_header
    · obtain ⟨e, -, he⟩ := forall₂_toLine_mem h hl
      exact isPlainLine_toLine he
  have hempty : isSkipped "" = true := by decide
  rw [lines_join hplain, List.filter_append, List.filter_cons]
  simp [isSkipped_header, hempty]

theorem forall₂_ofLine_of_readable {es : List Entry} {ls : List String}
    (h : List.Forall₂ (fun e l => e.toLine = .ok l) es ls) (hes : ∀ e ∈ es, e.Readable) :
    List.Forall₂ (fun l e => Entry.ofLine l = .ok e) (ls.filter fun l => !isSkipped l) es := by
  induction h with
  | nil => exact List.Forall₂.nil
  | cons he htail ih =>
      have hread := hes _ List.mem_cons_self
      have hskip : ¬ isSkipped _ = true := fun hs =>
        hread.not_comment ((isSkipped_toLine he).1 hs)
      rw [List.filter_cons, if_pos (by simpa using hskip)]
      exact List.Forall₂.cons (Entry.ofLine_toLine he hread.toEncodable)
        (ih fun e hmem => hes e (List.mem_cons_of_mem _ hmem))

/-- A registry of readable entries comes back from its text. -/
theorem ofText_text {r : Registry} {s : String} (h : r.text = .ok s)
    (hr : ∀ e ∈ r.entries, e.Readable) : ofText s = .ok r := by
  obtain ⟨ls, hls, rfl⟩ := text_eq_ok_iff.1 h
  rw [ofText_eq_ok_iff, filter_lines_text hls]
  exact ⟨r.entries, forall₂_ofLine_of_readable hls hr, (ofList_entries r).symm⟩

/-- What is read from the lines of entries: each entry whose line counts is fit for it, and each
entry read has the name of one of them. -/
theorem encodable_of_forall₂_ofLine {es es' : List Entry} {ls : List String}
    (h : List.Forall₂ (fun e l => e.toLine = .ok l) es ls)
    (h' : List.Forall₂ (fun l e => Entry.ofLine l = .ok e) (ls.filter fun l => !isSkipped l) es') :
    (∀ e ∈ es, e.name.toList.head? ≠ some '#' → e.Encodable) ∧
      ∀ e' ∈ es', ∃ e ∈ es, e' = e ∧ e.name.toList.head? ≠ some '#' := by
  induction h generalizing es' with
  | nil =>
      rw [List.filter_nil, List.forall₂_nil_left_iff] at h'
      subst h'
      exact ⟨by simp, by simp⟩
  | @cons e l es ls he htail ih =>
      rw [List.filter_cons] at h'
      by_cases hskip : isSkipped l = true
      · rw [if_neg (by simpa using hskip)] at h'
        obtain ⟨henc, hname⟩ := ih h'
        have hcomment := (isSkipped_toLine he).1 hskip
        refine ⟨fun f hf hne => ?_, fun f hf => ?_⟩
        · rcases List.mem_cons.1 hf with rfl | hf
          · exact absurd hcomment hne
          · exact henc f hf hne
        · obtain ⟨g, hg, heq, hne⟩ := hname f hf
          exact ⟨g, List.mem_cons_of_mem _ hg, heq, hne⟩
      · rw [if_pos (by simpa using hskip), List.forall₂_cons_left_iff] at h'
        obtain ⟨e', es'', hread, hrest, rfl⟩ := h'
        obtain ⟨henc, hname⟩ := ih hrest
        have hcomment : e.name.toList.head? ≠ some '#' := fun hc =>
          hskip ((isSkipped_toLine he).2 hc)
        have hencodable := Entry.encodable_of_ofLine_toLine he hread
        rw [Entry.ofLine_toLine he hencodable] at hread
        cases hread
        refine ⟨fun f hf hne => ?_, fun f hf => ?_⟩
        · rcases List.mem_cons.1 hf with rfl | hf
          · exact hencodable
          · exact henc f hf hne
        · rcases List.mem_cons.1 hf with rfl | hf
          · exact ⟨_, List.mem_cons_self, rfl, hcomment⟩
          · obtain ⟨g, hg, heq, hne⟩ := hname f hf
            exact ⟨g, List.mem_cons_of_mem _ hg, heq, hne⟩

/-- If something is read from a written text that has all its names, every entry was readable. -/
theorem readable_of_ofText_text {r r' : Registry} {s : String} (h : r.text = .ok s)
    (h' : ofText s = .ok r') (hnames : ∀ e ∈ r.entries, ∃ e' ∈ r'.entries, e'.name = e.name) :
    ∀ e ∈ r.entries, e.Readable := by
  obtain ⟨ls, hls, rfl⟩ := text_eq_ok_iff.1 h
  rw [ofText_eq_ok_iff, filter_lines_text hls] at h'
  obtain ⟨es', hes', rfl⟩ := h'
  obtain ⟨henc, hback⟩ := encodable_of_forall₂_ofLine hls hes'
  intro e he
  obtain ⟨e', he', hname⟩ := hnames e he
  obtain ⟨f, hf, rfl, hcomment⟩ := hback e' (mem_of_mem_ofList he')
  rw [hname] at hcomment
  exact ⟨henc e he hcomment, hcomment⟩

/-- Where no name looks like a comment, a written text gives its registry or nothing. -/
theorem eq_of_ofText_text {r r' : Registry} {s : String} (h : r.text = .ok s)
    (hr : ∀ e ∈ r.entries, e.name.toList.head? ≠ some '#') (h' : ofText s = .ok r') : r' = r := by
  obtain ⟨ls, hls, rfl⟩ := text_eq_ok_iff.1 h
  have hread := h'
  rw [ofText_eq_ok_iff, filter_lines_text hls] at hread
  obtain ⟨es', hes', -⟩ := hread
  have henc := (encodable_of_forall₂_ofLine hls hes').1
  rw [ofText_text h fun e he => ⟨henc e he (hr e he), hr e he⟩] at h'
  exact (Except.ok.inj h').symm

/-- The round trip of texts, with its exact domain. -/
theorem ofText_text_iff {r : Registry} {s : String} (h : r.text = .ok s) :
    ofText s = .ok r ↔ ∀ e ∈ r.entries, e.Readable :=
  ⟨fun h' => readable_of_ofText_text h h' fun e he => ⟨e, he, rfl⟩, ofText_text h⟩

end Registry

end Sideload
