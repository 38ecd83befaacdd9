import Sideload.Proofs.Registry.File

/-!
The grammar of registry files. A file is cut at line feeds, and the carriage returns at the end of a line
do not belong to it. A line that is neither blank nor a comment has to spell an entry; else the first flaw
of its fields, told from the left, is the reason why the file is refused. `FirstFault` says where the first
such line stands, counted over all lines of the file.
-/

namespace Sideload

theorem splitAt_eq_splitOn (sep : Char) (cs : List Char) : splitAt sep cs = cs.splitOn sep := by
  induction cs with
  | nil => rfl
  | cons c cs ih =>
      rw [splitAt, List.splitOn, List.splitOnP_cons_eq_if_modifyHead, ← List.splitOn, ← ih]
      by_cases h : c = sep
      · rw [if_pos h, if_pos (beq_iff_eq.2 h)]
      · rw [if_neg h, if_neg (by simpa using h)]
        cases hs : splitAt sep cs with
        | nil => exact absurd (ih ▸ hs) (List.splitOnP_ne_nil _ _)
        | cons part parts => rfl

/-! ### Lines and entries -/

/-- The texts that a mode is read from. -/
inductive Mode.Named : Mode → List Char → Prop
  | copy : Named .copy "copy".toList
  | dev : Named .editable "dev".toList
  | editable : Named .editable "editable".toList

theorem Mode.ofText?_eq_some_iff {s : List Char} {m : Mode} :
    ofText? (String.ofList s) = some m ↔ m.Named s := by
  constructor
  · intro h
    unfold ofText? at h
    split at h
    · next hs =>
        cases h
        rw [← String.toList_ofList (l := s), hs]
        exact .copy
    · split at h
      · next hs =>
          cases h
          rw [← String.toList_ofList (l := s)]
          rcases hs with hs | hs
          · rw [hs]
            exact .dev
          · rw [hs]
            exact .editable
      · cases h
  · rintro (_ | _ | _) <;> rfl

namespace Path

theorem isAbsolute_ofString_iff {s : List Char} :
    (ofString (String.ofList s)).isAbsolute = true ↔ s.head? = some '/' := by
  unfold isAbsolute ofString Glyph.ofString
  rw [String.toList_ofList]
  cases s with
  | nil => decide
  | cons c s => simp

end Path

namespace Entry

variable {line name source mode artifact time : List Char} {e : Entry} {fault : LineError}

/-- The line spells the entry: of its five fields the first is a name, the second and the fourth are
absolute paths, the third is a mode and the last is a time. -/
inductive Spells (line : List Char) : Entry → Prop
  | fields {name source mode artifact time : List Char} {m : Mode} {installedAt : Moment}
      (hfields : line.splitOn fieldBar = [name, source, mode, artifact, time]) (hname : name ≠ [])
      (hsource : source.head? = some '/') (hmode : m.Named mode) (hartifact : artifact.head? = some '/')
      (htime : Moment.read (String.ofList time) = .ok installedAt) :
      Spells line ⟨String.ofList name, .ofString (String.ofList source), m,
        .ofString (String.ofList artifact), installedAt⟩

/-- What is wrong with a line: the number of its fields, or the first of the five that is not as it should
be. -/
inductive Breaks (line : List Char) : LineError → Prop
  | count (hfields : (line.splitOn fieldBar).length ≠ 5) :
      Breaks line (.fieldCount (line.splitOn fieldBar).length)
  | name {source mode artifact time : List Char}
      (hfields : line.splitOn fieldBar = [[], source, mode, artifact, time]) : Breaks line .emptyName
  | source {name source mode artifact time : List Char}
      (hfields : line.splitOn fieldBar = [name, source, mode, artifact, time]) (hname : name ≠ [])
      (hsource : source.head? ≠ some '/') : Breaks line (.relativeSource (String.ofList source))
  | mode {name source mode artifact time : List Char}
      (hfields : line.splitOn fieldBar = [name, source, mode, artifact, time]) (hname : name ≠ [])
      (hsource : source.head? = some '/') (hmode : ∀ m : Mode, ¬ m.Named mode) :
      Breaks line (.unknownMode (String.ofList mode))
  | artifact {name source mode artifact time : List Char} {m : Mode}
      (hfields : line.splitOn fieldBar = [name, source, mode, artifact, time]) (hname : name ≠ [])
      (hsource : source.head? = some '/') (hmode : m.Named mode) (hartifact : artifact.head? ≠ some '/') :
      Breaks line (.relativeArtifact (String.ofList artifact))
  | time {name source mode artifact time : List Char} {m : Mode} {why : TimeError}
      (hfields : line.splitOn fieldBar = [name, source, mode, artifact, time]) (hname : name ≠ [])
      (hsource : source.head? = some '/') (hmode : m.Named mode) (hartifact : artifact.head? = some '/')
      (htime : Moment.read (String.ofList time) = .error why) :
      Breaks line (.badTime (String.ofList time) why)

/-- The checks of a line with five fields, one after the other. -/
theorem ofLine_of_splitOn (h : line.splitOn fieldBar = [name, source, mode, artifact, time]) :
    ofLine (String.ofList line) =
      if name = [] then .error .emptyName
      else if source.head? ≠ some '/' then .error (.relativeSource (String.ofList source))
      else match Mode.ofText? (String.ofList mode) with
        | none => .error (.unknownMode (String.ofList mode))
        | some m =>
          if artifact.head? ≠ some '/' then .error (.relativeArtifact (String.ofList artifact))
          else ((Moment.read (String.ofList time)).mapError (.badTime (String.ofList time))).map
            fun moment => ⟨String.ofList name, .ofString (String.ofList source), m,
              .ofString (String.ofList artifact), moment⟩ := by
  unfold ofLine
  rw [String.toList_ofList, splitAt_eq_splitOn, h]
  have habsolute (s : List Char) :
      (!(Path.ofString (String.ofList s)).isAbsolute) = decide (s.head? ≠ some '/') := by
    rw [Bool.eq_iff_iff, Bool.not_eq_true', ← Bool.not_eq_true, Path.isAbsolute_ofString_iff,
      decide_eq_true_eq]
  simp only [habsolute]
  by_cases hname : name = []
  · simp only [if_pos hname]
    rfl
  by_cases hsource : source.head? = some '/'
  · simp only [if_neg hname, hsource, ne_eq, not_true_eq_false, decide_false, if_false]
    cases hmode : Mode.ofText? (String.ofList mode) with
    | none => rfl
    | some m =>
        by_cases hartifact : artifact.head? = some '/'
        · simp only [hartifact, not_true_eq_false, decide_false, if_false]
          cases htime : Moment.read (String.ofList time) <;> rfl
        · simp only [hartifact, not_false_eq_true, decide_true, if_true]
          rfl
  · simp only [if_neg hname, hsource, ne_eq, not_false_eq_true, decide_true, if_true]
    rfl

theorem ofLine_of_spells (h : Spells line e) : ofLine (String.ofList line) = .ok e := by
  cases h with
  | fields hfields hname hsource hmode hartifact htime =>
      rw [ofLine_of_splitOn hfields, if_neg hname, if_neg (not_not.2 hsource),
        Mode.ofText?_eq_some_iff.2 hmode]
      simp only [hartifact, htime, Except.mapError, Except.map, not_true_eq_false, if_false, ne_eq]

theorem ofLine_of_breaks (h : Breaks line fault) : ofLine (String.ofList line) = .error fault := by
  have hunnamed {s : List Char} (h : ∀ m : Mode, ¬ m.Named s) : Mode.ofText? (String.ofList s) = none :=
    Option.eq_none_iff_forall_ne_some.2 fun m hm => h m (Mode.ofText?_eq_some_iff.1 hm)
  cases h with
  | count hfields =>
      unfold ofLine
      rw [String.toList_ofList, splitAt_eq_splitOn]
      split
      · next heq => exact absurd (congrArg List.length heq) hfields
      · rfl
  | name hfields => rw [ofLine_of_splitOn hfields, if_pos rfl]
  | source hfields hname hsource => rw [ofLine_of_splitOn hfields, if_neg hname, if_pos hsource]
  | mode hfields hname hsource hmode =>
      rw [ofLine_of_splitOn hfields, if_neg hname, if_neg (not_not.2 hsource), hunnamed hmode]
  | artifact hfields hname hsource hmode hartifact =>
      rw [ofLine_of_splitOn hfields, if_neg hname, if_neg (not_not.2 hsource),
        Mode.ofText?_eq_some_iff.2 hmode]
      exact if_pos hartifact
  | time hfields hname hsource hmode hartifact htime =>
      rw [ofLine_of_splitOn hfields, if_neg hname, if_neg (not_not.2 hsource),
        Mode.ofText?_eq_some_iff.2 hmode, htime]
      exact if_neg (not_not.2 hartifact)

/-- Every line spells an entry or has a flaw. -/
theorem spells_or_breaks (line : List Char) : (∃ e, Spells line e) ∨ ∃ fault, Breaks line fault := by
  by_cases hcount : (line.splitOn fieldBar).length = 5
  · obtain ⟨name, source, mode, artifact, time, hfields⟩ : ∃ name source mode artifact time,
        line.splitOn fieldBar = [name, source, mode, artifact, time] := by
      match line.splitOn fieldBar, hcount with
      | [name, source, mode, artifact, time], _ => exact ⟨name, source, mode, artifact, time, rfl⟩
    by_cases hname : name = []
    · exact .inr ⟨_, .name (hname ▸ hfields)⟩
    by_cases hsource : source.head? = some '/'
    · by_cases hmode : ∃ m : Mode, m.Named mode
      · obtain ⟨m, hmode⟩ := hmode
        by_cases hartifact : artifact.head? = some '/'
        · cases htime : Moment.read (String.ofList time) with
          | ok moment => exact .inl ⟨_, .fields hfields hname hsource hmode hartifact htime⟩
          | error why => exact .inr ⟨_, .time hfields hname hsource hmode hartifact htime⟩
        · exact .inr ⟨_, .artifact hfields hname hsource hmode hartifact⟩
      · exact .inr ⟨_, .mode hfields hname hsource (not_exists.1 hmode)⟩
    · exact .inr ⟨_, .source hfields hname hsource⟩
  · exact .inr ⟨_, .count hcount⟩

theorem ofLine_eq_ok_iff : ofLine (String.ofList line) = .ok e ↔ Spells line e := by
  refine ⟨fun h => ?_, ofLine_of_spells⟩
  rcases spells_or_breaks line with ⟨e', he⟩ | ⟨fault, hfault⟩
  · cases (ofLine_of_spells he).symm.trans h
    exact he
  · cases (ofLine_of_breaks hfault).symm.trans h

theorem ofLine_eq_error_iff : ofLine (String.ofList line) = .error fault ↔ Breaks line fault := by
  refine ⟨fun h => ?_, ofLine_of_breaks⟩
  rcases spells_or_breaks line with ⟨e, he⟩ | ⟨fault', hfault⟩
  · cases (ofLine_of_spells he).symm.trans h
  · cases (ofLine_of_breaks hfault).symm.trans h
    exact hfault

end Entry

namespace Registry

variable {raw l : List Char} {raws above rest : List (List Char)} {r : Registry} {n : Nat}
  {why : LineError} {s : String}

/-! ### Lines of a file -/

/-- A line of a file without the carriage returns at its end. -/
def bare (raw : List Char) : List Char := raw.rdropWhile (· = '\r')

/-- A line that is passed over: it is blank, or it is a comment. -/
def Idle (raw : List Char) : Prop := (∀ c ∈ bare raw, isBlank c = true) ∨ (bare raw).head? = some '#'

instance (raw : List Char) : Decidable (Idle raw) :=
  decidable_of_iff ((bare raw).all isBlank = true ∨ (bare raw).head? = some '#')
    (or_congr_left List.all_eq_true)

theorem trim_eq_nil_iff {cs : List Char} : trim cs = [] ↔ ∀ c ∈ cs, isBlank c = true := by
  unfold trim trimStart
  rw [List.reverse_eq_nil_iff, List.dropWhile_eq_nil_iff]
  simp only [List.mem_reverse]
  constructor
  · intro h c hc
    rw [← List.takeWhile_append_dropWhile (p := isBlank) (l := cs)] at hc
    exact (List.mem_append.1 hc).elim (List.mem_takeWhile_imp) (h c)
  · intro h c hc
    exact h c ((List.dropWhile_sublist _).subset hc)

theorem isSkipped_bare : isSkipped (String.ofList (bare raw)) = true ↔ Idle raw := by
  unfold isSkipped Idle
  rw [String.toList_ofList, Bool.or_eq_true, List.isEmpty_iff, trim_eq_nil_iff, beq_iff_eq]

theorem lines_eq (s : String) :
    lines s = (s.toList.splitOn '\n').map fun raw => String.ofList (bare raw) := by
  unfold lines
  rw [splitAt_eq_splitOn]
  rfl

/-- The lines that count, without the carriage returns at their ends. -/
def counted (raws : List (List Char)) : List (List Char) :=
  (raws.filter fun raw => decide (¬ Idle raw)).map bare

/-- The lines denote the registry: those that count spell entries, and a name stands for the entry of its
last line. -/
def Denotes (raws : List (List Char)) (r : Registry) : Prop :=
  ∃ es, List.Forall₂ Entry.Spells (counted raws) es ∧
    ∀ name, r.get? name = es.reverse.find? (·.name = name)

/-- A line that a registry file may have. -/
def Fit (raw : List Char) : Prop := Idle raw ∨ ∃ e, Entry.Spells (bare raw) e

/-- The first line that a registry file may not have: its number from 1, and what is wrong with it. -/
inductive FirstFault (raws : List (List Char)) : Nat → LineError → Prop
  | intro (before : List (List Char)) (raw : List Char) {after : List (List Char)} {why : LineError}
      (hraws : raws = before ++ raw :: after) (hbefore : ∀ l ∈ before, Fit l) (hcounts : ¬ Idle raw)
      (hbreaks : Entry.Breaks (bare raw) why) : FirstFault raws (before.length + 1) why

/-! ### Reading -/

/-- Of several entries with one name the last counts. -/
theorem get?_foldl_insert (es : List Entry) (r : Registry) (name : String) :
    (es.foldl insert r).get? name = (es.reverse.find? (·.name = name)).or (r.get? name) := by
  induction es generalizing r with
  | nil => rfl
  | cons e es ih =>
      rw [List.foldl_cons, ih, List.reverse_cons, List.find?_append, Option.or_assoc, get?_insert]
      by_cases h : e.name = name
      · rw [if_pos h, List.find?_cons_of_pos (by simpa using h), Option.some_or]
      · rw [if_neg h, List.find?_cons_of_neg (by simpa using h), List.find?_nil, Option.none_or]

theorem get?_ofList (es : List Entry) (name : String) :
    (ofList es).get? name = es.reverse.find? (·.name = name) := by
  rw [ofList, get?_foldl_insert, get?_empty, Option.or_none]

theorem filter_lines (s : String) : ((lines s).filter fun l => !isSkipped l) =
    (counted (s.toList.splitOn '\n')).map String.ofList := by
  rw [lines_eq, counted, List.map_map, List.filter_map]
  refine congrArg (List.map _) (List.filter_congr fun raw _ => ?_)
  rw [Bool.eq_iff_iff, Function.comp_apply, Bool.not_eq_true', ← Bool.not_eq_true, isSkipped_bare,
    decide_eq_true_eq]

/-- A text is a registry just when its lines denote it. -/
theorem ofText_eq_ok_iff_denotes : ofText s = .ok r ↔ Denotes (s.toList.splitOn '\n') r := by
  rw [ofText_eq_ok_iff, filter_lines, Denotes]
  refine exists_congr fun es => and_congr ?_ ⟨?_, fun h => ext_get? fun name => ?_⟩
  · rw [List.forall₂_map_left_iff]
    simp only [Entry.ofLine_eq_ok_iff]
  · rintro rfl name
    exact get?_ofList es name
  · rw [h, get?_ofList]

theorem firstFault_nil : ¬ FirstFault [] n why := by
  rintro ⟨before, raw, hraws, -, -, -⟩
  exact List.append_ne_nil_of_right_ne_nil _ (List.cons_ne_nil _ _) hraws.symm

theorem firstFault_cons : FirstFault (raw :: rest) n why ↔
    n = 1 ∧ ¬ Idle raw ∧ Entry.Breaks (bare raw) why ∨
      ∃ m, n = m + 1 ∧ Fit raw ∧ FirstFault rest m why := by
  constructor
  · rintro ⟨before, raw', hraws, hbefore, hcounts, hbreaks⟩
    cases before with
    | nil =>
        rw [List.nil_append, List.cons.injEq] at hraws
        obtain ⟨rfl, rfl⟩ := hraws
        exact .inl ⟨rfl, hcounts, hbreaks⟩
    | cons first before =>
        rw [List.cons_append, List.cons.injEq] at hraws
        obtain ⟨rfl, rfl⟩ := hraws
        exact .inr ⟨_, rfl, hbefore _ (List.mem_cons_self ..),
          before, raw', rfl, fun l hl => hbefore l (List.mem_cons_of_mem _ hl), hcounts, hbreaks⟩
  · rintro (⟨rfl, hcounts, hbreaks⟩ | ⟨m, rfl, hfit, before, raw', hraws, hbefore, hcounts, hbreaks⟩)
    · exact .intro [] raw rfl (by simp) hcounts hbreaks
    · refine .intro (raw :: before) raw' (by rw [hraws, List.cons_append]) ?_ hcounts hbreaks
      rintro l hl
      rcases List.mem_cons.1 hl with rfl | hl
      · exact hfit
      · exact hbefore l hl

/-- The reader stops at the first line that is no entry. -/
theorem readLines_fault (raws : List (List Char)) (k n : Nat) (why : LineError) :
    (readLines ((((raws.map fun raw => String.ofList (bare raw)).zipIdx k).map
      fun p => (p.2 + 1, p.1)).filter fun p => !isSkipped p.2)).2 = some (n, why) ↔
      ∃ m, n = k + m ∧ FirstFault raws m why := by
  induction raws generalizing k with
  | nil =>
      constructor
      · rintro ⟨⟩
      · rintro ⟨m, -, h⟩
        exact absurd h firstFault_nil
  | cons raw raws ih =>
      have hlater : (∃ m, n = k + 1 + m ∧ FirstFault raws m why) ↔
          ∃ m, n = k + m ∧ ∃ m', m = m' + 1 ∧ FirstFault raws m' why := by
        constructor
        · rintro ⟨m, rfl, h⟩
          exact ⟨m + 1, by omega, m, rfl, h⟩
        · rintro ⟨_, rfl, m, rfl, h⟩
          exact ⟨m, by omega, h⟩
      rw [List.map_cons, List.zipIdx_cons, List.map_cons]
      simp only [firstFault_cons]
      by_cases hidle : Idle raw
      · rw [List.filter_cons_of_neg (by simpa using isSkipped_bare.2 hidle), ih, hlater]
        refine exists_congr fun m => and_congr_right fun _ => ?_
        simp only [Fit, hidle, true_or, true_and, not_true_eq_false, false_and, and_false, false_or]
      · rw [List.filter_cons_of_pos (by simpa using mt isSkipped_bare.1 hidle), readLines]
        cases hline : Entry.ofLine (String.ofList (bare raw)) with
        | error fault =>
            have hbreaks := Entry.ofLine_eq_error_iff.1 hline
            constructor
            · rintro ⟨⟩
              exact ⟨1, rfl, .inl ⟨rfl, hidle, hbreaks⟩⟩
            · rintro ⟨_, rfl, ⟨rfl, -, h⟩ | ⟨m, rfl, hfit, -⟩⟩
              · cases (Entry.ofLine_eq_error_iff.2 h).symm.trans hline
                rfl
              · obtain ⟨e, he⟩ := hfit.resolve_left hidle
                cases (Entry.ofLine_eq_ok_iff.2 he).symm.trans hline
        | ok e =>
            have hspells := Entry.ofLine_eq_ok_iff.1 hline
            rw [ih, hlater]
            refine exists_congr fun m => and_congr_right fun _ => ⟨?_, ?_⟩
            · rintro ⟨m', h, h'⟩
              exact .inr ⟨m', h, .inr ⟨e, hspells⟩, h'⟩
            · rintro (⟨-, -, h⟩ | ⟨m', h, -, h'⟩)
              · cases (Entry.ofLine_eq_error_iff.2 h).symm.trans hline
              · exact ⟨m', h, h'⟩

/-- A text is refused just for the first line that it may not have. -/
theorem ofText_eq_error_iff {fault : Nat × LineError} :
    ofText s = .error fault ↔ FirstFault (s.toList.splitOn '\n') fault.1 fault.2 := by
  have h := readLines_fault (s.toList.splitOn '\n') 0 fault.1 fault.2
  rw [← lines_eq, ← numberedLines] at h
  simp only [Nat.zero_add, exists_eq_left'] at h
  rw [← h, ofText]
  split
  · next heq => simp [heq]
  · next heq => simp [heq]

/-! ### Inserted lines and other line ends -/

/-- A line of a file as it is spelled in another file, with idle lines put before it. -/
structure Rewording where
  above : List (List Char)
  old : List Char
  new : List Char
  idle : ∀ raw ∈ above, Idle raw
  same : bare new = bare old

/-- The lines that were put before the first `n` lines. -/
def insertedBefore (pieces : List Rewording) (n : Nat) : Nat :=
  ((pieces.take n).map (·.above.length)).sum

/-- A file with other line ends and more idle lines: what the lines of the other file became, and the idle
lines at the end. -/
structure Reworded (raws raws' : List (List Char)) (pieces : List Rewording) : Prop where
  old : raws = pieces.map (·.old)
  new : ∃ last : List (List Char), (∀ raw ∈ last, Idle raw) ∧
    raws' = pieces.flatMap (fun p => p.above ++ [p.new]) ++ last

theorem Rewording.idle_iff (p : Rewording) : Idle p.new ↔ Idle p.old := by
  unfold Idle
  rw [p.same]

theorem counted_append (raws raws' : List (List Char)) :
    counted (raws ++ raws') = counted raws ++ counted raws' := by
  rw [counted, List.filter_append, List.map_append]
  rfl

theorem counted_idle (h : ∀ raw ∈ raws, Idle raw) : counted raws = [] := by
  rw [counted, List.filter_eq_nil_iff.2 fun raw hraw => by simpa using h raw hraw, List.map_nil]

theorem Reworded.counted {raws' : List (List Char)} {pieces : List Rewording}
    (h : Reworded raws raws' pieces) : counted raws' = counted raws := by
  obtain ⟨rfl, last, hlast, rfl⟩ := h
  rw [counted_append, counted_idle hlast, List.append_nil]
  induction pieces with
  | nil => rfl
  | cons p pieces ih =>
      have hpiece : Registry.counted [p.new] = Registry.counted [p.old] := by
        unfold Registry.counted
        by_cases hidle : Idle p.old
        · rw [List.filter_cons_of_neg (by simpa using p.idle_iff.2 hidle),
            List.filter_cons_of_neg (by simpa using hidle)]
        · rw [List.filter_cons_of_pos (by simpa using mt p.idle_iff.1 hidle),
            List.filter_cons_of_pos (by simpa using hidle), List.filter_nil, List.map_singleton,
            List.map_singleton, p.same]
      rw [List.flatMap_cons, counted_append, counted_append, counted_idle p.idle, List.nil_append, ih,
        hpiece, ← counted_append]
      rfl

theorem firstFault_idle_append (h : ∀ raw ∈ above, Idle raw) :
    FirstFault (above ++ rest) n why ↔ ∃ m, n = above.length + m ∧ FirstFault rest m why := by
  induction above generalizing n with
  | nil => simp
  | cons raw above ih =>
      have hidle := h raw (List.mem_cons_self ..)
      have ih := @ih (h := fun raw' h' => h raw' (List.mem_cons_of_mem _ h'))
      rw [List.cons_append, firstFault_cons]
      simp only [ih, hidle, Fit, not_true_eq_false, false_and, and_false, false_or, true_or, true_and]
      constructor
      · rintro ⟨_, rfl, m, rfl, hm⟩
        exact ⟨m, by rw [List.length_cons]; omega, hm⟩
      · rintro ⟨m, rfl, hm⟩
        exact ⟨above.length + m, by rw [List.length_cons]; omega, m, rfl, hm⟩

/-- The first line that is no entry is the same one, as many lines further down as were put before it. -/
theorem Reworded.firstFault {raws' : List (List Char)} {pieces : List Rewording}
    (h : Reworded raws raws' pieces) : FirstFault raws' n why ↔
      ∃ m, n = m + insertedBefore pieces m ∧ FirstFault raws m why := by
  obtain ⟨rfl, last, hlast, rfl⟩ := h
  induction pieces generalizing n with
  | nil =>
      have hnone : ¬ FirstFault last n why := by
        rw [← List.append_nil last, firstFault_idle_append hlast]
        rintro ⟨m, -, hm⟩
        exact firstFault_nil hm
      simp [hnone, firstFault_nil]
  | cons p pieces ih =>
      have hsum (m : Nat) : insertedBefore (p :: pieces) (m + 1) =
          p.above.length + insertedBefore pieces m := by
        rw [insertedBefore, List.take_succ_cons, List.map_cons, List.sum_cons]
        rfl
      have hfit : Fit p.new ↔ Fit p.old := by rw [Fit, Fit, p.idle_iff, p.same]
      rw [List.flatMap_cons, List.append_assoc, List.append_assoc, firstFault_idle_append p.idle,
        List.map_cons, List.singleton_append]
      simp only [firstFault_cons, ih, p.idle_iff, hfit, p.same]
      constructor
      · rintro ⟨_, rfl, ⟨rfl, h⟩ | ⟨_, rfl, h, m, rfl, hm⟩⟩
        · exact ⟨1, by rw [hsum]; simp [insertedBefore]; omega, .inl ⟨rfl, h⟩⟩
        · exact ⟨m + 1, by rw [hsum]; omega, .inr ⟨m, rfl, h, hm⟩⟩
      · rintro ⟨_, rfl, ⟨rfl, h⟩ | ⟨m, rfl, h, hm⟩⟩
        · exact ⟨1, by rw [hsum]; simp [insertedBefore]; omega, .inl ⟨rfl, h⟩⟩
        · exact ⟨m + insertedBefore pieces m + 1, by rw [hsum]; omega,
            .inr ⟨_, rfl, h, m, rfl, hm⟩⟩

theorem Reworded.denotes {raws' : List (List Char)} {pieces : List Rewording}
    (h : Reworded raws raws' pieces) : Denotes raws' r ↔ Denotes raws r := by
  rw [Denotes, Denotes, h.counted]

/-! ### Loading -/

theorem read_of_text {d : Disk} {path : Path} (hread : d.readText path = .ok s) :
    read d path = (ofText s).mapError fun fault => .corrupt path fault.1 (.line fault.2) := by
  rw [read, hread]

theorem bare_return (l : List Char) : bare (l ++ ['\r']) = bare l :=
  List.rdropWhile_concat_pos _ _ _ rfl

/-- A disk with a registry of the given lines. -/
def linesWorld (raws : List (List Char)) : World := .holding [(Glyph.ofString "registry.txt",
  .file (String.ofList (['\n'].intercalate raws)).toUTF8 false)]

theorem readText_linesWorld (raws : List (List Char)) :
    (linesWorld raws).disk.readText (.ofString "/registry.txt") =
      .ok (String.ofList (['\n'].intercalate raws)) := by
  have hbytes : (linesWorld raws).disk.readBytes (.ofString "/registry.txt") =
      .ok (String.ofList (['\n'].intercalate raws)).toUTF8 := by cbv
  simp only [Disk.readText, hbytes, bind, Except.bind, String.fromUTF8?_toUTF8]

def fullLine : List Char := "m|/m|dev|/t|2024-05-06T00:00:00Z".toList

/-- The short line that follows the full one is told, in either file. -/
def shortLineRewordings : List Rewording :=
  [⟨[['#', '\r'], [' ', '\r']], fullLine, fullLine ++ ['\r'], by decide, bare_return _⟩,
    ⟨[], ['m'], ['m', '\r'], by decide, by decide⟩]

end Registry

end Sideload
