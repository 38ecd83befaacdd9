import Mathlib
import Sideload.Proofs.Surface.Offers
import Sideload.Surface.Hint
import Sideload.Surface.Text

/-!
The calls among the hints for a module. Each calls a definition of the module, and a function gets no more
arguments than it has parameters. A method may get one too many: what is left out of its parameters is not the
one that its object takes, but those that are called `self`.
-/

namespace Sideload.Surface

variable {module_ callee l : String} {s : Statement} {ss body : List Statement} {ps : List Param} {j k : Nat}
  {args : List String}

/-! ### Calls in a line -/

/-- A number, or words in quotes. -/
inductive Literal : String → Prop
  | number (cs : List Char) (hne : cs ≠ []) (h : ∀ c ∈ cs, c.isDigit) : Literal (.ofList cs)
  | quoted (cs : List Char) (h : ∀ c ∈ cs, c.isAlpha ∨ c = ' ') : Literal (.ofList ('"' :: (cs ++ ['"'])))

namespace Literal

theorem ne_empty {a : String} (h : Literal a) : a.toList ≠ [] := by
  cases h with
  | number _ hne _ => rwa [String.toList_ofList]
  | quoted _ _ => simp

theorem comma_notMem {a : String} (h : Literal a) : ',' ∉ a.toList := by
  cases h with
  | number _ _ h =>
      rw [String.toList_ofList]
      exact fun hcomma => absurd (h _ hcomma) (by decide)
  | quoted _ h =>
      rw [String.toList_ofList, List.mem_cons, List.mem_append, List.mem_singleton]
      rintro (hcomma | hcomma | hcomma)
      · exact absurd hcomma (by decide)
      · exact absurd (h _ hcomma) (by decide)
      · exact absurd hcomma (by decide)

end Literal

theorem suggestion_literal (name : String) : Literal (suggestion name) := by
  have hfive : Literal "5" := .number ['5'] (by decide) (by simp)
  have hten : Literal "10" := .number ['1', '0'] (by decide) (by simp)
  have hother : Literal "42" := .number ['4', '2'] (by decide) (by simp)
  have hworld : Literal "\"World\"" := .quoted "World".toList (by simp)
  have hhello : Literal "\"hello world\"" := .quoted "hello world".toList (by simp)
  unfold suggestion
  dsimp only
  split
  · exact hworld
  · split
    · exact hhello
    · split
      · exact hfive
      · split
        · exact hten
        · exact hother

/-- A line that calls something with so many arguments, all of them literals. -/
def Passes (callee : String) (count : Nat) (l : String) : Prop :=
  ∃ args : List String, (∀ a ∈ args, Literal a) ∧ args.length = count ∧ l = s!"{callee}({commaList args})"

/-- Literals in a row are separated by one comma less than there are literals. -/
theorem count_commaList (h : ∀ a ∈ args, Literal a) : (commaList args).toList.count ',' = args.length - 1 := by
  induction args with
  | nil => rfl
  | cons a args ih =>
      have ha : a.toList.count ',' = 0 := List.count_eq_zero.2 (h a (List.mem_cons_self ..)).comma_notMem
      cases args with
      | nil => simpa [commaList] using ha
      | cons b args =>
          have hcons : commaList (a :: b :: args) = a ++ ", " ++ commaList (b :: args) :=
            String.intercalate_cons_cons
          have hrest := ih fun c hc => h c (List.mem_cons_of_mem _ hc)
          rw [hcons, String.toList_append, String.toList_append, List.count_append, List.count_append, ha, hrest]
          simp only [List.length_cons]
          show 0 + 1 + (args.length + 1 - 1) = args.length + 1 + 1 - 1
          omega

theorem commaList_eq_empty_iff (h : ∀ a ∈ args, Literal a) : commaList args = "" ↔ args = [] := by
  refine ⟨fun hempty => ?_, fun hnil => hnil ▸ rfl⟩
  cases args with
  | nil => rfl
  | cons a args =>
      have ha := (h a (List.mem_cons_self ..)).ne_empty
      have hlist := congrArg String.toList hempty
      cases args with
      | nil => exact absurd (by simpa [commaList] using hlist) ha
      | cons b args =>
          have hcons : commaList (a :: b :: args) = a ++ ", " ++ commaList (b :: args) :=
            String.intercalate_cons_cons
          rw [hcons] at hlist
          simp at hlist

/-- A line tells how many arguments it passes. -/
theorem Passes.count_unique (h : Passes callee j l) (h' : Passes callee k l) : j = k := by
  obtain ⟨args, hargs, rfl, rfl⟩ := h
  obtain ⟨args', hargs', rfl, hline⟩ := h'
  have hlist : commaList args = commaList args' := by
    have := congrArg String.toList hline
    simpa [toString, ← String.toList_inj] using this
  have hcount := count_commaList hargs
  rw [hlist, count_commaList hargs'] at hcount
  have hempty : args' = [] ↔ args = [] := by
    rw [← commaList_eq_empty_iff hargs, hlist, commaList_eq_empty_iff hargs']
  rw [← List.length_eq_zero_iff, ← List.length_eq_zero_iff] at hempty
  omega

/-! ### What a definition takes -/

namespace Param

/-- An item that takes an argument by position, unless a star comes before it. -/
def isPositional : Param → Bool
  | name _ | annotated (.name _) | defaulted _ | annotatedDefaulted _ | bracketed _ _ => true
  | _ => false

/-- An item that a surface tells, as it does not all that are positional: neither those that are called `self` nor
names in brackets without a default. -/
def Told (p : Param) : Prop := ∃ a, p.Stands a ∧ a.name ≠ receiver

theorem told_iff {p : Param} : p.Told ↔ p.parameter?.isSome := by
  simp only [Told, ← parameter?_eq_some_iff, Option.isSome_iff_exists]

theorem Told.isPositional {p : Param} (h : p.Told) : p.isPositional = true := by
  obtain ⟨a, _ | _ | _ | _ | _, -⟩ := h <;> rfl

end Param

/-- The items of a parameter list that take an argument by position. -/
def slots (ps : List Param) : List Param := (ps.takeWhile fun p => !p.isStar).filter Param.isPositional

theorem positional_eq_filterMap_slots (ps : List Param) : positional ps = (slots ps).filterMap Param.parameter? := by
  rw [positional_eq, slots, List.filterMap_filter]
  refine List.filterMap_congr fun p _ => ?_
  split
  · rfl
  · next hpositional =>
      rw [← Option.not_isSome_iff_eq_none, ← Param.told_iff]
      exact fun htold => hpositional htold.isPositional

theorem length_positional_le (ps : List Param) : (positional ps).length ≤ (slots ps).length := by
  rw [positional_eq_filterMap_slots]
  exact List.length_filterMap_le ..

/-- Something is left out exactly if not all that is positional is told. -/
theorem length_positional_lt_iff (ps : List Param) :
    (positional ps).length < (slots ps).length ↔ ∃ p ∈ slots ps, ¬ p.Told := by
  rw [positional_eq_filterMap_slots, List.length_filterMap_lt_length_iff_exists]
  simp [Param.told_iff]

/-- A definition that is decorated as a static method. -/
def Statement.isStatic : Statement → Bool
  | .decorated es _ => es.any fun
    | .name n => n.text = "staticmethod"
    | _ => false
  | _ => false

/-- How many arguments a method takes by position when it is called on an object. One of its parameters takes the
object or its class, unless it is static. -/
def Statement.room (s : Statement) (ps : List Param) : Nat :=
  if s.isStatic then (slots ps).length else (slots ps).length - 1

/-! ### The calls -/

/-- A line that calls a function with no more arguments than it takes. -/
inductive CallsFunction (module_ : String) (s : Statement) (l : String) : Prop
  | intro {isAsync : Bool} {n : Ident} {ps : List Param} {body : List Statement} {count : Nat}
      (h : s.Defines (.function isAsync n ps body)) (hpasses : Passes s!"{module_}.{n.text}" count l)
      (hcount : count ≤ (slots ps).length)

/-- A line that calls a method of an object. It has no more arguments than there is room for if the method is
static, or has no parameters or more than two, or has one that is not told; else it has one too many. -/
inductive CallsMethod (s : Statement) (l : String) : Prop
  | intro {isAsync : Bool} {n : Ident} {ps : List Param} {body : List Statement} {count : Nat}
      (h : s.Defines (.function isAsync n ps body)) (hpasses : Passes s!"obj.{n.text}" count l)
      (hcount : count ≤ s.room ps ↔
        s.isStatic = true ∨ slots ps = [] ∨ 2 < (slots ps).length ∨ ∃ p ∈ slots ps, ¬ p.Told)

/-- Lines that make an object of a class without arguments and call a method of that class. -/
inductive CallsClass (module_ : String) (s : Statement) : List String → Prop
  | alone {n : Ident} {body : List Statement} (h : s.Defines (.classDef n body)) :
      CallsClass module_ s [s!"obj = {module_}.{n.text}()"]
  | method {n : Ident} {body : List Statement} {t : Statement} {l : String} (h : s.Defines (.classDef n body))
      (ht : t ∈ body) (hl : CallsMethod t l) : CallsClass module_ s [s!"obj = {module_}.{n.text}()", l]

theorem functionCall_calls {f : Function} (h : OffersFunction s f) (module_ : String) :
    CallsFunction module_ s (functionCall module_ f) := by
  obtain @⟨isAsync, n, ps, body, hdefines, -⟩ := h
  refine .intro hdefines ⟨_, ?_, rfl, rfl⟩ ?_
  · intro a ha
    obtain ⟨p, -, rfl⟩ := List.mem_map.1 ha
    exact suggestion_literal p.name
  · rw [List.length_map]
    exact Nat.le_trans (List.length_take_le' ..) (length_positional_le ps)

theorem methodCall_calls {m : Function} (h : OffersFunction s m) : CallsMethod s (methodCall m) := by
  obtain @⟨isAsync, n, ps, body, hdefines, -⟩ := h
  refine .intro hdefines ⟨_, ?_, rfl, rfl⟩ ?_
  · intro a ha
    obtain ⟨p, -, rfl⟩ := List.mem_map.1 ha
    exact suggestion_literal ""
  · have hle := length_positional_le ps
    rw [List.length_map, List.length_take, ← length_positional_lt_iff, ← List.length_eq_zero_iff, Statement.room,
      suggestedArguments]
    dsimp only
    split
    · next hstatic => simp only [hstatic, true_or, iff_true]; omega
    · next hbound => simp only [hbound, Bool.false_eq_true, false_or]; omega

theorem classCalls_calls {c : Class} (h : OffersClass s c) (module_ : String) :
    CallsClass module_ s (classCalls module_ c) := by
  obtain @⟨n, body, fs, hdefines, -, hmethods⟩ := h
  rw [gathers_methods_iff, methods_eq] at hmethods
  cases fs with
  | nil => exact .alone hdefines
  | cons f fs =>
      have hf : f ∈ body.filterMap Statement.function? := hmethods ▸ List.mem_cons_self ..
      obtain ⟨t, ht, hf⟩ := List.mem_filterMap.1 hf
      exact .method hdefines ht (methodCall_calls (function?_eq_some_iff.1 hf))

/-- The calls of a class make up the lines behind those of the functions. -/
theorem objectCalls_call (module_ : String) (ss : List Statement) :
    ((ofStatements ss).classes.take 1).flatMap (classCalls module_) = [] ∨
      ∃ s ∈ ss, CallsClass module_ s (((ofStatements ss).classes.take 1).flatMap (classCalls module_)) := by
  rw [ofStatements_eq]
  cases hclasses : ss.filterMap Statement.class? with
  | nil => exact .inl rfl
  | cons c cs =>
      have hc : c ∈ ss.filterMap Statement.class? := hclasses ▸ List.mem_cons_self ..
      obtain ⟨s, hs, hc⟩ := List.mem_filterMap.1 hc
      refine .inr ⟨s, hs, ?_⟩
      simpa using classCalls_calls (class?_eq_some_iff.1 hc) module_

theorem from_of_mem_importLine {names : List String} (h : l ∈ importLine module_ names) :
    "from ".toList <+: l.toList := by
  unfold importLine at h
  split at h
  · cases h
  · rw [List.mem_singleton] at h
    simp [h, toString]

/-- After the imports the hints for a module call functions and a class of the module, with a header if there is
anything to call. A function gets no more arguments than it takes by position, and an object is made without any.
A method gets no more than there is room for after its object, but for one case: it is not static, it has one or
two parameters, and all of them are told. -/
theorem hints_call_definitions (module_ : String) (ss : List Statement) :
    ∃ imports functionCalls objectCalls : List String,
      hints module_ (ofStatements ss) = imports ++
        (if functionCalls ++ objectCalls = [] then [] else callsHeader :: (functionCalls ++ objectCalls)) ∧
      (∀ l ∈ imports, "import ".toList <+: l.toList ∨ "from ".toList <+: l.toList) ∧
      (∀ l ∈ functionCalls, ∃ s ∈ ss, CallsFunction module_ s l) ∧
      (objectCalls = [] ∨ ∃ s ∈ ss, CallsClass module_ s objectCalls) := by
  refine ⟨s!"import {module_}" ::
      importLine module_ (((ofStatements ss).functions.take importedFunctions).map (·.name)) ++
      importLine module_ (((ofStatements ss).classes.take importedClasses).map (·.name)),
    ((ofStatements ss).functions.take calledFunctions).map (functionCall module_),
    ((ofStatements ss).classes.take 1).flatMap (classCalls module_), ?_, ?_, ?_, objectCalls_call module_ ss⟩
  · simp [hints, calls, List.isEmpty_iff]
  · intro l hl
    rw [List.mem_append, List.mem_cons, or_assoc] at hl
    rcases hl with rfl | hl | hl
    · exact .inl (by simp [toString])
    · exact .inr (from_of_mem_importLine hl)
    · exact .inr (from_of_mem_importLine hl)
  · intro l hl
    obtain ⟨f, hf, rfl⟩ := List.mem_map.1 hl
    rw [ofStatements_eq] at hf
    obtain ⟨s, hs, hf⟩ := List.mem_filterMap.1 (List.mem_of_mem_take hf)
    exact ⟨s, hs, functionCall_calls (function?_eq_some_iff.1 hf) module_⟩

/-- A class method whose parameter for the class has the usual name. -/
def classMethodText : String := "class C:\n    @classmethod\n    def g(cls):\n        return 1\n"

def classMethod : Statement :=
  .decorated [.name ⟨"classmethod", by decide⟩]
    (.function false ⟨"g", by decide⟩ [.name ⟨"cls", by decide⟩] [.simple])

set_option maxRecDepth 20000 in
/-- The class takes the only parameter of the method, and yet an argument is passed. -/
theorem not_hints_call_definitions :
    statements? classMethodText = some [.definition (.classDef ⟨"C", by decide⟩ [classMethod])] ∧
    hints "m" (ofStatements [.definition (.classDef ⟨"C", by decide⟩ [classMethod])]) =
      ["import m", "from m import C", "# Usage examples:", "obj = m.C()", "obj.g(42)"] ∧
    classMethod.room [.name ⟨"cls", by decide⟩] = 0 ∧
    ∀ count, Passes "obj.g" count "obj.g(42)" ↔ count = 1 := by
  have hpasses : Passes "obj.g" 1 "obj.g(42)" :=
    ⟨["42"], fun a ha => List.mem_singleton.1 ha ▸ suggestion_literal "", rfl, rfl⟩
  refine ⟨by cbv, by cbv, rfl, fun count => ⟨fun h => h.count_unique hpasses, ?_⟩⟩
  rintro rfl
  exact hpasses

end Sideload.Surface
