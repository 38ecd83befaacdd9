import Sideload.Proofs.Surface.Parameters

/-!
What a module offers. Its public functions, classes and constants are told from its direct statements, one
by one and in their order, and the methods of a class in the same way from the direct statements of its
body. Nothing that is private or further inside counts.
-/

namespace Sideload.Surface

variable {s : Statement} {ss ts body : List Statement}

/-! ### What a statement offers -/

/-- A name that does not begin with an underscore. -/
def Ident.Open (n : Ident) : Prop := n.text.toList.head? ≠ some '_'

/-- A statement that is a definition, perhaps under decorators. -/
inductive Statement.Defines : Statement → Definition → Prop
  | plain (d : Definition) : Defines (.definition d) d
  | decorated (es : List Expr) (d : Definition) : Defines (.decorated es d) d

inductive OffersFunction (s : Statement) : Function → Prop
  | intro {isAsync : Bool} {n : Ident} {ps : List Param} {body : List Statement}
      (h : s.Defines (.function isAsync n ps body)) (hopen : n.Open) :
      OffersFunction s ⟨n.text, positional ps⟩

/-- A class is offered with the functions that its body offers. -/
inductive OffersClass (s : Statement) : Class → Prop
  | intro {n : Ident} {body : List Statement} {fs : List Function} (h : s.Defines (.classDef n body))
      (hopen : n.Open) (hmethods : Gathers OffersFunction body fs) : OffersClass s ⟨n.text, fs⟩

/-- A constant is a name that is bound to a literal, with or without an annotation. -/
inductive OffersConstant : Statement → String → Prop
  | intro {n : Ident} {annotated : Bool} {value : Expr} (hvalue : value.isLiteral = true) (hopen : n.Open) :
      OffersConstant (.assignment (.name n) annotated (some value)) n.text

/-! ### How it is read -/

theorem Ident.isPublic_iff (n : Ident) : isPublic n.text = true ↔ n.Open := by
  rw [isPublic, Bool.and_eq_true, Bool.not_eq_true', Ident.Open, bne_iff_ne]
  refine and_iff_right ?_
  rw [Bool.eq_false_iff, Ne, String.isEmpty_iff]
  exact n.text_ne_empty

theorem Statement.definition?_eq_some_iff {d : Definition} : s.definition? = some d ↔ s.Defines d := by
  constructor
  · intro h
    cases s with
    | definition d' =>
        cases h
        exact .plain d
    | decorated es d' =>
        cases h
        exact .decorated es d
    | _ => cases h
  · rintro (_ | _) <;> rfl

theorem function?_eq_some_iff {f : Function} : s.function? = some f ↔ OffersFunction s f := by
  rw [Statement.function?]
  constructor
  · intro h
    split at h
    · next isAsync n ps body hd =>
        split at h
        · next hpublic =>
            cases h
            exact ⟨Statement.definition?_eq_some_iff.1 hd, n.isPublic_iff.1 hpublic⟩
        · cases h
    · cases h
  · rintro ⟨hd, hopen⟩
    rw [Statement.definition?_eq_some_iff.2 hd]
    exact if_pos ((Ident.isPublic_iff _).2 hopen)

theorem methods_eq (body : List Statement) : methods body = body.filterMap Statement.function? := by
  induction body with
  | nil => rfl
  | cons s ss ih =>
      rw [methods]
      cases hs : s.function? with
      | none => rw [List.filterMap_cons_none hs, ih]
      | some f => rw [List.filterMap_cons_some hs, ih]

theorem gathers_methods_iff {fs : List Function} : Gathers OffersFunction body fs ↔ methods body = fs := by
  rw [gathers_iff fun _ _ => function?_eq_some_iff, methods_eq]

theorem class?_eq_some_iff {c : Class} : s.class? = some c ↔ OffersClass s c := by
  rw [Statement.class?]
  constructor
  · intro h
    split at h
    · next n body hd =>
        split at h
        · next hpublic =>
            cases h
            exact ⟨Statement.definition?_eq_some_iff.1 hd, n.isPublic_iff.1 hpublic, gathers_methods_iff.2 rfl⟩
        · cases h
    · cases h
  · rintro ⟨hd, hopen, hmethods⟩
    rw [Statement.definition?_eq_some_iff.2 hd, ← gathers_methods_iff.1 hmethods]
    exact if_pos ((Ident.isPublic_iff _).2 hopen)

theorem constant?_eq_some_iff {name : String} : s.constant? = some name ↔ OffersConstant s name := by
  constructor
  · intro h
    unfold Statement.constant? at h
    split at h
    · next n annotated value =>
        split at h
        · next hpublic =>
            rw [Bool.and_eq_true, bne_iff_ne] at hpublic
            cases h
            exact ⟨hpublic.1, hpublic.2⟩
        · cases h
    · cases h
  · rintro ⟨hvalue, hopen⟩
    exact if_pos (by rw [hvalue, Bool.true_and, bne_iff_ne]; exact hopen)

/-- A statement is of one kind only. -/
theorem OffersFunction.alone {f : Function} (h : OffersFunction s f) : s.class? = none ∧ s.constant? = none := by
  obtain ⟨_ | _, -⟩ := h <;> exact ⟨rfl, rfl⟩

theorem OffersClass.alone {c : Class} (h : OffersClass s c) : s.constant? = none := by
  obtain ⟨_ | _, -, -⟩ := h <;> rfl

/-- One more statement at the front comes to its own group. -/
theorem ofStatements_cons (s : Statement) (ss : List Statement) : ofStatements (s :: ss) =
    ⟨s.function?.toList ++ (ofStatements ss).functions, s.class?.toList ++ (ofStatements ss).classes,
      s.constant?.toList ++ (ofStatements ss).constants⟩ := by
  rw [ofStatements]
  cases hf : s.function? with
  | some f =>
      obtain ⟨hc, hn⟩ := (function?_eq_some_iff.1 hf).alone
      rw [hc, hn]
      rfl
  | none =>
      cases hc : s.class? with
      | some c =>
          rw [(class?_eq_some_iff.1 hc).alone]
          rfl
      | none => cases s.constant? <;> rfl

/-- The groups are read from the same statements independently. -/
theorem ofStatements_eq (ss : List Statement) : ofStatements ss =
    ⟨ss.filterMap Statement.function?, ss.filterMap Statement.class?, ss.filterMap Statement.constant?⟩ := by
  have hcons : ∀ {β : Type} (f : Statement → Option β) (s : Statement) (ss : List Statement),
      (s :: ss).filterMap f = (f s).toList ++ ss.filterMap f := by
    intro β f s ss
    cases hs : f s with
    | none => rw [List.filterMap_cons_none hs]; rfl
    | some b => rw [List.filterMap_cons_some hs]; rfl
  induction ss with
  | nil => rfl
  | cons s ss ih => rw [ofStatements_cons, ih, hcons, hcons, hcons]

/-! ### What makes no difference -/

/-- Two surfaces put together, group by group. -/
def append (a b : Surface) : Surface :=
  ⟨a.functions ++ b.functions, a.classes ++ b.classes, a.constants ++ b.constants⟩

theorem ofStatements_append (ss ts : List Statement) :
    ofStatements (ss ++ ts) = (ofStatements ss).append (ofStatements ts) := by
  rw [ofStatements_eq, ofStatements_eq, ofStatements_eq, List.filterMap_append, List.filterMap_append,
    List.filterMap_append]
  rfl

/-- A statement that has nothing to offer: one that defines something private or binds a private name, one
that binds no name or no literal, and every one that is neither definition nor assignment, whatever is
inside. -/
inductive Statement.Silent : Statement → Prop
  | function {s : Statement} {isAsync : Bool} {n : Ident} {ps : List Param} {body : List Statement}
      (h : s.Defines (.function isAsync n ps body)) (hprivate : ¬ n.Open) : Silent s
  | classDef {s : Statement} {n : Ident} {body : List Statement} (h : s.Defines (.classDef n body))
      (hprivate : ¬ n.Open) : Silent s
  | constant {n : Ident} {annotated : Bool} {value : Option Expr} (hprivate : ¬ n.Open) :
      Silent (.assignment (.name n) annotated value)
  | target {target : Expr} {annotated : Bool} {value : Option Expr} (h : ∀ n, target ≠ .name n) :
      Silent (.assignment target annotated value)
  | value {target : Expr} {annotated : Bool} {value : Option Expr} (h : ∀ e ∈ value, e.isLiteral = false) :
      Silent (.assignment target annotated value)
  | simple : Silent .simple
  | compound (blocks : List (List Statement)) : Silent (.compound blocks)
  | comment : Silent .comment

namespace Statement.Silent

theorem function? (h : s.Silent) : s.function? = none := by
  refine Option.eq_none_iff_forall_ne_some.2 fun f hf => ?_
  obtain ⟨hd, hopen⟩ := function?_eq_some_iff.1 hf
  cases h with
  | function h hprivate =>
      cases (definition?_eq_some_iff.2 hd).symm.trans (definition?_eq_some_iff.2 h)
      exact hprivate hopen
  | classDef h _ => cases (definition?_eq_some_iff.2 hd).symm.trans (definition?_eq_some_iff.2 h)
  | _ => cases hd

theorem class? (h : s.Silent) : s.class? = none := by
  refine Option.eq_none_iff_forall_ne_some.2 fun c hc => ?_
  obtain ⟨hd, hopen, -⟩ := class?_eq_some_iff.1 hc
  cases h with
  | classDef h hprivate =>
      cases (definition?_eq_some_iff.2 hd).symm.trans (definition?_eq_some_iff.2 h)
      exact hprivate hopen
  | function h _ => cases (definition?_eq_some_iff.2 hd).symm.trans (definition?_eq_some_iff.2 h)
  | _ => cases hd

theorem constant? (h : s.Silent) : s.constant? = none := by
  refine Option.eq_none_iff_forall_ne_some.2 fun name hname => ?_
  obtain ⟨hvalue, hopen⟩ := constant?_eq_some_iff.1 hname
  cases h with
  | constant hprivate => exact hprivate hopen
  | target h => exact h _ rfl
  | value h => exact absurd (hvalue.symm.trans (h _ rfl)) (by simp)
  | function h _ => cases h
  | classDef h _ => cases h

end Statement.Silent

/-- Silent statements can be added and left out. -/
theorem ofStatements_silent (h : s.Silent) (ss ts : List Statement) :
    ofStatements (ss ++ s :: ts) = ofStatements (ss ++ ts) := by
  rw [ofStatements_append, ofStatements_append, ofStatements_cons, h.function?, h.class?, h.constant?]
  rfl

/-- A statement that is no public function can be left out of the body of a class. -/
theorem methods_silent (h : s.function? = none) (ss ts : List Statement) :
    methods (ss ++ s :: ts) = methods (ss ++ ts) := by
  rw [methods_eq, methods_eq, List.filterMap_append, List.filterMap_append, List.filterMap_cons_none h]

/-- Two statements that differ inside only: functions in their bodies, and classes in what is silent or
defines a class in their bodies. -/
inductive Statement.Alike : Statement → Statement → Prop
  | function {s t : Statement} {isAsync isAsync' : Bool} {n : Ident} {ps : List Param}
      {body body' : List Statement} (hs : s.Defines (.function isAsync n ps body))
      (ht : t.Defines (.function isAsync' n ps body')) : Alike s t
  | classDef {s t u : Statement} {n : Ident} {body body' : List Statement}
      (hs : s.Defines (.classDef n (body ++ u :: body'))) (ht : t.Defines (.classDef n (body ++ body')))
      (hu : u.Silent ∨ ∃ m inner, u.Defines (.classDef m inner)) : Alike s t

namespace Statement.Alike

variable {t : Statement}

theorem function? (h : s.Alike t) : s.function? = t.function? := by
  cases h with
  | function hs ht =>
      rw [Statement.function?, Statement.function?, definition?_eq_some_iff.2 hs, definition?_eq_some_iff.2 ht]
  | classDef hs ht _ =>
      rw [Statement.function?, Statement.function?, definition?_eq_some_iff.2 hs, definition?_eq_some_iff.2 ht]

theorem class? (h : s.Alike t) : s.class? = t.class? := by
  cases h with
  | function hs ht =>
      rw [Statement.class?, Statement.class?, definition?_eq_some_iff.2 hs, definition?_eq_some_iff.2 ht]
  | @classDef u n body body' hs ht hu =>
      have hmethods : methods (body ++ u :: body') = methods (body ++ body') := by
        obtain hsilent | ⟨m, inner, hinner⟩ := hu
        · exact methods_silent hsilent.function? body body'
        · refine methods_silent ?_ body body'
          rw [Statement.function?, definition?_eq_some_iff.2 hinner]
      rw [Statement.class?, Statement.class?, definition?_eq_some_iff.2 hs, definition?_eq_some_iff.2 ht]
      dsimp only
      rw [hmethods]

theorem constant? (h : s.Alike t) : s.constant? = t.constant? := by
  have hdefines : ∀ {r : Statement} {d : Definition}, r.Defines d → r.constant? = none := by
    rintro r d (_ | _) <;> rfl
  cases h with
  | function hs ht => rw [hdefines hs, hdefines ht]
  | classDef hs ht _ => rw [hdefines hs, hdefines ht]

end Statement.Alike

/-- What is inside a definition makes no difference, but for the public functions of a class. -/
theorem ofStatements_alike {t : Statement} (h : s.Alike t) (ss ts : List Statement) :
    ofStatements (ss ++ s :: ts) = ofStatements (ss ++ t :: ts) := by
  rw [ofStatements_append, ofStatements_append, ofStatements_cons s, ofStatements_cons t, h.function?, h.class?,
    h.constant?]

/-- A class offers nothing among the functions, whatever its methods are. -/
theorem functions_classDef {n : Ident} (h : s.Defines (.classDef n body)) (ss ts : List Statement) :
    (ofStatements (ss ++ s :: ts)).functions = (ofStatements (ss ++ ts)).functions := by
  have hnone : s.function? = none := by rw [Statement.function?, Statement.definition?_eq_some_iff.2 h]
  rw [ofStatements_append, ofStatements_append, ofStatements_cons, hnone]
  rfl

end Sideload.Surface
