import Sideload.World

/-!
Runs of operations that may fail and keep what they did. Each way of putting operations together has one
equation that says what it does to the state.
-/

namespace Sideload

section Steps

variable {σ ε α β : Type} {s s' : σ}

theorem run_bind (m : ExceptT ε (StateM σ) α) (f : α → ExceptT ε (StateM σ) β) (s : σ) :
    (m >>= f).run s = match m.run s with
      | (.ok a, s') => (f a).run s'
      | (.error e, s') => (.error e, s') := by
  have hrun : (m >>= f).run s = ExceptT.bindCont f (m.run s).1 (m.run s).2 := rfl
  rw [hrun]
  rcases m.run s with ⟨a | e, s'⟩ <;> rfl

@[simp] theorem run_pure (a : α) (s : σ) :
    (pure a : ExceptT ε (StateM σ) α).run s = (.ok a, s) := rfl

@[simp] theorem run_throw (e : ε) (s : σ) :
    (throw e : ExceptT ε (StateM σ) α).run s = (.error e, s) := rfl

/-- A run of two steps that succeeds is a run of the first and then of the second. -/
theorem run_bind_ok {m : ExceptT ε (StateM σ) α} {f : α → ExceptT ε (StateM σ) β} {b : β}
    (h : (m >>= f).run s = (.ok b, s')) :
    ∃ a t, m.run s = (.ok a, t) ∧ (f a).run t = (.ok b, s') := by
  rw [run_bind] at h
  split at h
  · next a t ht => exact ⟨a, t, ht, h⟩
  · cases h

theorem run_bind_of_ok {m : ExceptT ε (StateM σ) α} {a : α} (h : m.run s = (.ok a, s'))
    (f : α → ExceptT ε (StateM σ) β) : (m >>= f).run s = (f a).run s' := by
  rw [run_bind, h]

theorem run_bind_of_error {m : ExceptT ε (StateM σ) α} {e : ε} (h : m.run s = (.error e, s'))
    (f : α → ExceptT ε (StateM σ) β) : (m >>= f).run s = (.error e, s') := by
  rw [run_bind, h]

/-- What holds after a first step that fails, and after the second step if it does not, holds after
both. -/
theorem run_bind_keeps {keeps : σ → Prop} {m : ExceptT ε (StateM σ) α}
    {f : α → ExceptT ε (StateM σ) β} (hm : keeps (m.run s).2)
    (hf : ∀ a t, m.run s = (.ok a, t) → keeps t → keeps ((f a).run t).2) :
    keeps ((m >>= f).run s).2 := by
  rw [run_bind]
  revert hm hf
  rcases m.run s with ⟨e | a, t⟩
  · exact fun hm _ => hm
  · exact fun hm hf => hf a t rfl hm

theorem run_map_keeps {keeps : σ → Prop} {m : ExceptT ε (StateM σ) α} {f : α → β}
    (hm : keeps (m.run s).2) : keeps ((m >>= fun a => pure (f a)).run s).2 :=
  run_bind_keeps hm fun _ _ _ ht => ht

end Steps

theorem mapError_eq_ok_iff {α ε ε' : Type} {f : ε → ε'} {x : Except ε α} {a : α} :
    x.mapError f = .ok a ↔ x = .ok a := by
  cases x with
  | error e => exact ⟨fun h => (by cases h), by simp⟩
  | ok b => exact ⟨fun h => congrArg Except.ok (Except.ok.inj h), fun h => by rw [h]; rfl⟩

/-- What every round of a loop keeps, the loop keeps. -/
theorem run_foldlM {σ ε α β : Type} {keeps : σ → Prop} {xs : List α}
    {f : β → α → ExceptT ε (StateM σ) β}
    (hstep : ∀ b, ∀ a ∈ xs, ∀ s, keeps s → keeps ((f b a).run s).2) (b : β) (s : σ)
    (hs : keeps s) : keeps ((xs.foldlM f b).run s).2 := by
  induction xs generalizing b s with
  | nil => exact hs
  | cons a xs ih =>
      have hfirst := hstep b a (List.mem_cons_self ..) s hs
      rw [List.foldlM_cons, run_bind]
      revert hfirst
      rcases (f b a).run s with ⟨e | b', s'⟩
      · exact fun hfirst => hfirst
      · exact ih (fun b a ha => hstep b a (List.mem_cons_of_mem _ ha)) b' s'

/-- In a loop that comes to its end, what a round has achieved for its element is still achieved there, if
the later rounds leave it so. -/
theorem run_foldlM_ok {σ ε α β : Type} {xs : List α} {f : β → α → ExceptT ε (StateM σ) β}
    (keeps : σ → Prop) (reach : σ → σ → Prop) (done : α → σ → Prop)
    (hrefl : ∀ s, reach s s) (htrans : ∀ s t u, reach s t → reach t u → reach s u)
    (hdone : ∀ a s t, done a s → reach s t → done a t)
    (hstep : ∀ b, ∀ a ∈ xs, ∀ s b' t, keeps s → (f b a).run s = (.ok b', t) →
      keeps t ∧ reach s t ∧ done a t) {b b' : β} {s t : σ} (hs : keeps s)
    (h : (xs.foldlM f b).run s = (.ok b', t)) : keeps t ∧ reach s t ∧ ∀ a ∈ xs, done a t := by
  induction xs generalizing b s with
  | nil =>
      rw [List.foldlM_nil, run_pure] at h
      cases h
      exact ⟨hs, hrefl _, nofun⟩
  | cons a xs ih =>
      rw [List.foldlM_cons] at h
      obtain ⟨c, u, hfirst, hrest⟩ := run_bind_ok h
      obtain ⟨hu, hreach, hachieved⟩ := hstep b a (List.mem_cons_self ..) s c u hs hfirst
      obtain ⟨ht, hreach', hothers⟩ :=
        ih (fun b a ha => hstep b a (List.mem_cons_of_mem _ ha)) hu hrest
      refine ⟨ht, htrans _ _ _ hreach hreach', fun x hx => ?_⟩
      rcases List.mem_cons.1 hx with rfl | hx
      · exact hdone _ _ _ hachieved hreach'
      · exact hothers x hx

namespace DiskM

variable {α : Type}

theorem run_step (change : Disk → Except IoError Disk) (d : Disk) :
    (step change).run d = match change d with
      | .ok d' => (.ok (), d')
      | .error e => (.error e, d) := by
  show ((match change d with
    | .ok d' => set d'
    | .error e => throw e) : DiskM Unit).run d = _
  cases change d <;> rfl

theorem run_ask (question : Disk → Except IoError α) (d : Disk) :
    (ask question).run d = (question d, d) := by
  have hget : (get : DiskM Disk).run d = (.ok d, d) := rfl
  rw [ask, run_bind_of_ok hget]
  cases question d <;> rfl

end DiskM

namespace Work

variable {ε ε' α : Type} (w : World)

theorem run_log (level : Log.Level) (topic : Log.Topic) (text : String) :
    (log level topic text : Work ε Unit).run w =
      (.ok (), { w with log := ⟨level, topic, text⟩ :: w.log }) := rfl

theorem run_disk : (disk : Work ε Disk).run w = (.ok w.disk, w) := rfl

theorem run_now : (now : Work ε Moment).run w = (.ok w.now, w) := rfl

theorem run_onDisk (m : DiskM α) :
    (onDisk m).run w = ((m.run w.disk).1, { w with disk := (m.run w.disk).2 }) := rfl

theorem run_ask (f : Disk → Except IoError α) : (ask f).run w = (f w.disk, w) := by
  rw [ask, run_onDisk, DiskM.run_ask]

/-- A question changes nothing. -/
theorem run_ask_keeps {β : Type} {keeps : World → Prop} {w : World} {f : Disk → Except IoError α}
    {g : α → Work IoError β} (hw : keeps w) (hg : ∀ a, f w.disk = .ok a → keeps ((g a).run w).2) :
    keeps ((ask f >>= g).run w).2 := by
  refine run_bind_keeps ?_ fun a t ht _ => ?_
  · rw [run_ask]
    exact hw
  · rw [run_ask, Prod.mk.injEq] at ht
    obtain ⟨ha, rfl⟩ := ht
    exact hg a ha

/-- A question that is answered. -/
theorem run_ask_ok {β : Type} {w w' : World} {f : Disk → Except IoError α} {g : α → Work IoError β}
    {b : β} (h : (ask f >>= g).run w = (.ok b, w')) :
    ∃ a, f w.disk = .ok a ∧ (g a).run w = (.ok b, w') := by
  obtain ⟨a, t, ha, hg⟩ := run_bind_ok h
  rw [run_ask, Prod.mk.injEq] at ha
  obtain ⟨ha, rfl⟩ := ha
  exact ⟨a, ha, hg⟩

theorem run_change (f : Disk → Except IoError Disk) : (change f).run w = match f w.disk with
    | .ok d => (.ok (), { w with disk := d })
    | .error e => (.error e, w) := by
  rw [change, run_onDisk, DiskM.run_step]
  cases f w.disk <;> rfl

theorem run_orFail (m : Work ε α) (f : ε → ε') :
    (m.orFail f).run w = ((m.run w).1.mapError f, (m.run w).2) := rfl

/-- A single change whose failure is told in other words. -/
theorem run_change_orFail (f : Disk → Except IoError Disk) (g : IoError → ε) :
    ((change f).orFail g).run w = match f w.disk with
      | .ok d => (.ok (), { w with disk := d })
      | .error e => (.error (g e), w) := by
  rw [run_orFail, change, run_onDisk, DiskM.run_step]
  cases f w.disk <;> rfl

theorem run_attempt (m : Work ε α) :
    (m.attempt : Work ε' (Except ε α)).run w = (.ok (m.run w).1, (m.run w).2) := rfl

theorem run_ofExcept (r : Except ε α) : (ofExcept r).run w = (r, w) := rfl

end Work

theorem isTimeOfDay_midnight : isTimeOfDay 0 0 = true := rfl

/-- A moment of no importance. -/
def sampleMoment : Moment := ⟨⟨2024, 5, 6, by decide⟩, 0, 0, isTimeOfDay_midnight⟩

/-- A world whose disk holds the given entries at the top. -/
def World.holding (es : List (Name × Node)) : World := ⟨⟨.dir es, []⟩, sampleMoment, []⟩

/-- Only the log differs. -/
structure World.Quiet (w w' : World) : Prop where
  disk : w'.disk = w.disk
  now : w'.now = w.now

namespace World.Quiet

theorem refl (w : World) : Quiet w w := ⟨rfl, rfl⟩

theorem trans {w w' w'' : World} (h : Quiet w w') (h' : Quiet w' w'') : Quiet w w'' :=
  ⟨h'.disk.trans h.disk, h'.now.trans h.now⟩

end World.Quiet

/-- A loop that writes records changes nothing but the log. -/
theorem Work.run_forIn_log {ε α : Type} (level : Log.Level) (topic : Log.Topic) (say : α → String)
    (xs : List α) (w : World) : ∃ w', World.Quiet w w' ∧
      (forIn xs PUnit.unit fun x _ => do
        log level topic (say x)
        pure (.yield PUnit.unit) : Work ε PUnit).run w = (.ok PUnit.unit, w') := by
  induction xs generalizing w with
  | nil => exact ⟨w, .refl w, rfl⟩
  | cons x xs ih =>
      obtain ⟨w', hquiet, hrun⟩ := ih { w with log := ⟨level, topic, say x⟩ :: w.log }
      refine ⟨w', ⟨hquiet.disk, hquiet.now⟩, ?_⟩
      rw [List.forIn_cons, ← hrun]
      rfl

end Sideload
