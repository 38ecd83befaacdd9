import Sideload.Proofs.Disk.Twin

/-!
Two runs of the same work on two disks. Each step asks and changes the same on both, so the runs give the
same answer and end on disks that differ as little as those they began with. A tree is copied alike wherever
its source is the same and its copy is begun in the same way.
-/

namespace Sideload

open Disk

/-! ### Runs side by side -/

/-- Two runs of the same work give the same answer and end on related disks. -/
def Work.Agrees {ε α : Type} (rel : Disk → Disk → Prop) (m : Work ε α) (w w' : World) : Prop :=
  (m.run w').1 = (m.run w).1 ∧ rel (m.run w).2.disk (m.run w').2.disk

namespace Work.Agrees

variable {ε ε' α β : Type} {rel rel' : Disk → Disk → Prop} {m : Work ε α} {k : α → Work ε β} {w w' : World}

theorem pure (a : α) (h : rel w.disk w'.disk) : (pure a : Work ε α).Agrees rel w w' := ⟨rfl, h⟩

theorem throw (e : ε) (h : rel w.disk w'.disk) : (throw e : Work ε α).Agrees rel w w' := ⟨rfl, h⟩

theorem log (level : Log.Level) (topic : Log.Topic) (text : String) (h : rel w.disk w'.disk) :
    (Work.log level topic text : Work ε Unit).Agrees rel w w' := ⟨rfl, h⟩

theorem mono (h : m.Agrees rel w w') (hsub : ∀ d d', rel d d' → rel' d d') : m.Agrees rel' w w' :=
  ⟨h.1, hsub _ _ h.2⟩

theorem orFail (h : m.Agrees rel w w') (f : ε → ε') : (m.orFail f).Agrees rel w w' :=
  ⟨congrArg (Except.mapError f) h.1, h.2⟩

theorem attempt (h : m.Agrees rel w w') : (m.attempt : Work ε' (Except ε α)).Agrees rel w w' :=
  ⟨congrArg Except.ok h.1, h.2⟩

theorem bind (hm : m.Agrees rel w w') (hk : ∀ a t t', m.run w = (.ok a, t) → m.run w' = (.ok a, t') →
    rel t.disk t'.disk → (k a).Agrees rel t t') : (m >>= k).Agrees rel w w' := by
  obtain ⟨hanswer, hrel⟩ := hm
  unfold Work.Agrees
  rw [run_bind, run_bind]
  revert hanswer hrel hk
  rcases m.run w with ⟨e | a, t⟩ <;> rcases m.run w' with ⟨e' | a', t'⟩ <;> intro hk hanswer hrel
  · exact ⟨congrArg Except.error (Except.error.inj hanswer), hrel⟩
  · cases hanswer
  · cases hanswer
  · cases hanswer
    exact hk a t t' rfl rfl hrel

theorem map (hm : m.Agrees rel w w') (f : α → β) : (m >>= fun a => Pure.pure (f a)).Agrees rel w w' :=
  hm.bind fun a _ _ _ _ h => .pure (f a) h

/-- A question that has the same answer on both disks. -/
theorem ask_bind {k : α → Work IoError β} {f : Disk → Except IoError α} (hsame : f w'.disk = f w.disk)
    (h : rel w.disk w'.disk) (hk : ∀ a, f w.disk = .ok a → (k a).Agrees rel w w') :
    (Work.ask f >>= k).Agrees rel w w' := by
  refine Work.Agrees.bind ⟨?_, ?_⟩ fun a t t' ht ht' _ => ?_
  · rw [Work.run_ask, Work.run_ask]
    exact hsame
  · rw [Work.run_ask, Work.run_ask]
    exact h
  · rw [Work.run_ask, Prod.mk.injEq] at ht ht'
    obtain ⟨ha, rfl⟩ := ht
    obtain ⟨-, rfl⟩ := ht'
    exact hk a ha

/-- A single change that comes to the same on both disks. -/
theorem change {f : Disk → Except IoError Disk} (h : rel w.disk w'.disk)
    (hf : (∃ e, f w.disk = .error e ∧ f w'.disk = .error e) ∨
      ∃ d d', f w.disk = .ok d ∧ f w'.disk = .ok d' ∧ rel d d') : (Work.change f).Agrees rel w w' := by
  unfold Work.Agrees
  rw [Work.run_change, Work.run_change]
  rcases hf with ⟨e, he, he'⟩ | ⟨d, d', hd, hd', hrel⟩
  · rw [he, he']
    exact ⟨rfl, h⟩
  · rw [hd, hd']
    exact ⟨rfl, hrel⟩

theorem foldlM {xs : List α} {f : β → α → Work ε β}
    (hf : ∀ b, ∀ a ∈ xs, ∀ t t', rel t.disk t'.disk → (f b a).Agrees rel t t') (b : β)
    (h : rel w.disk w'.disk) : (xs.foldlM f b).Agrees rel w w' := by
  induction xs generalizing b w w' with
  | nil => exact .pure b h
  | cons a xs ih =>
      rw [List.foldlM_cons]
      exact (hf b a (List.mem_cons_self ..) w w' h).bind fun b' t t' _ _ ht =>
        ih (fun b a ha => hf b a (List.mem_cons_of_mem _ ha)) b' ht

end Work.Agrees

/-! ### Two copies of a tree -/

namespace Disk

variable {base s s' d d' d₁ d₁' : Disk} {region own : Location → Prop} {top loc place : Location}
  {p q dir target : Path} {n : Name}

/-- Two disks that differ from a third one in a region, and from each other only where neither is owned. -/
structure Twin (base : Disk) (region own : Location → Prop) (d d' : Disk) : Prop where
  left : Differs region base d
  right : Differs region base d'
  same : ∀ l, own l → d'.look l = d.look l

/-- Two disks on which a tree grew from the same beginnings and came to be the same. -/
structure Abreast (base : Disk) (region own : Location → Prop) (top : Location) (s s' d d' : Disk) : Prop
    extends Twin base region own d d' where
  grows : Grows top s d
  grows' : Grows top s' d'

theorem Abreast.refl (h : Twin base region own d d') (top : Location) : Abreast base region own top d d' d d' :=
  ⟨h, .refl top d, .refl top d'⟩

theorem Abreast.of_grows (h : Abreast base region own top s s' d d')
    (h₁ : Abreast base region own top d d' d₁ d₁') : Abreast base region own top s s' d₁ d₁' :=
  ⟨h₁.toTwin, h.grows.trans h₁.grows, h.grows'.trans h₁.grows'⟩

/-- A directory of a tree that has no links. -/
structure Sprout (top : Location) (d : Disk) (dir : Path) (loc : Location) : Prop where
  within : Within top d dir loc
  noLinks : NoLinks top d
  proper : d.Proper

namespace Sprout

theorem grows (h : Sprout top d dir loc) (hg : Grows top d d') : Sprout top d' dir loc :=
  ⟨h.within.grows hg, h.noLinks.grows hg, hg.proper h.proper⟩

theorem noLink (h : Sprout top d dir loc) (n : Name) (target : Path) :
    d.look (loc ++ [n]) ≠ some (.link target) :=
  h.noLinks _ (h.within.below.trans (List.prefix_append loc [n])) target

theorem below (h : Sprout top d dir loc) (n : Name) : top <+: loc ++ [n] :=
  h.within.below.trans (List.prefix_append loc [n])

end Sprout

/-- What is listed is there. -/
theorem look_ne_none_of_list {es : List (Name × Node)} (hl : d.list p = .ok es) (he : d.Enters p loc)
    {e : Name × Node} (hmem : e ∈ es) : d.look (loc ++ [e.1]) ≠ none := by
  obtain ⟨loc', he', hget⟩ := list_eq_ok hl
  obtain rfl := he'.unique he
  have hlookup : Node.lookup? e.1 es ≠ none := by
    clear hl hget
    induction es with
    | nil => cases hmem
    | cons f fs ih =>
        rw [Node.lookup?]
        split
        · simp
        · next hne =>
            rcases List.mem_cons.1 hmem with rfl | hmem
            · exact absurd rfl hne
            · exact ih hmem
  rw [look, Node.look, Node.get?_append, hget, Option.bind_some, Node.get?_cons]
  intro hnone
  refine hlookup ?_
  rw [Option.map_eq_none_iff] at hnone
  cases hfound : (Node.dir es).child? e.1 with
  | none => exact hfound
  | some m =>
      rw [hfound, Option.bind_some, Node.get?_nil] at hnone
      cases hnone

namespace Twin

variable (h : Twin base region own d d')
include h

/-- Both disks change in the same way at and below a place. -/
theorem step {place : Location} (hregion : ∀ l, place <+: l → region l)
    (hdiffers : Differs (AtOrBelow place) d d₁) (hdiffers' : Differs (AtOrBelow place) d' d₁')
    (hsame : ∀ l, place <+: l → d₁'.look l = d₁.look l) : Twin base region own d₁ d₁' := by
  refine ⟨h.left.trans (hdiffers.mono hregion), h.right.trans (hdiffers'.mono hregion), fun l hl => ?_⟩
  by_cases hplace : place <+: l
  · exact hsame l hplace
  · rw [hdiffers.look l hplace, hdiffers'.look l hplace, h.same l hl]

/-- The same is removed on both disks. -/
theorem removeArtifact {parent : Location} (hslot : d.Slot p parent n) (hslot' : d'.Slot p parent n)
    (hslash : p.endsInSlash = false) (hway : ∀ l ∈ d.approach p, ¬ parent ++ [n] <+: l)
    (hway' : ∀ l ∈ d'.approach p, ¬ parent ++ [n] <+: l) (hown : ∀ l, parent ++ [n] <+: l → own l)
    (hregion : ∀ l, parent ++ [n] <+: l → region l) :
    ((DiskM.removeArtifact p).run d').1 = ((DiskM.removeArtifact p).run d).1 ∧
      Twin base region own ((DiskM.removeArtifact p).run d).2 ((DiskM.removeArtifact p).run d').2 := by
  obtain ⟨b, hok, -, hgone⟩ := DiskM.removeArtifact_of_slot hslot hslash hway
  obtain ⟨b', hok', -, hgone'⟩ := DiskM.removeArtifact_of_slot hslot' hslash hway'
  refine ⟨?_, h.step hregion (hslot.removeArtifact_differs hslash) (hslot'.removeArtifact_differs hslash)
    fun l hl => (hgone' l hl).trans (hgone l hl).symm⟩
  have hentry := h.same _ (hown _ (List.prefix_refl _))
  cases hlook : d.look (parent ++ [n]) with
  | some label =>
      rw [DiskM.removeArtifact_isOk hslot hslash hway hlook,
        DiskM.removeArtifact_isOk hslot' hslash hway' (hentry.trans hlook)]
  | none =>
      have hsee := hslot.see hslash (.inl rfl)
      have hsee' := hslot'.see hslash (.inl rfl)
      rw [hlook] at hsee
      rw [hentry, hlook] at hsee'
      rw [DiskM.removeArtifact_of_error hsee, DiskM.removeArtifact_of_error hsee']

section Entry

variable (he : d.Enters dir loc) (he' : d'.Enters dir loc) (hq : q.Adds dir n)
  (hlink : ∀ target, d.look (loc ++ [n]) ≠ some (.link target)) (htop : top <+: loc ++ [n])
  (hown : ∀ l, top <+: l → own l) (hregion : ∀ l, top <+: l → region l)
include he he' hq hlink htop hown hregion

omit he he' hq hlink in
theorem fills (hfills : Fills (loc ++ [n]) d d₁) (hfills' : Fills (loc ++ [n]) d' d₁')
    (hdiffers : Differs (AtOrBelow (loc ++ [n])) d d₁) (hdiffers' : Differs (AtOrBelow (loc ++ [n])) d' d₁')
    (hsame : d₁'.look (loc ++ [n]) = d₁.look (loc ++ [n])) : Abreast base region own top d d' d₁ d₁' := by
  refine ⟨h.step (fun l hl => hregion l (htop.trans hl)) hdiffers hdiffers'
    fun l hl => ?_, hfills.grows htop, hfills'.grows htop⟩
  by_cases hplace : l = loc ++ [n]
  · rw [hplace, hsame]
  · rw [(hfills.look l).resolve_right fun hchanged => hplace hchanged.1,
      (hfills'.look l).resolve_right fun hchanged => hplace hchanged.1, h.same l (hown l (htop.trans hl))]

/-- The same directory is made on both disks. -/
theorem createDirAll : ((DiskM.createDirAll q).run d').1 = ((DiskM.createDirAll q).run d).1 ∧
    Abreast base region own top d d' (d.opened q) (d'.opened q) := by
  have hentry := h.same _ (hown _ htop)
  have hlink' := hentry ▸ hlink
  obtain ⟨hanswer, hsame⟩ := createDirAll_agree he he' hq hlink hentry
  exact ⟨hanswer, h.fills htop hown hregion (createDirAll_adds he hq hlink).1 (createDirAll_adds he' hq hlink').1
    (createDirAll_differs he hq hlink) (createDirAll_differs he' hq hlink') hsame⟩

/-- The same file is written on both disks. -/
theorem openFile (change : Option (ByteArray × Bool) → ByteArray × Bool) :
    (∃ e, d.openFile q change = .error e ∧ d'.openFile q change = .error e) ∨
    ∃ d₁ d₁', d.openFile q change = .ok d₁ ∧ d'.openFile q change = .ok d₁' ∧
      Abreast base region own top d d' d₁ d₁' := by
  have hentry := h.same _ (hown _ htop)
  have hlink' := hentry ▸ hlink
  refine (openFile_agree he he' hq hlink hentry change).imp_right ?_
  rintro ⟨d₁, d₁', ho, ho', hsame⟩
  exact ⟨d₁, d₁', ho, ho', h.fills htop hown hregion (openFile_adds he hq hlink ho).1
    (openFile_adds he' hq hlink' ho').1 (openFile_differs_entry he hq hlink ho)
    (openFile_differs_entry he' hq hlink' ho') hsame⟩

/-- The same file is copied on both disks. -/
theorem copyFile (hsrc : Avoids region base p) :
    (∃ e, d.copyFile p q = .error e ∧ d'.copyFile p q = .error e) ∨
    ∃ d₁ d₁', d.copyFile p q = .ok d₁ ∧ d'.copyFile p q = .ok d₁' ∧
      Abreast base region own top d d' d₁ d₁' := by
  have hentry := h.same _ (hown _ htop)
  have hlink' := hentry ▸ hlink
  have hfar : ∀ {d : Disk}, Differs region base d → ∀ l ∈ d.way p true, l ≠ loc ++ [n] := by
    rintro d hdiffers l hl rfl
    exact hsrc.not_way (hsrc.way hdiffers ▸ hl) (hregion _ htop)
  refine (copyFile_agree he he' hq hlink hentry
    ((hsrc.see h.right).trans (hsrc.see h.left).symm) (hfar h.left) (hfar h.right)).imp_right ?_
  rintro ⟨d₁, d₁', hc, hc', hsame⟩
  exact ⟨d₁, d₁', hc, hc', h.fills htop hown hregion (copyFile_adds he hq hlink hc).1
    (copyFile_adds he' hq hlink' hc').1 (copyFile_differs he hq hlink hc) (copyFile_differs he' hq hlink' hc') hsame⟩

end Entry

end Twin

/-- A directory that was made in a tree is one of its directories. -/
theorem Abreast.sprouts (h : Abreast base region own top d d' (d.opened q) (d'.opened q))
    (hsprout : Sprout top d dir loc) (hsprout' : Sprout top d' dir loc) (hq : q.Adds dir n)
    (hok : ((DiskM.createDirAll q).run d).1 = .ok ()) (hok' : ((DiskM.createDirAll q).run d').1 = .ok ()) :
    Sprout top (d.opened q) q (loc ++ [n]) ∧ Sprout top (d'.opened q) q (loc ++ [n]) :=
  ⟨⟨(hsprout.within.createDirAll_adds hsprout.noLinks hq).2 hok, hsprout.noLinks.grows h.grows,
      h.grows.proper hsprout.proper⟩,
    ⟨(hsprout'.within.createDirAll_adds hsprout'.noLinks hq).2 hok', hsprout'.noLinks.grows h.grows',
      h.grows'.proper hsprout'.proper⟩⟩

end Disk

section Copy

variable {base : Disk} {region own : Location → Prop} {top : Location} {dst : Path} {w w' : World}
  (hown : ∀ l, top <+: l → own l) (hregion : ∀ l, top <+: l → region l)
include hown hregion

/-- In each round the same is copied in both trees. -/
theorem copyRound_agrees {depth : Nat} {above : List Ancestor} {loc : Location} {entry : Name × Node}
    (dir target : Path) (count : Nat) (h : Twin base region own w.disk w'.disk)
    (hsprout : Sprout top w.disk target loc) (hsprout' : Sprout top w'.disk target loc)
    (hname : entry.1.Proper) (hsrc : Avoids region base (dir.join (.ofName entry.1)))
    (ih : ∀ {w w' : World} {loc : Location} (dir target : Path), Twin base region own w.disk w'.disk →
      Sprout top w.disk target loc → Sprout top w'.disk target loc → Avoids region base dir →
      (copyEntries dst depth above dir target).Agrees (Abreast base region own top w.disk w'.disk) w w') :
    (copyRound dst depth above dir target count entry).Agrees (Abreast base region own top w.disk w'.disk)
      w w' := by
  have hstart := Abreast.refl h top
  refine .ask_bind ?_ hstart fun isDir _ => ?_
  · exact (hsrc.classify h.right above entry.2).trans (hsrc.classify h.left above entry.2).symm
  dsimp only
  generalize ((dir.join (.ofName entry.1)).sameAs dst || dst.parent?.any _) = leftOut
  have hq := target.adds_join hname
  have hbelow := hsprout.below entry.1
  match leftOut, isDir with
  | true, _ => exact .pure _ hstart
  | false, true =>
      obtain ⟨hanswer, habreast⟩ := h.createDirAll hsprout.within.enters hsprout'.within.enters hq
        (hsprout.noLink _) hbelow hown hregion
      refine Work.Agrees.bind ⟨hanswer, habreast⟩ fun _ t t' ht ht' hrel => ?_
      rw [Work.run_onDisk, Prod.mk.injEq] at ht ht'
      obtain ⟨hok, rfl⟩ := ht
      obtain ⟨hok', rfl⟩ := ht'
      obtain ⟨hnew, hnew'⟩ := habreast.sprouts hsprout hsprout' hq hok hok'
      refine Work.Agrees.map (Work.Agrees.mono (ih _ _ habreast.toTwin hnew hnew' hsrc) fun d d' => ?_) _
      exact habreast.of_grows
  | false, false =>
      refine Work.Agrees.bind (.log _ _ _ hstart) fun _ t t' ht ht' _ => ?_
      rw [Work.run_log] at ht ht'
      cases ht
      cases ht'
      have hcopied := h.copyFile hsprout.within.enters hsprout'.within.enters hq (hsprout.noLink _) hbelow hown
        hregion hsrc
      refine Work.Agrees.map ?_ fun _ => count + 1
      exact Work.Agrees.change (f := (·.copyFile _ _)) hstart hcopied

/-- A directory is copied into two trees alike. -/
theorem copyEntries_agrees (depth : Nat) (above : List Ancestor) (dir target : Path) {loc : Location}
    (h : Twin base region own w.disk w'.disk) (hsprout : Sprout top w.disk target loc)
    (hsprout' : Sprout top w'.disk target loc) (hsrc : Avoids region base dir) :
    (copyEntries dst depth above dir target).Agrees (Abreast base region own top w.disk w'.disk) w w' := by
  induction depth generalizing above dir target loc w w' with
  | zero => exact .throw _ (.refl h top)
  | succ depth ih =>
      rw [copyEntries_succ]
      refine .ask_bind ?_ (.refl h top) fun here _ => ?_
      · rw [hsrc.locate h.left, hsrc.locate h.right]
      refine .ask_bind ?_ (.refl h top) fun found hfound => ?_
      · rw [hsrc.list h.left, hsrc.list h.right]
      rw [mapError_eq_ok_iff] at hfound
      refine .foldlM (fun count entry hmem t t' ht => ?_) 0 (.refl h top)
      have hlisted : base.list dir = .ok found := (hsrc.list h.left).symm.trans hfound
      obtain ⟨place, he, -⟩ := list_eq_ok hlisted
      refine Work.Agrees.mono (copyRound_agrees hown hregion dir target count ht.toTwin (hsprout.grows ht.grows)
        (hsprout'.grows ht.grows') (hsprout.proper.list hfound _ hmem)
        (hsrc.entry he (look_ne_none_of_list hlisted he hmem))
        fun dir target h hsprout hsprout' hsrc => ih _ dir target h hsprout hsprout' hsrc) fun d d' => ?_
      exact ht.of_grows

end Copy

end Sideload
