import Sideload.Proofs.Disk.Abreast
import Sideload.Proofs.Installer.Kept

/-!
Two installs of the same plan. Where two disks have the same source and the same things at the names of the
module, what is built and placed comes to the same on both.
-/

namespace Sideload

open Disk

variable {base : Disk} {region own : Location → Prop} {dir source staging : Path} {loc : Location} {n : Name}
  {mode : Mode} {isDir : Bool} {w w' : World} {b b' : Disk} {plan : Plan}

/-- A question to the disk that has the same answer on both. -/
theorem Work.Agrees.disk_bind {ε β : Type} {rel : Disk → Disk → Prop} {k : Disk → Work ε β}
    (hsame : k w'.disk = k w.disk) (hk : (k w.disk).Agrees rel w w') : (Work.disk >>= k).Agrees rel w w' := by
  unfold Work.Agrees
  rw [run_bind_of_ok (Work.run_disk w), run_bind_of_ok (Work.run_disk w'), hsame]
  exact hk

/-- An action on the disk that has the same answer on both and ends on related disks. -/
theorem Work.Agrees.onDisk {α : Type} {rel : Disk → Disk → Prop} {m : DiskM α}
    (hanswer : (m.run w'.disk).1 = (m.run w.disk).1) (hrel : rel (m.run w.disk).2 (m.run w'.disk).2) :
    (Work.onDisk m).Agrees rel w w' := ⟨hanswer, hrel⟩

section Stage

variable (h : Twin base region own w.disk w'.disk) (hc : Cleared dir staging loc n b w.disk)
  (hc' : Cleared dir staging loc n b' w'.disk) (hq : staging.Adds dir n)
  (hown : ∀ l, loc ++ [n] <+: l → own l) (hregion : ∀ l, loc ++ [n] <+: l → region l)
include h hc hc' hq hown hregion

/-- A tree is copied to a free name alike. -/
theorem copyTree_agrees (hsrc : Avoids region base source) (hdir : base.see source true = .ok .dir) :
    (copyTree source staging).Agrees (Twin base region own) w w' := by
  have hlink : ∀ target, w.disk.look (loc ++ [n]) ≠ some (.link target) := fun target => by
    rw [hc.gone _ (List.prefix_refl _)]
    simp
  have hlink' : ∀ target, w'.disk.look (loc ++ [n]) ≠ some (.link target) := fun target => by
    rw [hc'.gone _ (List.prefix_refl _)]
    simp
  obtain ⟨hanswer, habreast⟩ := h.createDirAll hc.enters hc'.enters hq hlink (List.prefix_refl _) hown hregion
  cases hmade : ((DiskM.createDirAll staging).run w.disk).1 with
  | error e =>
      unfold Work.Agrees
      rw [copyTree_unmade source hmade, copyTree_unmade source (hanswer.trans hmade)]
      exact ⟨rfl, habreast.toTwin⟩
  | ok u =>
      have hmade' := hanswer.trans hmade
      have hsprout : ∀ {b d : Disk}, Cleared dir staging loc n b d → (∀ target, d.look (loc ++ [n]) ≠ some (.link target)) →
          ((DiskM.createDirAll staging).run d).1 = .ok () → Sprout (loc ++ [n]) (d.opened staging) staging (loc ++ [n]) := by
        intro b d hc hlink hmade
        obtain ⟨hfills, hin⟩ := createDirAll_adds hc.enters hq hlink
        refine ⟨within_made hc.enters hq hc.gone hfills (hin hmade), NoLinks.grows (fun l hl target => ?_)
          (hfills.grows (List.prefix_refl _)), hc.proper.opened staging⟩
        rw [hc.gone l hl]
        simp
      have hagrees : (copyEntries staging maxPath [] source staging).Agrees _
          { w with disk := w.disk.opened staging } { w' with disk := w'.disk.opened staging } :=
        copyEntries_agrees hown hregion maxPath [] source staging habreast.toTwin (hsprout hc hlink hmade)
          (hsprout hc' hlink' hmade') hsrc
      unfold Work.Agrees at hagrees ⊢
      rw [run_copyTree hmade ((hsrc.see habreast.left).trans hdir),
        run_copyTree hmade' ((hsrc.see habreast.right).trans hdir)]
      exact ⟨hagrees.1, hagrees.2.toTwin⟩

/-- A module is built at a free name alike. -/
theorem stage_agrees (hsrc : mode = .copy → Avoids region base source)
    (hdir : isDir = true → base.see source true = .ok .dir) :
    (stage source staging mode isDir).Agrees (Twin base region own) w w' := by
  have hlink : ∀ target, w.disk.look (loc ++ [n]) ≠ some (.link target) := fun target => by
    rw [hc.gone _ (List.prefix_refl _)]
    simp
  match mode, isDir with
  | .copy, true =>
      refine Work.Agrees.bind ((copyTree_agrees h hc hc' hq hown hregion (hsrc rfl) (hdir rfl)).orFail _)
        fun count t t' ht ht' hrel => ?_
      have hcopied : ∀ {b : Disk} {w t : World}, Cleared dir staging loc n b w.disk →
          ((copyTree source staging).orFail (Failure.ofIo staging)).run w = (.ok count, t) →
            Sprout (loc ++ [n]) t.disk staging (loc ++ [n]) := by
        intro b w t hc ht
        rw [Work.run_orFail, Prod.mk.injEq, mapError_eq_ok_iff] at ht
        obtain ⟨hgrows, hin⟩ := copyTree_grows source hc.enters hq hc.gone hc.proper
        rw [ht.2] at hgrows hin
        refine ⟨hin count ht.1, NoLinks.grows (fun l hl target => ?_) hgrows.disk, hgrows.disk.proper hc.proper⟩
        rw [hc.gone l hl]
        simp
      have hsprout := hcopied hc ht
      have hsprout' := hcopied hc' ht'
      have hmarker := staging.adds_join packageMarker_proper
      have hbelow := hsprout.below (Glyph.ofString packageMarker)
      have hsee := see_agree hsprout.within.enters hsprout'.within.enters hmarker (hsprout.noLink _)
        (hrel.same _ (hown _ hbelow))
      have hexists : t'.disk.exists_ (staging.child packageMarker) = t.disk.exists_ (staging.child packageMarker) := by
        rw [Disk.exists_eq, Disk.exists_eq, Path.child_eq, hsee]
      refine Work.Agrees.disk_bind ?_ ?_
      · dsimp only
        rw [hexists]
      dsimp only
      split
      · exact .log _ _ _ hrel
      · have hwrite := hrel.openFile hsprout.within.enters hsprout'.within.enters hmarker (hsprout.noLink _) hbelow
          hown hregion fun old => (.empty, (old.map (·.2)).getD false)
        have hchange : (Work.change (·.write (staging.child packageMarker) .empty)).Agrees (Twin base region own) t t' := by
          refine Work.Agrees.change (f := (·.write (staging.child packageMarker) .empty)) hrel (hwrite.imp_right ?_)
          rintro ⟨d₁, d₁', hd, hd', habreast⟩
          exact ⟨d₁, d₁', hd, hd', habreast.toTwin⟩
        exact Work.Agrees.bind (hchange.orFail _) fun _ _ _ _ _ hrel =>
          Work.Agrees.bind (.log _ _ _ hrel) fun _ _ _ _ _ hrel => .log _ _ _ hrel
  | .copy, false =>
      have hcopied := h.copyFile hc.enters hc'.enters hq hlink (List.prefix_refl _) hown hregion (hsrc rfl)
      refine Work.Agrees.bind (Work.Agrees.orFail (Work.Agrees.change (f := (·.copyFile source staging)) h
        (hcopied.imp_right ?_)) _) fun _ _ _ _ _ hrel => .log _ _ _ hrel
      rintro ⟨d₁, d₁', hd, hd', habreast⟩
      exact ⟨d₁, d₁', hd, hd', habreast.toTwin⟩
  | .editable, _ =>
      unfold stage
      cases source.parent? with
      | none => exact .throw _ h
      | some parent =>
          have hwrite := h.openFile hc.enters hc'.enters hq hlink (List.prefix_refl _) hown hregion
            fun old => (s!"{parent.display}\n".toUTF8, (old.map (·.2)).getD false)
          refine Work.Agrees.bind (Work.Agrees.orFail (Work.Agrees.change
            (f := (·.writeText staging s!"{parent.display}\n")) h (hwrite.imp_right ?_)) _)
            fun _ _ _ _ _ hrel => .log _ _ _ hrel
          rintro ⟨d₁, d₁', hd, hd', habreast⟩
          exact ⟨d₁, d₁', hd, hd', habreast.toTwin⟩

/-- What is built in vain is taken away on both disks. -/
theorem stageOrClean_agrees (hsrc : mode = .copy → Avoids region base source)
    (hdir : isDir = true → base.see source true = .ok .dir) :
    (stageOrClean source staging mode isDir).Agrees (Twin base region own) w w' := by
  refine Work.Agrees.bind (stage_agrees h hc hc' hq hown hregion hsrc hdir).attempt
    fun answer t t' ht ht' hrel => ?_
  cases answer with
  | ok u => exact .pure _ hrel
  | error f =>
      have hslot : ∀ {b : Disk} {w t : World}, Cleared dir staging loc n b w.disk →
          ((stage source staging mode isDir).attempt : Work Failure _).run w = (.ok (.error f), t) →
            t.disk.Slot staging loc n ∧ ∀ l ∈ t.disk.approach staging, ¬ loc ++ [n] <+: l := by
        intro b w t hc ht
        have hgrows := stage_grows source mode isDir hc.enters hq hc.gone hc.proper
        have hway := hc.enters.way_of_gone hc.gone
        obtain ⟨he, hsame⟩ := hc.enters.sameOff hgrows.disk.toSameOff hway
        obtain ⟨hslot, happroach⟩ := he.slot hq.route hc.slot.admits hc.slot.last hc.slot.short
        rw [Work.run_attempt, Prod.mk.injEq] at ht
        rw [← ht.2]
        exact ⟨hslot, by rwa [happroach, hsame]⟩
      obtain ⟨hs, hway⟩ := hslot hc ht
      obtain ⟨hs', hway'⟩ := hslot hc' ht'
      obtain ⟨hanswer, htwin⟩ := hrel.removeArtifact hs hs' hq.slash hway hway' hown hregion
      refine Work.Agrees.bind (Work.Agrees.onDisk hanswer htwin).attempt fun removed u u' _ _ hrel => ?_
      cases removed with
      | ok b => exact Work.Agrees.throw _ hrel
      | error e => exact Work.Agrees.bind (.log _ _ _ hrel) fun _ _ _ _ _ hrel => .throw _ hrel

end Stage

/-- The package directory of a plan can be made, and it is not reached over what is built in it. -/
structure Receives (d : Disk) (plan : Plan) (loc : Location) : Prop where
  proper : d.Proper
  made : ((DiskM.createDirAll plan.target).run d).1 = .ok ()
  enters : (d.opened plan.target).Enters plan.target.hub loc
  way : ∀ l ∈ (d.opened plan.target).way plan.target.hub true, ¬ loc ++ [plan.stagingEntry] <+: l

section Build

variable (hvalid : IsIdentifier plan.name) (hr : Receives w.disk plan loc) (hr' : Receives w'.disk plan loc)
include hvalid hr

/-- What a build that succeeds leaves. -/
theorem Receives.built (hok : ((build plan).run w).1 = .ok ()) :
    Built plan loc (w.disk.opened plan.target) ((build plan).run w).2.disk ∧
      ((build plan).run w).2.disk.look (loc ++ [plan.stagingEntry]) ≠ none ∧
      (w.disk.opened plan.target).Slot plan.staging loc plan.stagingEntry := by
  have hq := plan.adds_staging hvalid
  rcases hr.enters.slot_or_fault hq with ⟨hslot, -⟩ | ⟨e, hsee, hmissing⟩
  · obtain ⟨d, -, hcleared, hrun⟩ := build_of_slot hvalid hr.proper hr.made hr.enters hslot hr.way
    have hleaves := hcleared.leaves (w := { w with disk := d }) plan.source plan.mode plan.isDir hq
    rw [← hrun] at hleaves
    exact ⟨⟨hr.enters, hr.way, hleaves.sameOff⟩, hleaves.there hok, hslot⟩
  · rw [run_build, hr.made] at hok
    dsimp only at hok
    rw [DiskM.removeArtifact_of_error hsee, hmissing] at hok
    cases hok

include hr'

/-- A plan is built alike. -/
theorem build_agrees (h : Twin base region own (w.disk.opened plan.target) (w'.disk.opened plan.target))
    (hown : ∀ l, loc ++ [plan.stagingEntry] <+: l → own l)
    (hregion : ∀ l, loc ++ [plan.stagingEntry] <+: l → region l)
    (hsrc : plan.mode = .copy → Avoids region base plan.source)
    (hdir : plan.isDir = true → base.see plan.source true = .ok .dir) :
    (build plan).Agrees (Twin base region own) w w' := by
  have hq := plan.adds_staging hvalid
  rcases slot_or_refused hq with hslot | ⟨e, he, hrefused⟩
  · obtain ⟨d, hd, hc, hrun⟩ := build_of_slot hvalid hr.proper hr.made hr.enters (hslot hr.enters) hr.way
    obtain ⟨d', hd', hc', hrun'⟩ := build_of_slot hvalid hr'.proper hr'.made hr'.enters (hslot hr'.enters) hr'.way
    have happroach := (hr.enters.slot_adds hq (hslot hr.enters)).2.2
    have happroach' := (hr'.enters.slot_adds hq (hslot hr'.enters)).2.2
    obtain ⟨-, htwin⟩ := h.removeArtifact (hslot hr.enters) (hslot hr'.enters) hq.slash (by rw [happroach]; exact hr.way)
      (by rw [happroach']; exact hr'.way) hown hregion
    rw [← hd, ← hd'] at htwin
    have hagrees : (stageOrClean plan.source plan.staging plan.mode plan.isDir).Agrees (Twin base region own)
        { w with disk := d } { w' with disk := d' } :=
      stageOrClean_agrees htwin hc hc' hq hown hregion hsrc hdir
    unfold Work.Agrees
    rw [hrun, hrun']
    exact hagrees
  · have hstop : ∀ {w : World}, Receives w.disk plan loc → (build plan).run w =
        (.error (.ofIo plan.staging e), { w with disk := w.disk.opened plan.target }) := by
      intro w hr
      have hsee : (w.disk.opened plan.target).see plan.staging false = .error e := by
        rw [Disk.see, (hrefused hr.enters).2]
      rw [run_build, hr.made]
      dsimp only
      rw [DiskM.removeArtifact_of_error hsee, he.1]
      rfl
    unfold Work.Agrees
    rw [hstop hr, hstop hr']
    exact ⟨rfl, h⟩

end Build

end Sideload
