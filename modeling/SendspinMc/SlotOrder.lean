import SendspinMc.Current
import SendspinMc.Views

/-!
The artwork of a slot never goes back: what the current buffer holds was painted by a later
decode at every swap.

This holds in every run, also in those where a swap shows a frame it is not for: the flag and
the buffers alone see to it.
-/

namespace SendspinMc.SlotOrder

open SendspinMc.ImageSlot SendspinMc.SlotMachine SendspinMc.Lib.Runs

/-- The decode that wrote a buffer last, counted from one. -/
def stamp : Content → ℕ
  | .black => 0
  | .part d | .full d => d + 1

/-- The age of what the slot shows. -/
def shownStamp (s : Sys) : ℕ := stamp (s.mem s.slot.current)

/-- The age of what the next decode paints over. -/
def targetStamp (s : Sys) : ℕ := stamp (s.mem s.slot.target)

/-- What orders the two buffers: a decode is later than what is shown, and once it has left a
frame pending so is what it painted. -/
structure Inv (s : Sys) : Prop where
  views : NoTear.Inv s
  shown_le : shownStamp s ≤ s.decodes
  target_le : targetStamp s ≤ s.decodes
  running : ∀ d ∈ Current.decodeOf s.thread, d + 1 = s.decodes ∧ shownStamp s ≤ d
  decoded : ∀ d p, s.thread = .decoded d p → s.mem p = .full d
  pending : s.slot.framePending = true → shownStamp s < targetStamp s

lemma inv_fresh {s : Sys} (h : Fresh s) : Inv s := by
  have hv := NoTear.inv_fresh h
  obtain ⟨n, a, c, slot, hs, rfl⟩ := h
  obtain ⟨-, -, hf, -⟩ := setup_ok hs
  refine ⟨hv, le_rfl, le_rfl, by simp [Sys.start], by simp [Sys.start], fun hp => ?_⟩
  rw [show (Sys.start slot).slot.framePending = false from hf] at hp
  cases hp

lemma Inv.move {s t : Sys} (h : Inv s) (hv : NoTear.Inv t)
    (hb : t.slot.buffers = s.slot.buffers) (hc : t.slot.currentIndex = s.slot.currentIndex)
    (hf : t.slot.framePending = true → s.slot.framePending = true) (ht : t.thread = s.thread)
    (hm : t.mem = s.mem) (hd : t.decodes = s.decodes) : Inv t := by
  have hcur : shownStamp t = shownStamp s := by
    simp only [shownStamp, Slot.current, hb, hc, hm]
  have htar : targetStamp t = targetStamp s := by
    simp only [targetStamp, Slot.target, hb, hc, hm]
  refine ⟨hv, ?_, ?_, ?_, ?_, fun hp => ?_⟩
  · rw [hcur, hd]; exact h.shown_le
  · rw [htar, hd]; exact h.target_le
  · rw [ht, hcur, hd]; exact h.running
  · rw [ht, hm]; exact h.decoded
  · rw [hcur, htar]; exact h.pending (hf hp)

lemma stamps_write {s : Sys} {d : ℕ} {p : Ptr} {c : Content} (h : Inv s)
    (hd : p ∈ s.thread.target) (hc : stamp c = d + 1) :
    stamp (Function.update s.mem p c s.slot.current) = shownStamp s ∧
      stamp (Function.update s.mem p c s.slot.target) = d + 1 := by
  obtain rfl := h.views.target p hd
  refine ⟨?_, by simp [hc]⟩
  rw [Function.update_of_ne s.slot.target_ne.symm]
  rfl

lemma inv_piece {s t : Sys} (h : Inv s) (hst : Piece s t) : Inv t := by
  have hv := NoTear.inv_piece h.views hst
  cases hst with
  | swap f n hpc hf =>
    have hat := h.views.at_pc
    rw [hpc] at hat
    have hidle : s.thread = .idle := hat.1.2.1
    -- the buffers change places while no decode runs
    refine ⟨hv, ?_, ?_, by simp [hidle], by simp [hidle], by simp⟩
    · show stamp (s.mem s.slot.swap.current) ≤ s.decodes
      rw [swap_current]
      exact h.target_le
    · show stamp (s.mem s.slot.swap.target) ≤ s.decodes
      rw [Views.swap_target]
      exact h.shown_le
  | clearLock n hpc => exact h.move hv rfl rfl (by simp) rfl rfl rfl
  | _ => exact h.move hv rfl rfl id rfl rfl rfl

lemma inv_move {s t : Sys} {e : Ev} (h : Inv s) (hst : Move s e t) : Inv t := by
  have hv := NoTear.inv_move h.views hst
  cases hst with
  | main hm => exact inv_piece h hm
  | begin hb =>
    refine ⟨hv, Nat.le_succ_of_le h.shown_le, Nat.le_succ_of_le h.target_le, fun e he => ?_,
      by simp, h.pending⟩
    obtain rfl : s.decodes = e := by simpa using he
    exact ⟨rfl, h.shown_le⟩
  | pick d hd =>
    refine ⟨hv, h.shown_le, h.target_le, fun e he => ?_, by simp, h.pending⟩
    exact h.running e (by simpa [hd] using he)
  | paint d p hd =>
    have hrun := h.running d (by simp [hd])
    obtain ⟨hcur, htar⟩ := stamps_write (c := .part d) (p := p) h (by simp [hd]) rfl
    refine ⟨hv, hcur.trans_le h.shown_le, htar.trans_le hrun.1.le, fun e he => ?_, by simp [hd],
      fun _ => ?_⟩
    · obtain ⟨hl, hle⟩ := h.running e he
      exact ⟨hl, hcur.trans_le hle⟩
    · exact hcur.trans_lt ((Nat.lt_succ_of_le hrun.2).trans_eq htar.symm)
  | done d p hd =>
    have hrun := h.running d (by simp [hd])
    obtain ⟨hcur, htar⟩ := stamps_write (c := .full d) (p := p) h (by simp [hd]) rfl
    refine ⟨hv, hcur.trans_le h.shown_le, htar.trans_le hrun.1.le, fun e he => ?_, ?_,
      fun _ => ?_⟩
    · obtain rfl : d = e := by simpa using he
      exact ⟨hrun.1, hcur.trans_le hrun.2⟩
    · rintro d' p' hd'
      obtain ⟨rfl, rfl⟩ : d = d' ∧ p = p' := by simpa using hd'
      simp
    · exact hcur.trans_lt ((Nat.lt_succ_of_le hrun.2).trans_eq htar.symm)
  | fail d p hd => exact ⟨hv, h.shown_le, h.target_le, by simp, by simp, h.pending⟩
  | commit d p hd =>
    have hrun := h.running d (by simp [hd])
    have hp : p = s.slot.target := h.views.target p (by simp [hd])
    have htar : targetStamp s = d + 1 := by
      rw [targetStamp, ← hp, h.decoded d p hd]
      rfl
    refine ⟨hv, h.shown_le, h.target_le, by simp, by simp, fun _ => ?_⟩
    exact (Nat.lt_succ_of_le hrun.2).trans_eq htar.symm
  | display f n hpc hf | clear n keep hpc | late hpc hp =>
    exact h.move hv rfl rfl id rfl rfl rfl
  | strayLate hpc hp => exact h

lemma keeps_inv : Keeps step Inv := fun _ _ _ hi hst => inv_move hi (move_of_step hst)

/-! ### What a step does to what is shown -/

/-- A swap shows what a later decode painted, and every other step leaves the shown pixels as
they are. -/
def Onward (s : Sys) (_ : Ev) (t : Sys) : Prop :=
  if t.slot.currentIndex = s.slot.currentIndex then t.mem t.slot.current = s.mem s.slot.current
  else shownStamp s < shownStamp t

lemma shown_kept {s t : Sys} {e : Ev} (h : Inv s) (hst : Move s e t)
    (hi : t.slot.currentIndex = s.slot.currentIndex) :
    t.mem t.slot.current = s.mem s.slot.current := by
  have hne : ∀ p ∈ s.thread.target, s.slot.current ≠ p := fun p hp =>
    h.views.target p hp ▸ s.slot.target_ne.symm
  cases hst with
  | paint d p hd | done d p hd => exact Function.update_of_ne (hne p (by simp [hd])) _ _
  | main hm =>
    cases hm with
    | swap f n hpc hf => exact absurd hi (flip_ne _)
    | _ => rfl
  | _ => rfl

lemma onward_move {s t : Sys} {e : Ev} (h : Inv s) (hst : Move s e t) : Onward s e t := by
  unfold Onward
  split
  · exact shown_kept h hst ‹_›
  · obtain ⟨f, n, -, -, hf, rfl⟩ := Current.swap_of_index_ne hst ‹_›
    show shownStamp s < stamp (s.mem s.slot.swap.current)
    rw [swap_current]
    exact h.pending hf

lemma Onward.le {s t : Sys} {e : Ev} (h : Onward s e t) : shownStamp s ≤ shownStamp t := by
  unfold Onward at h
  split at h
  · exact (congrArg stamp h).ge
  · exact h.le

lemma shown_le_run {s t : Sys} {es : List Ev} (h : Inv s) (hr : run step s es = some t) :
    shownStamp s ≤ shownStamp t := by
  have hI : Keeps step fun u => Inv u ∧ shownStamp s ≤ shownStamp u := fun u e v hu hst =>
    ⟨keeps_inv u e v hu.1 hst, hu.2.trans (onward_move hu.1 (move_of_step hst)).le⟩
  exact (hI.run ⟨h, le_rfl⟩ hr).2

/-- **Artwork never goes back**: in every run a swap shows what a later decode painted, no other
step touches the shown pixels, and so nothing is ever older than what was shown before it. -/
theorem never_goes_back {s : Sys} (h : Fresh s) :
    (∀ es, Along step Onward s es) ∧
      ∀ u v t t', run step s u = some t → run step t v = some t' →
        shownStamp t ≤ shownStamp t' := by
  have hi := inv_fresh h
  constructor
  · intro es
    have hI : KeepsIf step (fun _ _ _ => True) Inv := fun s e t hi _ hst => keeps_inv s e t hi hst
    exact hI.along (fun _ _ _ hi _ hst => onward_move hi (move_of_step hst)) hi
      (along_of_forall fun _ _ _ => trivial)
  · intro u v t t' hu hv
    exact shown_le_run (keeps_inv.run hi hu) hv

/-- One frame, from its decode to the ack of its transition. -/
def oneFrame : List Ev :=
  [.begin, .pick, .paint, .finish true, .commit, .display 1] ++ List.replicate 6 .main

theorem never_goes_back_sample :
    ∃ t t', run step sample oneFrame = some t ∧ run step t oneFrame = some t' ∧
      shownStamp sample = 0 ∧ shownStamp t = 1 ∧ shownStamp t' = 2 ∧
      shownStamp t ≤ shownStamp t' :=
  ⟨_, _, rfl, rfl, rfl, rfl, rfl, (never_goes_back fresh_sample).2 oneFrame oneFrame _ _ rfl rfl⟩

end SendspinMc.SlotOrder
