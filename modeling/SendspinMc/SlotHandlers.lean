import SendspinMc.Acks
import SendspinMc.Decode
import SendspinMc.SlotMachine

/-!
The handlers of a hub's slots and the pieces of one slot's machine.

A handler that nothing interrupts is its pieces, run by the main loop one after the other; the
machine sees of an automation only the calls that finish its own slot.
-/

namespace SendspinMc.SlotHandlers

open SendspinMc.ImageSlot SendspinMc.SlotHub SendspinMc.Acks SendspinMc.Lib.Ledger
open SendspinMc.Lib.Runs
open SendspinMc.SlotMachine (Sys Pc Tail mainStep)

variable {ι : Type*} [DecidableEq ι]

/-- The machine's slot is a slot of the hub, and both know whether its ack is due. -/
structure Agree (w : World ι) (i : ι) (s : Sys) : Prop where
  slot : s.slot = w.slots i
  owes : s.owes = owed w.log (w.number i)

/-- The main loop gets from one state to the other on its own. -/
def MainRuns (s t : Sys) : Prop :=
  ∃ k, run SlotMachine.step s (List.replicate k .main) = some t

lemma MainRuns.refl (s : Sys) : MainRuns s s := ⟨0, rfl⟩

lemma MainRuns.trans {s t u : Sys} (h : MainRuns s t) (h' : MainRuns t u) : MainRuns s u := by
  obtain ⟨k, hk⟩ := h
  obtain ⟨l, hl⟩ := h'
  exact ⟨k + l, by rw [List.replicate_add, run_append, hk, Option.bind_some, hl]⟩

lemma MainRuns.head {s t u : Sys} (h : mainStep s = some t) (h' : MainRuns t u) :
    MainRuns s u := by
  obtain ⟨k, hk⟩ := h'
  refine ⟨k + 1, ?_⟩
  have hstep : SlotMachine.step s .main = some t := h
  rw [List.replicate_succ, run_cons, hstep, Option.bind_some, hk]

/-! ### What keeps the agreement -/

lemma Agree.modify {w : World ι} {i : ι} {s t : Sys} {f : Slot → Slot} (h : Agree w i s)
    (hf : ∀ x, (f x).slot = x.slot) (hs : t.slot = f s.slot) (ho : t.owes = s.owes) :
    Agree (w.modify i f) i t where
  slot := by rw [hs, h.slot, modify_self]
  owes := by rw [ho, h.owes, modify_log, World.number, World.number, modify_self, hf]

omit [DecidableEq ι] in
lemma Agree.ack {w : World ι} {i : ι} {s t : Sys} (hr : w.artworkRole = true) (h : Agree w i s)
    (hs : t.slot = s.slot) (ho : t.owes = false) :
    Agree (w.artworkFrameDone (w.number i)) i t where
  slot := by rw [hs, h.slot, artworkFrameDone_slots]
  owes := by
    have hn : (w.artworkFrameDone (w.number i)).number i = w.number i := by
      rw [World.number, artworkFrameDone_slots]
    rw [ho, hn, artworkFrameDone_log hr, owed_acked_self]

lemma Agree.finish {w : World ι} {i : ι} {s t : Sys} (hr : w.artworkRole = true)
    (h : Agree w i s) (hs : t.slot = s.slot.settle) (ho : t.owes = false) :
    Agree (w.finishTransition i) i t := by
  have hm : Agree (w.modify i Slot.settle) i { t with owes := s.owes } :=
    h.modify (fun _ => rfl) hs rfl
  exact hm.ack hr rfl ho

lemma Agree.other {w : World ι} {i j : ι} {s : Sys} (hr : w.artworkRole = true)
    (hd : Function.Injective w.number) (hj : j ≠ i) (h : Agree w i s) :
    Agree (w.transitionFinished j) i s := by
  have hslot : (w.transitionFinished j).slots i = w.slots i := by
    rw [transitionFinished_slots, if_neg (Ne.symm hj)]
  refine ⟨h.slot.trans hslot.symm, ?_⟩
  rw [h.owes, World.number, World.number, hslot]
  unfold World.transitionFinished
  split
  · rw [finishTransition_log hr, owed_acked_ne _ fun he => hj (hd he)]
  · rfl

/-! ### The handlers -/

lemma automation_runs {w : World ι} {i : ι} {s : Sys} {tail : Tail} {calls : List ι}
    (hr : w.artworkRole = true) (hd : Function.Injective w.number) (h : Agree w i s)
    (hpc : s.pc = .call tail (calls.count i)) :
    ∃ t, MainRuns s t ∧ t.pc = .call tail 0 ∧ Agree (w.automation calls) i t := by
  induction calls generalizing w s with
  | nil => exact ⟨s, .refl s, by simpa using hpc, h⟩
  | cons j calls ih =>
    have hf := fixed_transitionFinished w j
    have hd' : Function.Injective (w.transitionFinished j).number := hf.distinct hd
    by_cases hj : j = i
    · subst hj
      rw [List.count_cons_self] at hpc
      cases hp : s.slot.transitionPending with
      | true =>
        have hw : w.transitionFinished j = w.finishTransition j :=
          if_pos (by rw [World.pending, ← h.slot, hp])
        -- the views, and then the ack
        let s₁ : Sys :=
          { s with slot := s.slot.settle, pc := .callAck tail (calls.count j) }
        let s₂ : Sys := { s₁ with owes := false, pc := .call tail (calls.count j) }
        have h₁ : mainStep s = some s₁ := by simp [mainStep, hpc, hp, s₁]
        have h₂ : mainStep s₁ = some s₂ := by simp [mainStep, s₁, s₂]
        have hs₂ : Agree (w.transitionFinished j) j s₂ := hw ▸ h.finish hr rfl rfl
        obtain ⟨t, hst, ht, ha⟩ := ih (hf.role.trans hr) hd' hs₂ rfl
        exact ⟨t, .head h₁ (.head h₂ hst), ht, ha⟩
      | false =>
        have hw : w.transitionFinished j = w :=
          if_neg (by rw [World.pending, ← h.slot, hp]; simp)
        let s₁ : Sys := { s with pc := .call tail (calls.count j) }
        have h₁ : mainStep s = some s₁ := by simp [mainStep, hpc, hp, s₁]
        have hs₁ : Agree (w.transitionFinished j) j s₁ := by
          rw [hw]
          exact ⟨h.slot, h.owes⟩
        obtain ⟨t, hst, ht, ha⟩ := ih (hf.role.trans hr) hd' hs₁ rfl
        exact ⟨t, .head h₁ hst, ht, ha⟩
    · rw [List.count_cons_of_ne hj] at hpc
      exact ih (hf.role.trans hr) hd' (h.other hr hd hj) hpc

lemma display_runs {w : World ι} {i : ι} {s : Sys} {f : SlotMachine.Frame} {calls : List ι}
    (hr : w.artworkRole = true) (hd : Function.Injective w.number) (h : Agree w i s)
    (hpc : s.pc = .displayLock f (calls.count i)) :
    ∃ t, MainRuns s t ∧ t.pc = .idle ∧ Agree (w.onDisplay i calls) i t := by
  cases hf : s.slot.framePending with
  | false =>
    let s₁ : Sys := { s with pc := .ack }
    let s₂ : Sys := { s₁ with owes := false, pc := .idle }
    have h₁ : mainStep s = some s₁ := by simp [mainStep, hpc, takePending_eq, hf, s₁]
    have h₂ : mainStep s₁ = some s₂ := rfl
    rw [onDisplay_miss calls (h.slot ▸ hf)]
    exact ⟨s₂, .head h₁ (.head h₂ (.refl _)), rfl, h.ack hr rfl rfl⟩
  | true =>
    let s₁ : Sys := { s with slot := s.slot.swap, pc := .publish (calls.count i) }
    let s₂ : Sys := { s with slot := s.slot.swap.publish, pc := .arm (calls.count i) }
    let s₃ : Sys := { s with slot := shownSlot s.slot, pc := .call .display (calls.count i) }
    have h₁ : mainStep s = some s₁ := by simp [mainStep, hpc, takePending_eq, hf, s₁]
    have h₂ : mainStep s₁ = some s₂ := rfl
    have h₃ : mainStep s₂ = some s₃ := rfl
    have hfix := fixed_modify shownSlot_slot shownSlot_image w i
    have hd' : Function.Injective (w.modify i shownSlot).number := hfix.distinct hd
    have hs₃ : Agree (w.modify i shownSlot) i s₃ := h.modify shownSlot_slot rfl rfl
    obtain ⟨t, hst, ht, ha⟩ := automation_runs (hfix.role.trans hr) hd' hs₃ rfl
    have hto : MainRuns s t := .head h₁ (.head h₂ (.head h₃ hst))
    rw [onDisplay_hit calls (h.slot ▸ hf)]
    generalize hv : (w.modify i shownSlot).automation calls = v at ha
    have hrv : v.artworkRole = true := by
      rw [← hv, (fixed_automation _ calls).role, hfix.role, hr]
    dsimp only
    cases himg : (v.slots i).transitionImage.isNone with
    | true =>
      let t₁ : Sys := { t with slot := t.slot.settle, pc := .ack }
      let t₂ : Sys := { t₁ with owes := false, pc := .idle }
      have hstep : mainStep t = some t₁ := by simp [mainStep, ht, ha.slot, himg, t₁]
      have hack : mainStep t₁ = some t₂ := rfl
      exact ⟨t₂, hto.trans (.head hstep (.head hack (.refl _))), rfl, ha.finish hrv rfl rfl⟩
    | false =>
      let t₁ : Sys := { t with pc := .idle }
      have hstep : mainStep t = some t₁ := by simp [mainStep, ht, ha.slot, himg, t₁]
      exact ⟨t₁, hto.trans (.head hstep (.refl _)), rfl, ha.slot, ha.owes⟩

lemma clear_runs {w : World ι} {i : ι} {s : Sys} {calls : List ι} (hr : w.artworkRole = true)
    (hd : Function.Injective w.number) (h : Agree w i s)
    (hpc : s.pc = .clearLock (calls.count i)) :
    ∃ t, MainRuns s t ∧ t.pc = .idle ∧ Agree (w.onClear i calls) i t := by
  let s₁ : Sys := { s with slot := s.slot.dropPending, pc := .clearViews (calls.count i) }
  let s₂ : Sys := { s with slot := clearedSlot s.slot, pc := .call .clear (calls.count i) }
  have h₁ : mainStep s = some s₁ := by simp [mainStep, hpc, s₁]
  have h₂ : mainStep s₁ = some s₂ := rfl
  have hfix := fixed_modify clearedSlot_slot clearedSlot_image w i
  have hd' : Function.Injective (w.modify i clearedSlot).number := hfix.distinct hd
  have hs₂ : Agree (w.modify i clearedSlot) i s₂ := h.modify clearedSlot_slot rfl rfl
  obtain ⟨t, hst, ht, ha⟩ := automation_runs (hfix.role.trans hr) hd' hs₂ rfl
  let t₁ : Sys := { t with pc := .ack }
  let t₂ : Sys := { t₁ with owes := false, pc := .idle }
  have hcall : mainStep t = some t₁ := by simp [mainStep, ht, t₁]
  have hack : mainStep t₁ = some t₂ := rfl
  have hrv : ((w.modify i clearedSlot).automation calls).artworkRole = true := by
    rw [(fixed_automation _ calls).role, hfix.role, hr]
  have hto : MainRuns s t := .head h₁ (.head h₂ hst)
  rw [onClear_eq]
  exact ⟨t₂, hto.trans (.head hcall (.head hack (.refl _))), rfl, ha.ack hrv rfl rfl⟩

omit [DecidableEq ι] in
lemma Agree.deliver {w : World ι} {i : ι} {s t : Sys} (h : Agree w i s) (hs : t.slot = s.slot)
    (ho : t.owes = true) : Agree (w.deliver (w.number i)) i t :=
  ⟨hs.trans h.slot, ho.trans (owed_delivered_self w.log _).symm⟩

/-- **A hub's handlers are the pieces of its slots' machines**: where the hub's slot and the
machine agree, they agree again once the main loop has run the handler of a display, of a clear
or of a late `transition_finished` to its end. -/
theorem handlers_run {w v : World ι} {i : ι} {s : Sys} (hw : Reachable w) (h : Agree w i s)
    (hpc : s.pc = .idle) (calls : List ι) :
    (∀ f, s.awaiting = some f → SlotHub.step w (.display (w.number i) calls) = some v →
      ∃ s' t, SlotMachine.step s (.display (calls.count i)) = some s' ∧ MainRuns s' t ∧
        t.pc = .idle ∧ Agree v i t) ∧
    (∀ keep, SlotHub.step w (.clear (w.number i) calls) = some v →
      ∃ s' t, SlotMachine.step s (.clear (calls.count i) keep) = some s' ∧ MainRuns s' t ∧
        t.pc = .idle ∧ Agree v i t) ∧
    (SlotHub.step w (.transitionFinished i) = some v →
      ∃ s' t, SlotMachine.step s .transitionFinished = some s' ∧ MainRuns s' t ∧
        t.pc = .idle ∧ Agree v i t) := by
  have hi := inv_reachable hw
  have hr : (w.deliver (w.number i)).artworkRole = true := hi.role
  have hd : Function.Injective (w.deliver (w.number i)).number := hi.distinct
  refine ⟨fun f hf hv => ?_, fun keep hv => ?_, fun hv => ?_⟩
  · obtain ⟨-, rfl⟩ := display_some hv
    let s' : Sys :=
      { s with pc := .displayLock f (calls.count i), awaiting := none, owes := true }
    have hs' : SlotMachine.step s (.display (calls.count i)) = some s' := by
      simp [SlotMachine.step, hpc, hf, s']
    have hdel : Agree (w.deliver (w.number i)) i s' := h.deliver rfl rfl
    obtain ⟨t, hst, ht, ha⟩ := display_runs hr hd hdel rfl
    rw [onImageDisplay_deliver hi]
    exact ⟨s', t, hs', hst, ht, ha⟩
  · obtain rfl := Option.some.inj hv
    let s' : Sys :=
      { s with
        pc := .clearLock (calls.count i)
        live := s.live && keep
        awaiting := if keep then s.awaiting else none
        owes := true
        cleared := s.decodes }
    have hs' : SlotMachine.step s (.clear (calls.count i) keep) = some s' := by
      simp [SlotMachine.step, hpc, s']
    have hdel : Agree (w.deliver (w.number i)) i s' := h.deliver rfl rfl
    obtain ⟨t, hst, ht, ha⟩ := clear_runs hr hd hdel rfl
    rw [onImageClear_deliver hi]
    exact ⟨s', t, hs', hst, ht, ha⟩
  · obtain rfl := Option.some.inj hv
    cases hp : s.slot.transitionPending with
    | true =>
      have hw' : w.transitionFinished i = w.finishTransition i :=
        if_pos (by rw [World.pending, ← h.slot, hp])
      let s' : Sys := { s with slot := s.slot.settle, pc := .ack }
      let t : Sys := { s' with owes := false, pc := .idle }
      have hs' : SlotMachine.step s .transitionFinished = some s' := by
        simp [SlotMachine.step, hpc, hp, s']
      have hack : mainStep s' = some t := rfl
      rw [hw']
      exact ⟨s', t, hs', .head hack (.refl _), rfl, h.finish hi.role rfl rfl⟩
    | false =>
      have hw' : w.transitionFinished i = w :=
        if_neg (by rw [World.pending, ← h.slot, hp]; simp)
      have hs' : SlotMachine.step s .transitionFinished = some s := by
        simp [SlotMachine.step, hpc, hp]
      rw [hw']
      exact ⟨s, s, hs', .refl s, hpc, h⟩

/-! ### The decode thread -/

/-- **A decode is the pieces of its thread**: once it has picked its target, the thread gets the
machine to the slot that `on_decode_` leaves, whatever the main loop has made of it meanwhile. -/
theorem decode_runs {σ : Type*} (d : Decode.Decoder σ) (p : Decode.Payload) (slot : Slot)
    (sink : σ) {s : Sys} {n : ℕ} (h : s.thread = .writing n slot.target) :
    ∃ o es t, (∀ fuel, p.length < fuel →
        Decode.onDecode d p (fun _ => s.slot) fuel slot sink = some o) ∧
      run SlotMachine.step s es = some t ∧ t.thread = .idle ∧ t.slot = o.slot := by
  obtain ⟨decoded, calls, hrun, -⟩ := Decode.onDecode_ends d p (fun _ => s.slot) slot sink
  cases decoded with
  | false =>
    let t : Sys := { s with thread := .idle, awaiting := s.returned n false }
    have ht : run SlotMachine.step s [.finish false] = some t := by simp [SlotMachine.step, h, t]
    exact ⟨_, _, t, hrun, ht, rfl, rfl⟩
  | true =>
    let s₁ : Sys :=
      { s with
        thread := .decoded n slot.target
        mem := Function.update s.mem slot.target (.full n) }
    let t : Sys :=
      { s₁ with slot := s.slot.markPending, thread := .idle, awaiting := s.returned n true }
    have h₁ : SlotMachine.step s (.finish true) = some s₁ := by simp [SlotMachine.step, h, s₁]
    have ht : run SlotMachine.step s [.finish true, .commit] = some t := by
      rw [run_cons, h₁]
      rfl
    exact ⟨_, _, t, hrun, ht, rfl, rfl⟩

end SendspinMc.SlotHandlers
