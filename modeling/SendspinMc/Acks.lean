import SendspinMc.SlotHub

/-!
One ack for each delivery: between two handlers a slot owes the library an ack exactly while
its transition is pending, and whoever ends that state sends it.
-/

namespace SendspinMc.Acks

open SendspinMc.ImageSlot SendspinMc.SlotHub SendspinMc.Lib.History SendspinMc.Lib.Ledger
  SendspinMc.Lib.Runs

variable {ι : Type*} [DecidableEq ι]

/-- The ledger agrees with the slots, but for the slot `off` whose handler still owes the ack
of the delivery it runs for. -/
structure Inv (off : Option ι) (w : World ι) : Prop where
  role : w.artworkRole = true
  distinct : Function.Injective w.number
  registered : w.registered.Nodup ∧ ∀ i, i ∈ w.registered
  valid : Valid w.log
  sync : ∀ j, owed w.log (w.number j) = (w.pending j || decide (off = some j))
  unarmed : ∀ j ∈ off, w.pending j = false
  image : ∀ j, w.pending j = true → (w.slots j).transitionImage.isSome = true

lemma inv_fresh {w : World ι} (h : Fresh w) : Inv none w := by
  have hp : ∀ j, w.pending j = false := fun j => by
    obtain ⟨n, a, c, hs⟩ := h.slots j
    exact (setup_ok hs).2.2.2.1
  exact ⟨h.role, h.distinct, h.registered, h.log ▸ justified_nil, fun j => by simp [h.log, hp j],
    by simp, fun j hj => by simp [hp j] at hj⟩

lemma Inv.next {off off' : Option ι} {w v : World ι} (h : Inv off w) (hf : Fixed w v)
    (hv : Valid v.log) (hs : ∀ j, owed v.log (v.number j) = (v.pending j || decide (off' = some j)))
    (hu : ∀ j ∈ off', v.pending j = false)
    (hi : ∀ j, v.pending j = true → (v.slots j).transitionImage.isSome = true) : Inv off' v where
  role := hf.role.trans h.role
  distinct := hf.distinct h.distinct
  registered := hf.registered ▸ h.registered
  valid := hv
  sync := hs
  unarmed := hu
  image := hi

/-! ### The pieces -/

lemma Inv.ack {w : World ι} {i : ι} (h : Inv (some i) w) :
    Inv none (w.artworkFrameDone (w.number i)) := by
  have hp := h.unarmed i rfl
  have hf := fixed_artworkFrameDone w (w.number i)
  refine h.next hf ?_ (fun j => ?_) (by simp) fun j hj => ?_
  · rw [artworkFrameDone_log h.role]
    exact valid_acked.mpr ⟨by simp [h.sync], h.valid⟩
  · rw [artworkFrameDone_log h.role, hf.number]
    by_cases hj : j = i
    · subst hj
      simpa [World.pending] using hp
    · rw [owed_acked_ne _ fun he => hj (h.distinct he).symm, h.sync]
      simp [World.pending, Ne.symm hj]
  · rw [hf.image]
    exact h.image j (by simpa [World.pending] using hj)

lemma Inv.finish {off : Option ι} {w : World ι} {k : ι} (h : Inv off w)
    (hp : w.pending k = true) : Inv off (w.finishTransition k) := by
  have hf := fixed_finishTransition w k
  have hslots : (w.finishTransition k).slots = (w.modify k Slot.settle).slots := by
    simp [World.finishTransition]
  have hlog := finishTransition_log h.role k
  have hoff : ¬ off = some k := fun ho => by simp [h.unarmed k ho] at hp
  refine h.next hf ?_ (fun j => ?_) (fun j hj => ?_) fun j hj => ?_
  · rw [hlog]
    exact valid_acked.mpr ⟨by simp [h.sync, hp], h.valid⟩
  · rw [hlog, hf.number]
    by_cases hj : j = k
    · subst hj
      simp [World.pending, hslots, hoff]
    · rw [owed_acked_ne _ fun he => hj (h.distinct he).symm, h.sync]
      simp [World.pending, hslots, modify_ne w _ hj]
  · have hjk : j ≠ k := fun he => hoff (he ▸ hj)
    simpa [World.pending, hslots, modify_ne w _ hjk] using h.unarmed j hj
  · by_cases hjk : j = k
    · subst hjk
      simp [World.pending, hslots] at hj
    · rw [hf.image]
      exact h.image j (by simpa [World.pending, hslots, modify_ne w _ hjk] using hj)

lemma Inv.transitionFinished {off : Option ι} {w : World ι} (h : Inv off w) (k : ι) :
    Inv off (w.transitionFinished k) := by
  unfold World.transitionFinished
  split
  · exact h.finish ‹_›
  · exact h

lemma Inv.automation {off : Option ι} {w : World ι} (h : Inv off w) (calls : List ι) :
    Inv off (w.automation calls) := by
  induction calls generalizing w with
  | nil => exact h
  | cons k calls ih => exact ih (h.transitionFinished k)

lemma Inv.modify {off : Option ι} {w : World ι} {i : ι} {f : Slot → Slot} (h : Inv off w)
    (hn : ∀ s, (f s).slot = s.slot)
    (hi : ∀ s, (f s).transitionImage.isSome = s.transitionImage.isSome)
    (hp : (f (w.slots i)).transitionPending = w.pending i) : Inv off (w.modify i f) := by
  have hf := fixed_modify hn hi w i
  have hpend : ∀ j, (w.modify i f).pending j = w.pending j := by
    intro j
    by_cases hj : j = i
    · subst hj
      simpa [World.pending] using hp
    · simp [World.pending, modify_ne w f hj]
  refine h.next hf h.valid (fun j => ?_) (fun j hj => ?_) fun j hj => ?_
  · rw [hf.number, modify_log, h.sync, hpend]
  · rw [hpend]; exact h.unarmed j hj
  · rw [hf.image]; exact h.image j (by rwa [hpend] at hj)

lemma Inv.arm {w : World ι} {i : ι} {f : Slot → Slot} (h : Inv (some i) w)
    (hn : ∀ s, (f s).slot = s.slot)
    (hi : ∀ s, (f s).transitionImage.isSome = s.transitionImage.isSome)
    (hp : (f (w.slots i)).transitionPending = true)
    (himg : (w.slots i).transitionImage.isSome = true) : Inv none (w.modify i f) := by
  have hf := fixed_modify hn hi w i
  refine h.next hf h.valid (fun j => ?_) (by simp) fun j hj => ?_
  · rw [hf.number, modify_log, h.sync]
    by_cases hj : j = i
    · subst hj
      simp [World.pending, hp]
    · simp [World.pending, modify_ne w f hj, Ne.symm hj]
  · rw [hf.image]
    by_cases hji : j = i
    · subst hji; exact himg
    · exact h.image j (by simpa [World.pending, modify_ne w f hji] using hj)

/-! ### The handlers -/

lemma Inv.onDisplay {w : World ι} {i : ι} (h : Inv (some i) w) (calls : List ι) :
    Inv none (w.onDisplay i calls) := by
  cases hr : (w.slots i).framePending with
  | false =>
    rw [onDisplay_miss calls hr]
    exact h.ack
  | true =>
    rw [onDisplay_hit calls hr]
    have hf := (fixed_modify shownSlot_slot shownSlot_image w i).trans (fixed_automation _ calls)
    dsimp only
    by_cases himg : (w.slots i).transitionImage.isSome = true
    · -- the automation may have finished the transition already
      have hv := (h.arm shownSlot_slot shownSlot_image (by rw [shownSlot_pending, himg])
        himg).automation calls
      rw [if_neg (by simpa [Option.isSome_iff_ne_none] using (hf.image i).trans himg)]
      exact hv
    · have hp : (shownSlot (w.slots i)).transitionPending = w.pending i := by
        rw [shownSlot_pending, h.unarmed i rfl]
        simpa using himg
      have hv := (h.modify shownSlot_slot shownSlot_image hp).automation calls
      have himg : (w.slots i).transitionImage.isSome = false := by simpa using himg
      rw [if_pos (by simpa using (hf.image i).trans himg)]
      exact (hv.modify (f := Slot.settle) (fun _ => rfl) settle_image
        (by rw [hv.unarmed i rfl]; rfl)).ack

lemma Inv.onClear {w : World ι} {i : ι}
    (h : Inv (some i) (w.modify i clearedSlot)) (calls : List ι) :
    Inv none (w.onClear i calls) := by
  rw [onClear_eq]
  exact (h.automation calls).ack

lemma Inv.delivered {w : World ι} (h : Inv none w) {i : ι} (hp : w.pending i = false) :
    Inv (some i) (w.deliver (w.number i)) := by
  have hf := fixed_deliver w (w.number i)
  refine h.next hf (valid_delivered.mpr h.valid) (fun j => ?_) (fun j hj => ?_) fun j hj => ?_
  · by_cases hj : j = i
    · subst hj
      simp [World.number]
    · rw [deliver_log, hf.number, owed_delivered_ne _ fun he => hj (h.distinct he).symm, h.sync]
      simp [World.pending, Ne.symm hj]
  · obtain rfl : i = j := by simpa using hj
    exact hp
  · exact h.image j hj

lemma Inv.superseded {w : World ι} (h : Inv none w) (i : ι) :
    Inv (some i) ((w.deliver (w.number i)).modify i clearedSlot) := by
  have hf := (fixed_deliver w (w.number i)).trans
    (fixed_modify clearedSlot_slot clearedSlot_image (w.deliver (w.number i)) i)
  refine h.next hf (valid_delivered.mpr h.valid) (fun j => ?_) (fun j hj => ?_) fun j hj => ?_
  · rw [modify_log, deliver_log, hf.number]
    by_cases hj : j = i
    · subst hj
      simp
    · rw [owed_delivered_ne _ fun he => hj (h.distinct he).symm, h.sync]
      simp [World.pending, modify_ne _ _ hj, Ne.symm hj]
  · obtain rfl : i = j := by simpa using hj
    simp [World.pending, clearedSlot]
  · by_cases hji : j = i
    · subst hji
      simp [World.pending, clearedSlot] at hj
    · rw [hf.image]
      exact h.image j (by simpa [World.pending, modify_ne _ _ hji] using hj)

lemma Inv.stranger {w : World ι} (h : Inv none w) {n : UInt8} (hn : ∀ j, w.number j ≠ n) :
    Inv none (w.deliver n) := by
  have hf := fixed_deliver w n
  refine h.next hf (valid_delivered.mpr h.valid) (fun j => ?_) (by simp) fun j hj => h.image j hj
  rw [deliver_log, hf.number, owed_delivered_ne _ (hn j).symm, h.sync]
  rfl

/-! ### The deliveries -/

lemma display_some {w v : World ι} {n : UInt8} {calls : List ι}
    (h : step w (.display n calls) = some v) :
    owed w.log n = false ∧ v = (w.deliver n).onImageDisplay n calls := by
  simp only [step] at h
  cases ho : owed w.log n with
  | true => simp [ho] at h
  | false => exact ⟨rfl, by simpa [ho] using h.symm⟩

lemma fanOut_deliver {w : World ι} (h : Inv none w) {f : World ι → ι → World ι}
    (hf : ∀ v i, Fixed v (f v i)) (n : UInt8) :
    (∃ i, w.number i = n ∧ (w.deliver n).fanOut n f = f (w.deliver n) i) ∨
      (∀ i, w.number i ≠ n) ∧ (w.deliver n).fanOut n f = w.deliver n := by
  by_cases hex : ∃ i, w.number i = n
  · obtain ⟨i, rfl⟩ := hex
    exact .inl ⟨i, rfl, fanOut_eq (w := w.deliver (w.number i)) hf h.distinct h.registered.1
      (h.registered.2 i)⟩
  · have hne : ∀ i, (w.deliver n).number i ≠ n := fun i hi => hex ⟨i, hi⟩
    exact .inr ⟨hne, fanOut_none hne⟩

lemma onImageDisplay_deliver {w : World ι} (h : Inv none w) (i : ι) (calls : List ι) :
    (w.deliver (w.number i)).onImageDisplay (w.number i) calls =
      (w.deliver (w.number i)).onDisplay i calls :=
  fanOut_eq (w := w.deliver (w.number i)) (fun v j => fixed_onDisplay v j calls) h.distinct
    h.registered.1 (h.registered.2 i)

lemma onImageClear_deliver {w : World ι} (h : Inv none w) (i : ι) (calls : List ι) :
    (w.deliver (w.number i)).onImageClear (w.number i) calls =
      (w.deliver (w.number i)).onClear i calls :=
  fanOut_eq (w := w.deliver (w.number i)) (fun v j => fixed_onClear v j calls) h.distinct
    h.registered.1 (h.registered.2 i)

lemma inv_step {w v : World ι} {e : Ev ι} (h : Inv none w) (hs : step w e = some v) :
    Inv none v := by
  cases e with
  | decoded i =>
    obtain rfl := Option.some.inj hs
    exact h.modify (f := Slot.markPending) (fun _ => rfl) (fun _ => rfl) rfl
  | display n calls =>
    obtain ⟨hn, rfl⟩ := display_some hs
    obtain ⟨i, rfl, hi⟩ | ⟨hne, hi⟩ := fanOut_deliver h (fun v i => fixed_onDisplay v i calls) n
    all_goals rw [World.onImageDisplay, hi]
    · exact (h.delivered (by simpa [h.sync] using hn)).onDisplay calls
    · exact h.stranger hne
  | clear n calls =>
    obtain rfl := Option.some.inj hs
    obtain ⟨i, rfl, hi⟩ | ⟨hne, hi⟩ := fanOut_deliver h (fun v i => fixed_onClear v i calls) n
    all_goals rw [World.onImageClear, hi]
    · exact (h.superseded i).onClear calls
    · exact h.stranger hne
  | transitionFinished i =>
    obtain rfl := Option.some.inj hs
    exact h.transitionFinished i

theorem inv_reachable {w : World ι} (h : Reachable w) : Inv none w :=
  Keeps.reach (fun _ _ _ hi hst => inv_step hi hst) (fun _ => inv_fresh) h

/-! ### What reaches another slot -/

/-- A slot as the `transition_finished` calls of an automation leave it. -/
def finishedSlot (s : Slot) : Slot := if s.transitionPending then s.settle else s

lemma transitionFinished_slots (w : World ι) (i j : ι) :
    (w.transitionFinished i).slots j =
      if j = i then finishedSlot (w.slots j) else w.slots j := by
  unfold World.transitionFinished
  by_cases hj : j = i
  · subst hj
    by_cases hp : w.pending j = true
    · simp [hp, World.finishTransition, finishedSlot]
    · simp [hp, finishedSlot]
  · rw [if_neg hj]
    split
    · simp [World.finishTransition, modify_ne w _ hj]
    · rfl

lemma finishedSlot_idem (s : Slot) : finishedSlot (finishedSlot s) = finishedSlot s := by
  cases h : s.transitionPending <;> simp [finishedSlot, h]

lemma automation_slots (w : World ι) (calls : List ι) (j : ι) :
    (w.automation calls).slots j =
      if j ∈ calls then finishedSlot (w.slots j) else w.slots j := by
  induction calls generalizing w with
  | nil => simp [World.automation]
  | cons i calls ih =>
    rw [show w.automation (i :: calls) = (w.transitionFinished i).automation calls from rfl, ih,
      transitionFinished_slots]
    by_cases hj : j = i <;> by_cases hc : j ∈ calls <;> simp [hj, hc, finishedSlot_idem]

lemma onDisplay_slots_ne (w : World ι) {i j : ι} (calls : List ι) (hj : j ≠ i) :
    (w.onDisplay i calls).slots j = w.slots j ∨
      j ∈ calls ∧ (w.onDisplay i calls).slots j = finishedSlot (w.slots j) := by
  cases hr : (w.slots i).framePending with
  | false => exact .inl (by rw [onDisplay_miss calls hr, artworkFrameDone_slots])
  | true =>
    have hv : (w.onDisplay i calls).slots j =
        ((w.modify i shownSlot).automation calls).slots j := by
      rw [onDisplay_hit calls hr]
      dsimp only
      split
      · simp [World.finishTransition, modify_ne _ _ hj]
      · rfl
    rw [hv, automation_slots, modify_ne _ _ hj]
    by_cases hc : j ∈ calls <;> simp [hc]

lemma onClear_slots_ne (w : World ι) {i j : ι} (calls : List ι) (hj : j ≠ i) :
    (w.onClear i calls).slots j = w.slots j ∨
      j ∈ calls ∧ (w.onClear i calls).slots j = finishedSlot (w.slots j) := by
  have hv : (w.onClear i calls).slots j =
      ((w.modify i clearedSlot).automation calls).slots j := by
    rw [onClear_eq]
    simp
  rw [hv, automation_slots, modify_ne _ _ hj]
  by_cases hc : j ∈ calls <;> simp [hc]

/-- An event for other slots leaves a slot as it is, unless the automation it runs finishes
the slot's own transition. -/
lemma step_slots_ne {w v : World ι} {e : Ev ι} {j : ι} (h : Inv none w)
    (hs : step w e = some v) (hj : ¬ e.about w j) :
    v.slots j = w.slots j ∨ j ∈ e.calls ∧ v.slots j = finishedSlot (w.slots j) := by
  cases e with
  | decoded i =>
    obtain rfl := Option.some.inj hs
    exact .inl (modify_ne _ _ fun he => hj he.symm)
  | display n calls =>
    obtain ⟨-, rfl⟩ := display_some hs
    obtain ⟨i, rfl, hi⟩ | ⟨-, hi⟩ := fanOut_deliver h (fun v i => fixed_onDisplay v i calls) n
    all_goals rw [World.onImageDisplay, hi]
    · exact onDisplay_slots_ne _ calls fun he => hj (by rw [he]; rfl)
    · exact .inl rfl
  | clear n calls =>
    obtain rfl := Option.some.inj hs
    obtain ⟨i, rfl, hi⟩ | ⟨-, hi⟩ := fanOut_deliver h (fun v i => fixed_onClear v i calls) n
    all_goals rw [World.onImageClear, hi]
    · exact onClear_slots_ne _ calls fun he => hj (by rw [he]; rfl)
    · exact .inl rfl
  | transitionFinished i =>
    obtain rfl := Option.some.inj hs
    rw [transitionFinished_slots]
    by_cases hji : j = i <;> simp [hji, Ev.calls]

/-! ### The acks of a clear -/

lemma automation_count {w : World ι} (hr : w.artworkRole = true)
    (hd : Function.Injective w.number) {i : ι} (hp : w.pending i = false) (calls : List ι) :
    (w.automation calls).log.count (.acked (w.number i)) =
      w.log.count (.acked (w.number i)) := by
  induction calls generalizing w with
  | nil => rfl
  | cons k calls ih =>
    have hf := fixed_transitionFinished w k
    have hd' : Function.Injective (w.transitionFinished k).number := hf.distinct hd
    have hp' : (w.transitionFinished k).pending i = false := by
      rw [World.pending, transitionFinished_slots]
      split <;> simp_all [finishedSlot, World.pending]
    have hlog : (w.transitionFinished k).log.count (.acked (w.number i)) =
        w.log.count (.acked (w.number i)) := by
      unfold World.transitionFinished
      by_cases hk : w.pending k = true
      · have hne : w.number k ≠ w.number i := fun he => by simp [hd he, hp] at hk
        rw [if_pos hk, finishTransition_log hr, List.count_cons_of_ne (by simpa using hne)]
      · rw [if_neg hk]
    rw [show w.automation (k :: calls) = (w.transitionFinished k).automation calls from rfl,
      ← hf.number, ih (hf.role.trans hr) hd' hp', hf.number, hlog]

lemma onClear_count {w : World ι} (hr : w.artworkRole = true)
    (hd : Function.Injective w.number) (i : ι) (calls : List ι) :
    (w.onClear i calls).log.count (.acked (w.number i)) =
      w.log.count (.acked (w.number i)) + 1 := by
  have hf := fixed_modify clearedSlot_slot clearedSlot_image w i
  have hf' := hf.trans (fixed_automation _ calls)
  have hd' : Function.Injective (w.modify i clearedSlot).number := hf.distinct hd
  have hp : (w.modify i clearedSlot).pending i = false := by simp [World.pending, clearedSlot]
  have hc := automation_count (hf.role.trans hr) hd' hp calls
  rw [hf.number, modify_log] at hc
  rw [onClear_eq]
  dsimp only
  rw [artworkFrameDone_log (hf'.role.trans hr), hf'.number, List.count_cons_self, hc]

/-! ### One ack for each delivery -/

/-- The slot is settled: one ack, and none owed after it. -/
def Settles (w v : World ι) (i : ι) : Prop :=
  v.pending i = false ∧ owed v.log (w.number i) = false ∧
    v.log.count (.acked (w.number i)) = w.log.count (.acked (w.number i)) + 1

/-- A step leaves a slot and the ack it owes as they are, or calls its `transition_finished`. -/
def Undisturbed (w v : World ι) (calls : List ι) (j : ι) : Prop :=
  v.slots j = w.slots j ∧ owed v.log (w.number j) = owed w.log (w.number j) ∨
    j ∈ calls ∧ v.slots j = finishedSlot (w.slots j) ∧ owed v.log (w.number j) = false

lemma settles_clear {w v : World ι} {i : ι} {calls : List ι} (h : Inv none w)
    (hs : step w (.clear (w.number i) calls) = some v) : Settles w v i := by
  have hv := inv_step h hs
  have hnum := (fixed_step hs).number i
  obtain rfl := Option.some.inj hs
  rw [onImageClear_deliver h] at hv hnum ⊢
  have hc : ((w.deliver (w.number i)).onClear i calls).log.count (.acked (w.number i)) =
      w.log.count (.acked (w.number i)) + 1 := by
    have := onClear_count (w := w.deliver (w.number i)) h.role h.distinct i calls
    simpa [World.number] using this
  have hp : ((w.deliver (w.number i)).onClear i calls).pending i = false := by
    rw [World.pending, onClear_eq]
    dsimp only
    rw [artworkFrameDone_slots, automation_slots]
    simp [finishedSlot, clearedSlot]
  have ho := hv.sync i
  rw [hnum, hp] at ho
  exact ⟨hp, by simpa using ho, hc⟩

lemma settles_finished {w : World ι} {i : ι} (h : Inv none w) (hp : w.pending i = true) :
    ∃ v, step w (.transitionFinished i) = some v ∧ Settles w v i := by
  have hst : step w (.transitionFinished i) = some (w.finishTransition i) :=
    congrArg some (if_pos hp)
  have hv := inv_step h hst
  have hnum := (fixed_step hst).number i
  have hpend : (w.finishTransition i).pending i = false := by
    simp [World.pending, World.finishTransition]
  have ho := hv.sync i
  rw [hnum, hpend] at ho
  refine ⟨_, hst, hpend, by simpa using ho, ?_⟩
  rw [finishTransition_log h.role, List.count_cons_self]

lemma undisturbed_step {w v : World ι} {e : Ev ι} {j : ι} (h : Inv none w) (hs : step w e = some v)
    (hj : ¬ e.about w j) : Undisturbed w v e.calls j := by
  have hv := inv_step h hs
  have hnum := (fixed_step hs).number j
  have ho := hv.sync j
  rw [hnum] at ho
  rcases step_slots_ne h hs hj with he | ⟨hc, he⟩
  · refine .inl ⟨he, ?_⟩
    rw [ho, h.sync, World.pending, he]
  · refine .inr ⟨hc, he, ?_⟩
    rw [ho, World.pending, he]
    cases hp : (w.slots j).transitionPending <;> simp [finishedSlot, hp]

/-- **Exactly one ack for each delivery**: every ack was owed and settles its delivery, a slot
owes one exactly while its transition is pending, a clear settles its slot, so does
`transition_finished` where it is pending and does nothing elsewhere, and no delivery or ack of a
slot reaches another slot. -/
theorem exactly_one_ack {w : World ι} (h : Reachable w) :
    Valid w.log ∧
    (∀ n, w.log.count (.acked n) + (owed w.log n).toNat ≤ w.log.count (.delivered n)) ∧
    (∀ i, owed w.log (w.number i) = w.pending i) ∧
    (∀ i, (w.slots i).transitionImage = none → owed w.log (w.number i) = false) ∧
    (∀ i calls v, step w (.clear (w.number i) calls) = some v → Settles w v i) ∧
    (∀ i, w.pending i = true → ∃ v, step w (.transitionFinished i) = some v ∧ Settles w v i) ∧
    (∀ i, w.pending i = false → step w (.transitionFinished i) = some w) ∧
    ∀ e v j, step w e = some v → ¬ e.about w j → Undisturbed w v e.calls j := by
  have hi := inv_reachable h
  have hsync : ∀ i, owed w.log (w.number i) = w.pending i := fun i => by simpa using hi.sync i
  refine ⟨hi.valid, count_acked_le hi.valid, hsync, fun i hn => ?_, fun i calls v hs => ?_,
    fun i hp => settles_finished hi hp, fun i hp => congrArg some (if_neg (by simp [hp])),
    fun e v j hs hj => undisturbed_step hi hs hj⟩
  · rw [hsync]
    cases hp : w.pending i with
    | false => rfl
    | true =>
      have := hi.image i hp
      simp [hn] at this
  · exact settles_clear hi hs

inductive Panel
  | large | small
  deriving DecidableEq

/-- The large panel has a transition image, the small one none. -/
def twoSlots : World Panel where
  slots
    | .large => Config.slotOver ⟨0, ⟨none, 0, 0, false⟩, some ⟨none, 0, 0, false⟩, 2, 2⟩
        ⟨![0, 1], Nat.zero_ne_one⟩
    | .small => Config.slotOver ⟨1, ⟨none, 0, 0, false⟩, none, 1, 1⟩
        ⟨![4, 5], (Nat.succ_ne_self 4).symm⟩
  registered := [.large, .small]
  artworkRole := true
  log := []

lemma fresh_twoSlots : Fresh twoSlots where
  role := rfl
  distinct := by
    rintro (_ | _) (_ | _) h
    all_goals first
      | rfl
      | exact absurd h (by decide)
  registered := ⟨by decide, fun i => by cases i <;> decide⟩
  slots := by
    intro i
    cases i
    · exact ⟨8, ⟨some 0, some 1, by simp⟩, _, rfl⟩
    · exact ⟨8, ⟨some 4, some 5, by simp⟩, _, rfl⟩
  log := rfl

/-- A display waits for its transition, a clear supersedes it, and the transition ends late. -/
def superseded : List (Ev Panel) :=
  [.decoded .large, .display 0 [.small], .display 1 [], .clear 0 [.large],
    .transitionFinished .large]

theorem exactly_one_ack_superseded :
    ∃ w, run step twoSlots superseded = some w ∧
      w.log = [.acked 0, .delivered 0, .acked 1, .delivered 1, .delivered 0] ∧ Valid w.log :=
  ⟨_, rfl, by decide, (exactly_one_ack ⟨twoSlots, fresh_twoSlots, superseded, rfl⟩).1⟩

end SendspinMc.Acks
