import SendspinMc.SlotMachine

/-!
No tearing: while a decode runs or may start, no view names the buffer it writes.

The gate is closed from the moment a handler may move a view off `buffers_[current_index_]`
until its ack, and every handler moves the views back before it acks.
-/

namespace SendspinMc.NoTear

open SendspinMc.ImageSlot SendspinMc.SlotMachine SendspinMc.Lib.Runs

/-- No decode runs or may start, and none has left a frame for its display. -/
def Closed (s : Sys) : Prop := s.owes = true ∧ s.thread = .idle ∧ s.awaiting = none

/-- No transition is armed and both views name the current buffer. -/
structure Rest (s : Sys) : Prop where
  current : s.slot.CurrentOk
  settled : s.slot.Settled
  unarmed : s.slot.transitionPending = false

/-- Between two handlers: at rest, or armed behind the closed gate. -/
structure Steady (s : Sys) : Prop where
  current : s.slot.CurrentOk
  armed : s.slot.transitionPending = true → Closed s ∧ s.slot.transitionImage.isSome = true
  settled : s.slot.transitionPending = false → s.slot.Settled

/-- What holds where the main loop stands. -/
def At (s : Sys) : Pc → Prop
  | .idle | .clearLock _ | .clearViews _ => Steady s
  | .displayLock _ _ => Closed s ∧ Rest s
  | .publish _ => Closed s ∧ s.slot.transitionPending = false
  | .arm _ => Closed s ∧ s.slot.CurrentOk
  | .call .display _ => Steady s ∧ (s.slot.transitionImage.isSome = false → Closed s)
  | .call .clear _ | .ack => Rest s
  | .callAck _ _ => Rest s ∧ s.slot.transitionImage.isSome = true

/-- What links the gate, the index and the views. -/
structure Inv (s : Sys) : Prop where
  target : ∀ p ∈ s.thread.target, p = s.slot.target
  awaiting : s.awaiting ≠ none → s.thread = .idle
  at_pc : At s s.pc

lemma Rest.steady {s : Sys} (h : Rest s) : Steady s where
  current := h.current
  armed := fun hp => by rw [h.unarmed] at hp; cases hp
  settled := fun _ => h.settled

lemma Steady.rest {s : Sys} (h : Steady s) (hp : s.slot.transitionPending = false) : Rest s :=
  ⟨h.current, h.settled hp, hp⟩

lemma Steady.rest_of_open {s : Sys} (h : Steady s) (hn : ¬ Closed s) : Rest s :=
  h.rest (Bool.eq_false_iff.mpr fun hp => hn (h.armed hp).1)

lemma Rest.move {s t : Sys} (h : Rest s) (hs : t.slot = s.slot) : Rest t :=
  ⟨hs ▸ h.current, hs ▸ h.settled, hs ▸ h.unarmed⟩

lemma rest_settle {s t : Sys} (h : s.slot.CurrentOk) (hs : t.slot = s.slot.settle) : Rest t := by
  constructor <;> rw [hs]
  · simpa using h
  · simp
  · simp

lemma At.rest {s : Sys} {pc : Pc} (h : At s pc) (hn : ¬ Closed s) : Rest s := by
  cases pc with
  | idle | clearLock n | clearViews n => exact Steady.rest_of_open h hn
  | displayLock f n | publish n | arm n => exact absurd h.1 hn
  | call c n =>
    cases c with
    | display => exact h.1.rest_of_open hn
    | clear => exact h
  | ack => exact h
  | callAck c n => exact h.1

/-- A step of the decode thread or of the gate, taken while the gate is open, leaves the
main loop's own facts alone. -/
lemma At.of_open {s t : Sys} {pc : Pc} (h : At s pc) (hn : ¬ Closed s) (hr : Rest s → Rest t)
    (hi : t.slot.transitionImage = s.slot.transitionImage) : At t pc := by
  have ht := hr (h.rest hn)
  cases pc with
  | idle | clearLock n | clearViews n => exact ht.steady
  | displayLock f n | publish n | arm n => exact absurd h.1 hn
  | call c n =>
    cases c with
    | display => exact ⟨ht.steady, fun hz => absurd (h.2 (hi ▸ hz)) hn⟩
    | clear => exact ht
  | ack => exact ht
  | callAck c n => exact ⟨ht, hi ▸ h.2⟩

lemma not_closed_of_thread {s : Sys} (h : s.thread ≠ .idle) : ¬ Closed s := fun hc => h hc.2.1

lemma inv_fresh {s : Sys} (h : Fresh s) : Inv s := by
  obtain ⟨n, a, c, slot, hs, rfl⟩ := h
  obtain ⟨hcur, hset, -, hpend, -, -⟩ := setup_ok hs
  exact ⟨by simp [Sys.start], fun _ => rfl, Rest.steady ⟨hcur, hset, hpend⟩⟩

/-! ### The main loop -/

lemma inv_piece {s t : Sys} (h : Inv s) (hst : Piece s t) : Inv t := by
  obtain ⟨htar, haw, hat⟩ := h
  cases hst with
  | swap f n hpc hf =>
    rw [hpc] at hat
    obtain ⟨⟨ho, ht, ha⟩, hr⟩ := hat
    -- the swap moves the target, but no decode is there to write it
    exact ⟨by simp [ht], fun _ => ht, ⟨ho, ht, ha⟩, hr.unarmed⟩
  | miss f n hpc hf =>
    rw [hpc] at hat
    exact ⟨htar, haw, hat.2.move rfl⟩
  | publish n hpc =>
    rw [hpc] at hat
    exact ⟨htar, haw, hat.1, publish_currentOk _⟩
  | arm n hpc =>
    rw [hpc] at hat
    refine ⟨htar, haw, ⟨hat.2, fun hp => ⟨hat.1, hp⟩, arm_settled _⟩, fun _ => hat.1⟩
  | finish c n hpc hp =>
    rw [hpc] at hat
    cases c with
    | display =>
      have hi := (hat.1.armed hp).2
      exact ⟨htar, haw, rest_settle hat.1.current rfl, by simpa using hi⟩
    | clear => exact absurd hp (by simp [Rest.unarmed hat])
  | stray c n hpc hp =>
    rw [hpc] at hat
    cases c with
    | display => exact ⟨htar, haw, Rest.steady ((hat.1.rest hp).move rfl), hat.2⟩
    | clear => exact ⟨htar, haw, Rest.move hat rfl⟩
  | displayDone hpc hi =>
    rw [hpc] at hat
    exact ⟨htar, haw, rest_settle hat.1.current rfl⟩
  | displayLeft hpc hi =>
    rw [hpc] at hat
    exact ⟨htar, haw, hat.1.current, hat.1.armed, hat.1.settled⟩
  | clearDone hpc =>
    rw [hpc] at hat
    exact ⟨htar, haw, Rest.move hat rfl⟩
  | callAck c n hpc =>
    rw [hpc] at hat
    obtain ⟨hr, hi⟩ := hat
    refine ⟨htar, haw, ?_⟩
    cases c with
    | display => exact ⟨Rest.steady (hr.move rfl), fun hz => absurd hi (by simpa using hz)⟩
    | clear => exact hr.move rfl
  | clearLock n hpc =>
    rw [hpc] at hat
    obtain ⟨hc, ha, hs⟩ : Steady s := hat
    exact ⟨htar, haw, hc, ha, hs⟩
  | clearViews n hpc =>
    rw [hpc] at hat
    refine ⟨htar, haw, ?_, ?_, ?_⟩
    · simpa using Steady.current (s := s) hat
    · simp
    · simp
  | ack hpc =>
    rw [hpc] at hat
    exact ⟨htar, haw, Rest.steady (Rest.move hat rfl)⟩

/-! ### The decode thread and the library -/

lemma inv_move {s t : Sys} {e : Ev} (h : Inv s) (hst : Move s e t) : Inv t := by
  cases hst with
  | main hm => exact inv_piece h hm
  | begin hb =>
    obtain ⟨⟨hth, ha⟩, ho⟩ : (s.thread = .idle ∧ s.awaiting = none) ∧ s.owes = false := by
      simpa [Sys.mayBegin] using hb
    refine ⟨by simp, fun hne => absurd ha hne, h.at_pc.of_open ?_ (·.move rfl) rfl⟩
    rintro ⟨ho', -⟩
    simp [ho] at ho'
  | pick d hd =>
    refine ⟨by simp, fun hne => ?_, h.at_pc.of_open ?_ (·.move rfl) rfl⟩
    · have := h.awaiting hne
      simp [hd] at this
    · exact not_closed_of_thread (by simp [hd])
  | paint d p hd =>
    exact ⟨h.target, h.awaiting,
      h.at_pc.of_open (not_closed_of_thread (by simp [hd])) (·.move rfl) rfl⟩
  | done d p hd =>
    refine ⟨?_, fun hne => ?_, h.at_pc.of_open ?_ (·.move rfl) rfl⟩
    · simpa [hd] using h.target
    · have := h.awaiting hne
      simp [hd] at this
    · exact not_closed_of_thread (by simp [hd])
  | fail d p hd =>
    refine ⟨by simp, fun _ => rfl, h.at_pc.of_open ?_ (·.move rfl) rfl⟩
    exact not_closed_of_thread (by simp [hd])
  | commit d p hd =>
    refine ⟨by simp, fun _ => rfl, h.at_pc.of_open ?_ (fun hr => ⟨?_, ?_, ?_⟩) rfl⟩
    · exact not_closed_of_thread (by simp [hd])
    · simpa using hr.current
    · simpa using hr.settled
    · simpa using hr.unarmed
  | display f n hpc hf =>
    -- the frame's decode has returned, and a frame that waits shows an open gate
    have hth := h.awaiting (by simp [hf])
    have hr := h.at_pc.rest fun hc => by simp [hc.2.2] at hf
    exact ⟨h.target, fun _ => hth, ⟨rfl, hth, rfl⟩, hr.move rfl⟩
  | clear n keep hpc =>
    have hat := h.at_pc
    rw [hpc] at hat
    obtain ⟨hc, harm, hs⟩ : Steady s := hat
    refine ⟨h.target, fun hne => h.awaiting ?_, hc, fun hp => ?_, hs⟩
    · cases keep <;> simp_all
    · obtain ⟨⟨-, ht, ha⟩, hi⟩ := harm hp
      exact ⟨⟨rfl, ht, by cases keep <;> simp [ha]⟩, hi⟩
  | late hpc hp =>
    have hat := h.at_pc
    rw [hpc] at hat
    exact ⟨h.target, h.awaiting, rest_settle (s := s) (Steady.current hat) rfl⟩
  | strayLate hpc hp => exact h

theorem inv_reachable {s : Sys} (h : Reachable s) : Inv s :=
  Keeps.reach (fun _ _ _ hi hst => inv_move hi (move_of_step hst)) (fun _ => inv_fresh) h

/-- A decode runs, or the gate lets one start. -/
def Decoding (s : Sys) : Prop := s.thread ≠ .idle ∨ s.mayBegin = true

lemma Decoding.not_closed {s : Sys} (h : Decoding s) : ¬ Closed s := by
  rintro ⟨ho, ht, -⟩
  simp_all [Decoding, Sys.mayBegin]

/-- **No tearing**: whenever a decode runs or may start, it writes `buffers_[current_index_ ^ 1]`
and no view names that buffer. -/
theorem no_tearing {s : Sys} (h : Reachable s) (hd : Decoding s) :
    (∀ p ∈ s.thread.target, p = s.slot.target) ∧ s.slot.Untorn := by
  have hi := inv_reachable h
  have hr := hi.at_pc.rest hd.not_closed
  exact ⟨hi.target, Slot.untorn_of_settled hr.current hr.settled⟩

/-- A first frame is displayed, its automation finishes the transition, and the next decode
is under way. -/
def secondDecode : List Ev :=
  [.begin, .pick, .paint, .finish true, .commit, .display 1] ++ List.replicate 6 .main ++
    [.begin, .pick, .paint]

theorem no_tearing_secondDecode :
    ∃ s, run step sample secondDecode = some s ∧ s.thread.target = some 0 ∧ s.slot.Untorn :=
  ⟨_, rfl, rfl, (no_tearing ⟨sample, fresh_sample, secondDecode, rfl⟩ (.inl (by decide))).2⟩

end SendspinMc.NoTear
