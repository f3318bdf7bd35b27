import SendspinMc.NoTear

/-!
Which pixels a display publishes.

`framePending` is set at the end of a decode and cleared by a display or a clear. A decode
that a clear overtakes sets it after the clear, and its frame is never displayed; should the
next decode fail, the flag is still there when that failure's display arrives, and the swap
publishes what happens to be in the buffer. Without that, a swap shows the frame it is for.
-/

namespace SendspinMc.Current

open SendspinMc.ImageSlot SendspinMc.SlotMachine SendspinMc.NoTear SendspinMc.Lib.Runs

/-- The decode target holds the complete output of the decode of `f`, begun after the last
clear. -/
def Good (s : Sys) (f : Frame) : Prop := s.mem s.slot.target = .full f.id ∧ s.cleared ≤ f.id

/-- A swap shows the complete output of the decode it is delivered for, which succeeded, was
the last to write the buffer, and began after the last clear. -/
def Shown (s : Sys) (_ : Ev) (t : Sys) : Prop :=
  t.slot.currentIndex ≠ s.slot.currentIndex →
    ∃ f ∈ s.pc.displayed, f.ok = true ∧ t.mem t.slot.current = .full f.id ∧ t.cleared ≤ f.id

/-- A clear that lands while a decode runs cancels the display of its frame. -/
def Cancels (s : Sys) (e : Ev) (_ : Sys) : Prop := e.keeps = true → s.thread = .idle

/-- The display of a failed decode finds no frame pending. -/
def Missed (s : Sys) (e : Ev) (_ : Sys) : Prop :=
  e = .main → ∀ f ∈ s.pc.displayed, f.ok = false → s.slot.framePending = false

instance (s : Sys) (e : Ev) (t : Sys) : Decidable (Shown s e t) :=
  inferInstanceAs (Decidable (_ → _))
instance (s : Sys) (e : Ev) (t : Sys) : Decidable (Cancels s e t) :=
  inferInstanceAs (Decidable (_ → _))
instance (s : Sys) (e : Ev) (t : Sys) : Decidable (Missed s e t) :=
  inferInstanceAs (Decidable (_ → _))

/-- The next piece is the lock of `on_clear_`. -/
@[simp] def Dropping : Pc → Prop
  | .clearLock _ => True
  | _ => False

/-- The number of the running decode. -/
@[simp] def decodeOf : Thread → Option ℕ
  | .entered d | .writing d _ | .decoded d _ => some d
  | .idle => none

/-- What links the pending flag, the paint and the frame a display is for. -/
structure Inv (s : Sys) : Prop where
  views : NoTear.Inv s
  cleared_le : s.cleared ≤ s.decodes
  running : s.live = true → ∀ d ∈ decodeOf s.thread, s.cleared ≤ d
  decoded : ∀ d p, s.thread = .decoded d p → s.mem p = .full d
  waiting : s.slot.framePending = true → ¬ Dropping s.pc →
    ∀ f ∈ s.awaiting, f.ok = true → Good s f
  shown : s.slot.framePending = true → ∀ f ∈ s.pc.displayed, f.ok = true → Good s f

lemma inv_fresh {s : Sys} (h : Fresh s) : Inv s := by
  have hv := NoTear.inv_fresh h
  obtain ⟨n, a, c, slot, hs, rfl⟩ := h
  exact ⟨hv, le_rfl, by simp [Sys.start], by simp [Sys.start], by simp [Sys.start],
    by simp [Sys.start]⟩

lemma alone {s : Sys} (h : NoTear.Inv s) (ht : s.thread ≠ .idle) :
    s.awaiting = none ∧ ∀ f, f ∉ s.pc.displayed := by
  refine ⟨by_contra fun ha => ht (h.awaiting ha), fun f hf => ?_⟩
  have hat := h.at_pc
  cases hpc : s.pc with
  | displayLock g n =>
    rw [hpc] at hat
    exact ht hat.1.2.1
  | _ => simp [hpc] at hf

lemma inv_piece {s t : Sys} (h : Inv s) (hst : Piece s t) : Inv t := by
  have hv := NoTear.inv_piece h.views hst
  obtain ⟨-, hle, hrun, hdec, hwait, -⟩ := h
  cases hst with
  | swap f n hpc hf => exact ⟨hv, hle, hrun, hdec, by simp, by simp⟩
  | miss f n hpc hf => exact ⟨hv, hle, hrun, hdec, by simp [hf], by simp⟩
  | clearLock n hpc => exact ⟨hv, hle, hrun, hdec, by simp, by simp⟩
  | publish n hpc | arm n hpc | finish c n hpc hp | stray c n hpc hp | displayDone hpc hi
  | displayLeft hpc hi | clearDone hpc | callAck c n hpc | clearViews n hpc | ack hpc =>
    -- no lock is taken, so the flag and the target stay
    exact ⟨hv, hle, hrun, hdec, fun hp _ => hwait hp (by simp [hpc]), by simp⟩

lemma inv_move {s t : Sys} {e : Ev} (h : Inv s) (hc : Cancels s e t) (hst : Move s e t) :
    Inv t := by
  have hv := NoTear.inv_move h.views hst
  cases hst with
  | main hm => exact inv_piece h hm
  | begin hb =>
    obtain ⟨⟨hth, ha⟩, -⟩ : (s.thread = .idle ∧ s.awaiting = none) ∧ s.owes = false := by
      simpa [Sys.mayBegin] using hb
    refine ⟨hv, Nat.le_succ_of_le h.cleared_le, ?_, by simp, by simp [ha], h.shown⟩
    simpa using h.cleared_le
  | pick d hd =>
    refine ⟨hv, h.cleared_le, ?_, by simp, h.waiting, h.shown⟩
    simpa [hd] using h.running
  | paint d p hd =>
    obtain ⟨ha, hpc⟩ := alone h.views (by simp [hd])
    exact ⟨hv, h.cleared_le, h.running, by simp [hd], by simp [ha],
      fun _ f hf => absurd hf (hpc f)⟩
  | done d p hd =>
    obtain ⟨ha, hpc⟩ := alone h.views (by simp [hd])
    refine ⟨hv, h.cleared_le, ?_, ?_, by simp [ha], fun _ f hf => absurd hf (hpc f)⟩
    · simpa [hd] using h.running
    · rintro d' p' hd'
      obtain ⟨rfl, rfl⟩ : d = d' ∧ p = p' := by simpa using hd'
      simp
  | fail d p hd =>
    obtain ⟨-, hpc⟩ := alone h.views (by simp [hd])
    refine ⟨hv, h.cleared_le, by simp, by simp, ?_, fun _ f hf => absurd hf (hpc f)⟩
    rintro - - f hf hok
    obtain ⟨-, rfl⟩ : s.live = true ∧ (⟨d, false⟩ : Frame) = f := by simpa [Sys.returned] using hf
    cases hok
  | commit d p hd =>
    obtain ⟨-, hpc⟩ := alone h.views (by simp [hd])
    refine ⟨hv, h.cleared_le, by simp, by simp, ?_, fun _ f hf => absurd hf (hpc f)⟩
    rintro - - f hf -
    obtain ⟨hl, rfl⟩ : s.live = true ∧ (⟨d, true⟩ : Frame) = f := by simpa [Sys.returned] using hf
    -- the target picked at the start is still the slot's, so the paint is the frame's
    have hp : p = s.slot.target := h.views.target p (by simp [hd])
    have hfull := h.decoded d p hd
    refine ⟨?_, h.running hl d (by simp [hd])⟩
    rw [markPending_target, ← hp, hfull]
  | display f n hpc hf =>
    refine ⟨hv, h.cleared_le, h.running, h.decoded, by simp, ?_⟩
    intro hp g hg hok
    obtain rfl : f = g := by simpa using hg
    exact h.waiting hp (by simp [hpc]) f (by simp [hf]) hok
  | clear n keep hpc =>
    refine ⟨hv, le_rfl, ?_, h.decoded, by simp, by simp⟩
    intro hl d hd
    have hk : keep = true := by
      revert hl
      cases keep <;> simp
    subst hk
    simp [hc rfl] at hd
  | late hpc hp =>
    exact ⟨hv, h.cleared_le, h.running, h.decoded, fun hf _ => h.waiting hf (by simp [hpc]),
      by simp⟩
  | strayLate hpc hp => exact h

lemma keepsIf_inv : KeepsIf step Cancels Inv :=
  fun _ _ _ hi hc hst => inv_move hi hc (move_of_step hst)

/-! ### The swap -/

lemma swap_of_index_ne {s t : Sys} {e : Ev} (hst : Move s e t)
    (hne : t.slot.currentIndex ≠ s.slot.currentIndex) :
    ∃ f n, e = .main ∧ s.pc = .displayLock f n ∧ s.slot.framePending = true ∧
      t = { s with slot := s.slot.swap, pc := .publish n } := by
  cases hst with
  | main hm =>
    cases hm with
    | swap f n hpc hf => exact ⟨f, n, rfl, hpc, hf, rfl⟩
    | _ => exact absurd rfl hne
  | _ => exact absurd rfl hne

lemma shown_iff_missed {s t : Sys} {e : Ev} (h : Inv s) (hst : Move s e t) :
    Shown s e t ↔ Missed s e t := by
  constructor
  · intro hsh he f hf hok
    subst he
    cases hst with
    | main hm =>
      cases hm with
      | swap g n hpc hp =>
        obtain ⟨f', hf', hok', -⟩ := hsh (flip_ne _)
        obtain rfl : f = f' := by simpa [hpc] using hf.symm.trans hf'
        rw [hok] at hok'
        cases hok'
      | miss g n hpc hp => exact hp
      | _ => simp_all
  · intro hm hne
    obtain ⟨f, n, rfl, hpc, hp, rfl⟩ := swap_of_index_ne hst hne
    have hf : f ∈ s.pc.displayed := by simp [hpc]
    have hok : f.ok = true := by
      by_contra hok
      have := hm rfl f hf (by simpa using hok)
      rw [hp] at this
      cases this
    obtain ⟨hfull, hle⟩ := h.shown hp f hf hok
    exact ⟨f, hf, hok, by simpa using hfull, hle⟩

/-- **What a display publishes**: in a run where a clear cancels the decode it overtakes, every
swap shows the complete frame it is delivered for, exactly when no failed decode's display
finds the flag set. -/
theorem shown_along_iff {s : Sys} {es : List Ev} (h : Fresh s) (hc : Along step Cancels s es) :
    Along step Shown s es ↔ Along step Missed s es :=
  keepsIf_inv.along_iff (fun _ _ _ hi _ hst => shown_iff_missed hi (move_of_step hst))
    (inv_fresh h) hc

theorem shown_secondDecode : Along step Shown sample secondDecode :=
  (shown_along_iff fresh_sample (by decide)).mpr (by decide)

/-- A clear lands while decode `0` runs, decode `0` then succeeds, and decode `1` fails after
some paint. -/
def overtaken : List Ev :=
  [.begin, .pick, .clear 0 false] ++ List.replicate 4 .main ++
    [.finish true, .commit, .begin, .pick, .paint, .finish false, .display 0, .main]

/-- The display of the failed decode publishes its partial paint. -/
theorem overtaken_shows_partial :
    Fresh sample ∧ Along step Cancels sample overtaken ∧ ¬ Along step Shown sample overtaken ∧
      ∃ s, run step sample overtaken = some s ∧ s.mem s.slot.current = .part 1 :=
  ⟨fresh_sample, by decide, by decide, _, rfl, by decide⟩

/-! ### Where a stale flag comes from -/

/-- The lock that the next piece of the main loop takes. -/
@[simp] def lockOf : Pc → Option Tail
  | .displayLock _ _ => some .display
  | .clearLock _ => some .clear
  | _ => none

/-- What the events of a slot come to, told from the events alone. -/
structure Past where
  /-- A decode runs. -/
  decoding : Bool
  /-- A clear has landed in the last decode that began. -/
  overtaken : Bool
  /-- The last decode that returned has succeeded. -/
  succeeded : Bool
  /-- The handler that is about to take its lock. -/
  locking : Option Tail
  /-- A decode that a clear had landed in has succeeded, and no lock was taken since. -/
  left : Bool

def Past.start : Past := ⟨false, false, false, none, false⟩

def Past.next (p : Past) : Ev → Past
  | .begin => { p with decoding := true, overtaken := false }
  | .finish false => { p with decoding := false, succeeded := false }
  | .commit => { p with decoding := false, succeeded := true, left := p.left || p.overtaken }
  | .display _ => { p with locking := some .display }
  | .clear _ _ => { p with overtaken := p.overtaken || p.decoding, locking := some .clear }
  | .main => { p with locking := none, left := p.left && p.locking.isNone }
  | _ => p

/-- No display of a failed decode comes between a decode that succeeded after a clear had landed
in it and the next lock. -/
def Spared (p : Past) : List Ev → Prop
  | [] => True
  | e :: es =>
    (e = .main → p.locking = some .display → p.left = true → p.succeeded = true) ∧
      Spared (p.next e) es

/-- The flag is up for a frame that is to be displayed, or about to be dropped. -/
def Held (s : Sys) : Prop :=
  (∃ f, (f ∈ s.awaiting ∨ f ∈ s.pc.displayed) ∧ f.ok = true) ∨ lockOf s.pc = some .clear

/-- The slot as its events tell it. -/
structure Told (s : Sys) (p : Past) : Prop where
  decoding : p.decoding = true ↔ s.thread ≠ .idle
  live : s.thread ≠ .idle → s.live = !p.overtaken
  locking : p.locking = lockOf s.pc
  succeeded : ∀ f, f ∈ s.awaiting ∨ f ∈ s.pc.displayed → f.ok = p.succeeded
  owes : (lockOf s.pc).isSome → s.owes = true
  raised : p.left = true → s.slot.framePending = true
  held : s.slot.framePending = true → p.left = true ∨ Held s

lemma told_fresh {s : Sys} (h : Fresh s) : Told s .start := by
  obtain ⟨n, a, c, slot, hs, rfl⟩ := h
  obtain ⟨-, -, hp, -, -, -⟩ := setup_ok hs
  exact ⟨by simp [Past.start, Sys.start], by simp [Sys.start], rfl, by simp [Sys.start],
    by simp [Sys.start], by simp [Past.start], by simp [Sys.start, hp]⟩

lemma told_piece {s t : Sys} {p : Past} (h : Told s p) (hst : Piece s t) :
    Told t (p.next .main) := by
  obtain ⟨hdec, hlive, hlock, hsucc, -, hraised, hheld⟩ := h
  cases hst with
  | swap f n hpc hf | miss f n hpc hf | clearLock n hpc =>
    -- a lock leaves the flag down
    have hleft : (p.next .main).left = false := by simp [Past.next, hlock, hpc]
    exact ⟨hdec, hlive, rfl, fun g hg => hsucc g (.inl (by simpa using hg)), by simp,
      by simp [hleft], by simp [*]⟩
  | _ =>
    have hleft : (p.next .main).left = p.left := by simp [Past.next, *]
    refine ⟨hdec, hlive, rfl, fun g hg => hsucc g (by simpa [*] using hg), by simp,
      fun hl => hraised (hleft ▸ hl), fun hp => ?_⟩
    rw [hleft]
    refine (hheld hp).imp_right ?_
    simp [Held, *]

lemma told_move {s t : Sys} {p : Past} {e : Ev} (h : Told s p) (hv : NoTear.Inv s)
    (hc : Cancels s e t) (hst : Move s e t) : Told t (p.next e) := by
  cases hst with
  | main hm => exact told_piece h hm
  | begin hb =>
    obtain ⟨⟨hth, ha⟩, ho⟩ : (s.thread = .idle ∧ s.awaiting = none) ∧ s.owes = false := by
      simpa [Sys.mayBegin] using hb
    exact ⟨by simp [Past.next], by simp [Past.next], h.locking, h.succeeded, h.owes, h.raised,
      h.held⟩
  | pick d hd | paint d p' hd | done d p' hd =>
    exact ⟨by simp [Past.next, h.decoding, hd], fun _ => h.live (by simp [hd]), h.locking,
      h.succeeded, h.owes, h.raised, h.held⟩
  | fail d p' hd =>
    obtain ⟨ha, hpc⟩ := alone hv (by simp [hd])
    refine ⟨by simp [Past.next], by simp, h.locking, ?_, h.owes, h.raised, fun hp => ?_⟩
    · rintro f (hf | hf)
      · obtain ⟨-, rfl⟩ : s.live = true ∧ (⟨d, false⟩ : Frame) = f := by
          simpa [Sys.returned] using hf
        rfl
      · exact absurd hf (hpc f)
    · refine (h.held hp).imp_right (Or.imp_left ?_)
      rintro ⟨f, hf | hf, hok⟩
      · simp [ha] at hf
      · exact absurd hf (hpc f)
  | commit d p' hd =>
    obtain ⟨-, hpc⟩ := alone hv (by simp [hd])
    have hlive := h.live (by simp [hd])
    refine ⟨by simp [Past.next], by simp, h.locking, ?_, h.owes, fun _ => rfl, fun _ => ?_⟩
    · rintro f (hf | hf)
      · obtain ⟨-, rfl⟩ : s.live = true ∧ (⟨d, true⟩ : Frame) = f := by
          simpa [Sys.returned] using hf
        rfl
      · exact absurd hf (hpc f)
    · -- a frame that no clear has dropped is to be displayed
      cases ho : p.overtaken with
      | true => exact .inl (by simp [Past.next, ho])
      | false =>
        rw [ho] at hlive
        exact .inr (.inl ⟨⟨d, true⟩, .inl (by simp [Sys.returned, hlive]), rfl⟩)
  | display f n hpc hf =>
    refine ⟨h.decoding, h.live, rfl, ?_, by simp, h.raised, fun hp => ?_⟩
    · rintro g (hg | hg)
      · cases hg
      · obtain rfl : f = g := by simpa using hg
        exact h.succeeded f (.inl hf)
    · refine (h.held hp).imp_right ?_
      simp [Held, hpc, hf]
  | clear n keep hpc =>
    refine ⟨h.decoding, fun ht => ?_, rfl, ?_, by simp, h.raised, fun _ => .inr (.inr rfl)⟩
    · have hk : keep = false := by
        by_contra hk
        exact ht (hc (by simpa using hk))
      simp [Past.next, hk, h.decoding.mpr ht]
    · rintro f (hf | hf)
      · refine h.succeeded f (.inl ?_)
        cases keep
        · cases hf
        · exact hf
      · cases hf
  | late hpc hp =>
    refine ⟨h.decoding, h.live, h.locking.trans (by simp [hpc]), fun f hf => ?_, by simp, h.raised,
      fun hp => ?_⟩
    · exact h.succeeded f (.inl (by simpa using hf))
    · refine (h.held hp).imp_right ?_
      simp [Held, hpc]
  | strayLate hpc hp => exact h

lemma Told.missed_iff {s t : Sys} {p : Past} {e : Ev} (h : Told s p) :
    Missed s e t ↔
      (e = .main → p.locking = some .display → p.left = true → p.succeeded = true) := by
  refine forall_congr' fun _ => ?_
  rw [h.locking]
  constructor
  · intro hm hlock hl
    by_contra hno
    cases hpc : s.pc with
    | displayLock f n =>
      have hf : f ∈ s.pc.displayed := by simp [hpc]
      have hok : f.ok = false := by rw [h.succeeded f (.inr hf)]; simpa using hno
      rw [h.raised hl] at hm
      cases hm f hf hok
    | _ => simp [hpc] at hlock
  · intro hs f hf hok
    have hlock : lockOf s.pc = some .display := by
      cases hpc : s.pc <;> simp [hpc] at hf ⊢
    have hno : p.succeeded = false := (h.succeeded f (.inr hf)).symm.trans hok
    refine Bool.eq_false_iff.mpr fun hp => ?_
    rcases h.held hp with hl | ⟨g, hg, hgok⟩ | hclear
    · rw [hs hlock hl] at hno
      cases hno
    · rw [h.succeeded g hg, hno] at hgok
      cases hgok
    · rw [hlock] at hclear
      cases hclear

/-- The condition on the displays, by the events alone. -/
theorem missed_iff_spared {s t : Sys} {es : List Ev} (h : Fresh s)
    (hr : run step s es = some t) (hc : Along step Cancels s es) :
    Along step Missed s es ↔ Spared .start es := by
  suffices hgen : ∀ {s p}, NoTear.Inv s → Told s p → run step s es = some t →
      Along step Cancels s es → (Along step Missed s es ↔ Spared p es) from
    hgen (NoTear.inv_fresh h) (told_fresh h) hr hc
  clear h hr hc s
  induction es with
  | nil => exact fun _ _ _ _ => iff_of_true trivial trivial
  | cons e es ih =>
    intro s p hv hp hr hc
    obtain ⟨u, hu, hr⟩ := Option.bind_eq_some_iff.mp hr
    obtain ⟨hcu, hc⟩ := hc u hu
    have hst := move_of_step hu
    rw [along_cons_some hu, Spared, hp.missed_iff,
      ih (NoTear.inv_move hv hst) (told_move hp hv hcu hst) hr hc]

/-- A clear lands between two decodes. -/
def Between (s : Sys) (e : Ev) (_ : Sys) : Prop := e.isClear = true → s.thread = .idle

/-- A failed decode's display finds the flag set only after a clear has landed in a decode. -/
theorem missed_of_between {s : Sys} {es : List Ev} (h : Fresh s)
    (hb : Along step Between s es) : Along step Missed s es := by
  -- no decode is ever overtaken, so none leaves the flag up
  have hkeeps : KeepsIf step Between fun s => NoTear.Inv s ∧
      ∃ p, Told s p ∧ p.overtaken = false ∧ p.left = false := by
    rintro s e t ⟨hv, p, hp, ho, hl⟩ hc hst
    have hmove := move_of_step hst
    have hcancels : Cancels s e t := fun hk => hc (by cases e <;> simp_all)
    refine ⟨NoTear.inv_move hv hmove, p.next e, told_move hp hv hcancels hmove, ?_, ?_⟩
    · cases e with
      | clear n keep =>
        have hidle : p.decoding = false := by simpa [hc rfl] using hp.decoding
        simp [Past.next, ho, hidle]
      | finish ok => cases ok <;> exact ho
      | begin => rfl
      | _ => exact ho
    · cases e with
      | finish ok => cases ok <;> exact hl
      | commit | main => simp [Past.next, ho, hl]
      | _ => exact hl
  refine hkeeps.along (fun s e t hI _ _ => ?_)
    ⟨NoTear.inv_fresh h, _, told_fresh h, rfl, rfl⟩ hb
  obtain ⟨-, p, hp, -, hl⟩ := hI
  exact hp.missed_iff.mpr fun _ _ hleft => by rw [hl] at hleft; cases hleft

end SendspinMc.Current
