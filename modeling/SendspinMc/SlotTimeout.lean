import SendspinMc.Acks

/-!
The timeout of a slot, which names a transition that is never acknowledged.

`on_display_` sets it whenever it arms a transition, and nothing ever cancels it: when it fires it
looks at the flag. That setting it again replaces it, and that it fires once, is up to the scheduler
of ESPHome. The notes of a slot say when its transition was armed, when it ended and when the
timeout warned.
-/

namespace SendspinMc.SlotTimeout

open SendspinMc.ImageSlot SendspinMc.SlotHub SendspinMc.Acks SendspinMc.Lib.History
  SendspinMc.Lib.Runs

/-- `TRANSITION_ACK_WARNING_MS`. -/
def warningMs : ℕ := 10000

inductive Note
  | armed (time : ℕ)
  | ended
  | warned (time : ℕ)
  deriving DecidableEq

/-- Since when the transition is waited for, of notes with the newest first. -/
def waiting : List Note → Option ℕ
  | [] => none
  | .armed a :: _ => some a
  | .ended :: _ => none
  | .warned _ :: t => waiting t

/-- The timeout has warned about the transition that was armed last. -/
def warnedOf : List Note → Bool
  | [] => false
  | .armed _ :: _ => false
  | .ended :: t => warnedOf t
  | .warned _ :: _ => true

/-- A warning is about a transition that has been waited for that long, and is the first. -/
def Due : Note → List Note → Prop
  | .warned now, t => (∃ a ∈ waiting t, a + warningMs ≤ now) ∧ warnedOf t = false
  | _, _ => True

/-! ### The scheduler -/

/-- ESPHome's scheduler, as far as the slots use it. -/
structure Scheduler (ι σ : Type*) where
  /-- `set_timeout` of a slot, at this time and after so many milliseconds. -/
  setTimeout : σ → ι → ℕ → ℕ → σ
  /-- The timeouts that fire at a time, and what is left. -/
  call : σ → ℕ → (ι → Bool) × σ

/-- What is documented of it, by the time that each timeout is due at. -/
structure Scheduler.Documented {ι σ : Type*} [DecidableEq ι] (S : Scheduler ι σ)
    (due : σ → ι → Option ℕ) : Prop where
  /-- A timeout that is set again is replaced, and no other is. -/
  replaces : ∀ s i now ms j,
    due (S.setTimeout s i now ms) j = if j = i then some (now + ms) else due s j
  /-- A timeout fires when it is due, -/
  fires : ∀ s now i, (S.call s now).1 i = (due s i).any (· ≤ now)
  /-- and then not again. -/
  once : ∀ s now i, due (S.call s now).2 i = (due s i).filter fun d => now < d

/-- The slots of a hub beside the scheduler. -/
structure State (ι σ : Type*) where
  world : World ι
  now : ℕ
  timers : σ
  notes : ι → List Note

variable {ι σ : Type*} [DecidableEq ι] {S : Scheduler ι σ} {due : σ → ι → Option ℕ}

/-- `on_display_` of the slot runs for this event and arms its transition. -/
def arms (w : World ι) (i : ι) : SlotHub.Ev ι → Bool
  | .display n _ =>
    w.number i = n && (w.slots i).framePending && (w.slots i).transitionImage.isSome
  | _ => false

/-- The slots that arm set their timeouts. -/
def State.setTimeouts (S : Scheduler ι σ) (s : State ι σ) (set : ι → Bool) : State ι σ :=
  { s with
    timers := (s.world.registered.filter set).foldl
      (fun t i => S.setTimeout t i s.now warningMs) s.timers
    notes := fun i => if set i then .armed s.now :: s.notes i else s.notes i }

/-- What the handlers of an event leave: a transition that is no longer pending has ended. -/
def State.leave (s : State ι σ) (v : World ι) : State ι σ :=
  { s with
    world := v
    notes := fun i =>
      if (waiting (s.notes i)).isSome && !v.pending i then .ended :: s.notes i else s.notes i }

/-- The scheduler runs the timeouts that are due: each looks at the flag of its slot. -/
def State.runTimeouts (S : Scheduler ι σ) (s : State ι σ) : State ι σ :=
  { s with
    timers := (S.call s.timers s.now).2
    notes := fun i =>
      if (S.call s.timers s.now).1 i && s.world.pending i then .warned s.now :: s.notes i
      else s.notes i }

inductive Ev (ι : Type*)
  | hub (e : SlotHub.Ev ι)
  | wait (ms : ℕ)
  | loop

def step (S : Scheduler ι σ) (s : State ι σ) : Ev ι → Option (State ι σ)
  | .hub e => (SlotHub.step s.world e).map fun v =>
      (s.setTimeouts S fun i => arms s.world i e).leave v
  | .wait ms => some { s with now := s.now + ms }
  | .loop => some (s.runTimeouts S)

structure Fresh (due : σ → ι → Option ℕ) (s : State ι σ) : Prop where
  world : SlotHub.Fresh s.world
  timers : ∀ i, due s.timers i = none
  notes : ∀ i, s.notes i = []

abbrev Reachable (S : Scheduler ι σ) (due : σ → ι → Option ℕ) : State ι σ → Prop :=
  Reach (step S) (Fresh due)

lemma Scheduler.Documented.foldl (hS : S.Documented due) (l : List ι) (t : σ) (now ms : ℕ) (i : ι) :
    due (l.foldl (fun t i => S.setTimeout t i now ms) t) i =
      if i ∈ l then some (now + ms) else due t i := by
  induction l generalizing t with
  | nil => simp
  | cons j l ih =>
    rw [List.foldl_cons, ih, hS.replaces]
    by_cases hij : i = j <;> simp [hij]

lemma Scheduler.Documented.setTimeouts (hS : S.Documented due) {s : State ι σ}
    (hr : ∀ i, i ∈ s.world.registered) (set : ι → Bool) (i : ι) :
    due (s.setTimeouts S set).timers i =
      if set i then some (s.now + warningMs) else due s.timers i := by
  rw [State.setTimeouts, hS.foldl]
  simp [hr i]

/-! ### What raises the flag -/

lemma pending_finishedSlot {s : Slot} (h : (finishedSlot s).transitionPending = true) :
    s.transitionPending = true := by
  unfold finishedSlot at h
  split at h
  · assumption
  · exact h

lemma pending_display {w v : World ι} {i : ι} {calls : List ι} (h : Inv none w)
    (hs : SlotHub.step w (.display (w.number i) calls) = some v) (hp : v.pending i = true) :
    w.pending i = true ∨ arms w i (.display (w.number i) calls) = true := by
  have himg := (inv_step h hs).image i hp
  rw [(fixed_step hs).image i] at himg
  cases hf : (w.slots i).framePending with
  | true => exact .inr (by simp [arms, hf, himg])
  | false =>
    obtain ⟨-, rfl⟩ := display_some hs
    rw [onImageDisplay_deliver h, onDisplay_miss (w := w.deliver (w.number i)) calls hf] at hp
    exact .inl (by simpa [World.pending] using hp)

lemma pending_step {w v : World ι} {e : SlotHub.Ev ι} {i : ι} (h : Inv none w)
    (hs : SlotHub.step w e = some v) (hp : v.pending i = true) :
    w.pending i = true ∨ arms w i e = true := by
  by_cases ha : e.about w i
  · cases e with
    | decoded j =>
      obtain rfl : j = i := ha
      obtain rfl := Option.some.inj hs
      exact .inl (by simpa [World.pending] using hp)
    | display n calls =>
      obtain rfl : w.number i = n := ha
      exact pending_display h hs hp
    | clear n calls =>
      obtain rfl : w.number i = n := ha
      rw [(settles_clear h hs).1] at hp
      cases hp
    | transitionFinished j => exact ha.elim
  · rcases step_slots_ne h hs ha with he | ⟨-, he⟩
    · exact .inl (by rwa [World.pending, he] at hp)
    · exact .inl (pending_finishedSlot (by rwa [World.pending, he] at hp))

/-! ### The notes of a slot -/

/-- One slot, its timeout and its notes. -/
structure Fits (now : ℕ) (pending : Bool) (timeout : Option ℕ) (notes : List Note) : Prop where
  waits : (waiting notes).isSome = pending
  justified : Justified Due notes
  past : ∀ a, .warned a ∈ notes → a ≤ now
  /-- A timeout that finds its slot pending was set for the transition that is. -/
  due : ∀ due ∈ timeout, ∀ a ∈ waiting notes, due = a + warningMs ∧ warnedOf notes = false
  /-- A transition that is waited for has been warned about, or will be. -/
  armed : ∀ a ∈ waiting notes, warnedOf notes = true ∨ timeout = some (a + warningMs)

lemma Fits.wait {now : ℕ} {p : Bool} {o : Option ℕ} {l : List Note} (h : Fits now p o l)
    (ms : ℕ) : Fits (now + ms) p o l :=
  ⟨h.waits, h.justified, fun a ha => Nat.le_add_right_of_le (h.past a ha), h.due, h.armed⟩

lemma Fits.arm {now : ℕ} {p : Bool} {o : Option ℕ} {l : List Note} (h : Fits now p o l) :
    Fits now true (some (now + warningMs)) (.armed now :: l) := by
  refine ⟨rfl, h.justified.cons trivial, fun a ha => h.past a (by simpa using ha), ?_, ?_⟩
  · rintro due hd a ha
    obtain rfl : now + warningMs = due := by simpa using hd
    obtain rfl : now = a := by simpa [waiting] using ha
    exact ⟨rfl, rfl⟩
  · rintro a ha
    obtain rfl : now = a := by simpa [waiting] using ha
    exact .inr rfl

lemma Fits.end {now : ℕ} {p : Bool} {o : Option ℕ} {l : List Note} (h : Fits now p o l) :
    Fits now false o (.ended :: l) :=
  ⟨rfl, h.justified.cons trivial, fun a ha => h.past a (by simpa using ha),
    fun _ _ _ ha => by simp [waiting] at ha, fun _ ha => by simp [waiting] at ha⟩

lemma Fits.leave {now : ℕ} {p q : Bool} {o : Option ℕ} {l : List Note} (h : Fits now p o l)
    (hq : q = true → p = true) :
    Fits now q o (if (waiting l).isSome && !q then .ended :: l else l) := by
  rw [h.waits]
  cases p <;> cases q
  · exact h
  · simp at hq
  · exact h.end
  · exact h

lemma Fits.run {now : ℕ} {p : Bool} {o : Option ℕ} {l : List Note} (h : Fits now p o l) :
    Fits now p (o.filter fun due => now < due)
      (if o.any (· ≤ now) && p then .warned now :: l else l) := by
  cases o with
  | none => exact h
  | some due =>
    by_cases hd : due ≤ now
    · -- the timeout fires, and warns if the slot is pending
      cases p with
      | false =>
        have hw : waiting l = none := by simpa using h.waits
        simp only [Option.any_some, hd, decide_true, Bool.and_false, Bool.false_eq_true, if_false]
        exact ⟨h.waits, h.justified, h.past, by simp [hw], by simp [hw]⟩
      | true =>
        obtain ⟨a, ha⟩ := Option.isSome_iff_exists.mp h.waits
        obtain ⟨rfl, hno⟩ := h.due due rfl a ha
        simp only [Option.any_some, hd, decide_true, Bool.and_true, if_true]
        refine ⟨h.waits, h.justified.cons ⟨⟨a, ha, hd⟩, hno⟩, fun b hb => ?_, ?_, ?_⟩
        · rcases List.mem_cons.mp hb with hb | hb
          · obtain rfl := Note.warned.inj hb
            exact le_rfl
          · exact h.past b hb
        · simp [Nat.not_lt.mpr hd]
        · exact fun _ _ => .inl rfl
    · have hlt : now < due := Nat.lt_of_not_le hd
      simp only [Option.any_some, hd, decide_false, Bool.false_and, Bool.false_eq_true, if_false]
      simpa [Option.filter, hlt] using h

structure Good (due : σ → ι → Option ℕ) (s : State ι σ) : Prop where
  world : Inv none s.world
  fits : ∀ i, Fits s.now (s.world.pending i) (due s.timers i) (s.notes i)

lemma good_fresh {s : State ι σ} (h : Fresh due s) : Good due s := by
  refine ⟨inv_fresh h.world, fun i => ?_⟩
  obtain ⟨n, a, c, hs⟩ := h.world.slots i
  have hp : s.world.pending i = false := (setup_ok hs).2.2.2.1
  rw [h.timers, h.notes, hp]
  exact ⟨rfl, justified_nil, by simp, by simp, by simp [waiting]⟩

lemma good_step (hS : S.Documented due) {s t : State ι σ} {e : Ev ι} (h : Good due s)
    (hs : step S s e = some t) : Good due t := by
  cases e with
  | wait ms =>
    obtain rfl := Option.some.inj hs
    exact ⟨h.world, fun i => (h.fits i).wait ms⟩
  | loop =>
    obtain rfl := Option.some.inj hs
    refine ⟨h.world, fun i => ?_⟩
    have hrun := (h.fits i).run
    rw [← hS.fires, ← hS.once] at hrun
    exact hrun
  | hub e =>
    obtain ⟨v, hv, rfl⟩ := Option.map_eq_some_iff.mp hs
    refine ⟨inv_step h.world hv, fun i => ?_⟩
    have hset := hS.setTimeouts h.world.registered.2 (fun i => arms s.world i e) i
    change Fits s.now (v.pending i) (due (s.setTimeouts S fun i => arms s.world i e).timers i)
      (if _ then _ else _)
    rw [hset]
    cases ha : arms s.world i e with
    | true =>
      have hleft := (h.fits i).arm.leave (q := v.pending i) fun _ => rfl
      simpa [State.setTimeouts, ha] using hleft
    | false =>
      have hkept := (h.fits i).leave (q := v.pending i) fun hp =>
        (pending_step h.world hv hp).resolve_right (by simp [ha])
      simpa [State.setTimeouts, ha] using hkept

theorem good_reachable (hS : S.Documented due) {s : State ι σ} (h : Reachable S due s) :
    Good due s :=
  Keeps.reach (fun _ _ _ hi hst => good_step hS hi hst) (fun _ => good_fresh) h

lemma warned_after {l : List Note} {a : ℕ} (h : Justified Due l) (ha : a ∈ waiting l)
    (hw : warnedOf l = true) : ∃ now, .warned now ∈ l ∧ a + warningMs ≤ now := by
  cases l with
  | nil => cases hw
  | cons n l =>
    cases n with
    | armed b => cases hw
    | ended => simp [waiting] at ha
    | warned now =>
      obtain ⟨⟨⟨b, hb, hle⟩, -⟩, -⟩ := justified_cons.mp h
      obtain rfl : a = b := Option.some.inj (ha.symm.trans hb)
      exact ⟨now, by simp, hle⟩

/-- **The warning is exact**: with a scheduler that does as documented, each warning is about the
transition its slot waits for at that time, is its first, and comes ten seconds or more after its
display; and whenever the scheduler has run, a transition that is waited for has been warned about
if and only if it has been waited for that long, whatever was acknowledged and superseded before
it. -/
theorem warned_exactly (hS : S.Documented due) {s : State ι σ} (h : Reachable S due s) (i : ι) :
    (waiting (s.notes i)).isSome = s.world.pending i ∧ Justified Due (s.notes i) ∧
      ∀ t, step S s .loop = some t → ∀ a ∈ waiting (t.notes i),
        (warnedOf (t.notes i) = true ↔ a + warningMs ≤ t.now) := by
  have hg := good_reachable hS h
  refine ⟨(hg.fits i).waits, (hg.fits i).justified, fun t ht a ha => ?_⟩
  have hf := (good_step hS hg ht).fits i
  constructor
  · intro hw
    obtain ⟨now, hmem, hle⟩ := warned_after hf.justified ha hw
    exact hle.trans (hf.past now hmem)
  · intro hle
    refine (hf.armed a ha).resolve_right fun hdue => ?_
    -- what the scheduler leaves is not due yet
    obtain rfl := Option.some.inj ht
    change due (S.call s.timers s.now).2 i = _ at hdue
    rw [hS.once] at hdue
    have hlt : s.now < a + warningMs := by
      simpa using (Option.filter_eq_some_iff.mp hdue).2
    exact absurd hle (Nat.not_le.mpr hlt)

/-- A transition acknowledged after six seconds, and the next, which never is. -/
def superseded : List (Ev Panel) :=
  [.hub (.decoded .large), .hub (.display 0 []), .wait 6000, .hub (.transitionFinished .large),
    .hub (.decoded .large), .hub (.display 0 []), .wait 5000, .loop, .wait 5000]

/-- A scheduler that holds the time each timeout is due at. -/
def timetable (ι : Type*) [DecidableEq ι] : Scheduler ι (ι → Option ℕ) where
  setTimeout t i now ms := Function.update t i (some (now + ms))
  call t now := (fun i => (t i).any (· ≤ now), fun i => (t i).filter fun d => now < d)

lemma timetable_documented : (timetable ι).Documented fun t => t where
  replaces t i now ms j := Function.update_apply t i (some (now + ms)) j
  fires _ _ _ := rfl
  once _ _ _ := rfl

/-- The hub of two slots with its clock at zero. -/
def twoTimed : State Panel (Panel → Option ℕ) := ⟨twoSlots, 0, fun _ => none, fun _ => []⟩

theorem warned_exactly_superseded :
    ∃ s t, run (step (timetable Panel)) twoTimed superseded = some s ∧
      step (timetable Panel) s .loop = some t ∧
      s.notes .large = [.armed 6000, .ended, .armed 0] ∧
      t.notes .large = [.warned 16000, .armed 6000, .ended, .armed 0] ∧
      Justified Due (t.notes .large) :=
  ⟨_, _, rfl, rfl, by decide, by decide,
    (warned_exactly timetable_documented (s := _)
      ⟨twoTimed, ⟨fresh_twoSlots, fun _ => rfl, fun _ => rfl⟩, superseded ++ [.loop], rfl⟩
      .large).2.1⟩

end SendspinMc.SlotTimeout
