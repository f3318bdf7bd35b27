import SendspinMc.ImageSlot
import SendspinMc.Lib.Runs
import Mathlib.Logic.Function.Basic

/-!
One artwork slot under the library's frame gate: the decode thread's `on_decode_` interleaved
with the main loop's `on_display_`, `on_clear_` and `transition_finished`.

The main loop runs one handler at a time, one piece a step; the decode thread may move between
any two of them. An automation is the number of times it calls `transition_finished` before
it returns; a call made later is an event of its own.
-/

namespace SendspinMc.SlotMachine

open SendspinMc.ImageSlot SendspinMc.Lib.Runs

/-- What a buffer holds: black, or the paint of the decode that wrote it last. -/
inductive Content
  | black
  | part (d : ℕ)
  | full (d : ℕ)
  deriving DecidableEq

/-- A frame whose `on_decode_` has returned, by the number of its decode. -/
structure Frame where
  id : ℕ
  ok : Bool
  deriving DecidableEq

/-- Where `on_decode_` stands: before the first lock, writing its target, or done decoding
and before the second lock. -/
inductive Thread
  | idle
  | entered (d : ℕ)
  | writing (d : ℕ) (p : Ptr)
  | decoded (d : ℕ) (p : Ptr)
  deriving DecidableEq

/-- The buffer the running decode has picked. -/
@[simp] def Thread.target : Thread → Option Ptr
  | .writing _ p | .decoded _ p => some p
  | _ => none

/-- The handler whose automation runs. -/
inductive Tail
  | display | clear
  deriving DecidableEq

/-- The piece of a handler the main loop runs next. -/
inductive Pc
  | idle
  | displayLock (f : Frame) (calls : ℕ)
  | publish (calls : ℕ)
  | arm (calls : ℕ)
  | call (t : Tail) (calls : ℕ)
  | callAck (t : Tail) (calls : ℕ)
  | clearLock (calls : ℕ)
  | clearViews (calls : ℕ)
  | ack
  deriving DecidableEq

/-- The frame `on_display_` is about to take. -/
@[simp] def Pc.displayed : Pc → Option Frame
  | .displayLock f _ => some f
  | _ => none

structure Sys where
  slot : Slot
  pc : Pc
  thread : Thread
  /-- The frame of the running decode is still to be displayed. -/
  live : Bool
  awaiting : Option Frame
  /-- A delivery waits for `artwork_frame_done`. -/
  owes : Bool
  mem : Ptr → Content
  decodes : ℕ
  /-- The decodes begun before the last clear. -/
  cleared : ℕ

/-- A slot as `setup` leaves it: both buffers black, nothing delivered yet. -/
def Sys.start (slot : Slot) : Sys where
  slot := slot
  pc := .idle
  thread := .idle
  live := false
  awaiting := none
  owes := false
  mem := fun _ => .black
  decodes := 0
  cleared := 0

def Fresh (s : Sys) : Prop := ∃ n a c slot, setup n a c = some slot ∧ s = .start slot

/-- The gate lets a decode start: the last one has returned, its frame was displayed or
dropped, and every delivery was acked. -/
def Sys.mayBegin (s : Sys) : Bool := s.thread = .idle && s.awaiting.isNone && !s.owes

inductive Ev
  | begin
  | pick
  | paint
  | finish (ok : Bool)
  | commit
  | display (calls : ℕ)
  | clear (calls : ℕ) (keep : Bool)
  | transitionFinished
  | main
  deriving DecidableEq

@[simp] def Ev.isClear : Ev → Bool
  | .clear _ _ => true
  | _ => false

/-- A clear that leaves a frame decoded before it, or being decoded, to be displayed. -/
@[simp] def Ev.keeps : Ev → Bool
  | .clear _ keep => keep
  | _ => false

/-- The frame of a decode that returns, if no clear dropped it. -/
def Sys.returned (s : Sys) (d : ℕ) (ok : Bool) : Option Frame :=
  if s.live then some ⟨d, ok⟩ else none

/-- The next piece of the running handler. -/
def mainStep (s : Sys) : Option Sys :=
  match s.pc with
  | .idle => none
  | .displayLock _ n =>
    let (ready, slot) := s.slot.takePending
    some { s with slot := slot, pc := if ready then .publish n else .ack }
  | .publish n => some { s with slot := s.slot.publish, pc := .arm n }
  | .arm n => some { s with slot := s.slot.arm, pc := .call .display n }
  | .call t (n + 1) =>
    if s.slot.transitionPending then some { s with slot := s.slot.settle, pc := .callAck t n }
    else some { s with pc := .call t n }
  | .call .display 0 =>
    if s.slot.transitionImage.isNone then some { s with slot := s.slot.settle, pc := .ack }
    else some { s with pc := .idle }
  | .call .clear 0 => some { s with pc := .ack }
  | .callAck t n => some { s with owes := false, pc := .call t n }
  | .clearLock n => some { s with slot := s.slot.dropPending, pc := .clearViews n }
  | .clearViews n => some { s with slot := s.slot.clearViews, pc := .call .clear n }
  | .ack => some { s with owes := false, pc := .idle }

/-- One step of the slot, its decode thread or the library. -/
def step (s : Sys) : Ev → Option Sys
  | .begin =>
    if s.mayBegin then
      some { s with thread := .entered s.decodes, live := true, decodes := s.decodes + 1 }
    else none
  | .pick =>
    match s.thread with
    | .entered d => some { s with thread := .writing d s.slot.target }
    | _ => none
  | .paint =>
    match s.thread with
    | .writing d p => some { s with mem := Function.update s.mem p (.part d) }
    | _ => none
  | .finish ok =>
    match s.thread with
    | .writing d p =>
      if ok then some { s with thread := .decoded d p, mem := Function.update s.mem p (.full d) }
      else some { s with thread := .idle, awaiting := s.returned d false }
    | _ => none
  | .commit =>
    match s.thread with
    | .decoded d _ =>
      some { s with slot := s.slot.markPending, thread := .idle, awaiting := s.returned d true }
    | _ => none
  | .display n =>
    match s.pc, s.awaiting with
    | .idle, some f => some { s with pc := .displayLock f n, awaiting := none, owes := true }
    | _, _ => none
  | .clear n keep =>
    match s.pc with
    | .idle =>
      some
        { s with
          pc := .clearLock n
          live := s.live && keep
          awaiting := if keep then s.awaiting else none
          owes := true
          cleared := s.decodes }
    | _ => none
  | .transitionFinished =>
    match s.pc with
    | .idle =>
      if s.slot.transitionPending then some { s with slot := s.slot.settle, pc := .ack }
      else some s
    | _ => none
  | .main => mainStep s

abbrev Reachable : Sys → Prop := Reach step Fresh

/-- A slot with a transition image, over the blocks at `0` and `1`. -/
def sample : Sys :=
  .start (Config.slotOver ⟨0, ⟨none, 0, 0, false⟩, some ⟨none, 0, 0, false⟩, 2, 2⟩
    ⟨![0, 1], Nat.zero_ne_one⟩)

lemma fresh_sample : Fresh sample :=
  ⟨4, ⟨some 0, some 1, by simp⟩, _, _, rfl, rfl⟩

/-! ### What a step can do -/

/-- One piece of a main loop handler, by the place it starts from. -/
inductive Piece (s : Sys) : Sys → Prop
  | swap (f : Frame) (n : ℕ) (hpc : s.pc = .displayLock f n) (hf : s.slot.framePending = true) :
      Piece s { s with slot := s.slot.swap, pc := .publish n }
  | miss (f : Frame) (n : ℕ) (hpc : s.pc = .displayLock f n) (hf : s.slot.framePending = false) :
      Piece s { s with pc := .ack }
  | publish (n : ℕ) (hpc : s.pc = .publish n) :
      Piece s { s with slot := s.slot.publish, pc := .arm n }
  | arm (n : ℕ) (hpc : s.pc = .arm n) :
      Piece s { s with slot := s.slot.arm, pc := .call .display n }
  | finish (t : Tail) (n : ℕ) (hpc : s.pc = .call t (n + 1))
      (hp : s.slot.transitionPending = true) :
      Piece s { s with slot := s.slot.settle, pc := .callAck t n }
  | stray (t : Tail) (n : ℕ) (hpc : s.pc = .call t (n + 1))
      (hp : s.slot.transitionPending = false) :
      Piece s { s with pc := .call t n }
  | displayDone (hpc : s.pc = .call .display 0) (hi : s.slot.transitionImage.isSome = false) :
      Piece s { s with slot := s.slot.settle, pc := .ack }
  | displayLeft (hpc : s.pc = .call .display 0) (hi : s.slot.transitionImage.isSome = true) :
      Piece s { s with pc := .idle }
  | clearDone (hpc : s.pc = .call .clear 0) : Piece s { s with pc := .ack }
  | callAck (t : Tail) (n : ℕ) (hpc : s.pc = .callAck t n) :
      Piece s { s with owes := false, pc := .call t n }
  | clearLock (n : ℕ) (hpc : s.pc = .clearLock n) :
      Piece s { s with slot := s.slot.dropPending, pc := .clearViews n }
  | clearViews (n : ℕ) (hpc : s.pc = .clearViews n) :
      Piece s { s with slot := s.slot.clearViews, pc := .call .clear n }
  | ack (hpc : s.pc = .ack) : Piece s { s with owes := false, pc := .idle }

/-- One step, by its event. -/
inductive Move (s : Sys) : Ev → Sys → Prop
  | begin (h : s.mayBegin = true) :
      Move s .begin { s with thread := .entered s.decodes, live := true, decodes := s.decodes + 1 }
  | pick (d : ℕ) (h : s.thread = .entered d) :
      Move s .pick { s with thread := .writing d s.slot.target }
  | paint (d : ℕ) (p : Ptr) (h : s.thread = .writing d p) :
      Move s .paint { s with mem := Function.update s.mem p (.part d) }
  | done (d : ℕ) (p : Ptr) (h : s.thread = .writing d p) :
      Move s (.finish true)
        { s with thread := .decoded d p, mem := Function.update s.mem p (.full d) }
  | fail (d : ℕ) (p : Ptr) (h : s.thread = .writing d p) :
      Move s (.finish false) { s with thread := .idle, awaiting := s.returned d false }
  | commit (d : ℕ) (p : Ptr) (h : s.thread = .decoded d p) :
      Move s .commit
        { s with slot := s.slot.markPending, thread := .idle, awaiting := s.returned d true }
  | display (f : Frame) (n : ℕ) (hpc : s.pc = .idle) (hf : s.awaiting = some f) :
      Move s (.display n) { s with pc := .displayLock f n, awaiting := none, owes := true }
  | clear (n : ℕ) (keep : Bool) (hpc : s.pc = .idle) :
      Move s (.clear n keep)
        { s with
          pc := .clearLock n
          live := s.live && keep
          awaiting := if keep then s.awaiting else none
          owes := true
          cleared := s.decodes }
  | late (hpc : s.pc = .idle) (hp : s.slot.transitionPending = true) :
      Move s .transitionFinished { s with slot := s.slot.settle, pc := .ack }
  | strayLate (hpc : s.pc = .idle) (hp : s.slot.transitionPending = false) :
      Move s .transitionFinished s
  | main {t : Sys} (h : Piece s t) : Move s .main t

lemma piece_of_mainStep {s t : Sys} (h : mainStep s = some t) : Piece s t := by
  unfold mainStep at h
  split at h
  case h_1 => cases h
  case h_2 f n hpc =>
    rw [takePending_eq] at h
    by_cases hf : s.slot.framePending
    · obtain rfl : _ = t := by simpa [hf] using h
      exact .swap f n hpc hf
    · obtain rfl : _ = t := by simpa [hf] using h
      exact .miss f n hpc (by simpa using hf)
  case h_3 n hpc => cases h; exact .publish n hpc
  case h_4 n hpc => cases h; exact .arm n hpc
  case h_5 c n hpc =>
    split at h
    · cases h; exact .finish c n hpc ‹_›
    · cases h; exact .stray c n hpc (Bool.eq_false_iff.mpr ‹_›)
  case h_6 hpc =>
    split at h
    · cases h; exact .displayDone hpc (by simpa using
        ‹s.slot.transitionImage.isNone = true›)
    · cases h; exact .displayLeft hpc (by simpa [Option.isSome_iff_ne_none] using
        ‹¬ s.slot.transitionImage.isNone = true›)
  case h_7 hpc => cases h; exact .clearDone hpc
  case h_8 c n hpc => cases h; exact .callAck c n hpc
  case h_9 n hpc => cases h; exact .clearLock n hpc
  case h_10 n hpc => cases h; exact .clearViews n hpc
  case h_11 hpc => cases h; exact .ack hpc

theorem move_of_step {s t : Sys} {e : Ev} (h : step s e = some t) : Move s e t := by
  cases e with
  | begin =>
    simp only [step] at h
    split at h
    · cases h; exact .begin ‹_›
    · cases h
  | pick =>
    simp only [step] at h
    split at h
    · cases h; exact .pick _ ‹_›
    · cases h
  | paint =>
    simp only [step] at h
    split at h
    · cases h; exact .paint _ _ ‹_›
    · cases h
  | finish ok =>
    simp only [step] at h
    split at h
    · cases ok with
      | true => cases h; exact .done _ _ ‹_›
      | false => cases h; exact .fail _ _ ‹_›
    · cases h
  | commit =>
    simp only [step] at h
    split at h
    · cases h; exact .commit _ _ ‹_›
    · cases h
  | display n =>
    simp only [step] at h
    split at h
    · cases h; exact .display _ n ‹_› ‹_›
    · cases h
  | clear n keep =>
    simp only [step] at h
    split at h
    · cases h; exact .clear n keep ‹_›
    · cases h
  | transitionFinished =>
    simp only [step] at h
    split at h
    · split at h
      · cases h; exact .late ‹_› ‹_›
      · cases h; exact .strayLate ‹_› (Bool.eq_false_iff.mpr ‹_›)
    · cases h
  | main => exact .main (piece_of_mainStep h)

end SendspinMc.SlotMachine
