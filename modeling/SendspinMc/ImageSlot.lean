import Mathlib.Data.Fin.VecNotation
import Mathlib.Data.Fintype.Basic
import Mathlib.Tactic.FinCases

/-!
An artwork slot: the two frame buffers, the views it publishes them through, and the pieces
its handlers are made of.

The decode thread shares only `currentIndex` and `framePending` with the main loop. A piece
below ends where the source leaves its lock, runs an automation or acks a delivery, so the
handlers and their interleavings are sequences of pieces.
-/

namespace SendspinMc.ImageSlot

/-- A frame buffer, by its address. -/
abbrev Ptr := ℕ

/-- The two frame buffers. `setup` allocates them and nothing frees them. -/
structure Buffers where
  ptr : Fin 2 → Ptr
  ne : ptr 0 ≠ ptr 1

lemma flip_ne (i : Fin 2) : i ^^^ 1 ≠ i := by revert i; decide

lemma Buffers.ptr_flip_ne (b : Buffers) (i : Fin 2) : b.ptr (i ^^^ 1) ≠ b.ptr i := by
  have h := b.ne
  fin_cases i
  · exact h.symm
  · exact h

/-- A view over a frame: `ArtworkImageView`, whose `data` is null until `setup`. -/
structure View where
  data : Option Ptr
  width : ℤ
  height : ℤ
  showing : Bool

def View.setFrame (v : View) (p : Ptr) (width height : ℤ) : View :=
  { v with data := some p, width := width, height := height }

def View.setShowingArtwork (v : View) (showing : Bool) : View := { v with showing := showing }

/-- A slot whose `setup` succeeded. -/
structure Slot where
  buffers : Buffers
  currentIndex : Fin 2
  framePending : Bool
  showingArtwork : Bool
  transitionPending : Bool
  currentImage : View
  transitionImage : Option View
  width : ℤ
  height : ℤ
  slot : UInt8

/-- `buffers_[current_index_]`. -/
def Slot.current (s : Slot) : Ptr := s.buffers.ptr s.currentIndex

/-- `buffers_[current_index_ ^ 1]`: what `on_decode_` picks under the lock. -/
def Slot.target (s : Slot) : Ptr := s.buffers.ptr (s.currentIndex ^^^ 1)

lemma Slot.target_ne (s : Slot) : s.target ≠ s.current := s.buffers.ptr_flip_ne _

/-! ### Setup -/

/-- A slot before `setup`: the constructor's arguments and the optional transition image. -/
structure Config where
  slot : UInt8
  currentImage : View
  transitionImage : Option View
  width : ℤ
  height : ℤ

/-- The answers of the two calls to the allocator: blocks that are live together differ. -/
structure Allocation where
  first : Option Ptr
  second : Option Ptr
  ne : ∀ p q, first = some p → second = some q → p ≠ q

/-- A slot over its buffers, with the values its other members start with. -/
def Config.slotOver (c : Config) (b : Buffers) : Slot where
  buffers := b
  currentIndex := 0
  framePending := false
  showingArtwork := false
  transitionPending := false
  currentImage := c.currentImage.setFrame (b.ptr 0) c.width c.height
  transitionImage := c.transitionImage.map fun v => v.setFrame (b.ptr 0) c.width c.height
  width := c.width
  height := c.height
  slot := c.slot

/-- `setup()`, from the size of a frame and the two allocations; `none` is `mark_failed()`. -/
def setup (frameSize : ℕ) (a : Allocation) (c : Config) : Option Slot :=
  if frameSize = 0 then none
  else
    match h₀ : a.first, h₁ : a.second with
    | some p, some q => some (c.slotOver ⟨![p, q], a.ne p q h₀ h₁⟩)
    | _, _ => none

/-! ### The pieces of the handlers -/

/-- `on_decode_`, second lock: the decoded frame waits for its display. -/
def Slot.markPending (s : Slot) : Slot := { s with framePending := true }

/-- `on_display_`, the lock: takes the pending frame and, if there is one, swaps the buffers. -/
def Slot.takePending (s : Slot) : Bool × Slot :=
  (s.framePending,
    { s with
      framePending := false
      currentIndex := if s.framePending then s.currentIndex ^^^ 1 else s.currentIndex })

/-- What the lock leaves when a frame was pending. -/
def Slot.swap (s : Slot) : Slot :=
  { s with framePending := false, currentIndex := s.currentIndex ^^^ 1 }

/-- `apply_frames_`. -/
def Slot.applyFrames (s : Slot) (transitionIsArtwork : Bool) : Slot :=
  { s with
    currentImage :=
      (s.currentImage.setFrame s.current s.width s.height).setShowingArtwork true
    transitionImage := s.transitionImage.map fun v =>
      (v.setFrame s.target s.width s.height).setShowingArtwork transitionIsArtwork }

/-- `on_display_` once a frame was ready: the outgoing frame's status is read before the
slot's own flag is set. -/
def Slot.publish (s : Slot) : Slot :=
  Slot.applyFrames { s with showingArtwork := true } s.showingArtwork

/-- `on_display_`: arms the transition before the automation runs. -/
def Slot.arm (s : Slot) : Slot := { s with transitionPending := s.transitionImage.isSome }

/-- `finish_transition_` up to its ack. -/
def Slot.settle (s : Slot) : Slot :=
  { s with
    transitionPending := false
    transitionImage := s.transitionImage.map fun v =>
      (v.setFrame s.current s.width s.height).setShowingArtwork s.showingArtwork }

/-- `on_clear_`, the lock: drops a frame that was decoded but never displayed. -/
def Slot.dropPending (s : Slot) : Slot := { s with framePending := false }

/-- `on_clear_` between the lock and the automation. -/
def Slot.clearViews (s : Slot) : Slot :=
  { s with
    currentImage := s.currentImage.setShowingArtwork false
    transitionImage := s.transitionImage.map fun v =>
      (v.setFrame s.current s.width s.height).setShowingArtwork false
    showingArtwork := false
    transitionPending := false }

/-! ### What the views name -/

/-- The current view names `buffers_[current_index_]`. -/
def Slot.CurrentOk (s : Slot) : Prop := s.currentImage.data = some s.current

/-- The transition view, if there is one, names `buffers_[current_index_]` as well. -/
def Slot.Settled (s : Slot) : Prop := ∀ v ∈ s.transitionImage, v.data = some s.current

/-- No view names the buffer the next decode is to write. -/
def Slot.Untorn (s : Slot) : Prop :=
  s.currentImage.data ≠ some s.target ∧ ∀ v ∈ s.transitionImage, v.data ≠ some s.target

lemma Slot.untorn_of_settled {s : Slot} (hc : s.CurrentOk) (hs : s.Settled) : s.Untorn := by
  have hne : some s.current ≠ some s.target := fun h => s.target_ne (Option.some.inj h).symm
  refine ⟨?_, fun v hv => ?_⟩
  · rw [show s.currentImage.data = some s.current from hc]; exact hne
  · rw [hs v hv]; exact hne

/-! ### What each piece leaves in place -/

section Pieces

variable (s : Slot)

@[simp] lemma markPending_target : s.markPending.target = s.target := rfl

@[simp] lemma markPending_currentOk : s.markPending.CurrentOk ↔ s.CurrentOk := Iff.rfl
@[simp] lemma publish_currentOk : s.publish.CurrentOk := rfl
@[simp] lemma arm_currentOk : s.arm.CurrentOk ↔ s.CurrentOk := Iff.rfl
@[simp] lemma settle_currentOk : s.settle.CurrentOk ↔ s.CurrentOk := Iff.rfl
@[simp] lemma dropPending_currentOk : s.dropPending.CurrentOk ↔ s.CurrentOk := Iff.rfl
@[simp] lemma clearViews_currentOk : s.clearViews.CurrentOk ↔ s.CurrentOk := Iff.rfl

@[simp] lemma markPending_settled : s.markPending.Settled ↔ s.Settled := Iff.rfl
@[simp] lemma dropPending_settled : s.dropPending.Settled ↔ s.Settled := Iff.rfl

@[simp] lemma settle_settled : s.settle.Settled := by
  intro v hv
  obtain ⟨u, -, rfl⟩ := Option.mem_map.mp hv
  rfl

@[simp] lemma clearViews_settled : s.clearViews.Settled := by
  intro v hv
  obtain ⟨u, -, rfl⟩ := Option.mem_map.mp hv
  rfl

lemma arm_settled (h : s.arm.transitionPending = false) : s.arm.Settled := by
  intro v hv
  have : s.transitionImage = none := by simpa [Slot.arm] using h
  rw [show s.arm.transitionImage = none from this] at hv
  cases hv

@[simp] lemma markPending_pending : s.markPending.transitionPending = s.transitionPending := rfl
@[simp] lemma arm_pending : s.arm.transitionPending = s.transitionImage.isSome := rfl
@[simp] lemma settle_pending : s.settle.transitionPending = false := rfl
@[simp] lemma clearViews_pending : s.clearViews.transitionPending = false := rfl

@[simp] lemma swap_image : s.swap.transitionImage = s.transitionImage := rfl
@[simp] lemma publish_image :
    s.publish.transitionImage.isSome = s.transitionImage.isSome := Option.isSome_map
@[simp] lemma arm_image : s.arm.transitionImage = s.transitionImage := rfl
@[simp] lemma settle_image :
    s.settle.transitionImage.isSome = s.transitionImage.isSome := Option.isSome_map
@[simp] lemma dropPending_image : s.dropPending.transitionImage = s.transitionImage := rfl
@[simp] lemma clearViews_image :
    s.clearViews.transitionImage.isSome = s.transitionImage.isSome := Option.isSome_map

@[simp] lemma swap_framePending : s.swap.framePending = false := rfl
@[simp] lemma dropPending_framePending : s.dropPending.framePending = false := rfl

@[simp] lemma swap_current : s.swap.current = s.target := rfl

lemma takePending_eq :
    s.takePending = if s.framePending then (true, s.swap) else (false, s) := by
  cases s
  simp only [Slot.takePending, Slot.swap]
  split <;> simp_all

end Pieces

lemma setup_over {n : ℕ} {a : Allocation} {c : Config} {s : Slot} (h : setup n a c = some s) :
    ∃ b, s = c.slotOver b := by
  unfold setup at h
  split at h
  · cases h
  split at h
  · exact ⟨_, (Option.some.inj h).symm⟩
  · cases h

lemma setup_ok {n : ℕ} {a : Allocation} {c : Config} {s : Slot} (h : setup n a c = some s) :
    s.CurrentOk ∧ s.Settled ∧ s.framePending = false ∧ s.transitionPending = false ∧
      s.showingArtwork = false ∧ s.slot = c.slot := by
  obtain ⟨b, rfl⟩ := setup_over h
  refine ⟨rfl, fun v hv => ?_, rfl, rfl, rfl, rfl⟩
  obtain ⟨u, -, rfl⟩ := Option.mem_map.mp hv
  rfl

end SendspinMc.ImageSlot
