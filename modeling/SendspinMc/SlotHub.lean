import SendspinMc.ImageSlot
import SendspinMc.Lib.Ledger
import SendspinMc.Lib.Runs
import Mathlib.Logic.Function.Basic

/-!
The artwork slots of a hub: the callbacks they register, the handlers those run on the main
loop, and the acks that reach the library.

An automation is the list of slots whose `transition_finished` it calls before it returns;
it may name any slot of the hub.
-/

namespace SendspinMc.SlotHub

open SendspinMc.ImageSlot SendspinMc.Lib.Ledger SendspinMc.Lib.Runs

/-- The slots of a hub that set up, and the library's ledger of deliveries and acks by slot
number. -/
structure World (ι : Type*) where
  slots : ι → Slot
  /-- The slots in the order their `setup()` registered the callbacks. -/
  registered : List ι
  /-- `artwork_role_ != nullptr`. -/
  artworkRole : Bool
  log : List (Note UInt8)

variable {ι : Type*} [DecidableEq ι]

/-- The number of a slot, which no handler changes. -/
abbrev World.number (w : World ι) (i : ι) : UInt8 := (w.slots i).slot

/-- The slot waits for `transition_finished`. -/
abbrev World.pending (w : World ι) (i : ι) : Bool := (w.slots i).transitionPending

def World.modify (w : World ι) (i : ι) (f : Slot → Slot) : World ι :=
  { w with slots := Function.update w.slots i (f (w.slots i)) }

/-- `SendspinMcHub::artwork_frame_done`. -/
def World.artworkFrameDone (w : World ι) (n : UInt8) : World ι :=
  if w.artworkRole then { w with log := .acked n :: w.log } else w

/-- `finish_transition_`. -/
def World.finishTransition (w : World ι) (i : ι) : World ι :=
  let w := w.modify i Slot.settle
  w.artworkFrameDone (w.number i)

/-- `transition_finished`. -/
def World.transitionFinished (w : World ι) (i : ι) : World ι :=
  if w.pending i then w.finishTransition i else w

/-- An automation, by the slots it finishes. -/
def World.automation (w : World ι) (calls : List ι) : World ι :=
  calls.foldl World.transitionFinished w

/-- `on_display_`. -/
def World.onDisplay (w : World ι) (i : ι) (calls : List ι) : World ι :=
  let ready := (w.slots i).takePending.1
  let w := w.modify i fun s => s.takePending.2
  if ready then
    let w := (w.modify i Slot.publish).modify i Slot.arm
    let w := w.automation calls
    if (w.slots i).transitionImage.isNone then w.finishTransition i else w
  else w.artworkFrameDone (w.number i)

/-- `on_clear_`. -/
def World.onClear (w : World ι) (i : ι) (calls : List ι) : World ι :=
  let w := (w.modify i Slot.dropPending).modify i Slot.clearViews
  let w := w.automation calls
  w.artworkFrameDone (w.number i)

/-- The callbacks registered in `setup()`: each slot filters by its own number. -/
def World.fanOut (w : World ι) (n : UInt8) (f : World ι → ι → World ι) : World ι :=
  w.registered.foldl (fun w i => if w.number i = n then f w i else w) w

/-- `SendspinMcHub::on_image_display`. -/
def World.onImageDisplay (w : World ι) (n : UInt8) (calls : List ι) : World ι :=
  w.fanOut n fun w i => w.onDisplay i calls

/-- `SendspinMcHub::on_image_clear`. -/
def World.onImageClear (w : World ι) (n : UInt8) (calls : List ι) : World ι :=
  w.fanOut n fun w i => w.onClear i calls

inductive Ev (ι : Type*)
  | decoded (i : ι)
  | display (n : UInt8) (calls : List ι)
  | clear (n : UInt8) (calls : List ι)
  | transitionFinished (i : ι)

/-- The slots an event is for. -/
def Ev.about (w : World ι) : Ev ι → ι → Prop
  | .decoded i, j => i = j
  | .display n _, j | .clear n _, j => w.number j = n
  | .transitionFinished _, _ => False

/-- The slots whose `transition_finished` an event may call. -/
def Ev.calls : Ev ι → List ι
  | .decoded _ => []
  | .display _ calls | .clear _ calls => calls
  | .transitionFinished i => [i]

def World.deliver (w : World ι) (n : UInt8) : World ι :=
  { w with log := .delivered n :: w.log }

/-- One event, run to the end of its handlers. A display is delivered to a slot number that
owes no ack, a clear at any time. -/
def step (w : World ι) : Ev ι → Option (World ι)
  | .decoded i => some (w.modify i Slot.markPending)
  | .display n calls =>
    if owed w.log n then none else some ((w.deliver n).onImageDisplay n calls)
  | .clear n calls => some ((w.deliver n).onImageClear n calls)
  | .transitionFinished i => some (w.transitionFinished i)

/-- A hub with the artwork role whose slots have all set up, under distinct numbers, and to
which nothing has been delivered yet. -/
structure Fresh (w : World ι) : Prop where
  role : w.artworkRole = true
  distinct : Function.Injective w.number
  registered : w.registered.Nodup ∧ ∀ i, i ∈ w.registered
  slots : ∀ i, ∃ n a c, setup n a c = some (w.slots i)
  log : w.log = []

abbrev Reachable : World ι → Prop := Reach step Fresh

/-! ### What the pieces change -/

@[simp] lemma modify_log (w : World ι) (i : ι) (f : Slot → Slot) : (w.modify i f).log = w.log :=
  rfl
@[simp] lemma modify_self (w : World ι) (i : ι) (f : Slot → Slot) :
    (w.modify i f).slots i = f (w.slots i) := by simp [World.modify]
lemma modify_ne (w : World ι) {i j : ι} (f : Slot → Slot) (h : j ≠ i) :
    (w.modify i f).slots j = w.slots j := by simp [World.modify, h]

omit [DecidableEq ι] in
@[simp] lemma deliver_slots (w : World ι) (n : UInt8) : (w.deliver n).slots = w.slots := rfl
omit [DecidableEq ι] in
@[simp] lemma deliver_log (w : World ι) (n : UInt8) :
    (w.deliver n).log = .delivered n :: w.log := rfl

omit [DecidableEq ι] in
@[simp] lemma artworkFrameDone_slots (w : World ι) (n : UInt8) :
    (w.artworkFrameDone n).slots = w.slots := by
  unfold World.artworkFrameDone; split <;> rfl
omit [DecidableEq ι] in
@[simp] lemma artworkFrameDone_role (w : World ι) (n : UInt8) :
    (w.artworkFrameDone n).artworkRole = w.artworkRole := by
  unfold World.artworkFrameDone; split <;> rfl
omit [DecidableEq ι] in
@[simp] lemma artworkFrameDone_registered (w : World ι) (n : UInt8) :
    (w.artworkFrameDone n).registered = w.registered := by
  unfold World.artworkFrameDone; split <;> rfl
omit [DecidableEq ι] in
lemma artworkFrameDone_log {w : World ι} (h : w.artworkRole = true) (n : UInt8) :
    (w.artworkFrameDone n).log = .acked n :: w.log := by
  simp [World.artworkFrameDone, h]

lemma finishTransition_log {w : World ι} (h : w.artworkRole = true) (i : ι) :
    (w.finishTransition i).log = .acked (w.number i) :: w.log := by
  have hr : (w.modify i Slot.settle).artworkRole = true := h
  have hi : (w.modify i Slot.settle).number i = w.number i := by simp [World.number]; rfl
  simp only [World.finishTransition, artworkFrameDone_log hr, hi, modify_log]

/-! ### What no handler changes -/

/-- The slots keep their numbers and their images, the hub its callbacks and its role. -/
structure Fixed (w v : World ι) : Prop where
  role : v.artworkRole = w.artworkRole
  registered : v.registered = w.registered
  number : ∀ i, v.number i = w.number i
  image : ∀ i, (v.slots i).transitionImage.isSome = (w.slots i).transitionImage.isSome

omit [DecidableEq ι] in
lemma Fixed.refl (w : World ι) : Fixed w w := ⟨rfl, rfl, fun _ => rfl, fun _ => rfl⟩

omit [DecidableEq ι] in
lemma Fixed.distinct {w v : World ι} (h : Fixed w v) (hd : Function.Injective w.number) :
    Function.Injective v.number := fun i j hij => hd (by rwa [h.number, h.number] at hij)

omit [DecidableEq ι] in
lemma Fixed.trans {u v w : World ι} (h : Fixed u v) (h' : Fixed v w) : Fixed u w :=
  ⟨h'.role.trans h.role, h'.registered.trans h.registered,
    fun i => (h'.number i).trans (h.number i), fun i => (h'.image i).trans (h.image i)⟩

omit [DecidableEq ι] in
lemma fixed_deliver (w : World ι) (n : UInt8) : Fixed w (w.deliver n) :=
  ⟨rfl, rfl, fun _ => rfl, fun _ => rfl⟩

omit [DecidableEq ι] in
lemma fixed_artworkFrameDone (w : World ι) (n : UInt8) : Fixed w (w.artworkFrameDone n) :=
  ⟨by simp, by simp, fun i => by simp [World.number], fun i => by simp⟩

lemma fixed_modify {f : Slot → Slot} (hn : ∀ s, (f s).slot = s.slot)
    (hi : ∀ s, (f s).transitionImage.isSome = s.transitionImage.isSome) (w : World ι) (i : ι) :
    Fixed w (w.modify i f) := by
  refine ⟨rfl, rfl, fun j => ?_, fun j => ?_⟩ <;> by_cases hj : j = i
  · subst hj; simp [World.number, hn]
  · simp [World.number, modify_ne w f hj]
  · subst hj; simp [hi]
  · simp [modify_ne w f hj]

lemma fixed_finishTransition (w : World ι) (i : ι) : Fixed w (w.finishTransition i) :=
  (fixed_modify (f := Slot.settle) (fun _ => rfl) settle_image w i).trans
    (fixed_artworkFrameDone _ _)

lemma fixed_transitionFinished (w : World ι) (i : ι) : Fixed w (w.transitionFinished i) := by
  unfold World.transitionFinished
  split
  · exact fixed_finishTransition w i
  · exact .refl w

lemma fixed_automation (w : World ι) (calls : List ι) : Fixed w (w.automation calls) := by
  induction calls generalizing w with
  | nil => exact .refl w
  | cons i calls ih => exact (fixed_transitionFinished w i).trans (ih _)

lemma onDisplay_miss {w : World ι} {i : ι} (calls : List ι)
    (h : (w.slots i).framePending = false) :
    w.onDisplay i calls = w.artworkFrameDone (w.number i) := by
  have hid : (w.modify i fun s => s.takePending.2) = w := by
    simp [World.modify, takePending_eq, h]
  simp only [World.onDisplay, hid]
  simp [takePending_eq, h]

/-- The slot as the automation of a display finds it. -/
def shownSlot (s : Slot) : Slot := s.swap.publish.arm

lemma onDisplay_hit {w : World ι} {i : ι} (calls : List ι)
    (h : (w.slots i).framePending = true) :
    w.onDisplay i calls =
      let v := (w.modify i shownSlot).automation calls
      if (v.slots i).transitionImage.isNone then v.finishTransition i else v := by
  have hm : (((w.modify i fun s => s.takePending.2).modify i Slot.publish).modify i Slot.arm) =
      w.modify i shownSlot := by
    simp [World.modify, takePending_eq, h, shownSlot]
  simp only [World.onDisplay, hm]
  simp [takePending_eq, h]

lemma shownSlot_slot (s : Slot) : (shownSlot s).slot = s.slot := rfl
lemma shownSlot_image (s : Slot) :
    (shownSlot s).transitionImage.isSome = s.transitionImage.isSome := by
  simp [shownSlot]
lemma shownSlot_pending (s : Slot) :
    (shownSlot s).transitionPending = s.transitionImage.isSome := by
  simp [shownSlot]

/-- The slot as the automation of a clear finds it. -/
def clearedSlot (s : Slot) : Slot := s.dropPending.clearViews

lemma onClear_eq (w : World ι) (i : ι) (calls : List ι) :
    w.onClear i calls =
      let v := (w.modify i clearedSlot).automation calls
      v.artworkFrameDone (v.number i) := by
  have hm : ((w.modify i Slot.dropPending).modify i Slot.clearViews) =
      w.modify i clearedSlot := by
    simp [World.modify, clearedSlot]
  simp only [World.onClear, hm]

lemma clearedSlot_slot (s : Slot) : (clearedSlot s).slot = s.slot := rfl
lemma clearedSlot_image (s : Slot) :
    (clearedSlot s).transitionImage.isSome = s.transitionImage.isSome := by
  simp [clearedSlot]

lemma fixed_onDisplay (w : World ι) (i : ι) (calls : List ι) : Fixed w (w.onDisplay i calls) := by
  cases h : (w.slots i).framePending with
  | false =>
    rw [onDisplay_miss calls h]
    exact fixed_artworkFrameDone _ _
  | true =>
    rw [onDisplay_hit calls h]
    have hv := (fixed_modify shownSlot_slot shownSlot_image w i).trans (fixed_automation _ calls)
    dsimp only
    split
    · exact hv.trans (fixed_finishTransition _ i)
    · exact hv

lemma fixed_onClear (w : World ι) (i : ι) (calls : List ι) : Fixed w (w.onClear i calls) := by
  rw [onClear_eq]
  have hv := (fixed_modify clearedSlot_slot clearedSlot_image w i).trans (fixed_automation _ calls)
  exact hv.trans (fixed_artworkFrameDone _ _)

/-! ### The callbacks of a hub -/

omit [DecidableEq ι] in
lemma foldl_skip {f : World ι → ι → World ι} {n : UInt8} (l : List ι) {w : World ι}
    (h : ∀ j ∈ l, w.number j ≠ n) :
    l.foldl (fun w i => if w.number i = n then f w i else w) w = w := by
  induction l with
  | nil => rfl
  | cons j l ih =>
    rw [List.foldl_cons, if_neg (h j (by simp))]
    exact ih fun k hk => h k (by simp [hk])

lemma fanOut_eq {w : World ι} {f : World ι → ι → World ι} (hf : ∀ v i, Fixed v (f v i))
    (hd : Function.Injective w.number) (hn : w.registered.Nodup) {i : ι}
    (hi : i ∈ w.registered) : w.fanOut (w.number i) f = f w i := by
  unfold World.fanOut
  generalize w.registered = l at hn hi
  induction l with
  | nil => cases hi
  | cons j l ih =>
    obtain ⟨hj, hl⟩ := List.nodup_cons.mp hn
    rw [List.foldl_cons]
    by_cases hji : j = i
    · subst hji
      rw [if_pos rfl]
      refine foldl_skip l fun k hk he => hj ?_
      have : w.number k = w.number j := by rw [← (hf w j).number k, he]
      rwa [← hd this]
    · rw [if_neg fun he => hji (hd he)]
      exact ih hl (by simpa [Ne.symm hji] using hi)

omit [DecidableEq ι] in
lemma fanOut_none {w : World ι} {f : World ι → ι → World ι} {n : UInt8}
    (h : ∀ j, w.number j ≠ n) : w.fanOut n f = w :=
  foldl_skip _ fun j _ => h j

omit [DecidableEq ι] in
lemma fixed_fanOut {f : World ι → ι → World ι} (hf : ∀ v i, Fixed v (f v i)) (w : World ι)
    (n : UInt8) : Fixed w (w.fanOut n f) := by
  unfold World.fanOut
  generalize w.registered = l
  induction l generalizing w with
  | nil => exact .refl w
  | cons j l ih =>
    rw [List.foldl_cons]
    split
    · exact (hf w j).trans (ih _)
    · exact ih w

lemma fixed_step {w v : World ι} {e : Ev ι} (hs : step w e = some v) : Fixed w v := by
  cases e with
  | decoded i =>
    obtain rfl := Option.some.inj hs
    exact fixed_modify (f := Slot.markPending) (fun _ => rfl) (fun _ => rfl) w i
  | display n calls =>
    cases ho : owed w.log n with
    | true => simp [step, ho] at hs
    | false =>
      obtain rfl : _ = v := by simpa [step, ho] using hs
      exact (fixed_deliver w n).trans (fixed_fanOut (fun v i => fixed_onDisplay v i calls) _ n)
  | clear n calls =>
    obtain rfl := Option.some.inj hs
    exact (fixed_deliver w n).trans (fixed_fanOut (fun v i => fixed_onClear v i calls) _ n)
  | transitionFinished i =>
    obtain rfl := Option.some.inj hs
    exact fixed_transitionFinished w i

end SendspinMc.SlotHub
