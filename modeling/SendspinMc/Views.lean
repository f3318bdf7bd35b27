import SendspinMc.Acks
import SendspinMc.Decode

/-!
What the views of the slots draw.

A view draws its frame only while it is told that the frame is artwork. What it should be told
is read off the history of the slot: which buffers were decoded into, which were published, and
when the slot was cleared.
-/

namespace SendspinMc.Views

open SendspinMc.ImageSlot SendspinMc.SlotHub SendspinMc.Acks SendspinMc.Lib.Runs

/-- What happened to a slot. -/
inductive Note
  | decoded (p : Ptr)
  | published (p : Ptr)
  | cleared

/-- A frame has been published since the last clear, of a history with the newest note first. -/
def publishedSinceClear : List Note → Bool
  | [] => false
  | .decoded _ :: t => publishedSinceClear t
  | .published _ :: _ => true
  | .cleared :: _ => false

/-- The frame in this buffer was published since the last clear. -/
def holdsPublished (p : Ptr) : List Note → Bool
  | [] => false
  | .decoded q :: t => if q = p then false else holdsPublished p t
  | .published q :: t => if q = p then true else holdsPublished p t
  | .cleared :: _ => false

/-- The slots, and the history of each. -/
structure State (ι : Type*) where
  world : World ι
  notes : ι → List Note

variable {ι : Type*} [DecidableEq ι]

def State.note (s : State ι) (i : ι) (n : Note) : State ι :=
  { s with notes := Function.update s.notes i (n :: s.notes i) }

/-- A decode, which writes to the target and lets its frame wait for a display if it succeeds. -/
def State.decode (s : State ι) (i : ι) (decoded : Bool) : State ι :=
  let s := s.note i (.decoded (s.world.slots i).target)
  if decoded then { s with world := s.world.modify i Slot.markPending } else s

/-- `on_display_`, which publishes the target if its frame is waiting. -/
def State.onDisplay (s : State ι) (i : ι) (calls : List ι) : State ι :=
  let v := s.world.onDisplay i calls
  if (s.world.slots i).framePending then
    { s.note i (.published (s.world.slots i).target) with world := v }
  else { s with world := v }

/-- `on_clear_`. -/
def State.onClear (s : State ι) (i : ι) (calls : List ι) : State ι :=
  { s.note i .cleared with world := s.world.onClear i calls }

inductive Ev (ι : Type*)
  | decode (i : ι) (decoded : Bool)
  /-- A display, possibly with a frame that is decoded for it. -/
  | display (i : ι) (decoded : Bool) (calls : List ι)
  | clear (i : ι) (calls : List ι)
  | transitionFinished (i : ι)

/-- One event, run to the end of its handler. The library starts no decode on its own while a
transition holds back the ack; displays and clears come at any time. -/
def step (s : State ι) : Ev ι → Option (State ι)
  | .decode i decoded => if s.world.pending i then none else some (s.decode i decoded)
  | .display i decoded calls =>
    some ((if decoded then s.decode i true else s).onDisplay i calls)
  | .clear i calls => some (s.onClear i calls)
  | .transitionFinished i => some { s with world := s.world.transitionFinished i }

/-- Slots that were set up from views as they are constructed, which draw nothing. -/
structure Fresh (s : State ι) : Prop where
  slots : ∀ i, ∃ n a c, setup n a c = some (s.world.slots i) ∧
    c.currentImage.showing = false ∧ ∀ v ∈ c.transitionImage, v.showing = false
  notes : ∀ i, s.notes i = []

abbrev Reachable : State ι → Prop := Reach step Fresh

lemma decode_onDecode {σ : Type*} (d : Decode.Decoder σ) (p : Decode.Payload) (sink : σ)
    (s : State ι) (i : ι) :
    ∃ decoded o, (∀ fuel, p.length < fuel →
        Decode.onDecode d p id fuel (s.world.slots i) sink = some o) ∧
      (s.decode i decoded).world.slots i = o.slot := by
  obtain ⟨decoded, calls, hrun, -⟩ := Decode.onDecode_ends d p id (s.world.slots i) sink
  refine ⟨decoded, _, hrun, ?_⟩
  cases decoded with
  | false => rfl
  | true => exact modify_self s.world i Slot.markPending

/-! ### A slot and its history -/

/-- The buffer a transition view names. -/
def named (s : Slot) : Ptr := if s.transitionPending then s.target else s.current

/-- The slot knows whether its current buffer holds artwork. -/
structure Knows (s : Slot) (t : List Note) : Prop where
  artwork : s.showingArtwork = publishedSinceClear t
  holds : holdsPublished s.current t = publishedSinceClear t

/-- The views draw what they name if it is artwork. -/
structure Shows (s : Slot) (t : List Note) : Prop extends Knows s t where
  current : s.CurrentOk
  showing : s.currentImage.showing = publishedSinceClear t
  transition : ∀ v ∈ s.transitionImage,
    v.data = some (named s) ∧ v.showing = holdsPublished (named s) t

lemma flip_flip (i : Fin 2) : i ^^^ 1 ^^^ 1 = i := by revert i; decide

lemma swap_target (s : Slot) : s.swap.target = s.current := by
  unfold Slot.swap Slot.target Slot.current
  rw [flip_flip]

lemma Knows.decoded {s : Slot} {t : List Note} (h : Knows s t) :
    Knows s (.decoded s.target :: t) where
  artwork := h.artwork
  holds := by rw [holdsPublished, if_neg s.target_ne, h.holds]; rfl

lemma Shows.decoded {s : Slot} {t : List Note} (h : Shows s t)
    (hp : s.transitionPending = false) : Shows s (.decoded s.target :: t) where
  toKnows := h.toKnows.decoded
  current := h.current
  showing := h.showing
  transition v hv := by
    obtain ⟨hd, hs⟩ := h.transition v hv
    have hn : named s = s.current := by simp [named, hp]
    refine ⟨hd, ?_⟩
    rw [hs, hn, holdsPublished, if_neg s.target_ne]

lemma Shows.markPending {s : Slot} {t : List Note} (h : Shows s t) : Shows s.markPending t :=
  ⟨⟨h.artwork, h.holds⟩, h.current, h.showing, h.transition⟩

lemma Knows.shown {s : Slot} {t : List Note} (h : Knows s t) :
    Shows (shownSlot s) (.published s.target :: t) where
  artwork := rfl
  holds := if_pos rfl
  current := rfl
  showing := rfl
  transition v hv := by
    obtain ⟨u, hu, rfl⟩ := Option.mem_map.mp hv
    have hpend : (shownSlot s).transitionPending = true := by
      rw [shownSlot_pending, show s.transitionImage = some u from hu]; rfl
    have hn : named (shownSlot s) = s.current := by
      rw [named, if_pos hpend]
      exact swap_target s
    rw [hn, holdsPublished, if_neg s.target_ne, h.holds, ← h.artwork]
    exact ⟨congrArg some (swap_target s), rfl⟩

lemma Shows.settle {s : Slot} {t : List Note} (h : Shows s t) : Shows s.settle t where
  artwork := h.artwork
  holds := h.holds
  current := h.current
  showing := h.showing
  transition v hv := by
    obtain ⟨u, -, rfl⟩ := Option.mem_map.mp hv
    exact ⟨rfl, h.artwork.trans h.holds.symm⟩

lemma Shows.finished {s : Slot} {t : List Note} (h : Shows s t) : Shows (finishedSlot s) t := by
  unfold finishedSlot
  split
  · exact h.settle
  · exact h

lemma shows_cleared {s : Slot} {t : List Note} (h : s.CurrentOk) :
    Shows (clearedSlot s) (.cleared :: t) where
  artwork := rfl
  holds := rfl
  current := h
  showing := rfl
  transition v hv := by
    obtain ⟨u, -, rfl⟩ := Option.mem_map.mp hv
    exact ⟨rfl, rfl⟩

lemma shows_setup {n : ℕ} {a : Allocation} {c : Config} {s : Slot} (h : setup n a c = some s)
    (hc : c.currentImage.showing = false) (ht : ∀ v ∈ c.transitionImage, v.showing = false) :
    Shows s [] := by
  obtain ⟨b, rfl⟩ := setup_over h
  refine ⟨⟨rfl, rfl⟩, rfl, hc, fun v hv => ?_⟩
  obtain ⟨u, hu, rfl⟩ := Option.mem_map.mp hv
  exact ⟨rfl, ht u hu⟩

/-! ### The handlers of the hub -/

/-- Every slot shows its history. -/
def Inv (w : World ι) (notes : ι → List Note) : Prop := ∀ j, Shows (w.slots j) (notes j)

lemma inv_modify {w : World ι} {notes : ι → List Note} {i : ι} {f : Slot → Slot} {t : List Note}
    (h : ∀ j, j ≠ i → Shows (w.slots j) (notes j)) (hi : Shows (f (w.slots i)) t) :
    Inv (w.modify i f) (Function.update notes i t) := by
  intro j
  by_cases hj : j = i
  · subst hj
    rw [modify_self, Function.update_self]
    exact hi
  · rw [modify_ne w f hj, Function.update_of_ne hj]
    exact h j hj

lemma Inv.finishTransition {w : World ι} {notes : ι → List Note} (h : Inv w notes) (i : ι) :
    Inv (w.finishTransition i) notes := by
  have hs := inv_modify (i := i) (f := Slot.settle) (fun j _ => h j) (h i).settle
  rw [Function.update_eq_self] at hs
  intro j
  rw [World.finishTransition, artworkFrameDone_slots]
  exact hs j

lemma Inv.automation {w : World ι} {notes : ι → List Note} (h : Inv w notes) (calls : List ι) :
    Inv (w.automation calls) notes := by
  intro j
  rw [automation_slots]
  split
  · exact (h j).finished
  · exact h j

lemma Inv.transitionFinished {w : World ι} {notes : ι → List Note} (h : Inv w notes) (i : ι) :
    Inv (w.transitionFinished i) notes := h.automation [i]

lemma Inv.onClear {w : World ι} {notes : ι → List Note} (h : Inv w notes) (i : ι)
    (calls : List ι) :
    Inv (w.onClear i calls) (Function.update notes i (.cleared :: notes i)) := by
  have hc := (inv_modify (f := clearedSlot) (fun j _ => h j)
    (shows_cleared (t := notes i) (h i).current)).automation calls
  intro j
  rw [onClear_eq]
  dsimp only
  rw [artworkFrameDone_slots]
  exact hc j

lemma inv_onDisplay {w : World ι} {notes : ι → List Note} {i : ι} (calls : List ι)
    (h : ∀ j, j ≠ i → Shows (w.slots j) (notes j)) (hi : Knows (w.slots i) (notes i))
    (hf : (w.slots i).framePending = true) :
    Inv (w.onDisplay i calls)
      (Function.update notes i (.published (w.slots i).target :: notes i)) := by
  have hd := (inv_modify h hi.shown).automation calls
  rw [onDisplay_hit calls hf]
  dsimp only
  split
  · exact hd.finishTransition i
  · exact hd

lemma Inv.onDisplay_miss {w : World ι} {notes : ι → List Note} (h : Inv w notes) {i : ι}
    (calls : List ι) (hf : (w.slots i).framePending = false) :
    Inv (w.onDisplay i calls) notes := by
  rw [SlotHub.onDisplay_miss calls hf]
  intro j
  rw [artworkFrameDone_slots]
  exact h j

/-! ### Every event keeps it so -/

omit [DecidableEq ι] in
lemma inv_fresh {s : State ι} (h : Fresh s) : Inv s.world s.notes := by
  intro j
  obtain ⟨n, a, c, hs, hc, ht⟩ := h.slots j
  rw [h.notes j]
  exact shows_setup hs hc ht

lemma inv_decode {s : State ι} (h : Inv s.world s.notes) {i : ι}
    (hp : (s.world.slots i).transitionPending = false) (decoded : Bool) :
    Inv (s.decode i decoded).world (s.decode i decoded).notes := by
  have hd := (h i).decoded hp
  cases decoded with
  | false =>
    have hi := inv_modify (f := id) (fun j _ => h j) hd
    have hw : s.world.modify i id = s.world := by simp [World.modify]
    rwa [hw] at hi
  | true => exact inv_modify (fun j _ => h j) hd.markPending

lemma inv_display_decoded {s : State ι} (h : Inv s.world s.notes) (i : ι) (calls : List ι) :
    Inv ((s.decode i true).onDisplay i calls).world ((s.decode i true).onDisplay i calls).notes := by
  have hf : ((s.decode i true).world.slots i).framePending = true := by
    simp [State.decode, State.note, Slot.markPending]
  have hk : Knows ((s.decode i true).world.slots i) ((s.decode i true).notes i) := by
    have hd := (h i).toKnows.decoded
    simp only [State.decode, State.note, if_true, modify_self, Function.update_self]
    exact ⟨hd.artwork, hd.holds⟩
  have ho : ∀ j, j ≠ i → Shows ((s.decode i true).world.slots j) ((s.decode i true).notes j) := by
    intro j hj
    simp only [State.decode, State.note, if_true, modify_ne _ _ hj, Function.update_of_ne hj]
    exact h j
  generalize s.decode i true = v at hf hk ho
  rw [State.onDisplay, if_pos hf]
  exact inv_onDisplay calls ho hk hf

lemma inv_display {s : State ι} (h : Inv s.world s.notes) (i : ι) (calls : List ι) :
    Inv (s.onDisplay i calls).world (s.onDisplay i calls).notes := by
  cases hf : (s.world.slots i).framePending with
  | false =>
    simp only [State.onDisplay, hf, Bool.false_eq_true, if_false]
    exact h.onDisplay_miss calls hf
  | true =>
    rw [State.onDisplay, if_pos hf]
    exact inv_onDisplay calls (fun j _ => h j) (h i).toKnows hf

lemma inv_step {s t : State ι} {e : Ev ι} (h : Inv s.world s.notes) (hs : step s e = some t) :
    Inv t.world t.notes := by
  cases e with
  | decode i decoded =>
    cases hp : s.world.pending i with
    | true => simp [step, hp] at hs
    | false =>
      obtain rfl : _ = t := by simpa [step, hp] using hs
      exact inv_decode h hp decoded
  | display i decoded calls =>
    obtain rfl := Option.some.inj hs
    cases decoded with
    | false => exact inv_display h i calls
    | true => exact inv_display_decoded h i calls
  | clear i calls =>
    obtain rfl := Option.some.inj hs
    exact h.onClear i calls
  | transitionFinished i =>
    obtain rfl := Option.some.inj hs
    exact h.transitionFinished i

theorem inv_reachable {s : State ι} (h : Reachable s) : Inv s.world s.notes :=
  Keeps.reach (I := fun s => Inv s.world s.notes) (fun _ _ _ hi hst => inv_step hi hst)
    (fun _ => inv_fresh) h

/-- **The views draw artwork exactly when they name artwork of the current stream**: whenever a
handler has returned, the current view names the current buffer and draws it exactly if a frame
has been published since the last clear; and the transition view names the outgoing buffer
exactly while the transition is pending, and the current one otherwise, and draws it exactly if
that frame has been. -/
theorem views_draw_artwork {s : State ι} (h : Reachable s) (i : ι) :
    (s.world.slots i).currentImage.data = some (s.world.slots i).current ∧
      ((s.world.slots i).currentImage.showing = true ↔
        publishedSinceClear (s.notes i) = true) ∧
      ∀ v ∈ (s.world.slots i).transitionImage,
        (v.data = some (s.world.slots i).target ↔ s.world.pending i = true) ∧
          (v.data = some (s.world.slots i).current ↔ s.world.pending i = false) ∧
          (v.showing = true ↔ ∃ p, v.data = some p ∧ holdsPublished p (s.notes i) = true) := by
  have hi := inv_reachable h i
  refine ⟨hi.current, by rw [hi.showing], fun v hv => ?_⟩
  obtain ⟨hd, hs⟩ := hi.transition v hv
  have hne := (s.world.slots i).target_ne
  refine ⟨?_, ?_, by simp [hd, hs]⟩
  all_goals
    rw [hd, Option.some_inj]
    cases hp : s.world.pending i with
    | true => simp [named, hp, hne]
    | false => simp [named, hp, hne.symm]

/-- The slots of two panels to which nothing has happened. -/
def black : State Panel := ⟨twoSlots, fun _ => []⟩

lemma fresh_black : Fresh black where
  slots := by
    intro i
    cases i
    · exact ⟨8, ⟨some 0, some 1, by simp⟩, _, rfl, rfl, by simp⟩
    · exact ⟨8, ⟨some 4, some 5, by simp⟩, _, rfl, rfl, by simp⟩
  notes _ := rfl

/-- After a clear that drops the first frame, a frame is shown and the next one fades in. -/
def fading : List (Ev Panel) :=
  [.decode .large true, .clear .large [], .display .large true [.large],
    .decode .large false, .display .large true []]

theorem views_draw_artwork_fading :
    ∃ s, run step black fading = some s ∧ s.world.pending .large = true ∧
      publishedSinceClear (s.notes .large) = true ∧
      (s.world.slots .large).currentImage.data = some (s.world.slots .large).current :=
  ⟨_, rfl, rfl, rfl, (views_draw_artwork ⟨black, fresh_black, fading, rfl⟩ .large).1⟩

end SendspinMc.Views
