import SendspinMc.Lib.Fanout
import SendspinMc.SlotOrder
import SendspinMc.SlotProgress
import SendspinMc.Wiring

/-!
The images of the device while it runs.

The library hands each payload to the hub whose client it came to, under the number of a slot, and
the hub hands it on to its images. What an image acks goes back to that hub under the image's own
number. So each image that has been set up is a slot machine of its own, whatever the clients of
other hubs and the slots of other numbers are told in between.
-/

namespace SendspinMc.Artwork

open SendspinMc.Codegen SendspinMc.Roles SendspinMc.HubFields SendspinMc.Boot SendspinMc.Wiring
open SendspinMc.Lib.Fanout SendspinMc.Lib.Runs
open SendspinMc.ImageSlot (Ptr View Slot Allocation)
open SendspinMc.SlotMachine (Content Frame Thread Pc Sys)
open SendspinMc.SlotNumbers (displays)

/-! ### Images and the library -/

/-- What the code of an entry makes its image with, and what the image's `setup()` is given. -/
structure Canvas where
  currentImage : View
  transitionImage : Option View
  width : ℤ
  height : ℤ
  frameSize : ℕ
  allocation : Allocation

def Canvas.setup (c : Canvas) (n : UInt8) : Option Slot :=
  ImageSlot.setup c.frameSize c.allocation ⟨n, c.currentImage, c.transitionImage, c.width, c.height⟩

/-- An image that has been set up, with its buffers and the places where its code stands. -/
structure Part (α : Type*) where
  slot : Slot
  pc : Pc
  thread : Thread
  mem : Ptr → Content
  /-- The payload that `on_decode_` was called with last. -/
  data : Option α
  /-- The payload that each buffer was painted from last. -/
  source : Ptr → Option α

def Part.start {α : Type*} (slot : Slot) : Part α where
  slot := slot
  pc := .idle
  thread := .idle
  mem := fun _ => .black
  data := none
  source := fun _ => none

/-- What the library knows of a slot of a client. -/
structure Gate where
  live : Bool
  awaiting : Option Frame
  owes : Bool
  decodes : ℕ
  cleared : ℕ

def Gate.start : Gate := ⟨false, none, false, 0, 0⟩

/-- A payload is handed over; if no image takes it the call has returned. -/
def Gate.decode (g : Gate) (taken : Bool) : Gate where
  live := true
  awaiting := if taken then none else some ⟨g.decodes, false⟩
  owes := g.owes
  decodes := g.decodes + 1
  cleared := g.cleared

def Gate.display (g : Gate) : Gate := { g with awaiting := none, owes := true }

def Gate.clear (g : Gate) (keep : Bool) : Gate where
  live := g.live && keep
  awaiting := if keep then g.awaiting else none
  owes := true
  decodes := g.decodes
  cleared := g.decodes

def Part.beside {α : Type*} (p : Part α) (g : Gate) : Sys where
  slot := p.slot
  pc := p.pc
  thread := p.thread
  live := g.live
  awaiting := g.awaiting
  owes := g.owes
  mem := p.mem
  decodes := g.decodes
  cleared := g.cleared

/-- What a step of the code paints, it paints from its payload. -/
def Part.paints {α : Type*} (p : Part α) : SlotMachine.Ev → Ptr → Option α
  | .paint | .finish true =>
    match p.thread with
    | .writing _ b => Function.update p.source b p.data
    | _ => p.source
  | _ => p.source

/-- The image after a step of its code. -/
def Part.next {α : Type*} (p : Part α) (e : SlotMachine.Ev) (s : Sys) : Part α where
  slot := s.slot
  pc := s.pc
  thread := s.thread
  mem := s.mem
  data := p.data
  source := p.paints e

def gate (s : Sys) : Gate := ⟨s.live, s.awaiting, s.owes, s.decodes, s.cleared⟩

@[simp] lemma beside_next {α : Type*} (p : Part α) (e : SlotMachine.Ev) (s : Sys) :
    (p.next e s).beside (gate s) = s := rfl

/-! ### The device -/

/-- A hub, and the number of one of its slots. -/
abbrev Address := String × UInt8

/-- The images by the places of their entries, and the library's side of every slot. -/
structure Device (α : Type*) where
  images : ℕ → Option (Part α)
  gates : Address → Gate

/-- The parent and the slot that an image's variable is made with. -/
def address (vars : ℕ → Option Var) (i : ℕ) : Option Address :=
  match vars i with
  | some ⟨h, .imageSlot n⟩ => some (h, n)
  | _ => none

/-- The image once everything is set up; there is none if its `setup()` has failed. -/
def image (vars : ℕ → Option Var) (canvas : ℕ → Canvas) (i : ℕ) : Option Slot :=
  (address vars i).bind fun a => (canvas i).setup a.2

def Device.start {α : Type*} (vars : ℕ → Option Var) (canvas : ℕ → Canvas) : Device α where
  images := fun i => (image vars canvas i).map .start
  gates := fun _ => .start

/-- What the library tells a hub of a slot, and a step that an image takes on its own. -/
inductive Ev (α : Type*)
  /-- The payload of the next frame, which the decode thread starts on. -/
  | decode (a : Address) (payload : α)
  | display (a : Address) (calls : ℕ)
  | clear (a : Address) (calls : ℕ) (keep : Bool)
  | own (i : ℕ) (e : SlotMachine.Ev)

variable {α : Type*}

/-- A step of the image's code: it is told nothing. -/
def isOwn : SlotMachine.Ev → Bool
  | .begin | .display _ | .clear _ _ => false
  | _ => true

def Device.all (s : Device α) (l : List ℕ) (c : Part α → Bool) : Bool :=
  l.all fun i => (s.images i).all c

/-- The callbacks of these images enter the code, and the library takes note. -/
def Device.call (s : Device α) (l : List ℕ) (f : Part α → Part α) (a : Address) (g : Gate) :
    Device α where
  images := deliver (fun _ p f => Option.map f p) (fun _ => l) s.images f
  gates := Function.update s.gates a g

/-- The code of an image has taken a step. -/
def Device.put (s : Device α) (i : ℕ) (a : Address) (p : Part α) (e : SlotMachine.Ev) (t : Sys) :
    Device α where
  images := Function.update s.images i (some (p.next e t))
  gates := Function.update s.gates a (gate t)

/-- One step of the device. The library tells nothing of a slot before the slot's last frame has
been displayed and acked, but for a clear. The code of an image runs piece by piece. What the one
main loop rules out is not ruled out here: handlers of several images may overlap. -/
def step (w : World ℕ) (vars : ℕ → Option Var) (s : Device α) : Ev α → Option (Device α)
  | .decode a x =>
    let l := w.react vars a.1 (.imageDecode a.2)
    let g := s.gates a
    if s.all l (·.thread = .idle) && g.awaiting.isNone && !g.owes then
      some (s.call l (fun p => { p with thread := .entered g.decodes, data := some x }) a
        (g.decode !l.isEmpty))
    else none
  | .display a calls =>
    let l := w.react vars a.1 (.imageDisplay a.2)
    let g := s.gates a
    match g.awaiting with
    | some f =>
      if s.all l (·.pc = .idle) then
        some (s.call l (fun p => { p with pc := .displayLock f calls }) a g.display)
      else none
    | none => none
  | .clear a calls keep =>
    let l := w.react vars a.1 (.imageClear a.2)
    if s.all l (·.pc = .idle) then
      some (s.call l (fun p => { p with pc := .clearLock calls }) a ((s.gates a).clear keep))
    else none
  | .own i e =>
    match address vars i, s.images i with
    | some a, some p =>
      if isOwn e then (SlotMachine.step (p.beside (s.gates a)) e).map (s.put i a p e) else none
    | _, _ => none

/-! ### What a step can do -/

section Steps

variable {w : World ℕ} {vars : ℕ → Option Var}

lemma all_iff {s : Device α} {l : List ℕ} {c : Part α → Bool} :
    s.all l c = true ↔ ∀ i ∈ l, ∀ p, s.images i = some p → c p = true := by
  rw [Device.all, List.all_eq_true]
  refine forall₂_congr fun i _ => ?_
  cases s.images i <;> simp

/-- One step, by its event. -/
inductive Move (w : World ℕ) (vars : ℕ → Option Var) (s : Device α) : Ev α → Device α → Prop
  | decode (a : Address) (x : α)
      (hth : ∀ i ∈ w.react vars a.1 (.imageDecode a.2), ∀ p, s.images i = some p → p.thread = .idle)
      (haw : (s.gates a).awaiting = none) (ho : (s.gates a).owes = false) :
      Move w vars s (.decode a x)
        (s.call (w.react vars a.1 (.imageDecode a.2))
          (fun p => { p with thread := .entered (s.gates a).decodes, data := some x }) a
          ((s.gates a).decode !(w.react vars a.1 (.imageDecode a.2)).isEmpty))
  | display (a : Address) (calls : ℕ) (f : Frame) (hf : (s.gates a).awaiting = some f)
      (hpc : ∀ i ∈ w.react vars a.1 (.imageDisplay a.2), ∀ p, s.images i = some p → p.pc = .idle) :
      Move w vars s (.display a calls)
        (s.call (w.react vars a.1 (.imageDisplay a.2))
          (fun p => { p with pc := .displayLock f calls }) a (s.gates a).display)
  | clear (a : Address) (calls : ℕ) (keep : Bool)
      (hpc : ∀ i ∈ w.react vars a.1 (.imageClear a.2), ∀ p, s.images i = some p → p.pc = .idle) :
      Move w vars s (.clear a calls keep)
        (s.call (w.react vars a.1 (.imageClear a.2)) (fun p => { p with pc := .clearLock calls }) a
          ((s.gates a).clear keep))
  | own (i : ℕ) (e : SlotMachine.Ev) (a : Address) (p : Part α) (t : Sys)
      (ha : address vars i = some a) (hp : s.images i = some p) (he : isOwn e = true)
      (ht : SlotMachine.step (p.beside (s.gates a)) e = some t) :
      Move w vars s (.own i e) (s.put i a p e t)

theorem move_of_step {s t : Device α} {e : Ev α} (h : step w vars s e = some t) :
    Move w vars s e t := by
  cases e with
  | decode a x =>
    simp only [step] at h
    split at h
    · rename_i hc
      obtain rfl := Option.some.inj h
      rw [Bool.and_eq_true, Bool.and_eq_true, all_iff] at hc
      obtain ⟨⟨hth, haw⟩, ho⟩ := hc
      exact .decode a x (by simpa using hth) (by simpa using haw) (by simpa using ho)
    · cases h
  | display a calls =>
    simp only [step] at h
    split at h
    · split at h
      · rename_i f hf hc
        obtain rfl := Option.some.inj h
        exact .display a calls f hf (by simpa using all_iff.mp hc)
      · cases h
    · cases h
  | clear a calls keep =>
    simp only [step] at h
    split at h
    · rename_i hc
      obtain rfl := Option.some.inj h
      exact .clear a calls keep (by simpa using all_iff.mp hc)
    · cases h
  | own i e =>
    simp only [step] at h
    split at h
    · rename_i a p ha hp
      split at h
      · rename_i he
        obtain ⟨t, ht, rfl⟩ := Option.map_eq_some_iff.mp h
        exact .own i e a p t ha hp he ht
      · cases h
    · cases h

lemma call_images {s : Device α} {l : List ℕ} (hn : l.Nodup) (f : Part α → Part α) (b : Address)
    (g : Gate) (i : ℕ) :
    (s.call l f b g).images i = if i ∈ l then (s.images i).map f else s.images i :=
  @foldl_update _ _ _ _ (fun _ p f => Option.map f p) l hn s.images f i

lemma call_gates (s : Device α) (l : List ℕ) (f : Part α → Part α) (b : Address) (g : Gate)
    (a : Address) : (s.call l f b g).gates a = if a = b then g else s.gates a :=
  Function.update_apply _ _ _ _

lemma put_images (s : Device α) (j : ℕ) (b : Address) (p : Part α) (e : SlotMachine.Ev) (t : Sys)
    (i : ℕ) : (s.put j b p e t).images i = if i = j then some (p.next e t) else s.images i :=
  Function.update_apply _ _ _ _

lemma put_gates (s : Device α) (j : ℕ) (b : Address) (p : Part α) (e : SlotMachine.Ev) (t : Sys)
    (a : Address) : (s.put j b p e t).gates a = if a = b then gate t else s.gates a :=
  Function.update_apply _ _ _ _

/-! ### What the library has told -/

/-- The payload that an event brings for the address. -/
def Ev.payload (a : Address) : Ev α → Option α
  | .decode b x => if b = a then some x else none
  | _ => none

/-- The payloads that came for an address. -/
def told (a : Address) (es : List (Ev α)) : List α := es.filterMap (Ev.payload a)

lemma told_cons (a : Address) (e : Ev α) (es : List (Ev α)) :
    told a (e :: es) = told a [e] ++ told a es :=
  @List.filterMap_append _ _ [e] es (Ev.payload a)

lemma decodes_own {s t : Sys} {e : SlotMachine.Ev} (he : isOwn e = true)
    (h : SlotMachine.step s e = some t) : t.decodes = s.decodes := by
  cases SlotMachine.move_of_step h with
  | begin _ | display _ _ _ _ | clear _ _ _ => cases he
  | main hm => cases hm <;> rfl
  | _ => rfl

lemma decodes_move {s t : Device α} {e : Ev α} (h : Move w vars s e t) (a : Address) :
    (t.gates a).decodes = (s.gates a).decodes + (told a [e]).length := by
  cases h with
  | decode b x _ _ _ =>
    rw [call_gates]
    by_cases hb : a = b
    · subst hb
      simp [told, Ev.payload, Gate.decode]
    · simp [told, Ev.payload, hb, Ne.symm hb]
  | display b calls f _ _ | clear b calls keep _ =>
    rw [call_gates]
    split
    · rename_i hb
      subst hb
      rfl
    · rfl
  | own j e b p t hb hp he ht =>
    rw [put_gates]
    split
    · rename_i hab
      subst hab
      exact decodes_own he ht
    · rfl

lemma decodes_run {s t : Device α} {es : List (Ev α)} (h : run (step w vars) s es = some t)
    (a : Address) : (t.gates a).decodes = (s.gates a).decodes + (told a es).length := by
  induction es generalizing s with
  | nil =>
    obtain rfl := Option.some.inj h
    rfl
  | cons e es ih =>
    obtain ⟨u, hu, h⟩ := Option.bind_eq_some_iff.mp h
    rw [ih h, told_cons a e es, decodes_move (move_of_step hu), List.length_append, Nat.add_assoc]

end Steps

/-! ### An image on its own -/

/-- What an event is for the image at a place that has the address. -/
def Ev.read (a : Address) (i : ℕ) : Ev α → Option SlotMachine.Ev
  | .decode b _ => if b = a then some .begin else none
  | .display b calls => if b = a then some (.display calls) else none
  | .clear b calls keep => if b = a then some (.clear calls keep) else none
  | .own j e => if j = i then some e else none

/-- The image, and what the library knows of its slot, are the machine. -/
def Device.Is (s : Device α) (i : ℕ) (a : Address) (t : Sys) : Prop :=
  ∃ p, s.images i = some p ∧ t = p.beside (s.gates a)

/-- The image at a place alone has the address, and calls for the address reach no other. It is
called, once, if it has been set up. -/
structure Sole (w : World ℕ) (vars : ℕ → Option Var) (canvas : ℕ → Canvas) (i : ℕ) (a : Address) :
    Prop where
  address : address vars i = some a
  unique : ∀ j, Artwork.address vars j = some a → j = i
  once : ∀ h s, (w.react vars h s).Nodup
  called : ∀ h s n, s.slot = some n →
    ∀ j, j ∈ w.react vars h s ↔ Artwork.address vars j = some (h, n) ∧ (image vars canvas j).isSome

section Alone

variable {w : World ℕ} {vars : ℕ → Option Var} {canvas : ℕ → Canvas} {i : ℕ} {a : Address}

lemma Sole.not_called (h : Sole w vars canvas i a) {b : Address} (hb : b ≠ a) {x : Signal}
    (hx : x.slot = some b.2) : i ∉ w.react vars b.1 x := fun hm =>
  hb (Option.some.inj (((h.called _ _ _ hx i).mp hm).1.symm.trans h.address))

lemma is_call_other (h : Sole w vars canvas i a) {s : Device α} {t : Sys} (hs : s.Is i a t)
    {b : Address} (hb : b ≠ a) {x : Signal} (hx : x.slot = some b.2) (f : Part α → Part α)
    (g : Gate) : (s.call (w.react vars b.1 x) f b g).Is i a t := by
  obtain ⟨p, hp, rfl⟩ := hs
  refine ⟨p, ?_, ?_⟩
  · rw [call_images (h.once _ _), if_neg (h.not_called hb hx), hp]
  · rw [call_gates, if_neg hb.symm]

lemma is_call_own (h : Sole w vars canvas i a) {s : Device α} {p : Part α}
    (hp : s.images i = some p) {x : Signal} (hi : i ∈ w.react vars a.1 x) (f : Part α → Part α)
    (g : Gate) :
    (s.call (w.react vars a.1 x) f a g).Is i a ((f p).beside g) := by
  refine ⟨f p, ?_, ?_⟩
  · rw [call_images (h.once _ _), if_pos hi, hp, Option.map_some]
  · rw [call_gates, if_pos rfl]

lemma is_put_other (h : Sole w vars canvas i a) {s : Device α} {t : Sys} (hs : s.Is i a t) {j : ℕ}
    (hj : j ≠ i) {b : Address} (hb : address vars j = some b) (q : Part α) (e : SlotMachine.Ev)
    (u : Sys) : (s.put j b q e u).Is i a t := by
  obtain ⟨p, hp, rfl⟩ := hs
  have hba : a ≠ b := fun he => hj (h.unique j (he ▸ hb))
  exact ⟨p, by rw [put_images, if_neg hj.symm, hp], by rw [put_gates, if_neg hba]⟩

lemma is_put_own (s : Device α) (p : Part α) (e : SlotMachine.Ev) (t : Sys) :
    (s.put i a p e t).Is i a t :=
  ⟨p.next e t, by rw [put_images, if_pos rfl], by rw [put_gates, if_pos rfl, beside_next]⟩

/-- **An image is a slot machine of its own**: each step of the device is the step of the machine
that the image reads of the event, or leaves it as it is. -/
theorem move_simulates (h : Sole w vars canvas i a) (hset : (image vars canvas i).isSome)
    {s s' : Device α} {e : Ev α} {t : Sys} (hs : s.Is i a t) (hst : Move w vars s e s') :
    ∃ t', s'.Is i a t' ∧ (e.read a i).elim (some t) (SlotMachine.step t) = some t' := by
  obtain ⟨p, hp, rfl⟩ := hs
  have hin : ∀ {x : Signal}, x.slot = some a.2 → i ∈ w.react vars a.1 x := fun hx =>
    (h.called _ _ _ hx i).mpr ⟨h.address, hset⟩
  cases hst with
  | decode b x hth haw ho =>
    by_cases hb : b = a
    · subst hb
      have hmem := hin (x := .imageDecode b.2) rfl
      have hidle := hth i hmem p hp
      have hne : w.react vars b.1 (.imageDecode b.2) ≠ [] := List.ne_nil_of_mem hmem
      refine ⟨_, is_call_own h hp hmem _ _, ?_⟩
      simp [Ev.read, SlotMachine.step, SlotMachine.Sys.mayBegin, Part.beside, Gate.decode, hidle,
        haw, ho, hne]
    · exact ⟨_, is_call_other h ⟨p, hp, rfl⟩ hb rfl _ _, by simp [Ev.read, hb]⟩
  | display b calls f hf hpc =>
    by_cases hb : b = a
    · subst hb
      have hidle := hpc i (hin rfl) p hp
      refine ⟨_, is_call_own h hp (hin rfl) _ _, ?_⟩
      simp [Ev.read, SlotMachine.step, Part.beside, Gate.display, hidle, hf]
    · exact ⟨_, is_call_other h ⟨p, hp, rfl⟩ hb rfl _ _, by simp [Ev.read, hb]⟩
  | clear b calls keep hpc =>
    by_cases hb : b = a
    · subst hb
      have hidle := hpc i (hin rfl) p hp
      refine ⟨_, is_call_own h hp (hin rfl) _ _, ?_⟩
      simp [Ev.read, SlotMachine.step, Part.beside, Gate.clear, hidle]
    · exact ⟨_, is_call_other h ⟨p, hp, rfl⟩ hb rfl _ _, by simp [Ev.read, hb]⟩
  | own j e b q u hb hq he hu =>
    by_cases hj : j = i
    · subst hj
      obtain rfl := Option.some.inj (h.address.symm.trans hb)
      obtain rfl := Option.some.inj (hp.symm.trans hq)
      exact ⟨u, is_put_own s p e u, by simpa [Ev.read] using hu⟩
    · exact ⟨_, is_put_other h ⟨p, hp, rfl⟩ hj hb q e u, by simp [Ev.read, hj]⟩

/-! ### An image that could not be set up -/

/-- A frame of the slot waits whose display nothing will ack, or the ack is owed. -/
def Shut (g : Gate) : Prop :=
  g.decodes = 0 ∨ g.decodes = 1 ∧ (g.awaiting.isSome = true ∨ g.owes = true)

lemma shut_move (h : Sole w vars canvas i a) (hset : image vars canvas i = none) {s s' : Device α}
    {e : Ev α} (hi : s.images i = none) (hg : Shut (s.gates a)) (hst : Move w vars s e s') :
    s'.images i = none ∧ Shut (s'.gates a) := by
  have himg : ∀ (l : List ℕ) (f : Part α → Part α) (b : Address) (g : Gate), l.Nodup →
      (s.call l f b g).images i = none := fun l f b g hn => by
    rw [call_images hn, hi]
    split <;> rfl
  cases hst with
  | decode b x hth haw ho =>
    refine ⟨himg _ _ _ _ (h.once _ _), ?_⟩
    rw [call_gates]
    split
    · rename_i hb
      subst hb
      -- the payload reaches no image
      have hnil : w.react vars a.1 (.imageDecode a.2) = [] := by
        refine List.eq_nil_iff_forall_not_mem.mpr fun j hj => ?_
        obtain ⟨hj, hsome⟩ := (h.called _ _ _ rfl j).mp hj
        rw [h.unique j hj, hset] at hsome
        cases hsome
      rcases hg with hg | ⟨-, hg⟩
      · exact .inr ⟨by simp [Gate.decode, hg], .inl (by simp [Gate.decode, hnil])⟩
      · simp [haw, ho] at hg
    · exact hg
  | display b calls f hf hpc | clear b calls keep hpc =>
    refine ⟨himg _ _ _ _ (h.once _ _), ?_⟩
    rw [call_gates]
    split
    · rename_i hb
      subst hb
      exact hg.imp_right fun hd => ⟨hd.1, .inr rfl⟩
    · exact hg
  | own j e b q u hb hq he hu =>
    have hj : i ≠ j := fun hij => by
      rw [← hij, hi] at hq
      cases hq
    have hab : a ≠ b := fun hab => hj (h.unique j (hab ▸ hb)).symm
    exact ⟨by rw [put_images, if_neg hj, hi], by rwa [put_gates, if_neg hab]⟩

/-- Nothing acks for an image that could not be set up, so its slot gets one payload at most. -/
lemma told_failed (h : Sole w vars canvas i a) (hset : image vars canvas i = none) {s : Device α}
    {es : List (Ev α)} (hr : run (step w vars) (.start vars canvas) es = some s) :
    (told a es).length ≤ 1 := by
  have hkeeps : Keeps (step (α := α) w vars) fun s => s.images i = none ∧ Shut (s.gates a) :=
    fun s e t hs hst => shut_move h hset hs.1 hs.2 (move_of_step hst)
  have hshut := (hkeeps.run ⟨by simp [Device.start, hset], .inl rfl⟩ hr).2
  have hcount := decodes_run hr a
  have hstart : ((Device.start vars canvas : Device α).gates a).decodes = 0 := rfl
  rw [hstart, Nat.zero_add] at hcount
  rcases hshut with h0 | ⟨h1, -⟩ <;> omega

/-! ### What an image shows -/

/-- Pixels that were painted from one of the payloads, or black. -/
def Painted (xs : List α) (c : Content) (source : Option α) : Prop :=
  SlotOrder.stamp c = 0 ∧ source = none ∨
    ∃ k x, SlotOrder.stamp c = k + 1 ∧ xs[k]? = some x ∧ source = some x

lemma get_append {xs : List α} {k : ℕ} {x : α} (h : xs[k]? = some x) (ys : List α) :
    (xs ++ ys)[k]? = some x := by
  obtain ⟨hk, -⟩ := List.getElem?_eq_some_iff.mp h
  rw [List.getElem?_append_left hk, h]

lemma Painted.append {xs : List α} {c : Content} {source : Option α} (h : Painted xs c source)
    (ys : List α) : Painted (xs ++ ys) c source := by
  refine h.imp_right ?_
  rintro ⟨k, x, hk, hx, hs⟩
  exact ⟨k, x, hk, get_append hx ys, hs⟩

/-- The image after these payloads: each buffer was painted from the one that its pixels are
counted for, and a running decode has been given its own. -/
structure Traced (xs : List α) (p : Part α) : Prop where
  painted : ∀ b, Painted xs (p.mem b) (p.source b)
  data : ∀ d ∈ Current.decodeOf p.thread, ∃ x, xs[d]? = some x ∧ p.data = some x

lemma Traced.append {xs : List α} {p : Part α} (h : Traced xs p) (ys : List α) :
    Traced (xs ++ ys) p := by
  refine ⟨fun b => (h.painted b).append ys, fun d hd => ?_⟩
  obtain ⟨x, hx, hp⟩ := h.data d hd
  exact ⟨x, get_append hx ys, hp⟩

lemma Traced.write {xs : List α} {p : Part α} (h : Traced xs p) {d : ℕ} {b : Ptr}
    (hd : p.thread = .writing d b) {c : Content} (hc : SlotOrder.stamp c = d + 1)
    {e : SlotMachine.Ev} (he : p.paints e = Function.update p.source b p.data) (b' : Ptr) :
    Painted xs (Function.update p.mem b c b') (p.paints e b') := by
  obtain ⟨x, hx, hp⟩ := h.data d (by simp [hd])
  rw [he]
  by_cases hb : b' = b
  · subst hb
    rw [Function.update_self, Function.update_self]
    exact .inr ⟨d, x, hc, hx, hp⟩
  · rw [Function.update_of_ne hb, Function.update_of_ne hb]
    exact h.painted b'

lemma Traced.next {xs : List α} {p : Part α} {g : Gate} (h : Traced xs p) {e : SlotMachine.Ev}
    (he : isOwn e = true) {t : Sys} (hst : SlotMachine.step (p.beside g) e = some t) :
    Traced xs (p.next e t) := by
  cases SlotMachine.move_of_step hst with
  | begin _ | display _ _ _ _ | clear _ _ _ => cases he
  | pick d hd =>
    refine ⟨h.painted, fun d' hd' => h.data d' ?_⟩
    have hd : p.thread = .entered d := hd
    simpa [Part.next, hd] using hd'
  | paint d b hd =>
    have hd : p.thread = .writing d b := hd
    exact ⟨h.write (c := .part d) (e := .paint) hd rfl (by simp [Part.paints, hd]), h.data⟩
  | done d b hd =>
    have hd : p.thread = .writing d b := hd
    refine ⟨h.write (c := .full d) (e := .finish true) hd rfl (by simp [Part.paints, hd]),
      fun d' hd' => h.data d' ?_⟩
    simpa [Part.next, hd] using hd'
  | fail d b hd | commit d b hd => exact ⟨h.painted, by simp [Part.next]⟩
  | late _ _ | strayLate _ _ => exact ⟨h.painted, h.data⟩
  | main hm => cases hm <;> exact ⟨h.painted, h.data⟩

lemma traced_move (h : Sole w vars canvas i a) {s s' : Device α} {e : Ev α} {xs : List α}
    (hxs : (s.gates a).decodes = xs.length) (ht : ∀ p, s.images i = some p → Traced xs p)
    (hst : Move w vars s e s') : ∀ p, s'.images i = some p → Traced (xs ++ told a [e]) p := by
  have hcall : ∀ (l : List ℕ) (f : Part α → Part α) (b : Address) (g : Gate), l.Nodup →
      (∀ p, i ∈ l → Traced xs p → Traced (xs ++ told a [e]) (f p)) →
      ∀ p, (s.call l f b g).images i = some p → Traced (xs ++ told a [e]) p := by
    intro l f b g hl hf p hp
    rw [call_images hl] at hp
    split at hp
    · rename_i hi
      obtain ⟨q, hq, rfl⟩ := Option.map_eq_some_iff.mp hp
      exact hf q hi (ht q hq)
    · exact (ht p hp).append _
  cases hst with
  | decode b x hth haw ho =>
    refine hcall _ _ _ _ (h.once _ _) fun p hi hp => ?_
    obtain rfl : b = a := by
      by_contra hb
      exact h.not_called hb rfl hi
    have htold : told b [Ev.decode b x] = [x] := by simp [told, Ev.payload]
    rw [htold]
    refine ⟨(hp.append [x]).painted, fun d hd => ⟨x, ?_, rfl⟩⟩
    obtain rfl : (s.gates b).decodes = d := by simpa using hd
    rw [hxs, List.getElem?_concat_length]
  | display b calls f hf hpc | clear b calls keep hpc =>
    exact hcall _ _ _ _ (h.once _ _) fun p _ hp => ⟨(hp.append _).painted, (hp.append _).data⟩
  | own j e b q u hb hq he hu =>
    intro p hp
    rw [put_images] at hp
    split at hp
    · rename_i hij
      subst hij
      obtain rfl := Option.some.inj hp
      exact ((ht q hq).next he hu).append _
    · exact (ht p hp).append _

lemma traced_run (h : Sole w vars canvas i a) {s : Device α} {es : List (Ev α)}
    (hr : run (step w vars) (.start vars canvas) es = some s) :
    ∀ p, s.images i = some p → Traced (told a es) p := by
  suffices hgen : ∀ {s s' : Device α} {xs : List α}, (s.gates a).decodes = xs.length →
      (∀ p, s.images i = some p → Traced xs p) → run (step w vars) s es = some s' →
      ∀ p, s'.images i = some p → Traced (xs ++ told a es) p by
    refine @hgen _ _ [] rfl (fun p hp => ?_) hr
    obtain ⟨slot, -, rfl⟩ := Option.map_eq_some_iff.mp hp
    exact ⟨fun b => .inl ⟨rfl, rfl⟩, by simp [Part.start]⟩
  clear hr s
  induction es with
  | nil =>
    intro s s' xs hxs ht hr
    obtain rfl := Option.some.inj hr
    simpa [told] using ht
  | cons e es ih =>
    intro s s' xs hxs ht hr
    obtain ⟨u, hu, hr⟩ := Option.bind_eq_some_iff.mp hr
    have hst := move_of_step hu
    have hlen : (u.gates a).decodes = (xs ++ told a [e]).length := by
      rw [decodes_move hst, hxs, List.length_append]
    rw [told_cons, ← List.append_assoc]
    exact ih hlen (traced_move h hxs ht hst) hr

end Alone

/-! ### The images of a configuration -/

section Configured

variable {cfg : Config} {events : List Event} {d : ComponentData} {p : Platform} {w : Output}
  {slots : List (Option ℕ)} {main : List (Instr ℕ)} {setups : List (Component ℕ)}

lemma address_eq_some {vars : ℕ → Option Var} {i : ℕ} {a : Address} :
    address vars i = some a ↔ vars i = some ⟨a.1, .imageSlot a.2⟩ := by
  obtain ⟨h, n⟩ := a
  unfold address
  split
  · rename_i h' n' hv
    simp [hv]
  · rename_i hno
    exact iff_of_false (by simp) (hno h n)

lemma address_iff (hs : validateSlots cfg .empty events = .ok (slots, d)) {i : ℕ} {a : Address} :
    address (vars cfg events slots) i = some a ↔
      ∃ parent q, events[i]? = some (.entry ⟨parent, .image q⟩) ∧ cfg.resolve parent = some a.1 ∧
        a.2.toNat = place cfg events a.1 i := by
  rw [address_eq_some]
  constructor
  · intro hv
    obtain ⟨⟨parent, child⟩, he, hr, hk⟩ := vars_some hv
    cases child with
    | image q =>
      obtain ⟨hjoin, hlt⟩ := slot_of_image hs he hr rfl
      rw [hjoin] at hk
      obtain hn : UInt8.ofNat (place cfg events a.1 i) = a.2 := by simpa [kindOf] using hk
      exact ⟨parent, q, he, hr, by rw [← hn, UInt8.toNat_ofNat_of_lt' hlt]⟩
    | textSensor b => cases b <;> cases hk
    | _ => cases hk
  · rintro ⟨parent, q, he, hr, hn⟩
    obtain ⟨hjoin, -⟩ := slot_of_image hs he hr rfl
    rw [vars_eq he hr, hjoin, ← hn]
    simp [kindOf]

lemma address_unique (hs : validateSlots cfg .empty events = .ok (slots, d)) {i j : ℕ} {a : Address}
    (hi : address (vars cfg events slots) i = some a)
    (hj : address (vars cfg events slots) j = some a) : j = i := by
  obtain ⟨_, _, he, hr, hn⟩ := (address_iff hs).mp hi
  obtain ⟨_, _, he', hr', hn'⟩ := (address_iff hs).mp hj
  rcases lt_trichotomy i j with hlt | heq | hlt
  · have := place_lt he hr hlt
    omega
  · exact heq.symm
  · have := place_lt he' hr' hlt
    omega

/-- The device after a boot in which the images are given this. -/
def booted (cfg : Config) (events : List Event) (slots : List (Option ℕ)) (p : Platform)
    (w : Output) (main : List (Instr ℕ)) (setups : List (Component ℕ)) (canvas : ℕ → Canvas) :
    World ℕ :=
  device cfg events slots p w main setups fun i => (image (vars cfg events slots) canvas i).isSome

lemma hears_slot {place : ℕ} {child : Child} {s : Signal} {n : UInt8} (hn : s.slot = some n) :
    hears place child s = true ↔ (∃ q, child = .image q) ∧ n.toNat = place := by
  cases child with
  | image q => cases s <;> cases hn <;> simp [hears]
  | textSensor pairingCode => cases pairingCode <;> cases s <;> cases hn <;> simp [hears]
  | _ => cases s <;> cases hn <;> simp [hears]

lemma sole (hg : Generated cfg events d p w)
    (hs : validateSlots cfg .empty events = .ok (slots, d))
    (hb : Boots cfg events slots w.code main setups) {i : ℕ} {a : Address}
    (hi : address (vars cfg events slots) i = some a) (canvas : ℕ → Canvas) :
    Sole (booted cfg events slots p w main setups canvas) (vars cfg events slots) canvas i a where
  address := hi
  unique _ hj := address_unique hs hi hj
  once h s := nodup_react hb h s
  called h s n hn j := by
    rw [booted, address_iff hs]
    have hns : s ≠ .player := by rintro rfl; cases hn
    refine (mem_react hg hs hb fun hs => absurd hs hns).trans ?_
    constructor
    · rintro ⟨⟨parent, child⟩, he, hr, hears, hset⟩
      obtain ⟨⟨q, rfl⟩, hplace⟩ := (hears_slot hn).mp hears
      exact ⟨⟨parent, q, he, hr, hplace⟩, hset rfl⟩
    · rintro ⟨⟨parent, q, he, hr, hplace⟩, hset⟩
      exact ⟨_, he, hr, (hears_slot hn).mpr ⟨⟨q, rfl⟩, hplace⟩, fun _ => hset⟩

/-- What holds of an image that has been set up: its views do not tear, between two handlers the
library waits for an ack exactly while a transition is pending, and what it shows is black or was
painted from a payload that came for its own address. -/
structure Sound {α : Type*} (a : Address) (es : List (Ev α)) (p : Part α) (g : Gate) : Prop where
  untorn : NoTear.Decoding (p.beside g) → p.slot.Untorn
  acked : p.pc = .idle → g.owes = p.slot.transitionPending
  own : Painted (told a es) (p.mem p.slot.current) (p.source p.slot.current)

lemma run_image {α : Type*} {v : World ℕ} {vars : ℕ → Option Var} {canvas : ℕ → Canvas} {i : ℕ}
    {a : Address} (h : Sole v vars canvas i a) {slot : Slot}
    (hset : (canvas i).setup a.2 = some slot) {es : List (Ev α)} {s : Device α}
    (hr : run (step v vars) (.start vars canvas) es = some s) :
    ∃ p, s.images i = some p ∧ run SlotMachine.step (.start slot) (es.filterMap (Ev.read a i)) =
      some (p.beside (s.gates a)) ∧ Sound a es p (s.gates a) := by
  have himg : image vars canvas i = some slot := by simp [image, h.address, hset]
  have hstart : (Device.start vars canvas : Device α).Is i a (.start slot) :=
    ⟨.start slot, by simp [Device.start, himg], rfl⟩
  obtain ⟨t, ⟨p, hp, rfl⟩, hrun⟩ := run_simulates
    (fun s e s' t hs hst => move_simulates h (by simp [himg]) hs (move_of_step hst)) hstart hr
  have hreach : SlotMachine.Reachable (p.beside (s.gates a)) :=
    ⟨_, ⟨_, _, _, slot, hset, rfl⟩, _, hrun⟩
  refine ⟨p, hp, hrun, fun hdec => ?_, SlotProgress.owes_idle hreach, ?_⟩
  · have hrest := (NoTear.inv_reachable hreach).at_pc.rest hdec.not_closed
    exact ImageSlot.Slot.untorn_of_settled hrest.current hrest.settled
  · exact (traced_run h hr p hp).painted _

end Configured

/-- **The images of a device keep apart**: of every accepted configuration a program is generated
that, booted in whatever order, gives every image an address of its own. In every run, in which the
libraries of all hubs tell what they like of all slots and the code of the images takes its steps
in between, an image that could be set up is a slot machine that takes part in what is for it
alone, and shows nothing but what came for its own place at its own hub. One that could not be set
up costs its own slot, which gets one payload at most, and no other. -/
theorem images_apart {cfg : Config} {events : List Event} {d : ComponentData}
    {order : List HubConfig} (ha : Accepted cfg events d) (hn : (ids cfg).Nodup)
    (ho : order.Perm cfg.hubs) (core : Sdkconfig) (p : Platform) (canvas : ℕ → Canvas) (α : Type*) :
    ∃ slots w, validateSlots cfg .empty events = .ok (slots, d) ∧
      generate cfg d order core = .ok w ∧
      ∀ main setups, Boots cfg events slots w.code main setups →
        ∀ i parent q h, events[i]? = some (.entry ⟨parent, .image q⟩) →
          cfg.resolve parent = some h →
          ∃ n : UInt8, n.toNat = place cfg events h i ∧
            (∀ j, address (vars cfg events slots) j = some (h, n) ↔ j = i) ∧
            ∀ (es : List (Ev α)) s,
              run (step (booted cfg events slots p w main setups canvas) (vars cfg events slots))
                (.start (vars cfg events slots) canvas) es = some s →
              match (canvas i).setup n with
              | some slot => ∃ part, s.images i = some part ∧
                  run SlotMachine.step (.start slot) (es.filterMap (Ev.read (h, n) i)) =
                    some (part.beside (s.gates (h, n))) ∧
                  Sound (h, n) es part (s.gates (h, n))
              | none => (told (h, n) es).length ≤ 1 := by
  obtain ⟨slots, hs⟩ := validateSlots_of_validate ha.valid
  obtain ⟨w, hw, hg⟩ := generate_fields ha hn ho core p
  refine ⟨slots, w, hs, hw, fun main setups hb i parent q h he hr => ?_⟩
  obtain ⟨-, hlt⟩ := slot_of_image hs he hr rfl
  have hplace : (UInt8.ofNat (place cfg events h i)).toNat = place cfg events h i :=
    UInt8.toNat_ofNat_of_lt' hlt
  have hi : address (vars cfg events slots) i = some (h, UInt8.ofNat (place cfg events h i)) :=
    (address_iff hs).mpr ⟨parent, q, he, hr, hplace⟩
  have hsole := sole hg hs hb hi canvas
  refine ⟨_, hplace, fun j => ⟨hsole.unique j, fun hj => hj ▸ hi⟩, fun es s hrun => ?_⟩
  split
  · rename_i slot hset
    exact run_image hsole hset hrun
  · rename_i hset
    exact told_failed hsole (by simp [image, hi, hset]) hrun

/-- The den's portrait finds no memory for its second frame. -/
def houseCanvas (i : ℕ) : Canvas where
  currentImage := ⟨none, 0, 0, false⟩
  transitionImage := some ⟨none, 0, 0, false⟩
  width := 2
  height := 2
  frameSize := 4
  allocation := ⟨some (2 * i), if i = 4 then none else some (2 * i + 1), fun p q hp hq => by
    obtain rfl := Option.some.inj hp
    split at hq
    · cases hq
    · obtain rfl := Option.some.inj hq
      exact (Nat.lt_succ_self (2 * i)).ne⟩

/-- Two images are decoded at once, a payload comes for the portrait as well, and a clear for the
attic while the den's first frame is displayed. -/
def houseRun : List (Ev String) :=
  [.decode ("den", 0) "night", .decode ("attic", 0) "day", .own 0 .pick, .own 1 .pick,
    .decode ("den", 1) "face", .own 0 (.finish true), .own 1 .paint, .own 0 .commit,
    .display ("den", 1) 0, .display ("den", 0) 1, .own 0 .main, .clear ("attic", 0) 0 false] ++
    List.replicate 5 (.own 0 .main)

def houseOutput : Output :=
  (generate displays.config houseData displays.config.hubs fun _ => none).toOption.getD
    ⟨.empty, [], [], [], fun _ => none⟩

theorem images_apart_house :
    ∃ s part, run (step (booted displays.config houseEvents houseSlots firmware houseOutput
        (houseMain houseOutput) houseSetups houseCanvas)
        (vars displays.config houseEvents houseSlots))
        (.start (vars displays.config houseEvents houseSlots) houseCanvas) houseRun = some s ∧
      s.images 0 = some part ∧ part.source part.slot.current = some "night" ∧
      told ("den", 0) houseRun = ["night"] ∧ (told ("den", 1) houseRun).length ≤ 1 := by
  obtain ⟨slots, w, hs, hw, hall⟩ := images_apart house_accepted (by decide) (List.Perm.refl _)
    (fun _ => none) firmware houseCanvas String
  obtain ⟨rfl, -⟩ := Prod.mk.inj (Except.ok.inj (hs.symm.trans house_slots))
  have hgen : generate displays.config houseData displays.config.hubs (fun _ => none) =
      .ok houseOutput := by rfl
  obtain rfl := Except.ok.inj (hw.symm.trans hgen)
  have himages := hall _ _ (house_boots houseOutput)
  obtain ⟨s, hrun⟩ : ∃ s, run (step (booted displays.config houseEvents houseSlots firmware
      houseOutput (houseMain houseOutput) houseSetups houseCanvas)
      (vars displays.config houseEvents houseSlots))
      (.start (vars displays.config houseEvents houseSlots) houseCanvas) houseRun = some s :=
    Option.isSome_iff_exists.mp (by decide +kernel)
  obtain ⟨n, hn, -, hcover⟩ := himages 0 _ _ "den" rfl rfl
  obtain rfl : n = 0 := UInt8.toNat_inj.mp hn
  obtain ⟨m, hm, -, hportrait⟩ := himages 4 _ _ "den" rfl rfl
  obtain rfl : m = 1 := UInt8.toNat_inj.mp hm
  obtain ⟨part, hpart, hown, hsound⟩ := hcover houseRun s hrun
  refine ⟨s, part, hrun, hpart, ?_, rfl, hportrait houseRun s hrun⟩
  have hstamp : SlotOrder.shownStamp (part.beside (s.gates ("den", 0))) = 1 := by
    obtain ht := Option.some.inj (hown.symm.trans rfl)
    rw [ht]
    rfl
  obtain ⟨hblack, -⟩ | ⟨k, x, hk, hx, hsource⟩ := hsound.own
  · exact absurd (hstamp.symm.trans hblack) (by decide)
  · obtain rfl : k = 0 := by
      have := hstamp.symm.trans hk
      omega
    rw [hsource]
    exact hx.symm

end SendspinMc.Artwork
