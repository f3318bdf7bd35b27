import Mathlib.Tactic.Common
import SendspinMc.Lib.Mirror
import SendspinMc.Lib.Writes

/-!
The media player entity, which mirrors the group of this client.

Three callbacks write it: group updates its state, controller states its volume and mute, and a
lost connection its state again.
-/

namespace SendspinMc.MediaPlayer

open SendspinMc.Lib.Mirror SendspinMc.Lib.Writes

/-- Of the states of the framework, those this entity takes. -/
inductive MediaPlayerState
  | none
  | idle
  | playing
  deriving DecidableEq

inductive PlaybackState
  | playing
  | stopped
  /-- Any other value of the enumeration. -/
  | other
  deriving DecidableEq

/-- What is published as one, over the floats `β` of the volume. -/
structure Shown (β : Type*) where
  state : MediaPlayerState
  volume : β
  muted : Bool
  deriving DecidableEq

variable {β : Type*}

def publishState (s : Entity (Shown β)) : Entity (Shown β) := s.publish s.raw

/-- The entity of the framework, with its first volume. -/
def new (volume : β) : Entity (Shown β) := .new ⟨.none, volume, false⟩

/-- `setup()`, which registers the three callbacks. -/
def setup (s : Entity (Shown β)) : Entity (Shown β) :=
  publishState { s with raw := { s.raw with state := .idle } }

def setPlaybackState (s : Entity (Shown β)) (newState : MediaPlayerState) : Entity (Shown β) :=
  if s.raw.state = newState then s
  else publishState { s with raw := { s.raw with state := newState } }

/-- The state of the entity for one of the group. -/
def PlaybackState.state : PlaybackState → MediaPlayerState
  | .playing => .playing
  | .stopped => .idle
  | .other => .idle

def onGroupUpdate (s : Entity (Shown β)) (playbackState : Option PlaybackState) :
    Entity (Shown β) :=
  match playbackState with
  | some p => setPlaybackState s p.state
  | none => s

def onControllerStateClear (s : Entity (Shown β)) : Entity (Shown β) := setPlaybackState s .idle

section controller

/- The volume as a float, `static_cast<float>(volume) / 100.0f`. -/
variable [DecidableEq β] (percent : UInt8 → β)

def onControllerState (s : Entity (Shown β)) (volume : UInt8) (muted : Bool) :
    Entity (Shown β) :=
  if percent volume ≠ s.raw.volume ∨ muted ≠ s.raw.muted then
    publishState { s with raw := { s.raw with volume := percent volume, muted := muted } }
  else s

inductive Ev
  | groupUpdate (playbackState : Option PlaybackState)
  | controllerState (volume : UInt8) (muted : Bool)
  | controllerStateClear

def step (s : Entity (Shown β)) : Ev → Entity (Shown β)
  | .groupUpdate playbackState => onGroupUpdate s playbackState
  | .controllerState volume muted => onControllerState percent s volume muted
  | .controllerStateClear => onControllerStateClear s

/-- The entity, set up, after these events. -/
def run (volume : β) (es : List Ev) : Entity (Shown β) :=
  es.foldl (step percent) (setup (new volume))

end controller

/-! ### What the events write -/

/-- The state an event writes. -/
def Ev.tells : Ev → Option MediaPlayerState
  | .groupUpdate playbackState => playbackState.map PlaybackState.state
  | .controllerState _ _ => none
  | .controllerStateClear => some .idle

/-- The volume and mute an event writes. -/
def Ev.controls (percent : UInt8 → β) : Ev → Option (β × Bool)
  | .groupUpdate _ => none
  | .controllerState volume muted => some (percent volume, muted)
  | .controllerStateClear => none

/-- An event carries a playback state, or is a clear. -/
def Ev.speaks (e : Ev) : Bool := e.tells.isSome

/-- What the entity should show after an event. -/
def next (percent : UInt8 → β) (s : Shown β) (e : Ev) : Shown β :=
  let (volume, muted) := (e.controls percent).getD (s.volume, s.muted)
  { state := e.tells.getD s.state, volume, muted }

variable {percent : UInt8 → β}

lemma sets_state : Sets (next percent) Shown.state Ev.tells := fun _ _ => rfl

lemma sets_controls :
    Sets (next percent) (fun s => (s.volume, s.muted)) (Ev.controls percent) := fun _ _ => rfl

variable [DecidableEq β]

lemma setPlaybackState_eq (s : Entity (Shown β)) (newState : MediaPlayerState) :
    setPlaybackState s newState = s.set { s.raw with state := newState } := by
  refine set_of_iff ⟨fun h => ?_, fun h => ?_⟩
  · rw [← h]
  · rw [← h]

lemma onControllerState_eq (s : Entity (Shown β)) (volume : UInt8) (muted : Bool) :
    onControllerState percent s volume muted =
      s.set { s.raw with volume := percent volume, muted := muted } := by
  refine set_of_not_iff ?_
  rw [← not_and_or, not_iff_not]
  constructor
  · rintro ⟨hv, hm⟩
    rw [hv, hm]
  · intro h
    rw [← h]
    exact ⟨rfl, rfl⟩

lemma set_self (s : Entity (Shown β)) : s.set s.raw = s := if_pos rfl

lemma step_follows : Follows (fun _ => True) (step percent) (next percent) := by
  intro s e _
  cases e with
  | groupUpdate playbackState =>
    cases playbackState with
    | none => exact (set_self s).symm
    | some p => exact setPlaybackState_eq s p.state
  | controllerState volume muted => exact onControllerState_eq s volume muted
  | controllerStateClear => exact setPlaybackState_eq s .idle

lemma run_raw (volume : β) (es : List Ev) :
    (run percent volume es).raw = es.foldl (next percent) ⟨.idle, volume, false⟩ :=
  step_follows.raw (fun _ _ => trivial) _

/-! ### The last that was told -/

lemma filterMap_tells (es : List Ev) :
    es.filterMap Ev.tells = (es.filter Ev.speaks).map fun e => e.tells.getD .idle := by
  induction es with
  | nil => rfl
  | cons e es ih =>
    rw [List.filterMap_cons, List.filter_cons, Ev.speaks]
    cases h : e.tells with
    | none => exact ih
    | some v => simp [h, ih]

lemma tells_playing (e : Ev) :
    e.tells.getD .idle = .playing ↔ e = .groupUpdate (some .playing) := by
  cases e with
  | groupUpdate playbackState =>
    cases playbackState with
    | none => simp [Ev.tells]
    | some p => cases p <;> simp [Ev.tells, PlaybackState.state]
  | controllerState volume muted => simp [Ev.tells]
  | controllerStateClear => simp [Ev.tells]

lemma playing_iff (volume : β) (es : List Ev) :
    (run percent volume es).raw.state = .playing ↔
      (es.filter Ev.speaks).getLast? = some (.groupUpdate (some .playing)) := by
  rw [run_raw, sets_state.foldl, filterMap_tells, List.getLast?_map]
  cases (es.filter Ev.speaks).getLast? with
  | none => simp
  | some e => simpa using tells_playing e

/-- **The media player mirrors the group**: it plays exactly if the last that was told of the
playback, by a group update or by a lost connection, is a group update that says so; volume and
mute are those of the last controller state; and it publishes once when it is set up, and then
what changes. -/
theorem mirrors_group (percent : UInt8 → β) (volume : β) (es : List Ev) :
    ((run percent volume es).raw.state = .playing ↔
        (es.filter Ev.speaks).getLast? = some (.groupUpdate (some .playing))) ∧
      ((run percent volume es).raw.volume, (run percent volume es).raw.muted) =
        (es.filterMap (Ev.controls percent)).getLast?.getD (volume, false) ∧
      (run percent volume []).published.length = 1 ∧
      ∀ e, (run percent volume (es ++ [e])).published =
        if (run percent volume (es ++ [e])).raw = (run percent volume es).raw then
          (run percent volume es).published
        else (run percent volume (es ++ [e])).raw :: (run percent volume es).published := by
  refine ⟨playing_iff volume es, ?_, rfl, fun e => ?_⟩
  · rw [run_raw]
    exact sets_controls.foldl _ es
  · have hraw : (run percent volume (es ++ [e])).raw =
        next percent (run percent volume es).raw e := by
      rw [run_raw, run_raw, List.foldl_append]
      rfl
    rw [hraw]
    exact step_follows.published trivial es _

end SendspinMc.MediaPlayer
