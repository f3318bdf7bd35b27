import SendspinMc.Lib.Writes
import SendspinMc.Metadata

/-!
The track progress sensor.

The server reports a position only when playback changes. In between the sensor polls the hub,
which interpolates, and it must do so only while the track is playing.
-/

namespace SendspinMc.TrackProgress

open SendspinMc.Lib.Writes SendspinMc.Metadata

/-- What the hub's answer depends on. -/
structure Hub where
  ready : Bool
  /-- The answer of the metadata role, `none` for a null pointer. -/
  metadataRole : Option ℕ

def Hub.getTrackProgressMs (h : Hub) : ℕ :=
  if h.ready then h.metadataRole.getD 0 else 0

structure Sensor (α : Type*) where
  raw : Flt α
  /-- The poller is armed. -/
  polling : Bool
  /-- What was published, newest first. -/
  published : List (Flt α)

inductive Ev
  | update (u : Update) (hub : Hub)
  /-- The poll interval has elapsed. -/
  | interval (hub : Hub)

variable {α : Type*}

namespace Sensor

def new : Sensor α := ⟨NAN, false, []⟩

def publishState (s : Sensor α) (x : Flt α) : Sensor α :=
  { s with raw := x, published := x :: s.published }

def startPoller (s : Sensor α) : Sensor α := { s with polling := true }
def stopPoller (s : Sensor α) : Sensor α := { s with polling := false }

@[simp] lemma publishState_raw (s : Sensor α) (x : Flt α) : (s.publishState x).raw = x := rfl
@[simp] lemma publishState_polling (s : Sensor α) (x : Flt α) :
    (s.publishState x).polling = s.polling := rfl
@[simp] lemma publishState_published (s : Sensor α) (x : Flt α) :
    (s.publishState x).published = x :: s.published := rfl
@[simp] lemma startPoller_raw (s : Sensor α) : s.startPoller.raw = s.raw := rfl
@[simp] lemma startPoller_polling (s : Sensor α) : s.startPoller.polling = true := rfl
@[simp] lemma startPoller_published (s : Sensor α) : s.startPoller.published = s.published := rfl
@[simp] lemma stopPoller_raw (s : Sensor α) : s.stopPoller.raw = s.raw := rfl
@[simp] lemma stopPoller_polling (s : Sensor α) : s.stopPoller.polling = false := rfl
@[simp] lemma stopPoller_published (s : Sensor α) : s.stopPoller.published = s.published := rfl

/-- `setup()`, which registers the callback below. -/
def setup (s : Sensor α) : Sensor α := s.stopPoller

/-- A polling component is set up with its poller already started. -/
def callSetup (s : Sensor α) : Sensor α := s.startPoller.setup

/- The conversion of an integer, which is never NAN. -/
variable (toFloat : ℤ → α)

/-- The callback of the metadata updates. -/
def onUpdate (s : Sensor α) (metadata : ServerMetadataState) (hub : Hub) : Sensor α :=
  match metadata.progress with
  | none =>
    let s := s.stopPoller
    if isnan s.raw then s else s.publishState NAN
  | some progress =>
    if progress.playbackSpeed = 0 then
      s.stopPoller.publishState (some (toFloat progress.trackProgress))
    else
      (s.publishState (some (toFloat hub.getTrackProgressMs))).startPoller

def update (s : Sensor α) (hub : Hub) : Sensor α :=
  s.publishState (some (toFloat hub.getTrackProgressMs))

def step (s : Sensor α) : Ev → Sensor α
  | .update u hub => s.onUpdate toFloat u.state hub
  | .interval hub => if s.polling then s.update toFloat hub else s

/-- The sensor, set up, after these events. -/
def run (es : List Ev) : Sensor α := es.foldl (step toFloat) new.callSetup

lemma run_append (es fs : List Ev) :
    run toFloat (es ++ fs) = fs.foldl (step toFloat) (run toFloat es) := by
  unfold run
  rw [List.foldl_append]

end Sensor

/-! ### What the server said -/

/-- The progress an update reports. -/
def Ev.reported : Ev → Option (Option Progress)
  | .update u _ => some u.state.progress
  | .interval _ => none

def Ev.IsInterval : Ev → Prop
  | .update _ _ => False
  | .interval _ => True

/-- The progress of the last update, if there is any. -/
def lastProgress (es : List Ev) : Option Progress := (es.filterMap Ev.reported).getLast?.getD none

/-- The last update is of a track that is playing. -/
def Playing (es : List Ev) : Prop := ∃ p, lastProgress es = some p ∧ p.playbackSpeed ≠ 0

/-- The changes from a known to an unknown progress. -/
def losses : Option Progress → List (Option Progress) → ℕ
  | _, [] => 0
  | last, p :: ps => (if last.isSome && p.isNone then 1 else 0) + losses p ps

/-- The last progress, after one more event. -/
def next (last : Option Progress) (e : Ev) : Option Progress := e.reported.getD last

lemma foldl_next (es : List Ev) : es.foldl next none = lastProgress es :=
  Sets.foldl (fun _ _ => rfl : Sets next id Ev.reported) none es

/-! ### The sensor keeps up with it -/

variable {toFloat : ℤ → α}

/-- A sensor after updates of which the last reported this progress. -/
structure Tracks (toFloat : ℤ → α) (last : Option Progress) (s : Sensor α) : Prop where
  polling : s.polling = last.any fun p => p.playbackSpeed ≠ 0
  unknown : isnan s.raw = last.isNone
  paused : ∀ p, last = some p → p.playbackSpeed = 0 → s.raw = some (toFloat p.trackProgress)

lemma tracks_callSetup : Tracks toFloat none (Sensor.new.callSetup) where
  polling := rfl
  unknown := rfl
  paused _ h := nomatch h

lemma onUpdate_tracks (s : Sensor α) (metadata : ServerMetadataState) (hub : Hub) :
    Tracks toFloat metadata.progress (s.onUpdate toFloat metadata hub) := by
  unfold Sensor.onUpdate
  cases metadata.progress with
  | none =>
    cases hs : isnan s.raw with
    | true => exact ⟨by simp [hs], by simp [hs], nofun⟩
    | false => exact ⟨by simp [hs], by simp [hs], nofun⟩
  | some p =>
    by_cases hp : p.playbackSpeed = 0
    · refine ⟨by simp [hp], by simp [hp], fun q hq _ => ?_⟩
      obtain rfl := Option.some.inj hq
      simp [hp]
    · refine ⟨by simp [hp], by simp [hp], fun q hq h0 => ?_⟩
      obtain rfl := Option.some.inj hq
      exact absurd h0 hp

lemma step_interval {s : Sensor α} (h : s.polling = false) {e : Ev} (he : e.IsInterval) :
    s.step toFloat e = s := by
  cases e with
  | update u hub => exact he.elim
  | interval hub => simp [Sensor.step, h]

lemma step_tracks {last : Option Progress} {s : Sensor α} (h : Tracks toFloat last s) (e : Ev) :
    Tracks toFloat (next last e) (s.step toFloat e) := by
  cases e with
  | update u hub => exact onUpdate_tracks s u.state hub
  | interval hub =>
    cases hs : s.polling with
    | false => rw [step_interval hs (by trivial : Ev.IsInterval (.interval hub))]; exact h
    | true =>
      -- a track that is playing has a position, which stays known
      obtain ⟨p, rfl, hp⟩ : ∃ p, last = some p ∧ p.playbackSpeed ≠ 0 := by
        have := h.polling.symm.trans hs
        simpa [Option.any_eq_true] using this
      simp only [Sensor.step, hs, if_true, Sensor.update, next, Ev.reported, Option.getD_none]
      refine ⟨by simp [hs, hp], by simp, fun q hq h0 => ?_⟩
      obtain rfl := Option.some.inj hq
      exact absurd h0 hp

theorem run_tracks (es : List Ev) : Tracks toFloat (lastProgress es) (Sensor.run toFloat es) := by
  rw [← foldl_next]
  exact List.foldl_rel tracks_callSetup fun e _ _ _ h => step_tracks h e

lemma playing_iff (toFloat : ℤ → α) (es : List Ev) :
    (Sensor.run toFloat es).polling = true ↔ Playing es := by
  rw [(run_tracks es).polling]
  unfold Playing
  cases lastProgress es <;> simp

lemma run_intervals {es is : List Ev} (h : ¬ Playing es) (hi : ∀ e ∈ is, e.IsInterval) :
    Sensor.run toFloat (es ++ is) = Sensor.run toFloat es := by
  have hs : (Sensor.run toFloat es).polling = false := by
    rw [← playing_iff toFloat] at h
    simpa using h
  rw [Sensor.run_append]
  generalize Sensor.run toFloat es = s at hs
  induction is with
  | nil => rfl
  | cons e is ih =>
    obtain ⟨he, his⟩ := List.forall_mem_cons.mp hi
    rw [List.foldl_cons, step_interval hs he]
    exact ih his

/-! ### Every loss is published, once -/

lemma step_losses {last : Option Progress} {s : Sensor α} (h : Tracks toFloat last s) (e : Ev) :
    (s.step toFloat e).published.countP isnan =
      s.published.countP isnan + losses last e.reported.toList := by
  cases e with
  | interval hub =>
    simp only [Sensor.step, Sensor.update]
    split <;> simp [losses, Ev.reported]
  | update u hub =>
    simp only [Sensor.step, Sensor.onUpdate, Ev.reported, Option.toList_some, losses]
    cases u.state.progress with
    | none =>
      have hs := h.unknown
      cases last with
      | none => simp [hs]
      | some q => simp [hs, List.countP_cons]
    | some p => by_cases hp : p.playbackSpeed = 0 <;> simp [hp]

lemma losses_cons (last : Option Progress) (e : Ev) (es : List Ev) :
    losses last ((e :: es).filterMap Ev.reported) =
      losses last e.reported.toList + losses (next last e) (es.filterMap Ev.reported) := by
  cases e <;> simp [List.filterMap_cons, Ev.reported, losses, next]

lemma foldl_losses {last : Option Progress} {s : Sensor α} (h : Tracks toFloat last s)
    (es : List Ev) :
    (es.foldl (Sensor.step toFloat) s).published.countP isnan =
      s.published.countP isnan + losses last (es.filterMap Ev.reported) := by
  induction es generalizing last s with
  | nil => rfl
  | cons e es ih =>
    rw [List.foldl_cons, ih (step_tracks h e), step_losses h, losses_cons, Nat.add_assoc]

/-- **The track progress follows the server**: the poller is armed exactly while the last update
is of a playing track, so nothing is published on stale data; the state is NAN exactly as long as
the progress is unknown, and the reported position while paused; and NAN is published once for
every time that the progress is lost. -/
theorem follows_server (toFloat : ℤ → α) (es : List Ev) :
    ((Sensor.run toFloat es).polling = true ↔ Playing es) ∧
      (¬ Playing es → ∀ is, (∀ e ∈ is, Ev.IsInterval e) →
        Sensor.run toFloat (es ++ is) = Sensor.run toFloat es) ∧
      (isnan (Sensor.run toFloat es).raw = true ↔ lastProgress es = none) ∧
      (∀ p, lastProgress es = some p → p.playbackSpeed = 0 →
        (Sensor.run toFloat es).raw = some (toFloat p.trackProgress)) ∧
      (Sensor.run toFloat es).published.countP isnan =
        losses none (es.filterMap Ev.reported) := by
  refine ⟨playing_iff toFloat es, fun h is hi => run_intervals h hi, ?_, (run_tracks es).paused, ?_⟩
  · rw [(run_tracks es).unknown, Option.isNone_iff_eq_none]
  · have h := foldl_losses (@tracks_callSetup α toFloat) es
    simpa [Sensor.run, Sensor.callSetup, Sensor.setup, Sensor.new] using h

end SendspinMc.TrackProgress
