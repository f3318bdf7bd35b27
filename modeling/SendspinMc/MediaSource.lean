import Mathlib.Tactic.Common

/-!
The media source of a hub: the URIs it answers to, the orchestrator's calls and the library's
stream callbacks.

What a call does outside the source is noted, newest first, in `effects`; the play requests
the orchestrator has been sent and not yet delivered stand in `requests`.
-/

namespace SendspinMc.MediaSource

/-! ### URIs -/

/-- `std::string::starts_with`. -/
def startsWith (s p : String) : Bool := p.toList.isPrefixOf s.toList

/-- `std::string::substr`, to the end. -/
def substr (s : String) (pos : ℕ) : String := String.ofList (s.toList.drop pos)

/-- `SendspinMcHub::get_media_source_uri`. -/
def getMediaSourceUri (clientId target : String) : String :=
  "sendspin_mc://" ++ clientId ++ "/" ++ target

/-- `SendspinMcHub::get_current_source_uri`. -/
def getCurrentSourceUri (clientId : String) : String := getMediaSourceUri clientId "current"

/-- `can_handle`, for the source of the hub with this `client_id`. -/
def canHandle (clientId uri : String) : Bool := startsWith uri (getMediaSourceUri clientId "")

/-! ### The source and its hub -/

/-- What the source reads of its hub. -/
structure Parent where
  clientId : String
  clientRunning : Bool
  /-- The group's playback state is `PLAYING`. -/
  groupPlaying : Bool
  /-- `controller_role_ != nullptr`. -/
  controllerRole : Bool

/-- `MediaSourceState`, of which the source only sets these two. -/
inductive State
  | idle | playing
  deriving DecidableEq

/-- `MediaSourceCommand`. -/
inductive Command
  | stop | play | pause | next | previous | repeatAll | repeatOne | repeatOff | shuffle | unshuffle
  | other
  deriving DecidableEq

/-- `SendspinControllerCommand`, as far as the source sends it. -/
inductive ControllerCommand
  | play | pause | next | previous | repeatAll | repeatOne | repeatOff | shuffle | unshuffle
  deriving DecidableEq

/-- A call of the library client. -/
inductive Effect
  | connect (url : String)
  | leave
  | send (command : ControllerCommand)
  deriving DecidableEq

structure Source where
  parent : Parent
  state : State
  pendingStart : Bool
  ready : Bool
  failed : Bool
  hasListener : Bool
  requests : List String
  effects : List Effect

def Source.note (s : Source) (e : Effect) : Source := { s with effects := e :: s.effects }

/-- `SendspinMcHub::connect_to_server`. -/
def Source.connectToServer (s : Source) (url : String) : Source :=
  if s.parent.clientRunning then s.note (.connect url) else s

/-- `SendspinMcHub::leave_group`. -/
def Source.leaveGroup (s : Source) : Source :=
  if s.parent.clientRunning && s.parent.groupPlaying then s.note .leave else s

/-- `SendspinMcHub::send_client_command`. -/
def Source.sendClientCommand (s : Source) (c : ControllerCommand) : Source :=
  if s.parent.clientRunning && s.parent.controllerRole then s.note (.send c) else s

/-- `request_play_uri_` of the media source interface: the listener queues the request. -/
def Source.requestPlayUri (s : Source) (uri : String) : Source :=
  if s.hasListener then { s with requests := s.requests ++ [uri] } else s

/-- `play_uri`. -/
def Source.playUri (s : Source) (uri : String) : Bool × Source :=
  let s := { s with pendingStart := false }
  if !s.ready || s.failed || !s.hasListener then (false, s)
  else if s.state ≠ .idle then (false, s)
  else if !s.parent.clientRunning then (false, s)
  else if !startsWith uri (getMediaSourceUri s.parent.clientId "") then (false, s)
  else
    let sendspinId := substr uri (getMediaSourceUri s.parent.clientId "").length
    if sendspinId = "" then (false, s)
    else
      let s := if sendspinId ≠ "current" then s.connectToServer ("ws://" ++ sendspinId) else s
      (true, { s with state := .playing })

/-- `on_stream_start`. -/
def Source.onStreamStart (s : Source) : Source :=
  if !s.pendingStart then
    { s with pendingStart := true }.requestPlayUri (getCurrentSourceUri s.parent.clientId)
  else s

/-- `on_stream_end`. -/
def Source.onStreamEnd (s : Source) : Source :=
  if s.state ≠ .idle then { s with state := .idle } else s

/-- `handle_command`. -/
def Source.handleCommand (s : Source) (command : Command) : Source :=
  if !s.parent.clientRunning then
    if command = .stop then s.onStreamEnd else s
  else
    match command with
    | .stop => if !s.pendingStart then s.leaveGroup else s
    | .play => s.sendClientCommand .play
    | .pause => s.sendClientCommand .pause
    | .next => s.sendClientCommand .next
    | .previous => s.sendClientCommand .previous
    | .repeatAll => s.sendClientCommand .repeatAll
    | .repeatOne => s.sendClientCommand .repeatOne
    | .repeatOff => s.sendClientCommand .repeatOff
    | .shuffle => s.sendClientCommand .shuffle
    | .unshuffle => s.sendClientCommand .unshuffle
    | .other => s

/-! ### What the pieces change -/

/-- Two sources that differ in what they asked of the library at most. -/
structure Quiet (s t : Source) : Prop where
  parent : t.parent = s.parent
  state : t.state = s.state
  pendingStart : t.pendingStart = s.pendingStart
  ready : t.ready = s.ready
  failed : t.failed = s.failed
  hasListener : t.hasListener = s.hasListener
  requests : t.requests = s.requests

lemma Quiet.refl (s : Source) : Quiet s s := ⟨rfl, rfl, rfl, rfl, rfl, rfl, rfl⟩

lemma quiet_note (s : Source) (e : Effect) : Quiet s (s.note e) :=
  ⟨rfl, rfl, rfl, rfl, rfl, rfl, rfl⟩

lemma quiet_leaveGroup (s : Source) : Quiet s s.leaveGroup := by
  unfold Source.leaveGroup
  split
  · exact quiet_note s _
  · exact .refl s

lemma quiet_sendClientCommand (s : Source) (c : ControllerCommand) :
    Quiet s (s.sendClientCommand c) := by
  unfold Source.sendClientCommand
  split
  · exact quiet_note s _
  · exact .refl s

lemma quiet_handleCommand {s : Source} (h : s.parent.clientRunning = true) (c : Command) :
    Quiet s (s.handleCommand c) := by
  unfold Source.handleCommand
  rw [if_neg (by simp [h])]
  cases c with
  | stop =>
    dsimp only
    split
    · exact quiet_leaveGroup s
    · exact .refl s
  | other => exact .refl s
  | _ => exact quiet_sendClientCommand s _

/-! ### What a URI carries -/

lemma getMediaSourceUri_toList (clientId target : String) :
    (getMediaSourceUri clientId target).toList =
      (getMediaSourceUri clientId "").toList ++ target.toList := by
  unfold getMediaSourceUri
  rw [String.append_empty, String.toList_append]

lemma canHandle_iff {clientId uri : String} :
    canHandle clientId uri = true ↔ ∃ target, uri = getMediaSourceUri clientId target := by
  rw [canHandle, startsWith, List.isPrefixOf_iff_prefix]
  constructor
  · rintro ⟨t, ht⟩
    refine ⟨String.ofList t, String.toList_inj.mp ?_⟩
    rw [getMediaSourceUri_toList, String.toList_ofList, ht]
  · rintro ⟨target, rfl⟩
    exact ⟨target.toList, (getMediaSourceUri_toList clientId target).symm⟩

lemma substr_getMediaSourceUri (clientId target : String) :
    substr (getMediaSourceUri clientId target) (getMediaSourceUri clientId "").length = target := by
  rw [substr, getMediaSourceUri_toList, ← String.length_toList, List.drop_left,
    String.ofList_toList]

/-! ### What `play_uri` does -/

/-- What is left of a `play_uri` that is refused. -/
def Source.delivered (s : Source) : Source := { s with pendingStart := false }

/-- A source that is ready to play. -/
structure Source.Playable (s : Source) : Prop where
  ready : s.ready = true
  failed : s.failed = false
  listener : s.hasListener = true
  running : s.parent.clientRunning = true

/-- The URI carries the hub's prefix and at least one character more. -/
def Carries (clientId uri : String) : Prop :=
  ∃ target, target ≠ "" ∧ uri = getMediaSourceUri clientId target

lemma playUri_false {s : Source} {uri : String} (h : (s.playUri uri).1 = false) :
    s.playUri uri = (false, s.delivered) := by
  unfold Source.playUri at h ⊢
  dsimp only at h ⊢
  split_ifs at h ⊢ <;> rfl

lemma playUri_refused {s : Source} {uri : String} (h : ¬ Carries s.parent.clientId uri) :
    s.playUri uri = (false, s.delivered) := by
  refine playUri_false ?_
  unfold Source.playUri
  dsimp only
  split_ifs with h₁ h₂ h₃ h₄ h₅ <;> try rfl
  all_goals
    refine absurd ?_ h
    obtain ⟨target, rfl⟩ := canHandle_iff.mp (by simpa [canHandle] using h₄)
    rw [substr_getMediaSourceUri] at h₅
    exact ⟨target, h₅, rfl⟩

lemma playUri_busy {s : Source} (h : s.state = .playing) (uri : String) :
    s.playUri uri = (false, s.delivered) := by
  refine playUri_false ?_
  unfold Source.playUri
  dsimp only
  rw [if_pos (show s.state ≠ .idle by simp [h])]
  split_ifs <;> rfl

lemma playUri_target {s : Source} (h : s.Playable) (hs : s.state = .idle) {target : String}
    (ht : target ≠ "") :
    s.playUri (getMediaSourceUri s.parent.clientId target) =
      (true, { s.delivered with
        state := .playing
        effects := (if target ≠ "current" then [.connect ("ws://" ++ target)] else []) ++
          s.effects }) := by
  have hcan : ∀ t, startsWith (getMediaSourceUri s.parent.clientId t)
      (getMediaSourceUri s.parent.clientId "") = true := fun t => canHandle_iff.mpr ⟨t, rfl⟩
  unfold Source.playUri
  by_cases hc : target = "current" <;>
    simp [h.ready, h.failed, h.listener, hs, h.running, hcan, substr_getMediaSourceUri, ht, hc,
      Source.connectToServer, Source.note, Source.delivered]

end SendspinMc.MediaSource
