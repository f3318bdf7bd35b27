import SendspinMc.StreamStart

/-!
When the orchestrator's `STOP` has an effect.

While the client runs, `STOP` leaves the group, which does nothing unless the group is playing.
A source can be playing without it: a `play_uri` for a remote server is accepted before there is
any stream.
-/

namespace SendspinMc.StopCommand

open SendspinMc.MediaSource SendspinMc.StreamStart SendspinMc.Lib.Runs

/-- The events of the source, and the hub starting or stopping its client. -/
inductive Ev
  | source (e : StreamStart.Ev)
  | running (b : Bool)

def step (w : World) : Ev → Option World
  | .source e => StreamStart.step w e
  | .running b =>
    some { w with
      source := { w.source with parent := { w.source.parent with clientRunning := b } } }

/-- A source that has not been asked for anything yet. -/
structure Unused (w : World) : Prop where
  idle : w.source.state = .idle
  pendingStart : w.source.pendingStart = false
  requests : w.source.requests = []

/-- A `STOP` stops the source or leaves the group, unless it is idle or a start is pending. -/
def Answered (w : World) : Prop :=
  w.source.state = .playing → w.source.pendingStart = false →
    (w.source.handleCommand .stop).state = .idle ∨
      (w.source.handleCommand .stop).effects = .leave :: w.source.effects

/-- A source that plays for its running client, with no start pending. -/
def plays (s : Source) : Bool :=
  s.state = .playing && !s.pendingStart && s.parent.clientRunning

lemma answered_iff {w : World} :
    Answered w ↔ (plays w.source = true → w.source.parent.groupPlaying = true) := by
  unfold Answered plays Source.handleCommand
  cases hs : w.source.state with
  | idle => simp
  | playing =>
    cases hp : w.source.pendingStart with
    | true => simp
    | false =>
      cases hr : w.source.parent.clientRunning with
      | false => simp [Source.onStreamEnd, hs]
      | true =>
        cases hg : w.source.parent.groupPlaying <;>
          simp [Source.leaveGroup, Source.note, hs, hr, hg]

/-! ### Which steps keep it so -/

/-- The checks of `play_uri`. -/
def accepts (s : Source) (uri : String) : Bool :=
  s.ready && !s.failed && s.hasListener && s.state = .idle && s.parent.clientRunning &&
    canHandle s.parent.clientId uri &&
    substr uri (getMediaSourceUri s.parent.clientId "").length ≠ ""

lemma playUri_snd (s : Source) (uri : String) :
    ∃ effects, (s.playUri uri).2 =
      { s.delivered with
        state := if accepts s uri then .playing else s.state
        effects := effects } := by
  unfold Source.playUri accepts canHandle
  dsimp only
  split_ifs <;> simp_all [Source.delivered, Source.connectToServer, Source.note]

/-- A source whose group does not play is not made to play by a call: a `play_uri` finds it idle
and is refused, the group does not stop under it, and its client does not start under it. -/
def Backed (w : World) (e : Ev) (_ : World) : Prop :=
  match e with
  | .source (.playUri uri) =>
    w.source.parent.clientRunning = true → w.source.parent.groupPlaying = false →
      w.source.state = .idle ∧ accepts w.source uri = false
  | .source (.deliver i) =>
    ∀ uri ∈ w.source.requests[i]?,
      w.source.parent.clientRunning = true → w.source.parent.groupPlaying = false →
        w.source.state = .idle ∧ accepts w.source uri = false
  | .source (.group false) => plays w.source = false
  | .running true =>
    w.source.parent.groupPlaying = false → w.source.state = .playing →
      w.source.pendingStart = true
  | _ => True

instance {w v : World} {e : Ev} : Decidable (Backed w e v) :=
  match e with
  | .source (.playUri uri) =>
    inferInstanceAs <| Decidable <|
      w.source.parent.clientRunning = true → w.source.parent.groupPlaying = false →
        w.source.state = .idle ∧ accepts w.source uri = false
  | .source (.deliver i) =>
    inferInstanceAs <| Decidable <| ∀ uri ∈ w.source.requests[i]?,
      w.source.parent.clientRunning = true → w.source.parent.groupPlaying = false →
        w.source.state = .idle ∧ accepts w.source uri = false
  | .source (.group false) => inferInstanceAs (Decidable (plays w.source = false))
  | .running true =>
    inferInstanceAs <| Decidable <|
      w.source.parent.groupPlaying = false → w.source.state = .playing →
        w.source.pendingStart = true
  | .source .streamStart | .source .streamEnd | .source (.command _) | .source (.group true)
  | .running false => .isTrue trivial

lemma plays_quiet {s t : Source} (h : Quiet s t) : plays t = plays s := by
  rw [plays, plays, h.state, h.pendingStart, h.parent]

lemma answered_of_quiet {w : World} {s : Source} (h : Quiet w.source s) :
    Answered { w with source := s } ↔ Answered w := by
  rw [answered_iff, answered_iff, plays_quiet h, h.parent]

lemma answered_playUri (w : World) (uri : String) (requests : List String) :
    Answered { w with source := ({ w.source with requests := requests }.playUri uri).2 } ↔
      (w.source.parent.clientRunning = true → w.source.parent.groupPlaying = false →
        w.source.state = .idle ∧ accepts w.source uri = false) := by
  obtain ⟨effects, he⟩ := playUri_snd { w.source with requests := requests } uri
  have hacc : accepts { w.source with requests := requests } uri = accepts w.source uri := rfl
  rw [answered_iff, he, hacc]
  simp only [plays, Source.delivered]
  cases accepts w.source uri <;> cases w.source.state <;>
    cases w.source.parent.clientRunning <;> cases w.source.parent.groupPlaying <;> simp

lemma answered_command {w : World} (h : Answered w) (c : Command) :
    Answered { w with source := w.source.handleCommand c } := by
  cases hr : w.source.parent.clientRunning with
  | true => exact (answered_of_quiet (quiet_handleCommand hr c)).mpr h
  | false =>
    rw [answered_iff]
    intro hp
    have hparent : (w.source.handleCommand c).parent = w.source.parent := by
      unfold Source.handleCommand Source.onStreamEnd
      rw [if_pos (by simp [hr])]
      split_ifs <;> rfl
    simp [plays, hparent, hr] at hp

lemma answered_step {w v : World} {e : Ev} (h : Answered w) (hs : step w e = some v) :
    Answered v ↔ Backed w e v := by
  cases e with
  | source e =>
    cases e with
    | streamStart =>
      obtain rfl := Option.some.inj hs
      refine iff_of_true (answered_iff.mpr fun hp => ?_) trivial
      unfold Source.onStreamStart at hp
      cases hps : w.source.pendingStart <;>
        simp [plays, Source.requestPlayUri, hps] at hp
      split at hp <;> simp at hp
    | streamEnd =>
      obtain rfl := Option.some.inj hs
      refine iff_of_true (answered_iff.mpr fun hp => ?_) trivial
      unfold Source.onStreamEnd at hp
      cases hst : w.source.state <;> simp [plays, hst] at hp
    | command c => obtain rfl := Option.some.inj hs; exact iff_of_true (answered_command h c) trivial
    | playUri uri =>
      obtain rfl := Option.some.inj hs
      exact answered_playUri w uri w.source.requests
    | deliver i =>
      obtain ⟨uri, hi, rfl⟩ := deliver_some hs
      simpa [Backed, hi] using answered_playUri w uri (w.source.requests.eraseIdx i)
    | group playing =>
      obtain rfl := Option.some.inj hs
      rw [answered_iff]
      cases playing <;> simp [Backed, plays]
  | running b =>
    obtain rfl := Option.some.inj hs
    rw [answered_iff]
    cases b with
    | false => simp [Backed, plays]
    | true =>
      cases hg : w.source.parent.groupPlaying <;> cases hst : w.source.state <;>
        cases hp : w.source.pendingStart <;> simp [Backed, plays, hg, hst, hp]

/-- **When `STOP` is answered**: throughout a run, whatever is played, started or enabled, a
`STOP` has an effect exactly when no step leaves the source playing for a running client whose
group is not. -/
theorem stop_answered_iff {w : World} {es : List Ev} (h : Unused w) :
    Throughout step Answered w es ↔ Along step Backed w es := by
  have hkeeps : KeepsIf step (fun _ _ v => True ∧ Answered v) Answered :=
    fun _ _ _ _ hc _ => hc.2
  have hfresh : Answered w := fun hst => by simp [h.idle] at hst
  rw [throughout_iff, and_iff_right hfresh]
  exact hkeeps.along_congr (fun _ _ _ hi _ hs => answered_step hi hs) hfresh
    (along_of_forall fun _ _ _ => trivial)

/-- The group starts before the request comes back and stops after the stream; a request that
comes back to a stopped client is refused. -/
def backed : List Ev :=
  [.source .streamStart, .source (.group true), .source (.deliver 0), .source (.command .stop),
    .source .streamEnd, .source (.group false), .source .streamStart, .running false,
    .source (.deliver 0), .running true]

lemma unused_patio : Unused patio := ⟨rfl, rfl, rfl⟩

theorem stop_answered_backed : Throughout step Answered patio backed :=
  (stop_answered_iff unused_patio).mpr (by decide)

/-- A server is connected to, and no group is playing yet. -/
def remote : List Ev := [.source (.playUri "sendspin_mc://patio/host:8927")]

/-- The `STOP` that follows changes nothing at all. -/
theorem remote_unanswered :
    Unused patio ∧ ¬ Throughout step Answered patio remote ∧
      ∃ w, run step patio remote = some w ∧ w.source.state = .playing ∧
        w.source.pendingStart = false ∧ w.source.handleCommand .stop = w.source := by
  refine ⟨unused_patio, fun h => ?_, _, rfl, rfl, rfl, rfl⟩
  have hanswered : Answered _ := h remote List.prefix_rfl _ rfl
  rcases hanswered rfl rfl with hidle | hleave
  · cases hidle
  · cases hleave

end SendspinMc.StopCommand
