import Mathlib.Data.UInt
import SendspinMc.StopCommand

/-!
Audio of the library's sync task, which `on_audio_write` passes on while the main loop plays, stops
and sets up the source.

The task looks at the state of the source first, at the stream's parameters then, and writes last;
the main loop can do anything in between.
-/

namespace SendspinMc.AudioWrite

open SendspinMc.MediaSource SendspinMc.StopCommand SendspinMc.Lib.Runs

/-- `audio::AudioStreamInfo`. -/
structure AudioStreamInfo where
  bitDepth : UInt8
  channels : UInt8
  sampleRate : UInt32
  deriving DecidableEq

/-- What `get_current_stream_params()` answers. -/
structure StreamParams where
  bitDepth : Option UInt8
  channels : Option UInt8
  sampleRate : Option UInt32

/-- The parameters of a stream that has them all. -/
def StreamParams.streamInfo (p : StreamParams) : Option AudioStreamInfo := do
  let bitDepth ← p.bitDepth
  let channels ← p.channels
  let sampleRate ← p.sampleRate
  pure ⟨bitDepth, channels, sampleRate⟩

/-- What the task hands to one `on_audio_write`. -/
structure Chunk where
  data : List UInt8
  timeoutMs : UInt32
  deriving DecidableEq

/-- Where the task is. -/
inductive Thread
  /-- Outside of `on_audio_write`. -/
  | out
  /-- The source has a listener and plays. -/
  | checked (chunk : Chunk)
  /-- The stream's parameters were all there. -/
  | described (chunk : Chunk) (info : AudioStreamInfo)
  deriving DecidableEq

structure World where
  source : Source
  /-- `player_role_ != nullptr`. -/
  playerRole : Bool
  thread : Thread
  /-- The calls of `write_output`, latest first. -/
  writes : List (Chunk × AudioStreamInfo)
  /-- `player_role_` was null when it was used. -/
  crashed : Bool

/-- Steps of the main loop, and those of the task. -/
inductive Ev
  | main (e : StopCommand.Ev)
  | setup (found : Bool)
  | listener (b : Bool)
  | call (chunk : Chunk)
  | params (p : StreamParams)
  | write

/-- `setup()`, which runs once: the source is ready unless the hub has no player role. -/
def World.setup (w : World) (found : Bool) : World :=
  { w with
    source := { w.source with ready := found, failed := !found }
    playerRole := found }

/-- The checks of `on_audio_write`. -/
def World.call (w : World) (chunk : Chunk) : World :=
  if !w.source.hasListener || w.source.state ≠ .playing then w
  else { w with thread := .checked chunk }

/-- What `on_audio_write` does with the parameters of the stream. -/
def World.params (w : World) (chunk : Chunk) (p : StreamParams) : World :=
  if !w.playerRole then { w with crashed := true, thread := .out }
  else
    match p.streamInfo with
    | some info => { w with thread := .described chunk info }
    | none => { w with thread := .out }

def step (w : World) : Ev → Option World
  | .main e => (StopCommand.step ⟨w.source, none⟩ e).map fun v => { w with source := v.source }
  | .setup found => if w.source.ready || w.source.failed then none else some (w.setup found)
  | .listener b => some { w with source := { w.source with hasListener := b } }
  | .call chunk =>
    match w.thread with
    | .out => some (w.call chunk)
    | _ => none
  | .params p =>
    match w.thread with
    | .checked chunk => some (w.params chunk p)
    | _ => none
  | .write =>
    match w.thread with
    | .described chunk info => some { w with thread := .out, writes := (chunk, info) :: w.writes }
    | _ => none

/-- A source before `setup()`, and a task that has not called yet. -/
structure Fresh (w : World) : Prop where
  state : w.source.state = .idle
  ready : w.source.ready = false
  playerRole : w.playerRole = false
  thread : w.thread = .out
  writes : w.writes = []
  crashed : w.crashed = false

/-! ### What the main loop does to the source -/

/-- What `setup()` left is kept, and only a source that is ready is made to play. -/
structure Kept (s t : Source) : Prop where
  ready : t.ready = s.ready
  failed : t.failed = s.failed
  playing : t.state = .playing → s.state = .playing ∨ s.ready = true

lemma kept_of_state {s t : Source} (hr : t.ready = s.ready) (hf : t.failed = s.failed)
    (hs : t.state = s.state) : Kept s t := ⟨hr, hf, fun h => .inl (hs ▸ h)⟩

lemma kept_onStreamStart (s : Source) : Kept s s.onStreamStart := by
  unfold Source.onStreamStart Source.requestPlayUri
  split
  · split <;> exact kept_of_state rfl rfl rfl
  · exact kept_of_state rfl rfl rfl

lemma kept_onStreamEnd (s : Source) : Kept s s.onStreamEnd := by
  unfold Source.onStreamEnd
  split
  · exact ⟨rfl, rfl, fun h => by cases h⟩
  · exact kept_of_state rfl rfl rfl

lemma kept_handleCommand (s : Source) (c : Command) : Kept s (s.handleCommand c) := by
  cases hr : s.parent.clientRunning with
  | true =>
    have hq := quiet_handleCommand hr c
    exact kept_of_state hq.ready hq.failed hq.state
  | false =>
    unfold Source.handleCommand
    rw [if_pos (by simp [hr])]
    split
    · exact kept_onStreamEnd s
    · exact kept_of_state rfl rfl rfl

lemma kept_playUri (s : Source) (requests : List String) (uri : String) :
    Kept s ({ s with requests := requests }.playUri uri).2 := by
  obtain ⟨effects, he⟩ := playUri_snd { s with requests := requests } uri
  rw [he]
  refine ⟨rfl, rfl, fun h => ?_⟩
  split at h
  · rename_i hacc
    have hready : s.ready = true := by
      simp only [accepts, Bool.and_eq_true] at hacc
      exact hacc.1.1.1.1.1.1
    exact .inr hready
  · exact .inl h

lemma kept_main {w v : StreamStart.World} {e : StopCommand.Ev}
    (h : StopCommand.step w e = some v) : Kept w.source v.source := by
  cases e with
  | source e =>
    cases e with
    | streamStart => obtain rfl := Option.some.inj h; exact kept_onStreamStart w.source
    | streamEnd => obtain rfl := Option.some.inj h; exact kept_onStreamEnd w.source
    | command c => obtain rfl := Option.some.inj h; exact kept_handleCommand w.source c
    | playUri uri => obtain rfl := Option.some.inj h; exact kept_playUri w.source _ uri
    | deliver i =>
      obtain ⟨uri, -, rfl⟩ := StreamStart.deliver_some h
      exact kept_playUri w.source _ uri
    | group playing => obtain rfl := Option.some.inj h; exact kept_of_state rfl rfl rfl
  | running b => obtain rfl := Option.some.inj h; exact kept_of_state rfl rfl rfl

/-! ### The task among the steps of the main loop -/

/-- What a step can do. -/
inductive Move (w : World) : Ev → World → Prop
  | main (e : StopCommand.Ev) (s : Source) (hk : Kept w.source s) :
    Move w (.main e) { w with source := s }
  | setup (found : Bool) (hr : w.source.ready = false) : Move w (.setup found) (w.setup found)
  | listener (b : Bool) :
    Move w (.listener b) { w with source := { w.source with hasListener := b } }
  | refused (chunk : Chunk) (ht : w.thread = .out) : Move w (.call chunk) w
  | checked (chunk : Chunk) (ht : w.thread = .out) (hs : w.source.state = .playing) :
    Move w (.call chunk) { w with thread := .checked chunk }
  | crash (chunk : Chunk) (p : StreamParams) (ht : w.thread = .checked chunk)
    (hr : w.playerRole = false) : Move w (.params p) { w with crashed := true, thread := .out }
  | described (chunk : Chunk) (p : StreamParams) (info : AudioStreamInfo)
    (ht : w.thread = .checked chunk) :
    Move w (.params p) { w with thread := .described chunk info }
  | unknown (chunk : Chunk) (p : StreamParams) (ht : w.thread = .checked chunk) :
    Move w (.params p) { w with thread := .out }
  | write (chunk : Chunk) (info : AudioStreamInfo) (ht : w.thread = .described chunk info) :
    Move w .write { w with thread := .out, writes := (chunk, info) :: w.writes }

lemma move_call (w : World) (chunk : Chunk) (ht : w.thread = .out) :
    Move w (.call chunk) (w.call chunk) := by
  unfold World.call
  split
  · exact .refused chunk ht
  · rename_i hn
    have hs : w.source.state = .playing := by
      have hboth : w.source.hasListener = true ∧ w.source.state = .playing := by simpa using hn
      exact hboth.2
    exact .checked chunk ht hs

lemma move_params (w : World) {chunk : Chunk} (ht : w.thread = .checked chunk)
    (p : StreamParams) : Move w (.params p) (w.params chunk p) := by
  unfold World.params
  split
  · rename_i hr
    exact .crash chunk p ht (by simpa using hr)
  · split
    · exact .described chunk p _ ht
    · exact .unknown chunk p ht

lemma move_of_step {w v : World} {e : Ev} (h : step w e = some v) : Move w e v := by
  cases e with
  | main e =>
    obtain ⟨u, hu, rfl⟩ := Option.map_eq_some_iff.mp h
    exact .main e u.source (kept_main hu)
  | setup found =>
    simp only [step] at h
    split at h
    · cases h
    · rename_i hn
      obtain rfl := Option.some.inj h
      have hboth : w.source.ready = false ∧ w.source.failed = false := by simpa using hn
      exact .setup found hboth.1
  | listener b => obtain rfl := Option.some.inj h; exact .listener b
  | call chunk =>
    cases ht : w.thread with
    | out =>
      obtain rfl : w.call chunk = v := by simpa [step, ht] using h
      exact move_call w chunk ht
    | _ => simp [step, ht] at h
  | params p =>
    cases ht : w.thread with
    | checked chunk =>
      obtain rfl : w.params chunk p = v := by simpa [step, ht] using h
      exact move_params w ht p
    | _ => simp [step, ht] at h
  | write =>
    cases ht : w.thread with
    | described chunk info =>
      simp only [step, ht] at h
      obtain rfl := Option.some.inj h
      exact .write chunk info ht
    | _ => simp [step, ht] at h

/-- A source plays, and the task is past its check, only once `setup()` has found the role. -/
structure Inv (w : World) : Prop where
  role : w.playerRole = w.source.ready
  playing : w.source.state = .playing → w.source.ready = true
  checked : w.thread ≠ .out → w.source.ready = true
  crashed : w.crashed = false

lemma inv_fresh {w : World} (h : Fresh w) : Inv w where
  role := by rw [h.playerRole, h.ready]
  playing hs := by rw [h.state] at hs; cases hs
  checked ht := absurd h.thread ht
  crashed := h.crashed

lemma inv_move {w v : World} {e : Ev} (h : Inv w) (hm : Move w e v) : Inv v := by
  cases hm with
  | main e s hk =>
    refine ⟨h.role.trans hk.ready.symm, fun hs => hk.ready.trans ?_,
      fun ht => hk.ready.trans (h.checked ht), h.crashed⟩
    rcases hk.playing hs with hs | hr
    · exact h.playing hs
    · exact hr
  | setup found hr =>
    refine ⟨rfl, fun hs => ?_, fun ht => ?_, h.crashed⟩
    · exact absurd (h.playing hs) (by simp [hr])
    · exact absurd (h.checked ht) (by simp [hr])
  | listener b => exact ⟨h.role, h.playing, h.checked, h.crashed⟩
  | refused chunk ht => exact h
  | checked chunk ht hs => exact ⟨h.role, h.playing, fun _ => h.playing hs, h.crashed⟩
  | crash chunk p ht hr =>
    have hready := h.checked (by simp [ht])
    rw [h.role, hready] at hr
    cases hr
  | described chunk p info ht =>
    exact ⟨h.role, h.playing, fun _ => h.checked (by simp [ht]), h.crashed⟩
  | unknown chunk p ht | write chunk info ht =>
    exact ⟨h.role, h.playing, fun hn => absurd rfl hn, h.crashed⟩

lemma keeps_inv : Keeps step Inv := fun _ _ _ hi hst => inv_move hi (move_of_step hst)

/-! ### What is written -/

/-- The chunk the task has in hand. -/
@[simp] def Thread.chunk : Thread → Option Chunk
  | .out => none
  | .checked chunk | .described chunk _ => some chunk

/-- The chunk a step hands over. -/
@[simp] def Ev.chunk : Ev → Option Chunk
  | .call chunk => some chunk
  | _ => none

/-- What was written, oldest first, and what may be written next. -/
def passed (w : World) : List Chunk := (w.writes.map (·.1)).reverse ++ w.thread.chunk.toList

lemma passed_move {w v : World} {e : Ev} (hm : Move w e v) :
    (passed v).Sublist (passed w ++ e.chunk.toList) := by
  cases hm with
  | main e s hk | setup found hr | listener b => simp [passed, World.setup]
  | refused chunk ht | checked chunk ht hs => simp [passed, ht]
  | crash chunk p ht hr | unknown chunk p ht => simp [passed, ht]
  | described chunk p info ht | write chunk info ht => simp [passed, ht]

lemma passed_run {w v : World} {es : List Ev} (hr : run step w es = some v) :
    (passed v).Sublist (passed w ++ es.filterMap Ev.chunk) := by
  induction es generalizing w with
  | nil =>
    obtain rfl := Option.some.inj hr
    simp
  | cons e es ih =>
    obtain ⟨u, hu, hr⟩ := Option.bind_eq_some_iff.mp hr
    have hstep := (passed_move (move_of_step hu)).append_right (es.filterMap Ev.chunk)
    rw [List.filterMap_eq_flatMap_toList, List.flatMap_cons, ← List.append_assoc,
      ← List.filterMap_eq_flatMap_toList]
    exact (ih hr).trans hstep

/-- The writes there are, and the one the task is about to make. -/
def written (w : World) : ℕ := w.writes.length + w.thread.chunk.toList.length

lemma written_move {w v : World} {e : Ev} (hm : Move w e v) (hn : w.source.state ≠ .playing) :
    written v ≤ written w := by
  cases hm with
  | checked chunk ht hs => exact absurd hs hn
  | main e s hk | setup found hr | listener b | refused chunk ht => exact le_rfl
  | crash chunk p ht hr | unknown chunk p ht => simp [written, ht]
  | described chunk p info ht | write chunk info ht => simp [written, ht]

lemma written_run {w v : World} {es : List Ev}
    (hn : Throughout step (fun u => u.source.state ≠ .playing) w es)
    (hr : run step w es = some v) : written v ≤ written w := by
  induction es generalizing w with
  | nil =>
    obtain rfl := Option.some.inj hr
    exact le_rfl
  | cons e es ih =>
    obtain ⟨u, hu, hr⟩ := Option.bind_eq_some_iff.mp hr
    obtain ⟨hs, hrest⟩ := throughout_cons.mp hn
    exact (ih (hrest u hu) hr).trans (written_move (move_of_step hu) hs)

/-- **Audio is let through while the source plays**: whatever the main loop does between the steps
of the task, the role is there whenever the task uses it, chunks are written in the order they
were handed over and no more than once, and while the source does not play at most the one chunk
is written that the task had already let in. -/
theorem audio_gate {w v : World} {es : List Ev} (h : Fresh w) (hr : run step w es = some v) :
    v.crashed = false ∧
      ((v.writes.map (·.1)).reverse).Sublist (es.filterMap Ev.chunk) ∧
      ∀ es' v', run step v es' = some v' →
        Throughout step (fun u => u.source.state ≠ .playing) v es' →
          v'.writes.length ≤ v.writes.length + v.thread.chunk.toList.length := by
  refine ⟨(keeps_inv.run (inv_fresh h) hr).crashed, ?_, fun es' v' hr' hn => ?_⟩
  · have hpassed := passed_run hr
    rw [passed, passed, h.writes, h.thread] at hpassed
    exact (List.sublist_append_left _ _).trans (by simpa using hpassed)
  · have hw := written_run hn hr'
    rw [written, written] at hw
    omega

def fresh : World where
  source := { StreamStart.patio.source with ready := false }
  playerRole := false
  thread := .out
  writes := []
  crashed := false

/-- A chunk is refused before the stream is played, and one that was let in is written after the
stream has ended. -/
def stream : List Ev :=
  [.setup true, .call ⟨[1], 10⟩, .main (.source .streamStart), .main (.source (.deliver 0)),
    .call ⟨[2], 10⟩, .params ⟨some 16, some 2, none⟩, .call ⟨[3], 10⟩,
    .params ⟨some 16, some 2, some 48000⟩, .main (.source .streamEnd), .write, .call ⟨[4], 10⟩]

theorem audio_gate_stream : ∃ v, run step fresh stream = some v ∧ v.crashed = false ∧
    v.writes = [(⟨[3], 10⟩, ⟨16, 2, 48000⟩)] := by
  have hfresh : Fresh fresh := ⟨rfl, rfl, rfl, rfl, rfl, rfl⟩
  have hr : run step fresh stream = some _ := rfl
  exact ⟨_, hr, (audio_gate hfresh hr).1, rfl⟩

end SendspinMc.AudioWrite
