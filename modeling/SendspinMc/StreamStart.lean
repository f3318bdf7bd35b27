import SendspinMc.MediaSource
import SendspinMc.Lib.Runs

/-!
A stream that starts is played.

The source asks the orchestrator for its own URI and waits for the request to come back as a
`play_uri`. A request stays queued as long as the source waits for it or has a stream it is not
playing yet, and every request that comes back finds the source playing or makes it play.
-/

namespace SendspinMc.StreamStart

open SendspinMc.MediaSource SendspinMc.Lib.Runs

/-- The library's stream callbacks. -/
inductive Lifecycle
  | start
  | ended
  deriving DecidableEq

structure World where
  source : Source
  /-- The last stream callback. -/
  last : Option Lifecycle

/-- The library's callbacks, the orchestrator's commands and deliveries, and a user's
`play_uri`. A delivery takes any of the queued requests. -/
inductive Ev
  | streamStart
  | streamEnd
  | command (c : Command)
  | playUri (uri : String)
  | deliver (i : ℕ)
  | group (playing : Bool)

def step (w : World) : Ev → Option World
  | .streamStart => some ⟨w.source.onStreamStart, some .start⟩
  | .streamEnd => some ⟨w.source.onStreamEnd, some .ended⟩
  | .command c => some { w with source := w.source.handleCommand c }
  | .playUri uri => some { w with source := (w.source.playUri uri).2 }
  | .deliver i =>
    match w.source.requests[i]? with
    | none => none
    | some uri =>
      let source := { w.source with requests := w.source.requests.eraseIdx i }
      some { w with source := (source.playUri uri).2 }
  | .group playing =>
    some { w with
      source :=
        { w.source with parent := { w.source.parent with groupPlaying := playing } } }

/-- A source that is ready, with a listener and a running client, before its first stream. -/
structure Fresh (w : World) : Prop where
  playable : w.source.Playable
  idle : w.source.state = .idle
  pendingStart : w.source.pendingStart = false
  requests : w.source.requests = []
  last : w.last = none

abbrev Reachable : World → Prop := Reach step Fresh

structure Inv (w : World) : Prop where
  playable : w.source.Playable
  own : ∀ uri ∈ w.source.requests, uri = getCurrentSourceUri w.source.parent.clientId
  pending : w.source.pendingStart = true → w.source.requests ≠ []
  started : w.last = some .start → w.source.state = .idle → w.source.requests ≠ []

lemma inv_fresh {w : World} (h : Fresh w) : Inv w :=
  ⟨h.playable, by simp [h.requests], by simp [h.pendingStart], by simp [h.last]⟩

lemma Inv.quiet {w : World} {s : Source} (h : Inv w) (hq : Quiet w.source s) :
    Inv { w with source := s } := by
  obtain ⟨hp, ho, hpend, hst⟩ := h
  refine ⟨⟨hq.ready ▸ hp.ready, hq.failed ▸ hp.failed, hq.hasListener ▸ hp.listener,
    hq.parent ▸ hp.running⟩, ?_, ?_, ?_⟩
  · rw [hq.requests, hq.parent]; exact ho
  · rw [hq.pendingStart, hq.requests]; exact hpend
  · rw [hq.state, hq.requests]; exact hst

lemma playUri_cases {s : Source} (h : s.Playable) (uri : String) :
    (s.playUri uri).2 = s.delivered ∨
      (s.state = .idle ∧ ∃ effects,
        (s.playUri uri).2 = { s.delivered with state := .playing, effects := effects }) := by
  by_cases hc : Carries s.parent.clientId uri
  · obtain ⟨target, ht, rfl⟩ := hc
    cases hs : s.state with
    | playing => exact .inl (by rw [playUri_busy hs])
    | idle => exact .inr ⟨rfl, _, by rw [playUri_target h hs ht]⟩
  · exact .inl (by rw [playUri_refused hc])

lemma Inv.playUri {w : World} (h : Inv w) (uri : String) :
    Inv { w with source := (w.source.playUri uri).2 } := by
  obtain ⟨hp, ho, -, hst⟩ := h
  rcases playUri_cases hp uri with he | ⟨-, effects, he⟩
  · rw [he]
    exact ⟨⟨hp.ready, hp.failed, hp.listener, hp.running⟩, ho, by simp [Source.delivered], hst⟩
  · rw [he]
    exact ⟨⟨hp.ready, hp.failed, hp.listener, hp.running⟩, ho, by simp [Source.delivered], by simp⟩

lemma current_playing {s : Source} (h : s.Playable) :
    (s.playUri (getCurrentSourceUri s.parent.clientId)).2.state = .playing ∧
      (s.playUri (getCurrentSourceUri s.parent.clientId)).2.pendingStart = false := by
  cases hs : s.state with
  | playing => rw [playUri_busy hs]; exact ⟨hs, rfl⟩
  | idle =>
    have hcurrent : "current" ≠ "" := by decide
    rw [getCurrentSourceUri, playUri_target h hs hcurrent]
    exact ⟨rfl, rfl⟩

lemma Inv.deliver {w : World} (h : Inv w) {i : ℕ} {uri : String}
    (hi : w.source.requests[i]? = some uri) :
    Inv { w with
      source :=
        ({ w.source with requests := w.source.requests.eraseIdx i }.playUri uri).2 } := by
  have huri := h.own uri (List.mem_of_getElem? hi)
  have hp : Source.Playable { w.source with requests := w.source.requests.eraseIdx i } :=
    ⟨h.playable.ready, h.playable.failed, h.playable.listener, h.playable.running⟩
  obtain ⟨hplay, hpend⟩ := current_playing hp
  subst huri
  have hkeep := playUri_cases hp (getCurrentSourceUri w.source.parent.clientId)
  refine ⟨?_, ?_, fun ht => ?_, fun _ ht => ?_⟩
  · rcases hkeep with he | ⟨-, effects, he⟩ <;> rw [he] <;>
      exact ⟨hp.ready, hp.failed, hp.listener, hp.running⟩
  · have ho : ∀ u ∈ w.source.requests.eraseIdx i,
        u = getCurrentSourceUri w.source.parent.clientId :=
      fun u hu => h.own u (List.mem_of_mem_eraseIdx hu)
    rcases hkeep with he | ⟨-, effects, he⟩ <;> rw [he] <;> exact ho
  · exact absurd ht (by rw [hpend]; simp)
  · exact absurd ht (by rw [hplay]; simp)

lemma Inv.streamStart {w : World} (h : Inv w) :
    Inv ⟨w.source.onStreamStart, some .start⟩ ∧ w.source.onStreamStart.requests ≠ [] := by
  obtain ⟨hp, ho, hpend, hst⟩ := h
  unfold Source.onStreamStart
  cases hps : w.source.pendingStart with
  | true =>
    have hne := hpend hps
    exact ⟨⟨hp, ho, fun _ => hne, fun _ _ => hne⟩, hne⟩
  | false =>
    rw [if_pos (by simp), Source.requestPlayUri, if_pos hp.listener]
    refine ⟨⟨⟨hp.ready, hp.failed, hp.listener, hp.running⟩, fun u hu => ?_, by simp, by simp⟩,
      by simp⟩
    rcases List.mem_append.mp hu with hu | hu
    · exact ho u hu
    · simpa using hu

lemma Inv.streamEnd {w : World} (h : Inv w) : Inv ⟨w.source.onStreamEnd, some .ended⟩ := by
  obtain ⟨hp, ho, hpend, -⟩ := h
  unfold Source.onStreamEnd
  split
  · exact ⟨⟨hp.ready, hp.failed, hp.listener, hp.running⟩, ho, hpend, by simp⟩
  · exact ⟨hp, ho, hpend, by simp⟩

lemma deliver_some {w v : World} {i : ℕ} (hs : step w (.deliver i) = some v) :
    ∃ uri, w.source.requests[i]? = some uri ∧
      v = { w with
        source := ({ w.source with requests := w.source.requests.eraseIdx i }.playUri uri).2 } := by
  cases hi : w.source.requests[i]? with
  | none => simp [step, hi] at hs
  | some uri =>
    simp only [step, hi, Option.some.injEq] at hs
    exact ⟨uri, rfl, hs.symm⟩

lemma inv_step {w v : World} {e : Ev} (h : Inv w) (hs : step w e = some v) : Inv v := by
  cases e with
  | streamStart => obtain rfl := Option.some.inj hs; exact h.streamStart.1
  | streamEnd => obtain rfl := Option.some.inj hs; exact h.streamEnd
  | command c =>
    obtain rfl := Option.some.inj hs
    exact h.quiet (quiet_handleCommand h.playable.running c)
  | playUri uri => obtain rfl := Option.some.inj hs; exact h.playUri uri
  | deliver i =>
    obtain ⟨uri, hi, rfl⟩ := deliver_some hs
    exact h.deliver hi
  | group playing =>
    obtain rfl := Option.some.inj hs
    obtain ⟨hp, ho, hpend, hst⟩ := h
    exact ⟨⟨hp.ready, hp.failed, hp.listener, hp.running⟩, ho, hpend, hst⟩

theorem inv_reachable {w : World} (h : Reachable w) : Inv w :=
  Keeps.reach (fun _ _ _ hi hst => inv_step hi hst) (fun _ => inv_fresh) h

/-- **No stream start is lost**: a start is pending only while a request of the source is
queued, so once the queue has drained the next start asks again, a `STOP` is passed to
`leave_group`, and a source whose stream has started plays. -/
theorem no_start_lost {w : World} (h : Reachable w) :
    (w.source.pendingStart = true → w.source.requests ≠ []) ∧
    (w.source.requests = [] → ∀ v, step w .streamStart = some v → v.source.requests ≠ []) ∧
    (w.source.requests = [] → w.source.handleCommand .stop = w.source.leaveGroup) ∧
    (w.source.requests = [] → w.last = some .start → w.source.state = .playing) := by
  have hi := inv_reachable h
  refine ⟨hi.pending, fun _ v hs => ?_, fun hr => ?_, fun hr hl => ?_⟩
  · obtain rfl := Option.some.inj hs
    exact hi.streamStart.2
  · have hp : w.source.pendingStart = false := Bool.eq_false_iff.mpr fun hp => hi.pending hp hr
    simp [Source.handleCommand, hi.playable.running, hp]
  · cases hs : w.source.state with
    | playing => rfl
    | idle => exact absurd hr (hi.started hl hs)

/-- A source before its first stream. -/
def patio : World where
  source :=
    { parent := ⟨"patio", true, false, true⟩
      state := .idle
      pendingStart := false
      ready := true
      failed := false
      hasListener := true
      requests := []
      effects := [] }
  last := none

/-- A user's play request lands between a start, its end and the next start, whose requests
are delivered late. -/
def late : List Ev :=
  [.streamStart, .playUri "sendspin_mc://patio/host", .command .stop, .streamEnd, .streamStart,
    .deliver 1, .deliver 0]

theorem no_start_lost_late :
    ∃ w, run step patio late = some w ∧ w.source.requests = [] ∧ w.source.state = .playing :=
  ⟨_, rfl, rfl, (no_start_lost ⟨patio, ⟨⟨rfl, rfl, rfl, rfl⟩, rfl, rfl, rfl, rfl⟩, late, rfl⟩).2.2.2
    rfl rfl⟩

end SendspinMc.StreamStart
