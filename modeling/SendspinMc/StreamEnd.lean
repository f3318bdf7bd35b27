import SendspinMc.StreamStart

/-!
A stream that has ended is not played.

The request a stream start queues comes back whenever the orchestrator gets to it, and the
source plays it whether or not the stream is still there.
-/

namespace SendspinMc.StreamEnd

open SendspinMc.MediaSource SendspinMc.StreamStart SendspinMc.Lib.Runs

def isPlayUri : Ev → Bool
  | .playUri _ => true
  | _ => false

def isDelivery : Ev → Bool
  | .deliver _ => true
  | _ => false

/-- Every `play_uri` is the delivery of a queued request. -/
def Requested (_ : World) (e : Ev) (_ : World) : Prop := isPlayUri e = false

/-- With nothing queued, a source whose stream has ended is idle. -/
def NoPhantom (w : World) : Prop :=
  w.source.requests = [] → w.last = some .ended → w.source.state = .idle

/-- No request is delivered between the end of a stream and the start of the next. -/
def InTime (w : World) (e : Ev) (_ : World) : Prop :=
  isDelivery e = true → w.last ≠ some .ended

/-- At most one request is queued, and it is the one the source waits for. -/
structure Waiting (w : World) : Prop where
  inv : Inv w
  single : w.source.requests.length ≤ 1
  pending : w.source.pendingStart = false → w.source.requests = []

lemma waiting_fresh {w : World} (h : Fresh w) : Waiting w :=
  ⟨inv_fresh h, by simp [h.requests], fun _ => h.requests⟩

lemma Waiting.erase {w : World} {i : ℕ} {uri : String} (h : Waiting w)
    (hi : w.source.requests[i]? = some uri) : w.source.requests.eraseIdx i = [] := by
  obtain ⟨hlt, -⟩ := List.getElem?_eq_some_iff.mp hi
  have hlen := h.single
  rw [← List.length_eq_zero_iff, List.length_eraseIdx_of_lt hlt]
  omega

lemma Waiting.deliver {w v : World} {i : ℕ} (h : Waiting w) (hs : step w (.deliver i) = some v) :
    v.source.requests = [] ∧ v.source.state = .playing ∧ v.last = w.last := by
  obtain ⟨uri, hi, rfl⟩ := deliver_some hs
  rw [h.erase hi, h.inv.own uri (List.mem_of_getElem? hi)]
  have hp : Source.Playable { w.source with requests := [] } :=
    ⟨h.inv.playable.ready, h.inv.playable.failed, h.inv.playable.listener,
      h.inv.playable.running⟩
  refine ⟨?_, (current_playing hp).1, rfl⟩
  rcases playUri_cases hp (getCurrentSourceUri w.source.parent.clientId) with he | ⟨-, _, he⟩
  · rw [he]; rfl
  · rw [he]; rfl

lemma Waiting.streamStart {w : World} (h : Waiting w) :
    Waiting ⟨w.source.onStreamStart, some .start⟩ := by
  have hi := h.inv.streamStart.1
  unfold Source.onStreamStart at hi ⊢
  cases hp : w.source.pendingStart with
  | true =>
    rw [hp] at hi
    exact ⟨hi, h.single, h.pending⟩
  | false =>
    rw [hp] at hi
    refine ⟨hi, ?_, ?_⟩
    · simp [Source.requestPlayUri, h.inv.playable.listener, h.pending hp]
    · simp [Source.requestPlayUri, h.inv.playable.listener]

lemma Waiting.step {w v : World} {e : Ev} (h : Waiting w) (hr : Requested w e v)
    (hs : step w e = some v) : Waiting v := by
  have hi : Inv v := inv_step h.inv hs
  cases e with
  | streamStart => obtain rfl := Option.some.inj hs; exact h.streamStart
  | streamEnd =>
    obtain rfl := Option.some.inj hs
    refine ⟨hi, ?_, ?_⟩ <;> unfold Source.onStreamEnd <;> split
    · exact h.single
    · exact h.single
    · exact h.pending
    · exact h.pending
  | command c =>
    obtain rfl := Option.some.inj hs
    have hq := quiet_handleCommand h.inv.playable.running c
    refine ⟨hi, ?_, ?_⟩
    · rw [hq.requests]; exact h.single
    · rw [hq.pendingStart, hq.requests]; exact h.pending
  | playUri uri => cases hr
  | deliver i =>
    have hnil := (h.deliver hs).1
    exact ⟨hi, by simp [hnil], fun _ => hnil⟩
  | group playing => obtain rfl := Option.some.inj hs; exact ⟨hi, h.single, h.pending⟩

instance {w v : World} {e : Ev} : Decidable (Requested w e v) :=
  inferInstanceAs (Decidable (isPlayUri e = false))

instance {w v : World} {e : Ev} : Decidable (InTime w e v) :=
  inferInstanceAs (Decidable (isDelivery e = true → w.last ≠ some .ended))

lemma noPhantom_iff_inTime {w v : World} {e : Ev} (h : Waiting w) (hn : NoPhantom w)
    (hr : Requested w e v) (hs : step w e = some v) : NoPhantom v ↔ InTime w e v := by
  cases e with
  | streamStart =>
    obtain rfl := Option.some.inj hs
    exact iff_of_true (fun _ hl => by cases hl) (by rintro ⟨⟩)
  | streamEnd =>
    obtain rfl := Option.some.inj hs
    refine iff_of_true (fun _ _ => ?_) (by rintro ⟨⟩)
    unfold Source.onStreamEnd
    split
    · rfl
    · rename_i hst
      simpa using hst
  | command c =>
    obtain rfl := Option.some.inj hs
    have hq := quiet_handleCommand h.inv.playable.running c
    refine iff_of_true ?_ (by rintro ⟨⟩)
    unfold NoPhantom
    rw [hq.requests, hq.state]
    exact hn
  | playUri uri => cases hr
  | deliver i =>
    obtain ⟨hnil, hplay, hlast⟩ := h.deliver hs
    constructor
    · rintro hv - hl
      have hidle := hv hnil (hlast.trans hl)
      rw [hplay] at hidle
      cases hidle
    · intro ht _ hl
      exact absurd (hlast.symm.trans hl) (ht rfl)
  | group playing =>
    obtain rfl := Option.some.inj hs
    exact iff_of_true hn (by rintro ⟨⟩)

/-- **No phantom playback, if no request is late**: in a run whose `play_uri` calls are the
deliveries of the source's own requests, a source with nothing queued is idle once its stream
has ended, throughout, exactly when no request is delivered between the end of a stream and the
start of the next. -/
theorem no_phantom_iff {w : World} {es : List Ev} (h : Fresh w)
    (hr : Along step Requested w es) :
    Throughout step NoPhantom w es ↔ Along step InTime w es := by
  have hkeeps : KeepsIf step (fun w e v => Requested w e v ∧ NoPhantom v)
      fun w => Waiting w ∧ NoPhantom w :=
    fun _ _ _ hi hc hs => ⟨hi.1.step hc.1 hs, hc.2⟩
  have hfresh : NoPhantom w := fun _ _ => h.idle
  rw [throughout_iff, and_iff_right hfresh]
  exact hkeeps.along_congr (fun _ _ _ hi hc hs => noPhantom_iff_inTime hi.1 hi.2 hc hs)
    ⟨waiting_fresh h, hfresh⟩ hr

lemma fresh_patio : Fresh patio := ⟨⟨rfl, rfl, rfl, rfl⟩, rfl, rfl, rfl, rfl⟩

/-- A stream is played, and the next one ends after its request has come back. -/
def inTime : List Ev :=
  [.streamStart, .deliver 0, .streamEnd, .streamStart, .command .stop, .deliver 0, .streamEnd]

theorem no_phantom_inTime : Throughout step NoPhantom patio inTime :=
  (no_phantom_iff fresh_patio (by decide)).mpr (by decide)

/-- The stream ends between asking to be played and the delivery. -/
def overdue : List Ev := [.streamStart, .streamEnd, .deliver 0]

/-- The source is left playing, with nothing queued and no stream. -/
theorem overdue_phantom :
    Fresh patio ∧ Along step Requested patio overdue ∧ ¬ Throughout step NoPhantom patio overdue ∧
      ∃ w, run step patio overdue = some w ∧ w.source.requests = [] ∧ w.last = some .ended ∧
        w.source.state = .playing := by
  refine ⟨fresh_patio, by decide, fun h => ?_, _, rfl, rfl, rfl, rfl⟩
  have hidle := h overdue List.prefix_rfl _ rfl rfl rfl
  cases hidle

end SendspinMc.StreamEnd
