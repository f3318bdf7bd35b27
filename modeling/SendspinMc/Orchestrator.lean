import SendspinMc.Lib.Places
import SendspinMc.Routing
import SendspinMc.StreamStart

/-!
The media sources of several hubs, and the one orchestrator that they share.

Every source asks the orchestrator for its own URI and waits for the request to come back as a
`play_uri`. The orchestrator has one queue. It knows of a request no more than the URI, and asks
the sources which of them can handle it; how it picks among those that can is left open. So it is
the URIs that see to it that a request comes back to the source that made it.
-/

namespace SendspinMc.Orchestrator

open SendspinMc.ClientIds SendspinMc.MediaSource SendspinMc.Routing SendspinMc.Lib.Runs
open SendspinMc.Lib.Places
open SendspinMc.StreamStart (Lifecycle playUri_cases)

variable {ι : Type*} [DecidableEq ι]

/-- The sources, the last stream callback of each, and the queued requests of all. -/
structure World (ι : Type*) where
  sources : ι → Source
  last : ι → Option Lifecycle
  queue : List String

/-- The code of a source has run; what it has requested joins the queue. -/
def World.put (w : World ι) (i : ι) (s : Source) : World ι :=
  { w with
    sources := Function.update w.sources i { s with requests := [] }
    queue := w.queue ++ s.requests }

def World.callback (w : World ι) (i : ι) (c : Lifecycle) : World ι :=
  { w with last := Function.update w.last i (some c) }

/-- The orchestrator picks a source among those that say they can handle a URI, if any does. -/
structure Picks (pick : (ι → Bool) → Option ι) : Prop where
  able : ∀ can i, pick can = some i → can i = true
  some : ∀ can i, can i = true → (pick can).isSome

/-- The source that a URI goes to. -/
def World.route (w : World ι) (pick : (ι → Bool) → Option ι) (uri : String) : Option ι :=
  pick fun i => canHandle (w.sources i).parent.clientId uri

def World.play (w : World ι) (pick : (ι → Bool) → Option ι) (uri : String) : World ι :=
  match w.route pick uri with
  | some i => w.put i ((w.sources i).playUri uri).2
  | none => w

/-- The callbacks of each hub's library, the orchestrator's commands and deliveries, a user's
`play_uri`, and what a hub is told of its group. -/
inductive Ev (ι : Type*)
  | streamStart (i : ι)
  | streamEnd (i : ι)
  | command (i : ι) (c : Command)
  | playUri (uri : String)
  | deliver (k : ℕ)
  | group (i : ι) (playing : Bool)

def step (pick : (ι → Bool) → Option ι) (w : World ι) : Ev ι → Option (World ι)
  | .streamStart i => some ((w.put i (w.sources i).onStreamStart).callback i .start)
  | .streamEnd i => some ((w.put i (w.sources i).onStreamEnd).callback i .ended)
  | .command i c => some (w.put i ((w.sources i).handleCommand c))
  | .playUri uri => some (w.play pick uri)
  | .deliver k =>
    match w.queue[k]? with
    | some uri => some ({ w with queue := w.queue.eraseIdx k }.play pick uri)
    | none => none
  | .group i playing =>
    some { w with
      sources := Function.update w.sources i
        { w.sources i with parent := { (w.sources i).parent with groupPlaying := playing } } }

/-- Sources that are ready, each of its own hub, before their first streams. -/
structure Fresh (ids : ι → String) (w : World ι) : Prop where
  clientId : ∀ i, (w.sources i).parent.clientId = ids i
  playable : ∀ i, (w.sources i).Playable
  idle : ∀ i, (w.sources i).state = .idle
  pendingStart : ∀ i, (w.sources i).pendingStart = false
  requests : ∀ i, (w.sources i).requests = []
  last : ∀ i, w.last i = none
  queue : w.queue = []

/-! ### The code of a source -/

/-- The source with these requests queued. -/
def asking (s : Source) (r : List String) : Source := { s with requests := r }

section Asking

variable (s : Source) (r : List String)

@[simp] lemma asking_parent : (asking s r).parent = s.parent := rfl
@[simp] lemma asking_state : (asking s r).state = s.state := rfl
@[simp] lemma asking_pendingStart : (asking s r).pendingStart = s.pendingStart := rfl
@[simp] lemma asking_requests : (asking s r).requests = r := rfl

end Asking

lemma asking_self {s : Source} {r : List String} (h : s.requests = r) : asking s r = s := by
  subst h
  rfl

lemma asking_onStreamEnd (s : Source) (r : List String) :
    (asking s r).onStreamEnd = asking s.onStreamEnd r := by
  unfold Source.onStreamEnd
  rw [asking_state]
  split <;> rfl

lemma asking_leaveGroup (s : Source) (r : List String) :
    (asking s r).leaveGroup = asking s.leaveGroup r := by
  unfold Source.leaveGroup
  rw [asking_parent]
  split <;> rfl

lemma asking_sendClientCommand (s : Source) (r : List String) (c : ControllerCommand) :
    (asking s r).sendClientCommand c = asking (s.sendClientCommand c) r := by
  unfold Source.sendClientCommand
  rw [asking_parent]
  split <;> rfl

lemma asking_handleCommand (s : Source) (r : List String) (c : Command) :
    (asking s r).handleCommand c = asking (s.handleCommand c) r := by
  unfold Source.handleCommand
  rw [asking_parent]
  split
  · split
    · exact asking_onStreamEnd s r
    · rfl
  · cases c with
    | stop =>
      rw [asking_pendingStart]
      dsimp only
      split
      · exact asking_leaveGroup s r
      · rfl
    | other => rfl
    | _ => exact asking_sendClientCommand s r _

lemma asking_playUri (s : Source) (r : List String) (uri : String) :
    ((asking s r).playUri uri).2 = asking (s.playUri uri).2 r := by
  unfold Source.playUri Source.connectToServer
  dsimp only [asking]
  split_ifs <;> rfl

/-- Code that a source runs: it keeps the hub, and adds to the requests, which it does not read, the
source's own URI at most. -/
structure Code (f : Source → Source) : Prop where
  parent : ∀ s, (f s).parent = s.parent
  adds : ∀ s r, f (asking s r) = asking (f s) (r ++ (f (asking s [])).requests)
  own : ∀ s, ∀ uri ∈ (f (asking s [])).requests, uri = getCurrentSourceUri s.parent.clientId

lemma code_of_asking {f : Source → Source} (hp : ∀ s, (f s).parent = s.parent)
    (h : ∀ s r, f (asking s r) = asking (f s) r) : Code f where
  parent := hp
  adds s r := by rw [h, h, asking_requests, List.append_nil]
  own s uri hu := by
    rw [h, asking_requests] at hu
    cases hu

lemma code_onStreamEnd : Code Source.onStreamEnd :=
  code_of_asking (fun s => by unfold Source.onStreamEnd; split <;> rfl) asking_onStreamEnd

lemma code_handleCommand (c : Command) : Code (·.handleCommand c) := by
  refine code_of_asking (fun s => ?_) fun s r => asking_handleCommand s r c
  cases h : s.parent.clientRunning with
  | true => exact (quiet_handleCommand h c).parent
  | false =>
    simp only [Source.handleCommand, h, Bool.not_false, if_true]
    split
    · exact code_onStreamEnd.parent s
    · rfl

lemma code_playUri (uri : String) : Code fun s => (s.playUri uri).2 := by
  refine code_of_asking (fun s => ?_) fun s r => asking_playUri s r uri
  unfold Source.playUri Source.connectToServer
  dsimp only
  split_ifs <;> rfl

/-- What a stream start requests. -/
def started (s : Source) : List String :=
  if !s.pendingStart && s.hasListener then [getCurrentSourceUri s.parent.clientId] else []

lemma onStreamStart_eq (s : Source) :
    s.onStreamStart = asking { s with pendingStart := true } (s.requests ++ started s) := by
  unfold Source.onStreamStart Source.requestPlayUri started
  cases hp : s.pendingStart with
  | true => simp [asking, ← hp]
  | false => cases hl : s.hasListener <;> simp [asking]

lemma code_onStreamStart : Code Source.onStreamStart where
  parent s := by rw [onStreamStart_eq, asking_parent]
  adds s r := by simp only [onStreamStart_eq, List.nil_append, asking, started]
  own s uri hu := by
    rw [onStreamStart_eq, asking_requests, asking_requests, List.nil_append, started] at hu
    split at hu
    · exact List.mem_singleton.mp hu
    · cases hu

/-! ### One source among others -/

/-- A source, with those of the queued requests that it can handle. -/
def World.view (w : World ι) (i : ι) : StreamStart.World where
  source := asking (w.sources i) (w.queue.filter (canHandle (w.sources i).parent.clientId))
  last := w.last i

/-- The hubs of the sources have the ids of an accepted configuration. -/
structure Ids (ids : ι → String) : Prop where
  noSlash : ∀ i, '/' ∉ (ids i).toList
  distinct : Function.Injective ids

structure Inv (ids : ι → String) (w : World ι) : Prop where
  clientId : ∀ i, (w.sources i).parent.clientId = ids i
  requests : ∀ i, (w.sources i).requests = []
  asked : ∀ uri ∈ w.queue, ∃ i, uri = getCurrentSourceUri (ids i)

section Several

variable {ids : ι → String} {pick : (ι → Bool) → Option ι}

omit [DecidableEq ι] in
lemma canHandle_unique (hk : Ids ids) {uri : String} {i j : ι}
    (hi : canHandle (ids i) uri = true) (hj : canHandle (ids j) uri = true) : i = j := by
  obtain ⟨target, rfl⟩ := canHandle_iff.mp hi
  have := (canHandle_getMediaSourceUri (hk.noSlash i) (hk.noSlash j) target).mp hj
  exact (hk.distinct this).symm

omit [DecidableEq ι] in
lemma canHandle_own (ids : ι → String) (i : ι) :
    canHandle (ids i) (getCurrentSourceUri (ids i)) = true := canHandle_iff.mpr ⟨_, rfl⟩

omit [DecidableEq ι] in
lemma route_iff (hk : Ids ids) (hp : Picks pick) {w : World ι} (h : Inv ids w) {uri : String}
    {i : ι} : w.route pick uri = some i ↔ canHandle (ids i) uri = true := by
  have hable : ∀ j, w.route pick uri = some j → canHandle (ids j) uri = true := by
    intro j hj
    rw [← h.clientId]
    exact hp.able _ j hj
  constructor
  · exact hable i
  · intro hc
    have hsome : (w.route pick uri).isSome := hp.some _ i (by rw [h.clientId]; exact hc)
    obtain ⟨j, hj⟩ := Option.isSome_iff_exists.mp hsome
    rw [hj, canHandle_unique hk hc (hable j hj)]

lemma inv_put {w : World ι} (h : Inv ids w) {f : Source → Source} (hf : Code f) (i : ι) :
    Inv ids (w.put i (f (w.sources i))) := by
  have hself : asking (w.sources i) [] = w.sources i := asking_self (h.requests i)
  refine ⟨fun j => ?_, fun j => ?_, fun uri hu => ?_⟩
  · by_cases hj : j = i
    · subst hj
      simp [World.put, hf.parent, h.clientId]
    · simp [World.put, hj, h.clientId]
  · by_cases hj : j = i
    · subst hj
      simp [World.put]
    · simp [World.put, hj, h.requests]
  · rcases List.mem_append.mp hu with hu | hu
    · exact h.asked uri hu
    · have hown := hf.own (w.sources i) uri (by rwa [hself])
      exact ⟨i, by rw [hown, h.clientId]⟩

lemma view_put_self {w : World ι} (h : Inv ids w) {f : Source → Source} (hf : Code f) (i : ι) :
    (w.put i (f (w.sources i))).view i = ⟨f (w.view i).source, w.last i⟩ := by
  have hself : asking (w.sources i) [] = w.sources i := asking_self (h.requests i)
  have hall : (f (w.sources i)).requests.filter (canHandle (w.sources i).parent.clientId) =
      (f (w.sources i)).requests := by
    refine List.filter_eq_self.mpr fun uri hu => ?_
    rw [hf.own (w.sources i) uri (by rwa [hself]), h.clientId]
    exact canHandle_own ids i
  have hview : (w.put i (f (w.sources i))).view i =
      ⟨asking (f (w.sources i)) ((w.queue ++ (f (w.sources i)).requests).filter
        (canHandle (f (w.sources i)).parent.clientId)), w.last i⟩ := by
    simp only [World.view, World.put, Function.update_self]
    rfl
  rw [hview, World.view, hf.adds, hself, hf.parent, List.filter_append, hall]

lemma view_put_other (hk : Ids ids) {w : World ι} (h : Inv ids w) {f : Source → Source}
    (hf : Code f) {i j : ι} (hij : i ≠ j) : (w.put j (f (w.sources j))).view i = w.view i := by
  have hself : asking (w.sources j) [] = w.sources j := asking_self (h.requests j)
  have hnone :
      (f (w.sources j)).requests.filter (canHandle (w.sources i).parent.clientId) = [] := by
    refine List.filter_eq_nil_iff.mpr fun uri hu hc => hij ?_
    rw [hf.own (w.sources j) uri (by rwa [hself]), h.clientId, h.clientId] at hc
    exact canHandle_unique hk hc (canHandle_own ids j)
  simp only [World.view, World.put, Function.update_of_ne hij, List.filter_append, hnone,
    List.append_nil]

omit [DecidableEq ι] in
lemma inv_erase {w : World ι} (h : Inv ids w) (k : ℕ) :
    Inv ids { w with queue := w.queue.eraseIdx k } :=
  ⟨h.clientId, h.requests, fun uri hu => h.asked uri (List.mem_of_mem_eraseIdx hu)⟩

lemma inv_group {w : World ι} (h : Inv ids w) (i : ι) (playing : Bool) :
    Inv ids { w with
      sources := Function.update w.sources i
        { w.sources i with parent := { (w.sources i).parent with groupPlaying := playing } } } := by
  refine ⟨fun j => ?_, fun j => ?_, h.asked⟩
  · by_cases hj : j = i
    · subst hj
      simp [h.clientId]
    · simp [hj, h.clientId]
  · by_cases hj : j = i
    · subst hj
      simp [h.requests]
    · simp [hj, h.requests]

lemma play_cases (pick : (ι → Bool) → Option ι) (w : World ι) (uri : String) :
    (∃ j, w.route pick uri = some j ∧ w.play pick uri = w.put j ((w.sources j).playUri uri).2) ∨
      w.play pick uri = w := by
  unfold World.play
  cases w.route pick uri with
  | none => exact .inr rfl
  | some j => exact .inl ⟨j, rfl, rfl⟩

lemma inv_play {w : World ι} (h : Inv ids w) (pick : (ι → Bool) → Option ι) (uri : String) :
    Inv ids (w.play pick uri) := by
  rcases play_cases pick w uri with ⟨j, -, he⟩ | he
  · rw [he]
    exact inv_put h (code_playUri uri) j
  · rwa [he]

lemma deliver_some {w v : World ι} {k : ℕ} (hs : step pick w (.deliver k) = some v) :
    ∃ uri, w.queue[k]? = some uri ∧ v = { w with queue := w.queue.eraseIdx k }.play pick uri := by
  cases hk : w.queue[k]? with
  | none => simp [step, hk] at hs
  | some uri =>
    simp only [step, hk, Option.some.injEq] at hs
    exact ⟨uri, rfl, hs.symm⟩

lemma inv_step {w v : World ι} {e : Ev ι} (h : Inv ids w) (hs : step pick w e = some v) :
    Inv ids v := by
  cases e with
  | streamStart i =>
    obtain rfl := Option.some.inj hs
    have hi := inv_put h code_onStreamStart i
    exact ⟨hi.clientId, hi.requests, hi.asked⟩
  | streamEnd i =>
    obtain rfl := Option.some.inj hs
    have hi := inv_put h code_onStreamEnd i
    exact ⟨hi.clientId, hi.requests, hi.asked⟩
  | command i c =>
    obtain rfl := Option.some.inj hs
    exact inv_put h (code_handleCommand c) i
  | playUri uri =>
    obtain rfl := Option.some.inj hs
    exact inv_play h pick uri
  | deliver k =>
    obtain ⟨uri, -, rfl⟩ := deliver_some hs
    exact inv_play (inv_erase h k) pick uri
  | group i playing =>
    obtain rfl := Option.some.inj hs
    exact inv_group h i playing

/-! ### One source, as the others take their steps -/

/-- A source takes a step of its own, or stays. -/
def Follows (t t' : StreamStart.World) : Prop := t' = t ∨ ∃ d, StreamStart.step t d = some t'

lemma follows_callback (hk : Ids ids) {w : World ι} (h : Inv ids w) {f : Source → Source}
    (hf : Code f) {c : Lifecycle} {d : StreamStart.Ev}
    (hd : ∀ t, StreamStart.step t d = some ⟨f t.source, some c⟩) (i j : ι) :
    Follows (w.view i) (((w.put j (f (w.sources j))).callback j c).view i) := by
  by_cases hij : i = j
  · subst hij
    refine .inr ⟨d, ?_⟩
    rw [hd]
    have hself : ((w.put i (f (w.sources i))).view i).source = f (w.view i).source := by
      rw [view_put_self h hf i]
    rw [← hself]
    simp [World.view, World.callback]
  · refine .inl ?_
    rw [← view_put_other hk h hf hij]
    simp [World.view, World.callback, World.put, hij]

lemma follows_command (hk : Ids ids) {w : World ι} (h : Inv ids w) (c : Command) (i j : ι) :
    Follows (w.view i) ((w.put j ((w.sources j).handleCommand c)).view i) := by
  by_cases hij : i = j
  · subst hij
    exact .inr ⟨.command c, congrArg some (view_put_self h (code_handleCommand c) i).symm⟩
  · exact .inl (view_put_other hk h (code_handleCommand c) hij)

lemma follows_play (hk : Ids ids) {w : World ι} (h : Inv ids w)
    (pick : (ι → Bool) → Option ι) (uri : String) (i : ι) :
    Follows (w.view i) ((w.play pick uri).view i) := by
  rcases play_cases pick w uri with ⟨j, -, he⟩ | he
  · rw [he]
    by_cases hij : i = j
    · subst hij
      exact .inr ⟨.playUri uri, congrArg some (view_put_self h (code_playUri uri) i).symm⟩
    · exact .inl (view_put_other hk h (code_playUri uri) hij)
  · exact .inl (by rw [he])

lemma follows_deliver (hk : Ids ids) (hp : Picks pick) {w : World ι} (h : Inv ids w) {k : ℕ}
    {uri : String} (hu : w.queue[k]? = some uri) (i : ι) :
    Follows (w.view i) (({ w with queue := w.queue.eraseIdx k }.play pick uri).view i) := by
  have he := inv_erase h k
  obtain ⟨j, hj⟩ := h.asked uri (List.mem_of_getElem? hu)
  have hroute : World.route { w with queue := w.queue.eraseIdx k } pick uri = some j :=
    (route_iff hk hp he).mpr (by rw [hj]; exact canHandle_own ids j)
  have hplay : World.play { w with queue := w.queue.eraseIdx k } pick uri =
      World.put { w with queue := w.queue.eraseIdx k } j ((w.sources j).playUri uri).2 := by
    rw [World.play, hroute]
  rw [hplay]
  by_cases hij : i = j
  · subst hij
    have hown : canHandle (w.sources i).parent.clientId uri = true := by
      rw [h.clientId, hj]
      exact canHandle_own ids i
    obtain ⟨m, hm, hfilter⟩ := filter_eraseIdx_own hu hown
    refine .inr ⟨.deliver m, ?_⟩
    have hv := view_put_self he (code_playUri uri) i
    dsimp only at hv
    rw [hv]
    simp only [StreamStart.step, World.view, asking_requests, hm, hfilter]
    rfl
  · refine .inl ?_
    have hother : canHandle (w.sources i).parent.clientId uri = false := by
      rw [h.clientId]
      refine Bool.eq_false_iff.mpr fun hc => hij ?_
      rw [hj] at hc
      exact canHandle_unique hk hc (canHandle_own ids j)
    have hv := view_put_other hk he (code_playUri uri) hij
    dsimp only at hv
    rw [hv]
    simp only [World.view, filter_eraseIdx_other hu hother]

lemma follows_group {w : World ι} (i j : ι) (playing : Bool) :
    Follows (w.view i) (World.view { w with
      sources := Function.update w.sources j { w.sources j with
        parent := { (w.sources j).parent with groupPlaying := playing } } } i) := by
  by_cases hij : i = j
  · subst hij
    refine .inr ⟨.group playing, ?_⟩
    simp only [StreamStart.step, World.view, Function.update_self]
    rfl
  · exact .inl (by simp only [World.view, Function.update_of_ne hij])

lemma follows_step (hk : Ids ids) (hp : Picks pick) {w v : World ι} {e : Ev ι} (h : Inv ids w)
    (hs : step pick w e = some v) (i : ι) : Follows (w.view i) (v.view i) := by
  cases e with
  | streamStart j =>
    obtain rfl := Option.some.inj hs
    have hd : ∀ t, StreamStart.step t .streamStart = some ⟨t.source.onStreamStart, some .start⟩ :=
      fun _ => rfl
    exact follows_callback hk h code_onStreamStart hd i j
  | streamEnd j =>
    obtain rfl := Option.some.inj hs
    have hd : ∀ t, StreamStart.step t .streamEnd = some ⟨t.source.onStreamEnd, some .ended⟩ :=
      fun _ => rfl
    exact follows_callback hk h code_onStreamEnd hd i j
  | command j c =>
    obtain rfl := Option.some.inj hs
    exact follows_command hk h c i j
  | playUri uri =>
    obtain rfl := Option.some.inj hs
    exact follows_play hk h pick uri i
  | deliver k =>
    obtain ⟨uri, hu, rfl⟩ := deliver_some hs
    exact follows_deliver hk hp h hu i
  | group j playing =>
    obtain rfl := Option.some.inj hs
    exact follows_group i j playing

omit [DecidableEq ι] in
lemma inv_fresh {w : World ι} (h : Fresh ids w) : Inv ids w :=
  ⟨h.clientId, h.requests, by simp [h.queue]⟩

omit [DecidableEq ι] in
lemma fresh_view {w : World ι} (h : Fresh ids w) (i : ι) : StreamStart.Fresh (w.view i) where
  playable := ⟨(h.playable i).ready, (h.playable i).failed, (h.playable i).listener,
    (h.playable i).running⟩
  idle := h.idle i
  pendingStart := h.pendingStart i
  requests := by simp [World.view, h.queue]
  last := h.last i

lemma inv_reach {w : World ι} (h : Reach (step pick) (Fresh ids) w) : Inv ids w :=
  Keeps.reach (fun _ _ _ hi hs => inv_step hi hs) (fun _ => inv_fresh) h

/-- Each of the sources is, with its own requests, in a state that it reaches alone. -/
theorem alone (hk : Ids ids) (hp : Picks pick) {w : World ι}
    (h : Reach (step pick) (Fresh ids) w) (i : ι) : StreamStart.Reachable (w.view i) := by
  have h₀ : ∀ w, Fresh ids w → ∃ t, StreamStart.Fresh t ∧ Inv ids w ∧ t = w.view i :=
    fun w hw => ⟨w.view i, fresh_view hw i, inv_fresh hw, rfl⟩
  have hstep : ∀ w e v t, (Inv ids w ∧ t = w.view i) → step pick w e = some v →
      ∃ t', (Inv ids v ∧ t' = v.view i) ∧ (t' = t ∨ ∃ d, StreamStart.step t d = some t') := by
    rintro w e v t ⟨hi, rfl⟩ hs
    exact ⟨v.view i, ⟨inv_step hi hs, rfl⟩, follows_step hk hp hi hs i⟩
  obtain ⟨t, ht, -, rfl⟩ := Reach.simulates h₀ hstep h
  exact ht

omit [DecidableEq ι] in
lemma route_own (hk : Ids ids) (hp : Picks pick) {w : World ι} (h : Inv ids w) (i j : ι) :
    w.route pick (getCurrentSourceUri (ids i)) = some j ↔ j = i := by
  rw [route_iff hk hp h]
  constructor
  · exact fun hc => canHandle_unique hk hc (canHandle_own ids i)
  · rintro rfl
    exact canHandle_own ids j

omit [DecidableEq ι] in
lemma view_requests (hk : Ids ids) {w : World ι} (h : Inv ids w) (i : ι) :
    (w.view i).source.requests = [] ↔ getCurrentSourceUri (ids i) ∉ w.queue := by
  rw [World.view, asking_requests, h.clientId, List.filter_eq_nil_iff]
  constructor
  · intro hnone hu
    exact hnone _ hu (canHandle_own ids i)
  · intro hno uri hu hc
    obtain ⟨j, rfl⟩ := h.asked uri hu
    obtain rfl := canHandle_unique hk hc (canHandle_own ids j)
    exact hno hu

lemma delivered (hk : Ids ids) (hp : Picks pick) {w : World ι} (h : Inv ids w) {i : ι}
    (hi : (w.sources i).Playable) {k : ℕ} (hu : w.queue[k]? = some (getCurrentSourceUri (ids i))) :
    ∃ v, step pick w (.deliver k) = some v ∧ (v.sources i).state = .playing ∧
      ∀ j ≠ i, v.sources j = w.sources j := by
  have hroute := (route_own hk hp (inv_erase h k) i i).mpr rfl
  refine ⟨_, by rw [step, hu], ?_, fun j hj => ?_⟩
  · have hplay := (StreamStart.current_playing hi).1
    rw [h.clientId] at hplay
    simpa [World.play, hroute, World.put] using hplay
  · simp [World.play, hroute, World.put, hj]

end Several

/-- **One orchestrator serves them all**: a queued request goes to the source that made it and
to no other, and makes that source play; a start of a source is pending only while its own request
is queued, so that once its requests have been delivered a `STOP` is passed to `leave_group`, which
leaves just if the group plays, and the source plays if its stream has started, whatever the other
sources ask for and do. -/
theorem one_orchestrator {hubs : List String} (h : Accepted hubs)
    {pick : (Fin hubs.length → Bool) → Option (Fin hubs.length)} (hp : Picks pick)
    {w : World (Fin hubs.length)} (hw : Reach (step pick) (Fresh fun i => hubs[i]) w) :
    (∀ uri ∈ w.queue, ∃ i : Fin hubs.length, uri = getCurrentSourceUri hubs[i] ∧
      ∀ j, w.route pick uri = some j ↔ j = i) ∧
    ∀ i : Fin hubs.length,
      (∀ k, w.queue[k]? = some (getCurrentSourceUri hubs[i]) →
        ∃ v, step pick w (.deliver k) = some v ∧ (v.sources i).state = .playing ∧
          ∀ j ≠ i, v.sources j = w.sources j) ∧
      ((w.sources i).pendingStart = true → getCurrentSourceUri hubs[i] ∈ w.queue) ∧
      (getCurrentSourceUri hubs[i] ∉ w.queue →
        (w.sources i).handleCommand .stop = (w.sources i).leaveGroup ∧
        (w.sources i).leaveGroup =
          (if (w.sources i).parent.groupPlaying then (w.sources i).note .leave else w.sources i) ∧
        (w.last i = some .start → (w.sources i).state = .playing)) := by
  have hk : Ids fun i : Fin hubs.length => hubs[i] :=
    ⟨fun i => h.noSlash (List.getElem_mem i.isLt), fun i j he =>
      Fin.ext ((h.nodup.getElem_inj_iff).mp he)⟩
  have hi := inv_reach hw
  refine ⟨fun uri hu => ?_, fun i => ?_⟩
  · obtain ⟨i, rfl⟩ := hi.asked uri hu
    exact ⟨i, rfl, route_own hk hp hi i⟩
  · have ht := StreamStart.inv_reachable (alone hk hp hw i)
    have hnone := view_requests hk hi i
    have hplayable : (w.sources i).Playable :=
      ⟨ht.playable.ready, ht.playable.failed, ht.playable.listener, ht.playable.running⟩
    have hpend : (w.sources i).pendingStart = true → getCurrentSourceUri hubs[i] ∈ w.queue :=
      fun hps => by_contra fun hno => ht.pending hps (hnone.mpr hno)
    refine ⟨fun k hu => delivered hk hp hi hplayable hu, hpend, fun hno => ⟨?_, ?_, fun hl => ?_⟩⟩
    · have hps : (w.sources i).pendingStart = false :=
        Bool.eq_false_iff.mpr fun hps => hno (hpend hps)
      simp [Source.handleCommand, hplayable.running, hps]
    · rw [Source.leaveGroup, hplayable.running, Bool.true_and]
    · cases hs : (w.sources i).state with
      | playing => rfl
      | idle => exact absurd (hnone.mpr hno) (ht.started hl hs)

/-- Two sources before their first streams, beside a hub whose `client_id` is a prefix of the
other's. -/
def house : World (Fin 2) where
  sources i :=
    { parent := ⟨["kitchen", "kitchen-2"][i], true, false, true⟩
      state := .idle
      pendingStart := false
      ready := true
      failed := false
      hasListener := true
      requests := []
      effects := [] }
  last _ := none
  queue := []

/-- The orchestrator takes the last source that can handle a URI. -/
def takeLast (can : Fin 2 → Bool) : Option (Fin 2) := (List.finRange 2).reverse.find? can

lemma picks_takeLast : Picks takeLast where
  able _ _ h := List.find?_some h
  some _ i h := List.find?_isSome.mpr ⟨i, List.mem_reverse.mpr (List.mem_finRange i), h⟩

/-- Both streams start before either request is delivered, and the requests come back in the other
order. -/
def crossed (i j : Fin 2) : List (Ev (Fin 2)) :=
  [.streamStart i, .streamStart j, .command i .stop, .deliver 1, .group j true, .deliver 0]

theorem one_orchestrator_crossed :
    ∃ w, run (step takeLast) house (crossed 0 1) = some w ∧ w.queue = [] ∧
      (w.sources 0).state = .playing ∧ (w.sources 1).state = .playing := by
  have hfresh : Fresh (fun i : Fin 2 => ["kitchen", "kitchen-2"][i]) house :=
    ⟨fun _ => rfl, fun _ => ⟨rfl, rfl, rfl, rfl⟩, fun _ => rfl, fun _ => rfl, fun _ => rfl,
      fun _ => rfl, rfl⟩
  have ha : Accepted ["kitchen", "kitchen-2"] := by decide
  have h := (one_orchestrator ha picks_takeLast ⟨house, hfresh, crossed 0 1, rfl⟩).2
  exact ⟨_, rfl, rfl, ((h 0).2.2 List.not_mem_nil).2.2 rfl, ((h 1).2.2 List.not_mem_nil).2.2 rfl⟩

end SendspinMc.Orchestrator
