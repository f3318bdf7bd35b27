import SendspinMc.Lib.Fanout
import SendspinMc.MediaPlayer
import SendspinMc.MetadataSensors
import SendspinMc.TrackProgress
import SendspinMc.Wiring

/-!
The entities of the device while it runs.

The clients of all hubs tell their listeners what their servers say, in any order, and the pollers
of the sensors go on in between. Each entity is written by the callbacks of its own class, and
what it shows is a matter of its own hub alone.
-/

namespace SendspinMc.Entities

open SendspinMc.Codegen SendspinMc.Roles SendspinMc.HubFields SendspinMc.Boot SendspinMc.Wiring
open SendspinMc.Lib.Fanout SendspinMc.Lib.Mirror
open SendspinMc.Metadata SendspinMc.MetadataSensors SendspinMc.TrackProgress
open SendspinMc.MediaPlayer (PlaybackState Shown)
open SendspinMc.SlotNumbers (displays attic den)

/-! ### What is told -/

/-- What a hub's client tells a listener, with what entities show of it. -/
inductive Message
  | groupUpdate (playbackState : Option PlaybackState)
  | controllerState (volume : UInt8) (muted : Bool)
  | controllerStateClear
  | metadata (u : Update)
  | displayPairingCode (code : String)
  | clearPairingCode
  | imageDecode (slot : UInt8)
  | imageDisplay (slot : UInt8)
  | imageClear (slot : UInt8)
  | player

def Message.signal : Message → Signal
  | .groupUpdate _ => .groupUpdate
  | .controllerState _ _ => .controllerState
  | .controllerStateClear => .controllerStateClear
  | .metadata (.onMetadata _) => .metadata
  | .metadata .onMetadataClear => .metadataClear
  | .displayPairingCode _ => .displayPairingCode
  | .clearPairingCode => .clearPairingCode
  | .imageDecode slot => .imageDecode slot
  | .imageDisplay slot => .imageDisplay slot
  | .imageClear slot => .imageClear slot
  | .player => .player

/-- What the callbacks of a media player take in. -/
def Message.control : Message → Option MediaPlayer.Ev
  | .groupUpdate playbackState => some (.groupUpdate playbackState)
  | .controllerState volume muted => some (.controllerState volume muted)
  | .controllerStateClear => some .controllerStateClear
  | _ => none

/-- What the callback of a metadata sensor takes in. -/
def Message.update : Message → Option Update
  | .metadata u => some u
  | _ => none

/-- What the callbacks of a pairing code sensor publish. -/
def Message.code : Message → Option String
  | .displayPairingCode code => some code
  | .clearPairingCode => some ""
  | _ => none

/-! ### The entities -/

/-- The type that the entry of a sensor names; the track progress has a class of its own. -/
inductive SensorType
  | trackProgress
  | numeric (t : NumericMetadataType)

/-- The types that the entries of sensors name, by the place of the entry. -/
structure Types where
  sensor : ℕ → SensorType
  text : ℕ → TextMetadataType

/-- A child's entity. -/
inductive State (α β : Type*)
  | mediaPlayer (s : Entity (Shown β))
  | trackProgress (s : Sensor α)
  | numeric (t : NumericMetadataType) (s : Entity (Flt α))
  | text (t : TextMetadataType) (s : Entity String)
  | pairingCode (s : Entity String)
  /-- No entity that a hub writes. -/
  | none

/-- What the hub answers when a sensor asks it for the track progress. -/
def hubAnswer (w : World ℕ) (h : String) (progress : ℕ) : TrackProgress.Hub where
  ready := (w.clients h).isSome
  metadataRole := if (w.clients h).any (·.metadata) then some progress else none

section Handlers

/- The conversions of integers and of volumes. -/
variable {α β : Type*} [DecidableEq α] [DecidableEq β] (toFloat : ℤ → α) (percent : UInt8 → β)

/-- The entity of a child that has been set up. -/
def State.new (volume : β) (types : Types) (i : ℕ) : Kind → State α β
  | .mediaPlayer => .mediaPlayer (MediaPlayer.setup (MediaPlayer.new volume))
  | .sensor =>
    match types.sensor i with
    | .trackProgress => .trackProgress Sensor.new.callSetup
    | .numeric t => .numeric t (.new NAN)
  | .textSensor => .text (types.text i) (.new "")
  | .pairingCodeTextSensor => .pairingCode (.new "")
  | .imageSlot _ | .mediaSource | .switch _ => .none

/-- The callbacks of the entities' classes. -/
def State.hear (hub : TrackProgress.Hub) (m : Message) : State α β → State α β
  | .mediaPlayer s => .mediaPlayer (m.control.elim s (MediaPlayer.step percent s))
  | .trackProgress s => .trackProgress (m.update.elim s fun u => s.step toFloat (.update u hub))
  | .numeric t s => .numeric t (m.update.elim s (onUpdate toFloat t s))
  | .text t s => .text t (m.update.elim s (Text.onUpdate t s))
  | .pairingCode s => .pairingCode (m.code.elim s s.publish)
  | .none => .none

/-- The poll interval has elapsed, of a component that polls. -/
def State.poll (hub : TrackProgress.Hub) : State α β → State α β
  | .trackProgress s => .trackProgress (s.step toFloat (.interval hub))
  | s => s

/-- An event of the device. With it goes what the metadata role of the hub would answer now. -/
inductive Ev
  | told (hub : String) (m : Message) (progress : ℕ)
  | interval (i : ℕ) (progress : ℕ)

variable (w : World ℕ) (vars : ℕ → Option Var)

/-- The children that an event runs code of. -/
def receivers : Ev → List ℕ
  | .told h m _ => w.react vars h m.signal
  | .interval i _ => [i]

def handle (i : ℕ) (s : State α β) : Ev → State α β
  | .told h m progress => s.hear toFloat percent (hubAnswer w h progress) m
  | .interval _ progress =>
    match vars i with
    | some v => s.poll toFloat (hubAnswer w v.parent progress)
    | none => s

/-- The entities once everything is set up. -/
def booted (volume : β) (types : Types) (i : ℕ) : State α β :=
  match vars i with
  | some v => .new volume types i v.kind
  | none => .none

/-- The entities after these events. -/
def run (volume : β) (types : Types) (es : List Ev) : ℕ → State α β :=
  es.foldl (deliver (handle toFloat percent w vars) (receivers w vars)) (booted vars volume types)

end Handlers

/-! ### What reaches an entity -/

lemma hears_mediaPlayer (n : ℕ) (m : Message) :
    hears n .mediaPlayer m.signal = m.control.isSome := by
  cases m with
  | metadata u => cases u <;> rfl
  | _ => rfl

lemma hears_sensor (n : ℕ) (m : Message) : hears n .sensor m.signal = m.update.isSome := by
  cases m with
  | metadata u => cases u <;> rfl
  | _ => rfl

lemma hears_textSensor (n : ℕ) (m : Message) :
    hears n (.textSensor false) m.signal = m.update.isSome := by
  cases m with
  | metadata u => cases u <;> rfl
  | _ => rfl

lemma hears_pairingCode (n : ℕ) (m : Message) :
    hears n (.textSensor true) m.signal = m.code.isSome := by
  cases m with
  | metadata u => cases u <;> rfl
  | _ => rfl

/-- What is read of an event that is told by the hub. -/
def Ev.read {δ : Type*} (h : String) (f : Message → Option δ) : Ev → Option δ
  | .told h' m _ => if h' = h then f m else none
  | .interval _ _ => none

/-- What is for a track progress sensor, with the answer of the hub's metadata role. -/
def Ev.progress (h : String) (i : ℕ) : Ev → Option TrackProgress.Ev
  | .told h' m n => if h' = h then m.update.map fun u => .update u ⟨true, some n⟩ else none
  | .interval j n => if j = i then some (.interval ⟨true, some n⟩) else none

section Run

variable {cfg : Config} {events : List Event} {d : ComponentData} {p : Platform} {w : Output}
  {slots : List (Option ℕ)} {main : List (Instr ℕ)} {setups : List (Component ℕ)}
  {allocated : ℕ → Bool}

lemma nodup_receivers (hb : Boots cfg events slots w.code main setups) (e : Ev) :
    (receivers (device cfg events slots p w main setups allocated) (vars cfg events slots)
      e).Nodup := by
  cases e with
  | interval i n => exact List.nodup_singleton i
  | told h m n => exact nodup_react hb h m.signal

lemma mem_receivers_told (hg : Generated cfg events d p w)
    (hs : validateSlots cfg .empty events = .ok (slots, d))
    (hb : Boots cfg events slots w.code main setups) {i : ℕ} {e : Entry} {h : String}
    (he : events[i]? = some (.entry e)) (hr : cfg.resolve e.parent = some h)
    (himg : FinalValidation.isImage e = false) (hsrc : ∀ q, e.child ≠ .mediaSource q)
    (h' : String) (m : Message) (n : ℕ) :
    i ∈ receivers (device cfg events slots p w main setups allocated) (vars cfg events slots)
      (.told h' m n) ↔ h' = h ∧ hears (place cfg events h i) e.child m.signal = true := by
  refine (mem_react hg hs hb fun _ e' q he' hq => ?_).trans ?_
  · obtain rfl := Event.entry.inj (Option.some.inj (he.symm.trans he'))
    exact absurd hq (hsrc q)
  constructor
  · rintro ⟨e', he', hr', hears, -⟩
    obtain rfl := Event.entry.inj (Option.some.inj (he.symm.trans he'))
    obtain rfl := Option.some.inj (hr.symm.trans hr')
    exact ⟨rfl, hears⟩
  · rintro ⟨rfl, hears⟩
    exact ⟨e, he, hr, hears, fun hi => by rw [himg] at hi; cases hi⟩

variable {α β : Type*} [DecidableEq α] [DecidableEq β] {toFloat : ℤ → α} {percent : UInt8 → β}
  {volume : β} {types : Types}

lemma run_read (hg : Generated cfg events d p w)
    (hs : validateSlots cfg .empty events = .ok (slots, d))
    (hb : Boots cfg events slots w.code main setups) {i : ℕ} {e : Entry} {h : String}
    (he : events[i]? = some (.entry e)) (hr : cfg.resolve e.parent = some h)
    (himg : FinalValidation.isImage e = false) (hsrc : ∀ q, e.child ≠ .mediaSource q)
    {τ δ : Type*} {c : τ → State α β}
    {g : τ → δ → τ} {f : Message → Option δ} {t : τ}
    (hhear : ∀ hub m s, (c s).hear toFloat percent hub m = c ((f m).elim s (g s)))
    (hpoll : ∀ hub s, (c s).poll toFloat hub = c s)
    (hread : ∀ n m, hears n e.child m.signal = (f m).isSome)
    (hnew : booted (vars cfg events slots) volume types i = c t) (es : List Ev) :
    run toFloat percent (device cfg events slots p w main setups allocated)
      (vars cfg events slots) volume types es i =
        c ((es.filterMap (Ev.read h f)).foldl g t) := by
  refine foldl_deliver (nodup_receivers hb) (fun ev hev s => ?_) (fun ev hev => ?_) hnew es
  · cases ev with
    | told h' m n =>
      obtain ⟨rfl, -⟩ := (mem_receivers_told hg hs hb he hr himg hsrc h' m n).mp hev
      rw [Ev.read, if_pos rfl]
      exact hhear _ m s
    | interval j n =>
      rw [handle]
      split
      · exact hpoll _ s
      · rfl
  · cases ev with
    | interval j n => rfl
    | told h' m n =>
      rw [mem_receivers_told hg hs hb he hr himg hsrc, hread, not_and] at hev
      rw [Ev.read]
      split
      · rename_i heq
        exact Option.not_isSome_iff_eq_none.mp (hev heq)
      · rfl

lemma hubAnswer_eq (hg : Generated cfg events d p w)
    (hb : Boots cfg events slots w.code main setups) {h : HubConfig} (hh : h ∈ cfg.hubs)
    (hw : Wanted cfg events h.id .metadata) (n : ℕ) :
    hubAnswer (device cfg events slots p w main setups allocated) h.id n = ⟨true, some n⟩ := by
  have hid : .hub h.id ∈ setups := (hb.hubs h.id).mpr (List.mem_map_of_mem hh)
  have hclient := (@boot_clients ℕ w.defines (vars cfg events slots) allocated _ p main setups
    hb.sorted).1 h.id hid
  have hmeta : ((generated p main h.id).setup w.defines).metadata = true :=
    (has_iff hg hb hh .metadata).mpr hw
  simp [hubAnswer, device, hclient, hmeta]

lemma run_progress (hg : Generated cfg events d p w)
    (hs : validateSlots cfg .empty events = .ok (slots, d))
    (hb : Boots cfg events slots w.code main setups) {i : ℕ} {parent : Option String}
    {h : HubConfig} (hh : h ∈ cfg.hubs) (he : events[i]? = some (.entry ⟨parent, .sensor⟩))
    (hr : cfg.resolve parent = some h.id) (ht : types.sensor i = .trackProgress) (es : List Ev) :
    run toFloat percent (device cfg events slots p w main setups allocated)
      (vars cfg events slots) volume types es i =
        .trackProgress (Sensor.run toFloat (es.filterMap (Ev.progress h.id i))) := by
  have hv : vars cfg events slots i = some ⟨h.id, .sensor⟩ := vars_eq he hr
  have hanswer := @hubAnswer_eq cfg events d p w slots main setups allocated hg hb h hh
    ⟨_, List.mem_filterMap.mpr ⟨_, List.mem_of_getElem? he, rfl⟩, hr, by simp [roles]⟩
  refine foldl_deliver (nodup_receivers hb) (fun ev hev s => ?_) (fun ev hev => ?_)
    (by simp [booted, hv, State.new, ht]) es
  · cases ev with
    | told h' m n =>
      obtain ⟨rfl, -⟩ := (mem_receivers_told hg hs hb he hr rfl (by simp) h' m n).mp hev
      rw [handle, hanswer, Ev.progress, if_pos rfl]
      cases m <;> rfl
    | interval j n =>
      obtain rfl := List.mem_singleton.mp hev
      rw [handle, hv, Ev.progress, if_pos rfl]
      dsimp only
      rw [hanswer]
      rfl
  · cases ev with
    | interval j n =>
      refine if_neg fun hji => hev ?_
      rw [receivers, hji]
      exact List.mem_singleton_self i
    | told h' m n =>
      rw [mem_receivers_told hg hs hb he hr rfl (by simp), not_and] at hev
      rw [Ev.progress]
      split
      · rename_i heq
        have hnot := hev heq
        cases m with
        | metadata u => cases u <;> exact absurd rfl hnot
        | _ => rfl
      · rfl

lemma run_none (hb : Boots cfg events slots w.code main setups) {i : ℕ}
    (hnew : booted (vars cfg events slots) volume types i = (.none : State α β)) (es : List Ev) :
    run toFloat percent (device cfg events slots p w main setups allocated)
      (vars cfg events slots) volume types es i = .none := by
  refine foldl_deliver (c := fun _ : Unit => State.none) (g := fun t _ => t)
    (r := fun _ => (none : Option Unit)) (nodup_receivers hb) (fun e _ _ => ?_)
    (fun _ _ => rfl) (t := ()) hnew es
  cases e with
  | told h m n => rfl
  | interval j n =>
    rw [handle]
    split <;> rfl

end Run

/-! ### What an entity shows -/

section Shows

variable {α β : Type*} (toFloat : ℤ → α) (percent : UInt8 → β) (volume : β) (types : Types)

/-- The progress that a hub told last. -/
def reported (h : String) (es : List Ev) : Option Progress :=
  (es.filterMap (Ev.read h Message.update)).getLast?.bind fun u => u.state.progress

/-- The answer that comes with an event for a track progress sensor. -/
def Ev.answer (h : String) (i : ℕ) : Ev → Option ℕ
  | .told h' m n => if h' = h then m.update.map fun _ => n else none
  | .interval j n => if j = i then some n else none

/-- What an entity is to show after these events: what its own hub told last. A media player plays
if that says so; a sensor has the field of the last metadata; a pairing code sensor has published
every code, and an empty text whenever one was cleared; the track progress is that of the last
update, and while the track is playing what the metadata role answered last. -/
def Shows (h : String) (i : ℕ) (es : List Ev) : Child → State α β → Prop
  | .mediaPlayer, s => ∃ m, s = .mediaPlayer m ∧
      (m.raw.state = .playing ↔
        ((es.filterMap (Ev.read h Message.control)).filter MediaPlayer.Ev.speaks).getLast? =
          some (.groupUpdate (some .playing))) ∧
      (m.raw.volume, m.raw.muted) =
        ((es.filterMap (Ev.read h Message.control)).filterMap
          (MediaPlayer.Ev.controls percent)).getLast?.getD (volume, false)
  | .sensor, s =>
    match types.sensor i with
    | .numeric t => ∃ m, s = .numeric t m ∧
        m.raw = (es.filterMap (Ev.read h Message.update)).getLast?.elim NAN (shown toFloat t)
    | .trackProgress => ∃ m, s = .trackProgress m ∧
        (m.polling = true ↔ ∃ q, reported h es = some q ∧ q.playbackSpeed ≠ 0) ∧
        m.raw = (reported h es).elim NAN fun q =>
          if q.playbackSpeed = 0 then some (toFloat q.trackProgress)
          else (es.filterMap (Ev.answer h i)).getLast?.map fun n : ℕ => toFloat n
  | .textSensor false, s => ∃ m, s = .text (types.text i) m ∧
      m.raw = (es.filterMap (Ev.read h Message.update)).getLast?.elim ""
        fun u => Text.extractValue (types.text i) u.state
  | .textSensor true, s => ∃ m, s = .pairingCode m ∧
      m.published = (es.filterMap (Ev.read h Message.code)).reverse ∧
      m.raw = (es.filterMap (Ev.read h Message.code)).getLast?.getD ""
  | _, s => s = .none

end Shows

/-! ### The single entities -/

lemma foldl_raw {α ε : Type*} {step : Entity α → ε → Entity α} {f : ε → α}
    (hstep : ∀ m x, (step m x).raw = f x) (m : Entity α) (xs : List ε) :
    (xs.foldl step m).raw = xs.getLast?.elim m.raw f := by
  induction xs using List.reverseRecOn with
  | nil => rfl
  | append_singleton xs x _ =>
    rw [List.foldl_append, List.getLast?_concat]
    exact hstep _ x

lemma foldl_publish {α : Type*} (m : Entity α) (xs : List α) :
    (xs.foldl Entity.publish m).published = xs.reverse ++ m.published := by
  induction xs generalizing m with
  | nil => rfl
  | cons x xs ih =>
    rw [List.foldl_cons, ih, List.reverse_cons, List.append_assoc]
    rfl

/-- The hub that a track progress sensor asks at an event. -/
def asked : TrackProgress.Ev → TrackProgress.Hub
  | .update _ hub => hub
  | .interval hub => hub

lemma progress_raw {α : Type*} (toFloat : ℤ → α) (xs : List TrackProgress.Ev) :
    (Sensor.run toFloat xs).raw = (lastProgress xs).elim NAN fun q =>
      if q.playbackSpeed = 0 then some (toFloat q.trackProgress)
      else xs.getLast?.map fun e => toFloat (asked e).getTrackProgressMs := by
  have htracks := @run_tracks α toFloat xs
  cases hlast : lastProgress xs with
  | none =>
    rw [hlast] at htracks
    exact Option.isNone_iff_eq_none.mp htracks.unknown
  | some q =>
    by_cases hq : q.playbackSpeed = 0
    · rw [Option.elim_some, if_pos hq]
      exact htracks.paused q hlast hq
    · rw [Option.elim_some, if_neg hq]
      -- while the track is playing every event publishes the answer that comes with it
      rcases List.eq_nil_or_concat xs with rfl | ⟨ys, e, rfl⟩
      · cases hlast
      rw [List.concat_eq_append] at hlast ⊢
      rw [List.getLast?_concat, Sensor.run_append, List.foldl_cons, List.foldl_nil]
      have hnext : next (lastProgress ys) e = some q := by
        rw [← foldl_next, List.foldl_append, foldl_next] at hlast
        exact hlast
      cases e with
      | update u hub =>
        have hu : u.state.progress = some q := hnext
        simp [Sensor.step, Sensor.onUpdate, hu, hq, asked]
      | interval hub =>
        have hpoll : (Sensor.run toFloat ys).polling = true :=
          (TrackProgress.playing_iff toFloat ys).mpr ⟨q, hnext, hq⟩
        simp [Sensor.step, hpoll, Sensor.update, asked]

lemma lastProgress_progress (h : String) (i : ℕ) (es : List Ev) :
    lastProgress (es.filterMap (Ev.progress h i)) = reported h es := by
  have hread : ∀ e : Ev, (Ev.progress h i e).bind TrackProgress.Ev.reported =
      (Ev.read h Message.update e).map fun u => u.state.progress := fun e => by
    cases e with
    | told h' m n =>
      simp only [Ev.progress, Ev.read]
      split
      · cases m.update <;> rfl
      · rfl
    | interval j n =>
      simp only [Ev.progress, Ev.read]
      split <;> rfl
  rw [lastProgress, List.filterMap_filterMap, funext hread, ← List.map_filterMap,
    List.getLast?_map, reported]
  cases (es.filterMap (Ev.read h Message.update)).getLast? <;> rfl

lemma answers_progress (h : String) (i : ℕ) (es : List Ev) :
    (es.filterMap (Ev.progress h i)).map (fun e => (asked e).getTrackProgressMs) =
      es.filterMap (Ev.answer h i) := by
  rw [List.map_filterMap]
  refine List.filterMap_congr fun e _ => ?_
  cases e with
  | told h' m n =>
    simp only [Ev.progress, Ev.answer]
    split
    · cases m.update <;> rfl
    · rfl
  | interval j n =>
    simp only [Ev.progress, Ev.answer]
    split <;> rfl

section Device

variable {cfg : Config} {events : List Event} {α β : Type*} [DecidableEq α] [DecidableEq β]

/-- **Every entity follows its own hub**: of every accepted configuration a program is generated
that, booted in whatever order, shows at each entity what the hub told last that the entry is for.
This holds of every run, in which the clients of all hubs tell what they like in any order and
pollers go on in between; what other hubs tell does not matter. -/
theorem follow_own_hub {d : ComponentData} {order : List HubConfig} (ha : Accepted cfg events d)
    (hn : (ids cfg).Nodup) (ho : order.Perm cfg.hubs) (core : Sdkconfig) (p : Platform)
    (toFloat : ℤ → α) (percent : UInt8 → β) (volume : β) (types : Types) :
    ∃ slots w, validateSlots cfg .empty events = .ok (slots, d) ∧
      generate cfg d order core = .ok w ∧
      ∀ main setups allocated, Boots cfg events slots w.code main setups →
        ∀ i e h, events[i]? = some (.entry e) → cfg.resolve e.parent = some h → ∀ es,
          Shows toFloat percent volume types h i es e.child
            (run toFloat percent (device cfg events slots p w main setups allocated)
              (vars cfg events slots) volume types es i) := by
  obtain ⟨slots, hs⟩ := validateSlots_of_validate ha.valid
  obtain ⟨w, hw, hg⟩ := generate_fields ha hn ho core p
  refine ⟨slots, w, hs, hw, fun main setups allocated hb i e h he hr es => ?_⟩
  obtain ⟨parent, child⟩ := e
  obtain ⟨hub, hh, rfl⟩ := List.mem_map.mp (resolve_mem hr)
  have hv := @vars_eq cfg events slots i ⟨parent, child⟩ hub.id he hr
  cases child with
  | mediaPlayer =>
    refine ⟨MediaPlayer.run percent volume (es.filterMap (Ev.read hub.id Message.control)),
      ?_, MediaPlayer.playing_iff volume _, ?_⟩
    · exact run_read hg hs hb he hr rfl (by simp) (c := State.mediaPlayer) (f := Message.control)
        (fun _ _ _ => rfl) (fun _ _ => rfl) hears_mediaPlayer (by rw [booted, hv]; rfl) es
    · rw [MediaPlayer.run_raw]
      exact MediaPlayer.sets_controls.foldl _ _
  | sensor =>
    unfold Shows
    cases ht : types.sensor i with
    | numeric t =>
      refine ⟨_, run_read hg hs hb he hr rfl (by simp) (c := State.numeric t) (f := Message.update)
        (t := .new NAN) (fun _ _ _ => rfl) (fun _ _ => rfl) hears_sensor
        (by rw [booted, hv]; simp [kindOf, State.new, ht]) es, foldl_raw (fun m u => ?_) _ _⟩
      rw [onUpdate_follows toFloat t m u trivial, set_raw]
    | trackProgress =>
      refine ⟨_, run_progress hg hs hb hh he hr ht es, ?_, ?_⟩
      · rw [TrackProgress.playing_iff, Playing, lastProgress_progress]
      · rw [progress_raw, lastProgress_progress, ← answers_progress, List.getLast?_map]
        simp only [Option.map_map, Function.comp_def]
  | textSensor pairingCode =>
    cases pairingCode with
    | false =>
      refine ⟨_, run_read hg hs hb he hr rfl (by simp) (c := State.text (types.text i))
        (f := Message.update) (fun _ _ _ => rfl) (fun _ _ => rfl) hears_textSensor
        (by rw [booted, hv]; rfl) es, foldl_raw (fun m u => ?_) _ _⟩
      rw [Text.onUpdate, Text.publishIfChanged_eq, set_raw]
    | true =>
      refine ⟨_, run_read hg hs hb he hr rfl (by simp) (c := State.pairingCode) (f := Message.code)
        (fun _ _ _ => rfl) (fun _ _ => rfl) hears_pairingCode (by rw [booted, hv]; rfl) es, ?_, ?_⟩
      · rw [foldl_publish]
        exact List.append_nil _
      · rw [foldl_raw (f := id) fun _ _ => rfl]
        cases (es.filterMap (Ev.read hub.id Message.code)).getLast? <;> rfl
  | image q =>
    refine run_none hb ?_ es
    rw [booted, hv]
    cases slots[i]?.join <;> rfl
  | mediaSource q => exact run_none hb (by rw [booted, hv]; rfl) es
  | switch t => exact run_none hb (by rw [booted, hv]; rfl) es
  | switchAction => exact run_none hb (by rw [booted, hv]; rfl) es
  | pairingWindowAction => exact run_none hb (by rw [booted, hv]; rfl) es

end Device

/-- A media player and a pairing code for the attic, and the track progress of the den. -/
def loftEvents : List Event :=
  [.entry ⟨some "attic", .mediaPlayer⟩, .entry ⟨some "den", .sensor⟩,
    .entry ⟨some "attic", .textSensor true⟩]

def loftData : ComponentData :=
  (displays.config.validate .empty loftEvents).toOption.getD .empty

lemma loft_accepted : Accepted displays.config loftEvents loftData := by
  exact ⟨by decide, by simp [loftEvents], by rfl⟩

def loftVar : ℕ → Option Var
  | 0 => some ⟨"attic", .mediaPlayer⟩
  | 1 => some ⟨"den", .sensor⟩
  | 2 => some ⟨"attic", .pairingCodeTextSensor⟩
  | _ => none

/-- Both hubs play, and both show a code. -/
def loftRun : List Ev :=
  [.told "attic" (.groupUpdate (some .playing)) 0, .told "attic" (.displayPairingCode "314159") 0,
    .told "den" (.displayPairingCode "271828") 0,
    .told "den" (.metadata (.onMetadata { progress := some ⟨5000, 180000, 1000⟩ })) 5003,
    .told "den" (.groupUpdate (some .stopped)) 5010, .interval 1 6003]

/-- The entities after it. -/
def loft (slots : List (Option ℕ)) (w : Output) (main : List (Instr ℕ))
    (setups : List (Component ℕ)) : ℕ → State ℤ ℕ :=
  run id UInt8.toNat
    (device displays.config loftEvents slots firmware w main setups fun _ => true)
    (vars displays.config loftEvents slots) 0 ⟨fun _ => .trackProgress, fun _ => .title⟩ loftRun

theorem follow_own_hub_loft :
    ∃ slots w main setups, Boots displays.config loftEvents slots w.code main setups ∧
      (∃ m, loft slots w main setups 0 = .mediaPlayer m ∧ m.raw.state = .playing) ∧
      (∃ m, loft slots w main setups 1 = .trackProgress m ∧ m.raw = some 6003) ∧
      ∃ m, loft slots w main setups 2 = .pairingCode m ∧ m.published = ["314159"] := by
  obtain ⟨slots, w, hs, -, hall⟩ := follow_own_hub loft_accepted (by decide) (List.Perm.refl _)
    (fun _ => none) firmware id UInt8.toNat 0 ⟨fun _ => .trackProgress, fun _ => .title⟩
  have hslots : validateSlots displays.config .empty loftEvents =
      .ok ([none, none, none], loftData) := by rfl
  obtain ⟨rfl, -⟩ := Prod.mk.inj (Except.ok.inj (hs.symm.trans hslots))
  set slots : List (Option ℕ) := [none, none, none] with hdef
  have hvars : ∀ i, vars displays.config loftEvents slots i = loftVar i
    | 0 | 1 | 2 => rfl
    | _ + 3 => rfl
  have hb : Boots displays.config loftEvents slots w.code (w.code.map fun x => .call x.1 x.2)
      [.hub "den", .hub "attic", .child 2, .child 0, .child 1] := by
    refine ⟨?_, fun h i => ?_, by decide, by decide, fun h => ?_, fun i => ?_⟩
    · simp [List.filterMap_map, Function.comp_def, Instr.call?]
    · rw [hvars]
      match i with
      | 0 | 1 | 2 | i + 3 => simp [loftVar]
    · simp [ids, displays, attic, den]
    · rw [hvars]
      match i with
      | 0 | 1 | 2 | i + 3 => simp [loftVar]
  obtain ⟨player, hplayer, hplays, -⟩ := hall _ _ (fun _ => true) hb 0 _ "attic" rfl rfl loftRun
  obtain ⟨progress, hprogress, -, hraw⟩ := hall _ _ (fun _ => true) hb 1 _ "den" rfl rfl loftRun
  obtain ⟨code, hcode, hpublished, -⟩ := hall _ _ (fun _ => true) hb 2 _ "attic" rfl rfl loftRun
  exact ⟨slots, w, _, _, hb, ⟨player, hplayer, hplays.mpr rfl⟩, ⟨progress, hprogress, hraw⟩, code,
    hcode, hpublished⟩

end SendspinMc.Entities
