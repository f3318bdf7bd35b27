import SendspinMc.Lib.Relay
import SendspinMc.Lib.Runs
import SendspinMc.Volume

/-!
The media source between the orchestrator and the library's player role.

A volume or mute the server tells is requested of the orchestrator, which notifies the source of
it later; the source caches what it is notified of, and hands it to the role once `setup()` has
found one. The casts of a volume are undefined off the range of a byte, and answer `none` there.
-/

namespace SendspinMc.PlayerRole

open SendspinMc.Lib.Relay SendspinMc.Lib.Rounding SendspinMc.Lib.Runs SendspinMc.Volume

/-- What the library's `PlayerRole` is told. -/
structure Role where
  volume : UInt8
  muted : Bool
  outputDelayAdjustable : Bool
  deriving DecidableEq

/-- The source, and the requests the orchestrator has not answered yet. -/
structure Adapter where
  /-- `player_role_`. -/
  playerRole : Option Role
  failed : Bool
  cachedVolume : Float32
  cachedMuted : Bool
  staticDelayAdjustable : Bool
  hasListener : Bool
  volumeRequests : List Float32
  muteRequests : List Bool

/-- The source as its constructor leaves it. -/
def Adapter.new (hasListener : Bool) : Adapter :=
  ⟨none, false, 0.0, false, false, hasListener, [], []⟩

def Adapter.mapRole (a : Adapter) (f : Role → Role) : Adapter :=
  { a with playerRole := a.playerRole.map f }

/-- `update_volume`, if there is a role. -/
def Adapter.updateVolume (a : Adapter) (volume : Float32) : Option Adapter :=
  if a.playerRole.isSome then
    (toPercent volume).map fun v => a.mapRole fun r => { r with volume := v }
  else some a

def Adapter.updateMuted (a : Adapter) (muted : Bool) : Adapter :=
  a.mapRole fun r => { r with muted := muted }

def Adapter.setOutputDelayAdjustable (a : Adapter) (adjustable : Bool) : Adapter :=
  a.mapRole fun r => { r with outputDelayAdjustable := adjustable }

/-- `setup()`, with what `get_player_role()` answers. -/
def Adapter.setup (a : Adapter) (role : Option Role) : Option Adapter :=
  let a := { a with playerRole := role }
  if role.isNone then some { a with failed := true }
  else
    (a.updateVolume a.cachedVolume).map fun a =>
      (a.updateMuted a.cachedMuted).setOutputDelayAdjustable a.staticDelayAdjustable

def Adapter.setStaticDelayAdjustable (a : Adapter) (adjustable : Bool) : Adapter :=
  { a with staticDelayAdjustable := adjustable }.setOutputDelayAdjustable adjustable

def Adapter.notifyVolumeChanged (a : Adapter) (volume : Float32) : Option Adapter :=
  { a with cachedVolume := volume }.updateVolume volume

def Adapter.notifyMuteChanged (a : Adapter) (isMuted : Bool) : Adapter :=
  { a with cachedMuted := isMuted }.updateMuted isMuted

/-- `on_volume_changed`. -/
def Adapter.onVolumeChanged (a : Adapter) (volume : UInt8) : Adapter :=
  if a.hasListener then { a with volumeRequests := a.volumeRequests ++ [ofPercent volume] } else a

/-- `on_mute_changed`. -/
def Adapter.onMuteChanged (a : Adapter) (muted : Bool) : Adapter :=
  if a.hasListener then { a with muteRequests := a.muteRequests ++ [muted] } else a

/-- The library's callbacks, the calls of the framework, and the orchestrator's answers to the
oldest request. -/
inductive Ev
  | setup (role : Option Role)
  | setStaticDelayAdjustable (adjustable : Bool)
  | volumeChanged (volume : UInt8)
  | muteChanged (muted : Bool)
  | answerVolume
  | answerMute
  | notifyVolume (volume : Float32)
  | notifyMute (isMuted : Bool)

def step (a : Adapter) : Ev → Option Adapter
  | .setup role => a.setup role
  | .setStaticDelayAdjustable adjustable => some (a.setStaticDelayAdjustable adjustable)
  | .volumeChanged volume => some (a.onVolumeChanged volume)
  | .muteChanged muted => some (a.onMuteChanged muted)
  | .answerVolume =>
    match a.volumeRequests with
    | [] => some a
    | volume :: rest => { a with volumeRequests := rest }.notifyVolumeChanged volume
  | .answerMute =>
    match a.muteRequests with
    | [] => some a
    | muted :: rest => some ({ a with muteRequests := rest }.notifyMuteChanged muted)
  | .notifyVolume volume => a.notifyVolumeChanged volume
  | .notifyMute isMuted => some (a.notifyMuteChanged isMuted)

/-! ### The role holds what is cached -/

/-- A volume of the framework is one. -/
def Ranged : Ev → Prop
  | .notifyVolume volume => ∃ q, val volume = some q ∧ 0 ≤ q ∧ q ≤ 1
  | _ => True

/-- The role with what is cached. -/
def Adapter.holds (a : Adapter) (r : Role) : Prop :=
  toPercent a.cachedVolume = some r.volume ∧ r.muted = a.cachedMuted ∧
    r.outputDelayAdjustable = a.staticDelayAdjustable

/-- What is cached can be handed over, and has been if there is a role. -/
structure Inv (a : Adapter) : Prop where
  cached : (toPercent a.cachedVolume).isSome
  requests : ∀ x ∈ a.volumeRequests, (toPercent x).isSome
  role : ∀ r ∈ a.playerRole, a.holds r

lemma inv_new (hasListener : Bool) : Inv (.new hasListener) :=
  ⟨by rw [Adapter.new, show (0.0 : Float32) = ofPercent 0 by decide +kernel, toPercent_ofPercent]; rfl,
    by simp [Adapter.new], by simp [Adapter.new]⟩

lemma Inv.setup {a : Adapter} (h : Inv a) (role : Option Role) :
    ∃ a', a.setup role = some a' ∧ Inv a' := by
  obtain ⟨v, hv⟩ := Option.isSome_iff_exists.mp h.cached
  cases role with
  | none => exact ⟨_, rfl, h.cached, h.requests, by simp⟩
  | some r =>
    refine ⟨{ a with playerRole := some ⟨v, a.cachedMuted, a.staticDelayAdjustable⟩ }, ?_,
      h.cached, h.requests, ?_⟩
    · simp [Adapter.setup, Adapter.updateVolume, hv, Adapter.mapRole, Adapter.updateMuted,
        Adapter.setOutputDelayAdjustable]
    · rintro _ ⟨⟩
      exact ⟨hv, rfl, rfl⟩

lemma Inv.notifyVolumeChanged {a : Adapter} (h : Inv a) {volume : Float32}
    (hv : (toPercent volume).isSome) : ∃ a', a.notifyVolumeChanged volume = some a' ∧ Inv a' := by
  obtain ⟨v, hv'⟩ := Option.isSome_iff_exists.mp hv
  cases hr : a.playerRole with
  | none => exact ⟨_, if_neg (by simp [hr]), hv, h.requests, by simp [hr]⟩
  | some r =>
    obtain ⟨-, hm, hd⟩ := h.role r hr
    refine ⟨{ a with cachedVolume := volume, playerRole := some { r with volume := v } }, ?_, hv,
      h.requests, ?_⟩
    · simp [Adapter.notifyVolumeChanged, Adapter.updateVolume, hr, hv', Adapter.mapRole]
    · rintro _ ⟨⟩
      exact ⟨hv', hm, hd⟩

lemma Inv.notifyMuteChanged {a : Adapter} (h : Inv a) (isMuted : Bool) :
    Inv (a.notifyMuteChanged isMuted) := by
  refine ⟨h.cached, h.requests, fun r hr => ?_⟩
  obtain ⟨r₀, hr₀, rfl⟩ := Option.map_eq_some_iff.mp hr
  obtain ⟨hv, -, hd⟩ := h.role r₀ hr₀
  exact ⟨hv, rfl, hd⟩

lemma Inv.setStaticDelayAdjustable {a : Adapter} (h : Inv a) (adjustable : Bool) :
    Inv (a.setStaticDelayAdjustable adjustable) := by
  refine ⟨h.cached, h.requests, fun r hr => ?_⟩
  obtain ⟨r₀, hr₀, rfl⟩ := Option.map_eq_some_iff.mp hr
  obtain ⟨hv, hm, -⟩ := h.role r₀ hr₀
  exact ⟨hv, hm, rfl⟩

lemma inv_step {a : Adapter} (h : Inv a) {e : Ev} (he : Ranged e) :
    ∃ a', step a e = some a' ∧ Inv a' := by
  cases e with
  | setup role => exact h.setup role
  | setStaticDelayAdjustable adjustable => exact ⟨_, rfl, h.setStaticDelayAdjustable adjustable⟩
  | volumeChanged volume =>
    refine ⟨_, rfl, ?_⟩
    unfold Adapter.onVolumeChanged
    split
    · refine ⟨h.cached, fun x hx => ?_, h.role⟩
      rcases List.mem_append.mp hx with hx | hx
      · exact h.requests x hx
      · rw [List.mem_singleton.mp hx, toPercent_ofPercent]
        rfl
    · exact h
  | muteChanged muted =>
    refine ⟨_, rfl, ?_⟩
    unfold Adapter.onMuteChanged
    split
    · exact ⟨h.cached, h.requests, h.role⟩
    · exact h
  | answerVolume =>
    cases hq : a.volumeRequests with
    | nil => exact ⟨a, by simp [step, hq], h⟩
    | cons x rest =>
      have hrest : Inv { a with volumeRequests := rest } :=
        ⟨h.cached, fun y hy => h.requests y (by simp [hq, hy]), h.role⟩
      obtain ⟨a', ha', hi⟩ := hrest.notifyVolumeChanged (h.requests x (by simp [hq]))
      exact ⟨a', by simpa [step, hq] using ha', hi⟩
  | answerMute =>
    cases hq : a.muteRequests with
    | nil => exact ⟨a, by simp [step, hq], h⟩
    | cons x rest =>
      have hrest : Inv { a with muteRequests := rest } := ⟨h.cached, h.requests, h.role⟩
      exact ⟨_, by simp [step, hq], hrest.notifyMuteChanged x⟩
  | notifyVolume volume =>
    obtain ⟨q, hq, h0, h1⟩ := he
    obtain ⟨v, hv, -⟩ := (sane_of_val hq h0 h1).sendable
    exact h.notifyVolumeChanged (by simp [hv])
  | notifyMute isMuted => exact ⟨_, rfl, h.notifyMuteChanged isMuted⟩

/-! ### What is cached -/

/-- Two sources that differ in their role at most. -/
structure Same (a b : Adapter) : Prop where
  cachedVolume : b.cachedVolume = a.cachedVolume
  cachedMuted : b.cachedMuted = a.cachedMuted
  staticDelayAdjustable : b.staticDelayAdjustable = a.staticDelayAdjustable
  hasListener : b.hasListener = a.hasListener
  volumeRequests : b.volumeRequests = a.volumeRequests
  muteRequests : b.muteRequests = a.muteRequests

lemma same_updateVolume {a b : Adapter} {volume : Float32} (h : a.updateVolume volume = some b) :
    Same a b := by
  unfold Adapter.updateVolume at h
  split at h
  · obtain ⟨v, -, rfl⟩ := Option.map_eq_some_iff.mp h
    exact ⟨rfl, rfl, rfl, rfl, rfl, rfl⟩
  · obtain rfl := Option.some.inj h
    exact ⟨rfl, rfl, rfl, rfl, rfl, rfl⟩

lemma same_setup {a b : Adapter} {role : Option Role} (h : a.setup role = some b) : Same a b := by
  unfold Adapter.setup at h
  dsimp only at h
  split at h
  · obtain rfl := Option.some.inj h
    exact ⟨rfl, rfl, rfl, rfl, rfl, rfl⟩
  · obtain ⟨c, hc, rfl⟩ := Option.map_eq_some_iff.mp h
    obtain ⟨hv, hm, hd, hl, hvr, hmr⟩ := same_updateVolume hc
    exact ⟨hv, hm, hd, hl, hvr, hmr⟩

/-- A volume of the server. -/
@[simp] def Ev.volume : Ev → Option UInt8
  | .volumeChanged volume => some volume
  | _ => none

/-- A mute of the server. -/
@[simp] def Ev.mute : Ev → Option Bool
  | .muteChanged muted => some muted
  | _ => none

/-- A setting of the output delay. -/
@[simp] def Ev.adjustable : Ev → Option Bool
  | .setStaticDelayAdjustable adjustable => some adjustable
  | _ => none

/-- The orchestrator notifies only of what was requested. -/
def Requested : Ev → Prop
  | .notifyVolume _ | .notifyMute _ => False
  | _ => True

/-- What was told is cached or requested. -/
structure Told (volumes : List UInt8) (mutes adjustables : List Bool) (a : Adapter) : Prop where
  listener : a.hasListener = true
  volume : Relays 0.0 (volumes.map ofPercent) a.volumeRequests a.cachedVolume
  mute : Relays false mutes a.muteRequests a.cachedMuted
  adjustable : a.staticDelayAdjustable = adjustables.getLast?.getD false

lemma Told.same {vs : List UInt8} {ms ds : List Bool} {a b : Adapter} (h : Told vs ms ds a)
    (hs : Same a b) : Told vs ms ds b := by
  refine ⟨hs.hasListener.trans h.listener, ?_, ?_, hs.staticDelayAdjustable.trans h.adjustable⟩
  · rw [hs.volumeRequests, hs.cachedVolume]
    exact h.volume
  · rw [hs.muteRequests, hs.cachedMuted]
    exact h.mute

lemma told_step {vs : List UInt8} {ms ds : List Bool} {a b : Adapter} {e : Ev}
    (h : Told vs ms ds a) (he : Requested e) (hst : step a e = some b) :
    Told (vs ++ e.volume.toList) (ms ++ e.mute.toList) (ds ++ e.adjustable.toList) b := by
  cases e with
  | setup role => simpa using h.same (same_setup hst)
  | setStaticDelayAdjustable adjustable =>
    obtain rfl := Option.some.inj hst
    have htold : Told vs ms (ds ++ [adjustable]) (a.setStaticDelayAdjustable adjustable) :=
      ⟨h.listener, h.volume, h.mute, by simp [Adapter.setStaticDelayAdjustable,
        Adapter.setOutputDelayAdjustable, Adapter.mapRole]⟩
    simpa using htold
  | volumeChanged volume =>
    obtain rfl := Option.some.inj hst
    rw [Adapter.onVolumeChanged, if_pos h.listener]
    refine ⟨h.listener, ?_, by simpa using h.mute, by simpa using h.adjustable⟩
    simpa using h.volume.tell (ofPercent volume)
  | muteChanged muted =>
    obtain rfl := Option.some.inj hst
    rw [Adapter.onMuteChanged, if_pos h.listener]
    refine ⟨h.listener, by simpa using h.volume, ?_, by simpa using h.adjustable⟩
    simpa using h.mute.tell muted
  | answerVolume =>
    cases hq : a.volumeRequests with
    | nil =>
      obtain rfl : a = b := by simpa [step, hq] using hst
      simpa using h
    | cons x rest =>
      have hpass : Relays 0.0 (vs.map ofPercent) rest x := (hq ▸ h.volume).pass
      have htold : Told vs ms ds { a with volumeRequests := rest, cachedVolume := x } :=
        ⟨h.listener, hpass, h.mute, h.adjustable⟩
      have hnotify : { a with volumeRequests := rest }.notifyVolumeChanged x = some b := by
        simpa [step, hq] using hst
      simpa using htold.same (same_updateVolume hnotify)
  | answerMute =>
    cases hq : a.muteRequests with
    | nil =>
      obtain rfl : a = b := by simpa [step, hq] using hst
      simpa using h
    | cons x rest =>
      have hpass : Relays false ms rest x := (hq ▸ h.mute).pass
      have hnotify : { a with muteRequests := rest }.notifyMuteChanged x = b := by
        simpa [step, hq] using hst
      have htold : Told vs ms ds b := by
        rw [← hnotify]
        exact ⟨h.listener, h.volume, hpass, h.adjustable⟩
      simpa using htold
  | notifyVolume volume | notifyMute isMuted => exact he.elim

lemma told_run {vs : List UInt8} {ms ds : List Bool} {a b : Adapter} {es : List Ev}
    (h : Told vs ms ds a) (hes : ∀ e ∈ es, Requested e) (hr : run step a es = some b) :
    Told (vs ++ es.filterMap Ev.volume) (ms ++ es.filterMap Ev.mute)
      (ds ++ es.filterMap Ev.adjustable) b := by
  induction es generalizing vs ms ds a with
  | nil =>
    obtain rfl := Option.some.inj hr
    simpa using h
  | cons e es ih =>
    obtain ⟨he, hes⟩ := List.forall_mem_cons.mp hes
    obtain ⟨a', ha', hr⟩ := Option.bind_eq_some_iff.mp hr
    have htold := ih (told_step h he ha') hes hr
    simpa only [List.filterMap_eq_flatMap_toList, List.flatMap_cons, List.append_assoc] using htold

lemma inv_run {a : Adapter} (h : Inv a) {es : List Ev} (hes : ∀ e ∈ es, Ranged e) :
    ∃ b, run step a es = some b ∧ Inv b := by
  induction es generalizing a with
  | nil => exact ⟨a, rfl, h⟩
  | cons e es ih =>
    obtain ⟨he, hes⟩ := List.forall_mem_cons.mp hes
    obtain ⟨a', ha', hi⟩ := inv_step h he
    obtain ⟨b, hb, hi⟩ := ih hi hes
    exact ⟨b, by rw [run_cons, ha']; exact hb, hi⟩

/-- **The role ends with what the server told**: whenever `setup()` finds the role, before or
after the server and the configuration speak, and however the orchestrator's answers come in
between, once it has answered every request the role has the volume and the mute that were told
last. In any case it has what is cached, and no cast is undefined. -/
theorem role_told {es : List Ev} (hes : ∀ e ∈ es, Ranged e) :
    ∃ a, run step (.new true) es = some a ∧ (∀ r ∈ a.playerRole, a.holds r) ∧
      ((∀ e ∈ es, Requested e) → a.volumeRequests = [] → a.muteRequests = [] →
        ∀ r ∈ a.playerRole,
          r.volume = (es.filterMap Ev.volume).getLast?.getD 0 ∧
          r.muted = (es.filterMap Ev.mute).getLast?.getD false ∧
          r.outputDelayAdjustable = (es.filterMap Ev.adjustable).getLast?.getD false) := by
  obtain ⟨a, ha, hi⟩ := inv_run (inv_new true) hes
  refine ⟨a, ha, hi.role, fun hreq hvr hmr r hr => ?_⟩
  have hnone : Told [] [] [] (.new true) := ⟨rfl, relays_nil _, relays_nil _, rfl⟩
  obtain ⟨-, hv, hm, hd⟩ := told_run hnone hreq ha
  obtain ⟨hrv, hrm, hrd⟩ := hi.role r hr
  rw [hvr] at hv
  rw [hmr] at hm
  refine ⟨?_, by rw [hrm, hm.drained]; rfl, by rw [hrd, hd]; rfl⟩
  have hzero : (0.0 : Float32) = ofPercent 0 := by decide +kernel
  rw [hv.drained, List.nil_append, List.getLast?_map, hzero, Option.getD_map,
    toPercent_ofPercent] at hrv
  exact (Option.some.inj hrv).symm

/-- The server speaks before `setup()` and after it, and a volume is superseded in the queue. -/
def conversation : List Ev :=
  [.volumeChanged 40, .answerVolume, .setup (some ⟨7, true, true⟩), .muteChanged true,
    .volumeChanged 35, .volumeChanged 30, .answerVolume, .answerMute, .answerVolume]

theorem role_told_conversation : ∃ a, run step (.new true) conversation = some a ∧
    a.playerRole = some ⟨30, true, false⟩ := by
  have hranged : ∀ e ∈ conversation, Ranged e := by simp [conversation, Ranged]
  obtain ⟨a, ha, -, htold⟩ := role_told hranged
  have hdrained : (run step (.new true) conversation).map
      (fun a => (a.volumeRequests.isEmpty, a.muteRequests.isEmpty, a.playerRole.isSome)) =
        some (true, true, true) := by decide +kernel
  rw [ha] at hdrained
  obtain ⟨hv, hm, hr⟩ : a.volumeRequests = [] ∧ a.muteRequests = [] ∧ a.playerRole.isSome := by
    simpa using hdrained
  obtain ⟨⟨volume, muted, adjustable⟩, hr⟩ := Option.isSome_iff_exists.mp hr
  obtain ⟨hrv, hrm, hrd⟩ := htold (by simp [conversation, Requested]) hv hm _ hr
  obtain rfl : volume = 30 := hrv
  obtain rfl : muted = true := hrm
  obtain rfl : adjustable = false := hrd
  exact ⟨a, ha, hr⟩

end SendspinMc.PlayerRole
