import SendspinMc.Lib.Runs
import SendspinMc.MediaPlayer
import SendspinMc.Volume

/-!
What the media player asks of the server.

A volume goes to the server as a byte. The cast to it is undefined off the range of a byte, so
`control` answers `none` there.
-/

namespace SendspinMc.MediaPlayerControl

open SendspinMc.Lib.Mirror SendspinMc.Lib.Rounding SendspinMc.Lib.Runs SendspinMc.MediaPlayer
  SendspinMc.Volume

/-- `SendspinControllerCommand`. -/
inductive SendspinControllerCommand
  | play | pause | stop | next | previous | volume | mute | repeatOff | repeatOne | repeatAll
  | shuffle | unshuffle | switch
  deriving DecidableEq

/-- `ClientCommandControllerObject`. -/
structure ClientCommand where
  command : SendspinControllerCommand
  volume : Option UInt8
  muted : Option Bool
  deriving DecidableEq

/-- What the commands read of the hub, and what its controller role was sent, newest first. -/
structure Hub where
  clientRunning : Bool
  /-- `controller_role_ != nullptr`. -/
  controllerRole : Bool
  sent : List ClientCommand

/-- `SendspinMcHub::send_client_command`. -/
def Hub.sendClientCommand (h : Hub) (command : SendspinControllerCommand) (volume : Option UInt8)
    (mute : Option Bool) : Hub :=
  if h.clientRunning && h.controllerRole then
    { h with sent := ⟨command, volume, mute⟩ :: h.sent }
  else h

/-- `SendspinMcHub::switch_client`. -/
def Hub.switchClient (h : Hub) : Hub := h.sendClientCommand .switch none none

/-- `MediaPlayerCommand`. -/
inductive MediaPlayerCommand
  | toggle | play | pause | stop | repeatOff | repeatOne | repeatAll | shuffle | unshuffle | next
  | previous | volumeUp | volumeDown | mute | unmute
  /-- Any other value of the enumeration. -/
  | other
  deriving DecidableEq

structure MediaPlayerCall where
  volume : Option Float32
  command : Option MediaPlayerCommand

/-- The entity with its hub. -/
structure Player where
  ready : Bool
  volumeIncrement : Float32
  entity : Entity (Shown Float32)
  hub : Hub

def Player.send (p : Player) (command : SendspinControllerCommand) (volume : Option UInt8 := none)
    (mute : Option Bool := none) : Player :=
  { p with hub := p.hub.sendClientCommand command volume mute }

/-- A volume that is sent as a percentage. -/
def Player.sendVolume (p : Player) (volume : Float32) : Option Player :=
  (toPercent volume).map fun v => p.send .volume (some v)

/-- The `switch` of `control`. -/
def Player.command (p : Player) : MediaPlayerCommand → Option Player
  | .toggle => some (if p.entity.raw.state = .playing then p.send .pause else p.send .play)
  | .play => some (p.send .play)
  | .pause => some (p.send .pause)
  | .stop => some (p.send .stop)
  | .repeatOff => some (p.send .repeatOff)
  | .repeatOne => some (p.send .repeatOne)
  | .repeatAll => some (p.send .repeatAll)
  | .shuffle => some (p.send .shuffle)
  | .unshuffle => some (p.send .unshuffle)
  | .next => some (p.send .next)
  | .previous => some (p.send .previous)
  | .volumeUp => p.sendVolume (stepUp p.entity.raw.volume p.volumeIncrement)
  | .volumeDown => p.sendVolume (stepDown p.entity.raw.volume p.volumeIncrement)
  | .mute => some (p.send .mute none (some true))
  | .unmute => some (p.send .mute none (some false))
  | .other => some p

/-- What `control` does first, with the volume of the call. -/
def Player.controlVolume (p : Player) : Option Float32 → Option Player
  | some volume => p.sendVolume volume
  | none => some p

/-- What `control` does then, with its command. -/
def Player.controlCommand (p : Player) : Option MediaPlayerCommand → Option Player
  | some command => p.command command
  | none => some p

def Player.control (p : Player) (call : MediaPlayerCall) : Option Player :=
  if !p.ready then some p
  else if !p.hub.clientRunning then some p
  else (p.controlVolume call.volume).bind fun p => p.controlCommand call.command

/-! ### The player among its callers -/

/-- A callback of the library, a call of the framework, the hub's switch action, and what these
depend on. -/
inductive Ev
  | callback (e : MediaPlayer.Ev)
  | control (call : MediaPlayerCall)
  | switchClient
  | ready (b : Bool)
  | running (b : Bool)

def step (p : Player) : Ev → Option Player
  | .callback e => some { p with entity := MediaPlayer.step ofPercent p.entity e }
  | .control call => p.control call
  | .switchClient => some { p with hub := p.hub.switchClient }
  | .ready b => some { p with ready := b }
  | .running b => some { p with hub := { p.hub with clientRunning := b } }

/-- Servers tell volumes of at most a hundred percent, and the framework asks for none outside
its range. -/
def Regular : Ev → Prop
  | .callback (.controllerState volume _) => volume.toNat ≤ 100
  | .control call => ∀ volume ∈ call.volume, ∃ q, val volume = some q ∧ 0 ≤ q ∧ q ≤ 1
  | _ => True

/-- A command as the protocol has it: a volume with `VOLUME` alone, of at most a hundred percent,
and a mute with `MUTE` alone. -/
structure WellFormed (c : ClientCommand) : Prop where
  volume : c.volume.isSome ↔ c.command = .volume
  muted : c.muted.isSome ↔ c.command = .mute
  le : ∀ v ∈ c.volume, v.toNat ≤ 100

/-- What the callers keep. -/
structure Inv (p : Player) : Prop where
  volume : Sane p.entity.raw.volume
  increment : ∃ i, val p.volumeIncrement = some i ∧ 0 ≤ i ∧ i ≤ 1
  sent : ∀ c ∈ p.hub.sent, WellFormed c

@[simp] lemma send_entity (p : Player) (c : SendspinControllerCommand) (v : Option UInt8)
    (m : Option Bool) : (p.send c v m).entity = p.entity := rfl
@[simp] lemma send_volumeIncrement (p : Player) (c : SendspinControllerCommand) (v : Option UInt8)
    (m : Option Bool) : (p.send c v m).volumeIncrement = p.volumeIncrement := rfl

lemma sent_sendClientCommand (h : Hub) (c : SendspinControllerCommand) (v : Option UInt8)
    (m : Option Bool) :
    (h.sendClientCommand c v m).sent =
      if h.clientRunning && h.controllerRole then ⟨c, v, m⟩ :: h.sent else h.sent := by
  unfold Hub.sendClientCommand
  split <;> rfl

lemma Inv.send {p : Player} (h : Inv p) {c : SendspinControllerCommand} {v : Option UInt8}
    {m : Option Bool} (hc : WellFormed ⟨c, v, m⟩) : Inv (p.send c v m) := by
  refine ⟨h.volume, h.increment, fun x hx => ?_⟩
  rw [Player.send, sent_sendClientCommand] at hx
  split at hx
  · rcases List.mem_cons.mp hx with rfl | hx
    · exact hc
    · exact h.sent x hx
  · exact h.sent x hx

lemma Inv.sendVolume {p : Player} (h : Inv p) {volume : Float32} (hv : Sendable volume) :
    ∃ p', p.sendVolume volume = some p' ∧ Inv p' := by
  obtain ⟨v, hto, hle⟩ := hv
  exact ⟨_, by rw [Player.sendVolume, hto]; rfl, h.send ⟨by simp, by simp, by simpa using hle⟩⟩

lemma Inv.command {p : Player} (h : Inv p) (c : MediaPlayerCommand) :
    ∃ p', p.command c = some p' ∧ Inv p' := by
  obtain ⟨i, hi, h0, h1⟩ := h.increment
  have hplain : ∀ c, c ≠ .volume → c ≠ .mute → Inv (p.send c) := fun c hv hm =>
    h.send ⟨by simp [hv], by simp [hm], by simp⟩
  have hmute : ∀ b, Inv (p.send .mute none (some b)) := fun b =>
    h.send ⟨by simp, by simp, by simp⟩
  cases c with
  | volumeUp => exact h.sendVolume (sendable_stepUp hi h0 h1 h.volume)
  | volumeDown => exact h.sendVolume (sendable_stepDown hi h0 h1 h.volume)
  | toggle =>
    refine ⟨_, rfl, ?_⟩
    split
    · exact hplain .pause (by decide) (by decide)
    · exact hplain .play (by decide) (by decide)
  | mute | unmute => exact ⟨_, rfl, hmute _⟩
  | other => exact ⟨_, rfl, h⟩
  | _ => exact ⟨_, rfl, hplain _ (by decide) (by decide)⟩

lemma Inv.control {p : Player} (h : Inv p) {call : MediaPlayerCall}
    (hv : ∀ volume ∈ call.volume, ∃ q, val volume = some q ∧ 0 ≤ q ∧ q ≤ 1) :
    ∃ p', p.control call = some p' ∧ Inv p' := by
  have hvolume : ∃ p', p.controlVolume call.volume = some p' ∧ Inv p' := by
    cases hc : call.volume with
    | none => exact ⟨p, rfl, h⟩
    | some volume =>
      obtain ⟨q, hq, h0, h1⟩ := hv volume (by simp [hc])
      exact h.sendVolume (sane_of_val hq h0 h1).sendable
  obtain ⟨p', hp', hi'⟩ := hvolume
  unfold Player.control
  split
  · exact ⟨p, rfl, h⟩
  split
  · exact ⟨p, rfl, h⟩
  rw [hp', Option.bind_some]
  cases call.command with
  | none => exact ⟨p', rfl, hi'⟩
  | some c => exact hi'.command c

lemma sane_callback {s : Entity (Shown Float32)} (h : Sane s.raw.volume) {e : MediaPlayer.Ev}
    (he : Regular (.callback e)) : Sane (MediaPlayer.step ofPercent s e).raw.volume := by
  rw [MediaPlayer.step_follows s e trivial, set_raw]
  cases e with
  | controllerState volume muted => exact sane_ofPercent he
  | groupUpdate playbackState => exact h
  | controllerStateClear => exact h

lemma inv_step {p : Player} (h : Inv p) {e : Ev} (he : Regular e) :
    ∃ p', step p e = some p' ∧ Inv p' := by
  cases e with
  | callback e => exact ⟨_, rfl, sane_callback h.volume he, h.increment, h.sent⟩
  | control call => exact h.control he
  | switchClient =>
    exact ⟨_, rfl, h.send (c := .switch) (v := none) (m := none) ⟨by simp, by simp, by simp⟩⟩
  | ready b | running b => exact ⟨_, rfl, h.volume, h.increment, h.sent⟩

/-- **Volumes stay in range**: whatever is called, told, started or stopped in whichever order,
no cast of `control` is undefined, and every command that goes out is one of the protocol, with a
volume of at most a hundred percent. -/
theorem volumes_in_range {p : Player} (h : Inv p) {es : List Ev} (hes : ∀ e ∈ es, Regular e) :
    ∃ p', run step p es = some p' ∧ ∀ c ∈ p'.hub.sent, WellFormed c := by
  suffices hrun : ∃ p', run step p es = some p' ∧ Inv p' by
    obtain ⟨p', hp', hi⟩ := hrun
    exact ⟨p', hp', hi.sent⟩
  induction es generalizing p with
  | nil => exact ⟨p, rfl, h⟩
  | cons e es ih =>
    obtain ⟨he, hes⟩ := List.forall_mem_cons.mp hes
    obtain ⟨p', hp', hi⟩ := inv_step h he
    obtain ⟨p'', hp'', hi''⟩ := ih hi hes
    exact ⟨p'', by rw [run_cons, hp']; exact hp'', hi''⟩

/-- A player of the default increment. -/
def player : Player := ⟨true, 0.05, setup (new 1.0), ⟨true, true, []⟩⟩

lemma val_default : val 0.05 = some (13421773 / 268435456) := by decide +kernel

lemma inv_player : Inv player where
  volume := sane_of_val val_one zero_le_one le_rfl
  increment := ⟨_, val_default, by norm_num, by norm_num⟩
  sent c hc := by cases hc

/-- Calls before and after the hub stops its client. -/
def someCalls : List Ev :=
  [.control ⟨none, some .volumeDown⟩, .callback (.controllerState 95 false), .running false,
    .control ⟨none, some .toggle⟩, .running true, .control ⟨none, some .mute⟩]

theorem volumes_in_range_sample : ∃ p, run step player someCalls = some p ∧
    p.hub.sent = [⟨.mute, none, some true⟩, ⟨.volume, some 95, none⟩] ∧
    ∀ c ∈ p.hub.sent, WellFormed c := by
  have hregular : ∀ e ∈ someCalls, Regular e := by simp [someCalls, Regular]
  obtain ⟨p, hp, hc⟩ := volumes_in_range inv_player hregular
  refine ⟨p, hp, ?_, hc⟩
  have hsent : (run step player someCalls).map (fun p => p.hub.sent) =
      some [⟨.mute, none, some true⟩, ⟨.volume, some 95, none⟩] := by decide +kernel
  rw [hp] at hsent
  exact Option.some.inj hsent

/-! ### A server that does what it is asked -/

/-- The server does what it was asked last, and tells the volume it has now. -/
def Player.answered (p : Player) : Player :=
  match p.hub.sent.head?.bind ClientCommand.volume with
  | some volume =>
    { p with entity := onControllerState ofPercent p.entity volume p.entity.raw.muted }
  | none => p

/-- What is asked about the volume: a step, or one of a percentage. -/
inductive Ask
  | up
  | down
  | set (volume : UInt8)

def Ask.call : Ask → MediaPlayerCall
  | .up => ⟨none, some .volumeUp⟩
  | .down => ⟨none, some .volumeDown⟩
  | .set volume => ⟨some (ofPercent volume), none⟩

/-- The volume it should lead to, by steps of `k` percent. -/
def Ask.next (k : ℕ) (volume : UInt8) : Ask → UInt8
  | .up => UInt8.ofNat (min 100 (volume.toNat + k))
  | .down => UInt8.ofNat (volume.toNat - k)
  | .set volume => volume

/-- The volumes the server should hear. -/
def heard (k : ℕ) (volume : UInt8) : List Ask → List UInt8
  | [] => []
  | a :: asks => a.next k volume :: heard k (a.next k volume) asks

/-- The command that asks for a volume. -/
def volumeCommand (volume : UInt8) : ClientCommand := ⟨.volume, some volume, none⟩

/-- The framework asks, and the server answers. -/
def converse (p : Player) (a : Ask) : Option Player := (p.control a.call).map Player.answered

/-- A player that is heard by its server. -/
structure Heard (p : Player) : Prop where
  ready : p.ready = true
  running : p.hub.clientRunning = true
  role : p.hub.controllerRole = true

/-- The player after a server took a volume from it. -/
def Player.served (p : Player) (volume : UInt8) : Player :=
  { p with
    entity := onControllerState ofPercent p.entity volume p.entity.raw.muted
    hub := { p.hub with sent := volumeCommand volume :: p.hub.sent } }

lemma Heard.served {p : Player} (h : Heard p) (volume : UInt8) : Heard (p.served volume) :=
  ⟨h.ready, h.running, h.role⟩

lemma served_volume (p : Player) (volume : UInt8) :
    (p.served volume).entity.raw.volume = ofPercent volume := by
  rw [Player.served, onControllerState_eq, set_raw]

lemma Heard.sendVolume {p : Player} (h : Heard p) {x : Float32} {volume : UInt8}
    (hx : toPercent x = some volume) :
    (p.sendVolume x).map Player.answered = some (p.served volume) := by
  have hsend : p.hub.sendClientCommand .volume (some volume) none =
      { p.hub with sent := volumeCommand volume :: p.hub.sent } :=
    if_pos (by simp [h.running, h.role])
  simp only [Player.sendVolume, hx, Option.map_some, Player.send, hsend]
  rfl

lemma Heard.converse {p : Player} (h : Heard p) {k : ℕ} (hk : Increment p.volumeIncrement k)
    {volume : UInt8} (hv : p.entity.raw.volume = ofPercent volume) (a : Ask) :
    converse p a = some (p.served (a.next k volume)) := by
  rw [MediaPlayerControl.converse, Player.control, if_neg (by simp [h.ready]),
    if_neg (by simp [h.running])]
  cases a with
  | up => exact h.sendVolume (hv ▸ toPercent_up hk volume)
  | down => exact h.sendVolume (hv ▸ toPercent_down hk volume)
  | set v =>
    simp only [Ask.call, Player.controlVolume, Player.controlCommand, Option.bind_fun_some]
    exact h.sendVolume (toPercent_ofPercent v)

/-- **Volume steps are exact**: with an increment within 0.49 of `k` percent, and a server that
does as it is asked, every conversation about the volume goes by steps of exactly `k`, stopping at
nothing and at everything. What was rounded away never adds up, and a volume that was
told comes back as it is. -/
theorem volume_steps {p : Player} (h : Heard p) {k : ℕ} (hk : Increment p.volumeIncrement k)
    {volume : UInt8} (hv : p.entity.raw.volume = ofPercent volume) (asks : List Ask) :
    ∃ p', run converse p asks = some p' ∧
      p'.entity.raw.volume = ofPercent (asks.foldl (Ask.next k) volume) ∧
      p'.hub.sent = ((heard k volume asks).map volumeCommand).reverse ++ p.hub.sent := by
  induction asks generalizing p volume with
  | nil => exact ⟨p, rfl, hv, rfl⟩
  | cons a asks ih =>
    obtain ⟨p', hp', hvol, hsent⟩ := ih (h.served (a.next k volume)) hk (served_volume p _)
    refine ⟨p', ?_, hvol, ?_⟩
    · rw [run_cons, h.converse hk hv a]
      exact hp'
    · rw [hsent, heard, List.map_cons, List.reverse_cons, List.append_assoc]
      rfl

lemma increment_default : Increment 0.05 5 :=
  ⟨_, val_default, by norm_num, by norm_num, by norm_num [abs_le]⟩

theorem volume_steps_sample :
    ∃ p, run converse player [.up, .set 12, .down, .down, .down] = some p ∧
    p.entity.raw.volume = ofPercent 0 ∧
    p.hub.sent.map ClientCommand.volume = [some 0, some 2, some 7, some 12, some 100] := by
  have hheard : Heard player := ⟨rfl, rfl, rfl⟩
  have hfull : player.entity.raw.volume = ofPercent 100 := by decide +kernel
  obtain ⟨p, hp, hvol, hsent⟩ := volume_steps hheard increment_default hfull
    [.up, .set 12, .down, .down, .down]
  refine ⟨p, hp, hvol, ?_⟩
  rw [hsent]
  rfl

end SendspinMc.MediaPlayerControl
