import SendspinMc.Lifecycle
import SendspinMc.Lib.Durable

/-!
A hub whose unpaired access is set by its switch.

The library forgets the setting, so the switch's restore mode keeps it, in a preference that is
written late. Turning unpaired access off is the one change that a power cut must not undo, and
the one that `write_state` syncs.
-/

namespace SendspinMc.UnpairedSwitch

open SendspinMc.HubClient SendspinMc.Lifecycle SendspinMc.Lib.Durable SendspinMc.Lib.Runs

/-- A switch that restores its state, by `RESTORE_DEFAULT_OFF` or `RESTORE_DEFAULT_ON`, and its
hub. -/
structure Device where
  defaultOn : Bool
  /-- `state`, once `has_state()`. -/
  state : Option Bool
  preference : Cell Bool
  node : Node

/-- `publish_state`, which records the state to be saved. -/
def Device.publishState (d : Device) (state : Bool) : Device :=
  { d with state := some state, preference := d.preference.save state }

/-- `SendspinMcUnpairedAccessSwitch::write_state`. -/
def Device.writeState (d : Device) (state : Bool) : Device :=
  let turningOff := !state && d.state.isSome && d.state.getD false
  let d := { d with node := d.node.setUnpairedAccessEnabled state }
  let d := d.publishState state
  if turningOff then { d with preference := d.preference.sync } else d

/-- `get_initial_state_with_restore_mode`. -/
def Device.getInitialState (d : Device) : Option Bool :=
  some (d.preference.restore d.defaultOn)

/-- `SendspinMcUnpairedAccessSwitch::setup`. -/
def Device.setup (d : Device) : Device := d.writeState (d.getInitialState.getD true)

/-- A hub as its constructor makes it. -/
def reboot (n : Node) : Node where
  hub :=
    { clientName := n.hub.clientName
      serverPort := n.hub.serverPort
      client := none
      enabled := none
      unpairedAccess := none
      error := false
      mdnsAdvertised := false }
  log := []
  responder := ⟨false, []⟩

/-- A power cut, and the start of the next boot. -/
def Device.cut (d : Device) : Device :=
  { d with state := none, preference := d.preference.crash, node := reboot d.node }

/-- The request leaves unpaired access to the switch. -/
def leaves : Request → Bool
  | .enabled _ => true
  | .unpairedAccess _ => false

/-- The operation leaves unpaired access to the switch. -/
def leavesUnpaired : Op → Bool
  | .setup _ | .setEnabled _ => true
  | .setUnpairedAccess _ => false
  | .loop env => env.inCall.all leaves && env.inLoop.all leaves
  | .shutdown calls => calls.all leaves

/-- What happens between the calls of `write_state`: a boot runs `setup()` once, and the state
is written, and the power cut, after it. -/
inductive Ev
  | setup
  | write (state : Bool)
  | flush
  | hub (o : Op)
  | cut
  deriving DecidableEq

def step (d : Device) : Ev → Option Device
  | .setup => if d.state.isSome then none else some d.setup
  | .write state => if d.state.isSome then some (d.writeState state) else none
  | .flush => some { d with preference := d.preference.sync }
  | .hub o =>
    if leavesUnpaired o then (d.node.op o).map fun n => { d with node := n } else none
  | .cut => if d.state.isSome then some d.cut else none

/-- A device at the start of a boot, whatever an earlier one has left in flash. -/
structure Fresh (d : Device) : Prop where
  state : d.state = none
  recorded : d.preference.recorded = none
  node : HubClient.Fresh d.node

abbrev Reachable : Device → Prop := Reach step Fresh

/-! ### What the hub's operations leave alone -/

lemma requests_unpaired {n : Node} {calls : List Request} (h : calls.all leaves = true) :
    (n.requests calls).hub.unpairedAccess = n.hub.unpairedAccess := by
  induction calls generalizing n with
  | nil => rfl
  | cons r calls ih =>
    rw [List.all_cons, Bool.and_eq_true] at h
    obtain ⟨hr, hcalls⟩ := h
    refine (ih (n := n.request r) hcalls).trans ?_
    cases r with
    | enabled b =>
      rw [Node.request, Node.setEnabled]
      dsimp only
      split <;> rfl
    | unpairedAccess b => cases hr

lemma clientStart_unpaired {n : Node} {c : Client} {ok : Bool} {calls : List Request}
    (h : calls.all leaves = true) :
    (n.clientStart c ok calls).hub.unpairedAccess = n.hub.unpairedAccess := by
  have hcalls := requests_unpaired (n := n.note (.start c.unpaired)) h
  unfold Node.clientStart
  dsimp only
  split <;> exact hcalls

lemma clientStop_unpaired {n : Node} {calls : List Request} (h : calls.all leaves = true) :
    (n.clientStop calls).hub.unpairedAccess = n.hub.unpairedAccess :=
  requests_unpaired (n := n.note .stop) h

lemma applyRequest_unpaired {n : Node} {c : Client} {env : LoopEnv}
    (h : env.inCall.all leaves = true) :
    (n.applyRequest c env).hub.unpairedAccess = n.hub.unpairedAccess := by
  have hstart := @clientStart_unpaired n c env.startOk _ h
  have hstop := clientStop_unpaired (n := n) h
  unfold Node.applyRequest
  split
  · split
    · split
      · exact hstop
      · dsimp only
        split <;> exact hstart
    · rfl
  · rfl

lemma op_unpaired {n v : Node} {o : Op} (h : leavesUnpaired o = true) (ho : n.op o = some v) :
    v.hub.unpairedAccess = n.hub.unpairedAccess := by
  cases o with
  | setup default =>
    simp only [Node.op] at ho
    split at ho
    · cases ho
    · obtain rfl := Option.some.inj ho
      rfl
  | setEnabled b =>
    obtain rfl := Option.some.inj ho
    exact @requests_unpaired _ [.enabled b] rfl
  | setUnpairedAccess b => cases h
  | loop env =>
    rw [leavesUnpaired, Bool.and_eq_true] at h
    obtain ⟨c, hc, rfl⟩ := Option.map_eq_some_iff.mp ho
    have hmdns : ∀ m : Node, m.updateMdnsService.hub.unpairedAccess = m.hub.unpairedAccess :=
      fun m => by rcases updateMdnsService_hub m with he | he <;> rw [he]
    rw [hmdns, requests_unpaired h.2, applyRequest_unpaired h.1]
  | shutdown calls =>
    obtain rfl := Option.some.inj ho
    unfold Node.onShutdown
    dsimp only
    split
    · exact clientStop_unpaired h
    · rfl

/-! ### The invariant -/

/-- Once set up, the hub's request is the switch's state, and flash says `on` only if the switch
does; before, nothing is recorded. -/
structure Inv (d : Device) : Prop where
  hub : d.state.isSome = true → d.node.hub.unpairedAccess = d.state
  guarded : ∀ s ∈ d.state, Guarded (· = true) d.defaultOn d.preference s
  unset : d.state = none → d.preference.recorded = none

lemma inv_fresh {d : Device} (h : Fresh d) : Inv d :=
  ⟨by simp [h.state], by simp [h.state], fun _ => h.recorded⟩

lemma writeState_spec (d : Device) (state : Bool) :
    (d.writeState state).state = some state ∧
      (d.writeState state).node.hub.unpairedAccess = some state ∧
      (d.writeState state).defaultOn = d.defaultOn := by
  unfold Device.writeState
  dsimp only
  split <;> exact ⟨rfl, rfl, rfl⟩

lemma Inv.writeState {d : Device} {s : Bool} (h : Inv d) (hs : d.state = some s) (state : Bool) :
    Inv (d.writeState state) := by
  obtain ⟨hst, hhub, -⟩ := writeState_spec d state
  refine ⟨fun _ => hhub.trans hst.symm, fun v hv => ?_, fun hn => by simp [hst] at hn⟩
  obtain rfl : state = v := Option.some.inj (hst.symm.trans hv)
  have hg := h.guarded s hs
  unfold Device.writeState
  dsimp only
  split
  · exact guarded_save_sync
  · -- the switch is not turned off, so it is on, or it was off before
    rename_i hoff
    refine hg.save fun hon => ?_
    cases state with
    | true => rfl
    | false => simp [hs, hon] at hoff

lemma Inv.setup {d : Device} (hs : d.state = none) : Inv d.setup := by
  obtain ⟨hst, hhub, -⟩ := writeState_spec d (d.preference.restore d.defaultOn)
  refine ⟨fun _ => hhub.trans hst.symm, fun v hv => ?_, fun hn => ?_⟩
  · obtain rfl : d.preference.restore d.defaultOn = v := Option.some.inj (hst.symm.trans hv)
    simp only [Device.setup, Device.getInitialState, Option.getD_some, Device.writeState, hs,
      Device.publishState, Option.isSome_none, Bool.and_false, Bool.false_and, Bool.false_eq_true,
      ↓reduceIte]
    exact guarded_restore
  · exact absurd (hst.symm.trans hn) (by simp)

lemma inv_step {d d' : Device} {e : Ev} (h : Inv d) (hs : step d e = some d') : Inv d' := by
  cases e with
  | setup =>
    simp only [step] at hs
    split at hs
    · cases hs
    · rename_i hn
      obtain rfl := Option.some.inj hs
      exact .setup (by simpa using hn)
  | write state =>
    simp only [step] at hs
    split at hs
    · rename_i hsome
      obtain rfl := Option.some.inj hs
      obtain ⟨s, hst⟩ := Option.isSome_iff_exists.mp hsome
      exact h.writeState hst state
    · cases hs
  | flush =>
    obtain rfl := Option.some.inj hs
    exact ⟨h.hub, fun s hst => (h.guarded s hst).sync, fun _ => rfl⟩
  | hub o =>
    simp only [step] at hs
    split at hs
    · rename_i hl
      obtain ⟨n, hn, rfl⟩ := Option.map_eq_some_iff.mp hs
      exact ⟨fun hst => (op_unpaired hl hn).trans (h.hub hst), h.guarded, h.unset⟩
    · cases hs
  | cut =>
    simp only [step] at hs
    split at hs
    · obtain rfl := Option.some.inj hs
      exact ⟨fun hst => (by cases hst), fun _ hst => (by cases hst), fun _ => rfl⟩
    · cases hs

theorem inv_reachable {d : Device} (h : Reachable d) : Inv d :=
  Keeps.reach (fun _ _ _ hi hst => inv_step hi hst) (fun _ => inv_fresh) h

/-! ### From a power cut to the next setup -/

/-- A boot before its `setup()`, in which flash stays as the power cut left it. -/
def Booting (default : Bool) (flash : Option Bool) (d : Device) : Prop :=
  d.state = none ∧ d.preference = ⟨flash, none⟩ ∧ d.defaultOn = default

lemma booting_step {default : Bool} {flash : Option Bool} :
    KeepsOn step (· ≠ .setup) (Booting default flash) := by
  rintro d e d' ⟨hst, hp, hd⟩ he hs
  cases e with
  | setup => exact absurd rfl he
  | write state => simp [step, hst] at hs
  | flush =>
    obtain rfl := Option.some.inj hs
    exact ⟨hst, by rw [hp]; rfl, hd⟩
  | hub o =>
    simp only [step] at hs
    split at hs
    · obtain ⟨n, -, rfl⟩ := Option.map_eq_some_iff.mp hs
      exact ⟨hst, hp, hd⟩
    · cases hs
  | cut => simp [step, hst] at hs

/-- **A power cut never reopens unpaired access**: outside `write_state` the hub's request is
the switch's state from its setup on, and the setup after a power cut restores `on`, and makes
that request, only if the switch was on when the power was cut. -/
theorem never_reopened {d : Device} (h : Reachable d) :
    (d.state.isSome = true → d.node.hub.unpairedAccess = d.state) ∧
    (∀ c es b u, step d .cut = some c → (∀ e ∈ es, e ≠ .setup) → run step c es = some b →
      step b .setup = some u →
      (b.getInitialState = some true → d.state = some true) ∧
      (u.node.hub.unpairedAccess = some true → d.state = some true)) := by
  have hi := inv_reachable h
  refine ⟨hi.hub, fun c es b u hc hes hb hu => ?_⟩
  obtain ⟨s, hst⟩ : ∃ s, d.state = some s := by
    cases hst : d.state with
    | none => simp [step, hst] at hc
    | some s => exact ⟨s, rfl⟩
  have hboot : Booting d.defaultOn d.preference.durable c := by
    simp only [step, hst, Option.isSome_some, ↓reduceIte, Option.some.injEq] at hc
    subst hc
    exact ⟨rfl, rfl, rfl⟩
  obtain ⟨hbst, hbp, hbd⟩ := booting_step.run hboot hes hb
  have hrestore : b.preference.restore b.defaultOn = d.preference.restore d.defaultOn := by
    rw [hbp, hbd]
    exact restore_crash d.preference d.defaultOn
  have hon : b.preference.restore b.defaultOn = true → d.state = some true := by
    intro hr
    have hs : s = true := (hi.guarded s hst).restored (hrestore ▸ hr)
    rw [hst, hs]
  refine ⟨fun hr => hon (Option.some.inj hr), fun hr => hon ?_⟩
  simp only [step, hbst, Option.isSome_none, Bool.false_eq_true, ↓reduceIte,
    Option.some.injEq] at hu
  subst hu
  exact Option.some.inj ((writeState_spec b _).2.1.symm.trans hr)

/-- A switch that is on unless it is stored to be off. -/
def guest : Device := ⟨true, none, ⟨none, none⟩, music⟩

/-- It is turned on, flushed and turned off. -/
def toggled : List Ev := [.setup, .write false, .write true, .flush, .hub (.setup true), .write false]

lemma fresh_guest : Fresh guest := ⟨rfl, rfl, fresh_music⟩

theorem never_reopened_toggled :
    ∃ d c u, run step guest toggled = some d ∧ step d .cut = some c ∧ step c .setup = some u ∧
      u.node.hub.unpairedAccess ≠ some true := by
  refine ⟨_, _, _, rfl, rfl, rfl, fun hu => ?_⟩
  have hon := ((never_reopened ⟨guest, fresh_guest, toggled, rfl⟩).2 _ [] _ _ rfl (by simp) rfl
    rfl).2 hu
  cases hon

end SendspinMc.UnpairedSwitch
