import SendspinMc.Lifecycle

/-!
A hub controlled by its enabled switch.

`write_state` passes the state to the hub and publishes it without asking whether the hub took
it, and a hub whose start has failed takes no request. Callbacks of the client may operate the
switch as well, so a write can also come from inside a `loop()`.
-/

namespace SendspinMc.EnabledSwitch

open SendspinMc.HubClient SendspinMc.Lifecycle SendspinMc.Lib.Runs

structure Device where
  node : Node
  /-- The state the switch last published. -/
  published : Option Bool

/-- `SendspinMcEnabledSwitch::write_state`. -/
def Device.writeState (d : Device) (state : Bool) : Device where
  node := d.node.setEnabled state
  published := some state

/-- `SendspinMcEnabledSwitch::setup`, with what the restore mode restores; the schema allows no
inverted switch. -/
def Device.setup (d : Device) (restored : Option Bool) : Device :=
  d.writeState (restored.getD true)

/-- A setter call made by a callback: the hub's `set_enabled` is only called by the switch. -/
def Device.request (d : Device) : Request → Device
  | .enabled b => d.writeState b
  | .unpairedAccess b => { d with node := d.node.setUnpairedAccessEnabled b }

/-- The state the last of these calls asks for, or the one before them. -/
def written (state : Option Bool) (calls : List Request) : Option Bool :=
  calls.foldl (fun s r => match r with | .enabled b => some b | .unpairedAccess _ => s) state

/-- `loop()` calls the client's `start()` or `stop()`. -/
def acts (n : Node) (c : Client) : Bool :=
  match n.hub.enabled, n.hub.unpairedAccess with
  | some enabled, some _ => enabled ≠ c.started && !n.hub.error
  | _, _ => false

/-- `loop()` of the hub, whose callbacks may write the switch. -/
def Device.loop (d : Device) (env : LoopEnv) : Option Device :=
  d.node.hub.client.bind fun c =>
    (d.node.loop env).map fun n =>
      { node := n
        published := written d.published ((if acts d.node c then env.inCall else []) ++ env.inLoop) }

/-- What happens before `on_shutdown()`. -/
inductive Ev
  | setup (restored : Option Bool)
  | write (state : Bool)
  | hubSetup (default : Bool)
  | setUnpairedAccess (b : Bool)
  | loop (env : LoopEnv)
  | mdns (r : Responder)

def step (d : Device) : Ev → Option Device
  | .setup restored => some (d.setup restored)
  | .write state => some (d.writeState state)
  | .hubSetup default =>
    (d.node.op (.setup default)).map fun n => { d with node := n }
  | .setUnpairedAccess b => some { d with node := d.node.setUnpairedAccessEnabled b }
  | .loop env => d.loop env
  | .mdns r => some { d with node := { d.node with responder := r } }

/-- A new hub, and a switch that has not published a state. -/
def Fresh (d : Device) : Prop := HubClient.Fresh d.node ∧ d.published = none

/-- The switch shows the hub's request. -/
def Agrees (d : Device) : Prop := d.published = d.node.hub.enabled

/-- The state written while the error status is set, last in the step, is the one the hub
keeps. -/
def Kept (d : Device) (e : Ev) (_ : Device) : Prop :=
  match e with
  | .setup restored => d.node.hub.error = true → d.node.hub.enabled = some (restored.getD true)
  | .write state => d.node.hub.error = true → d.node.hub.enabled = some state
  | .loop env =>
    ∀ c ∈ d.node.hub.client, (d.node.applyRequest c env).hub.error = true →
      written (d.node.applyRequest c env).hub.enabled env.inLoop =
        (d.node.applyRequest c env).hub.enabled
  | _ => True

instance {d d' : Device} {e : Ev} : Decidable (Kept d e d') :=
  match e with
  | .setup restored =>
    inferInstanceAs <| Decidable <|
      d.node.hub.error = true → d.node.hub.enabled = some (restored.getD true)
  | .write state =>
    inferInstanceAs (Decidable (d.node.hub.error = true → d.node.hub.enabled = some state))
  | .loop env =>
    inferInstanceAs <| Decidable <|
      ∀ c ∈ d.node.hub.client, (d.node.applyRequest c env).hub.error = true →
        written (d.node.applyRequest c env).hub.enabled env.inLoop =
          (d.node.applyRequest c env).hub.enabled
  | .hubSetup _ | .setUnpairedAccess _ | .mdns _ => .isTrue trivial

/-! ### What the hub keeps -/

lemma written_append (s : Option Bool) (u v : List Request) :
    written s (u ++ v) = written (written s u) v := by
  rw [written, List.foldl_append]
  rfl

lemma setEnabled_enabled (n : Node) (b : Bool) :
    (n.setEnabled b).hub.enabled = if n.hub.error then n.hub.enabled else some b := by
  unfold Node.setEnabled
  dsimp only
  split <;> simp_all [Node.note]

lemma requests_enabled (n : Node) (calls : List Request) :
    (n.requests calls).hub.enabled =
      if n.hub.error then n.hub.enabled else written n.hub.enabled calls := by
  induction calls generalizing n with
  | nil => simp [Node.requests, written]
  | cons r calls ih =>
    have hcons : n.requests (r :: calls) = (n.request r).requests calls := rfl
    rw [hcons, ih]
    cases r with
    | enabled b =>
      rw [Node.request, (same_setEnabled n b).error, setEnabled_enabled]
      split <;> rfl
    | unpairedAccess b =>
      rw [Node.request, (same_setUnpaired n b).error]
      rfl

lemma clientStart_enabled {n : Node} (herr : n.hub.error = false) (c : Client) (ok : Bool)
    (calls : List Request) :
    (n.clientStart c ok calls).hub.enabled = written n.hub.enabled calls := by
  have hcalls := requests_enabled (n.note (.start c.unpaired)) calls
  simp only [Node.note, herr, Bool.false_eq_true, ↓reduceIte] at hcalls
  unfold Node.clientStart
  dsimp only
  split <;> exact hcalls

lemma clientStop_enabled {n : Node} (herr : n.hub.error = false) (calls : List Request) :
    (n.clientStop calls).hub.enabled = written n.hub.enabled calls := by
  have hcalls := requests_enabled (n.note .stop) calls
  simp only [Node.note, herr, Bool.false_eq_true, ↓reduceIte] at hcalls
  exact hcalls

/-- The requests made inside a start or a stop are taken: the error status is set after
them. -/
lemma applyRequest_enabled (n : Node) (c : Client) (env : LoopEnv) :
    (n.applyRequest c env).hub.enabled =
      if acts n c then written n.hub.enabled env.inCall else n.hub.enabled := by
  unfold Node.applyRequest
  split
  case h_2 hne =>
    have hact : acts n c = false := by
      unfold acts
      split
      · rename_i enabled u hb hu
        exact (hne enabled u hb hu).elim
      · rfl
    rw [hact]
    rfl
  case h_1 enabled u hb hu =>
  have hact : acts n c = (decide (enabled ≠ c.started) && !n.hub.error) := by
    simp [acts, hb, hu]
  rw [hact]
  by_cases hne : enabled = c.started
  · simp [hne]
  cases herr : n.hub.error with
  | true => simp
  | false =>
    have hif : (decide (enabled ≠ c.started) && !false) = true := by simpa using hne
    simp only [hif, ↓reduceIte]
    rw [if_pos ⟨hne, trivial⟩]
    split
    · exact clientStop_enabled herr env.inCall
    · split
      · exact clientStart_enabled herr c env.startOk env.inCall
      · exact clientStart_enabled herr c env.startOk env.inCall

lemma updateMdnsService_enabled (n : Node) :
    n.updateMdnsService.hub.enabled = n.hub.enabled := by
  rcases updateMdnsService_hub n with he | he <;> rw [he]

/-! ### When the switch shows it -/

lemma agrees_writeState (d : Device) (state : Bool) :
    Agrees (d.writeState state) ↔ (d.node.hub.error = true → d.node.hub.enabled = some state) := by
  unfold Agrees Device.writeState
  dsimp only
  rw [setEnabled_enabled]
  cases d.node.hub.error with
  | true => simp [eq_comm]
  | false => simp

lemma agrees_loop {d d' : Device} {env : LoopEnv} (h : Agrees d) (hl : d.loop env = some d') :
    Agrees d' ↔ Kept d (.loop env) d' := by
  obtain ⟨c, hc, hl⟩ := Option.bind_eq_some_iff.mp hl
  obtain ⟨n, hn, rfl⟩ := Option.map_eq_some_iff.mp hl
  obtain ⟨c', hc', rfl⟩ := Option.map_eq_some_iff.mp hn
  obtain rfl : c = c' := Option.some.inj (hc.symm.trans hc')
  -- the writes inside the client's call keep the two equal
  have hin : written d.published (if acts d.node c then env.inCall else []) =
      (d.node.applyRequest c env).hub.enabled := by
    rw [applyRequest_enabled, h]
    split <;> rfl
  unfold Agrees Kept
  dsimp only
  rw [updateMdnsService_enabled, written_append, hin, requests_enabled, hc]
  cases herr : (d.node.applyRequest c env).hub.error with
  | true => simp [herr]
  | false => simp [herr]

lemma agrees_step {d d' : Device} {e : Ev} (h : Agrees d) (hs : step d e = some d') :
    Agrees d' ↔ Kept d e d' := by
  cases e with
  | setup restored =>
    obtain rfl := Option.some.inj hs
    exact agrees_writeState d _
  | write state =>
    obtain rfl := Option.some.inj hs
    exact agrees_writeState d state
  | hubSetup default =>
    obtain ⟨n, hn, rfl⟩ := Option.map_eq_some_iff.mp hs
    simp only [Node.op] at hn
    split at hn
    · cases hn
    · obtain rfl := Option.some.inj hn
      exact iff_of_true h trivial
  | setUnpairedAccess b => obtain rfl := Option.some.inj hs; exact iff_of_true h trivial
  | loop env => exact agrees_loop h hs
  | mdns r => obtain rfl := Option.some.inj hs; exact iff_of_true h trivial

/-- **When the switch shows what the hub was asked**: throughout a run, from before the
switch's setup to the shutdown, the published state is the hub's request exactly when every
write to a hub in error writes the request the hub already has. -/
theorem published_iff {d : Device} {es : List Ev} (h : Fresh d) :
    Throughout step Agrees d es ↔ Along step Kept d es := by
  have hkeeps : KeepsIf step (fun _ _ d' => True ∧ Agrees d') Agrees := fun _ _ _ _ hc _ => hc.2
  have hfresh : Agrees d := h.2.trans h.1.1.enabled.symm
  rw [throughout_iff, and_iff_right hfresh]
  exact hkeeps.along_congr (fun _ _ _ hi _ hs => agrees_step hi hs) hfresh
    (along_of_forall fun _ _ _ => trivial)

/-- A fresh hub and its switch. -/
def panel : Device := ⟨music, none⟩

lemma fresh_panel : Fresh panel := ⟨fresh_music, rfl⟩

/-- A start succeeds, a callback of its stop writes the switch, and the next start fails; what
is written then is the request that failed. -/
def agreed : List Ev :=
  [.setUnpairedAccess true, .hubSetup true, .setup none, .loop ⟨true, [], []⟩, .write false,
    .loop ⟨true, [.enabled true], []⟩, .loop ⟨false, [], []⟩, .write true]

theorem published_agreed : Throughout step Agrees panel agreed :=
  (published_iff fresh_panel).mpr (by decide)

/-- The start fails, and the switch is turned off. -/
def refused : List Ev :=
  [.setUnpairedAccess true, .hubSetup true, .setup none, .loop ⟨false, [], []⟩, .write false]

/-- The switch shows `off`, and the hub's request is still to run. -/
theorem refused_disagrees :
    Fresh panel ∧ ¬ Throughout step Agrees panel refused ∧
      ∃ d, run step panel refused = some d ∧ d.published = some false ∧
        d.node.hub.enabled = some true := by
  refine ⟨fresh_panel, fun h => ?_, _, rfl, rfl, rfl⟩
  have hagrees : Agrees _ := h refused List.prefix_rfl _ rfl
  cases hagrees

end SendspinMc.EnabledSwitch
