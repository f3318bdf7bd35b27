import SendspinMc.Lib.Places
import SendspinMc.SwitchOwners

/-!
From power on to the first start.

The generated code makes the requests that no switch makes; then the components are set up one by
one, each switch after its hub, and a hub that is set up may already run its `loop()` while others
are not. In all of this no client runs but as its own hub's owners ask for.
-/

namespace SendspinMc.PowerOn

open SendspinMc.Codegen SendspinMc.HubCode SendspinMc.HubClient
open SendspinMc.Lifecycle SendspinMc.FinalValidation SendspinMc.SwitchOwners
open SendspinMc.Lib.Places SendspinMc.Lib.Runs

/-! ### The boot -/

structure Device where
  nodes : String → Node
  /-- The switches that have been set up, by the places of their entries. -/
  switches : List ℕ

inductive Ev
  | setupHub (h : String) (default : Bool)
  | setupSwitch (i : ℕ)
  | loop (h : String) (env : LoopEnv)
  | mdns (h : String) (r : Responder)

/-- The switch at a place. -/
def switchAt (full : FullConfig) (i : ℕ) : Option (SwitchType × String) :=
  full.entries[i]?.bind fun e =>
    match e.child with
    | .switch t => (full.config.resolve e.parent).map fun h => (t, h)
    | _ => none

/-- An operation of one of the hubs. -/
def Device.on (s : Device) (h : String) (n : Node) : Device :=
  { s with nodes := Function.update s.nodes h n }

section Step

variable (full : FullConfig) (restored : ℕ → Option Bool)

/-- A switch is set up once, when its hub has been, with what its restore mode restores. -/
def step (s : Device) : Ev → Option Device
  | .setupHub h default => ((s.nodes h).op (.setup default)).map (s.on h)
  | .setupSwitch i =>
    (switchAt full i).bind fun (t, h) =>
      if i ∈ s.switches ∨ (s.nodes h).hub.client.isNone then none
      else
        some
          { s.on h ((s.nodes h).request (setupRequest (restored i) t)) with
            switches := i :: s.switches }
  | .loop h env => ((s.nodes h).loop env).map (s.on h)
  | .mdns h r => some (s.on h { s.nodes h with responder := r })

end Step

/-- The hubs after the generated code. -/
def powered (code : List (String × Stmt)) (nodes : String → Node) : Device where
  nodes := fun h => (nodes h).requests (generated code h)
  switches := []

/-- No callback writes a switch. -/
def Calm : Ev → Prop
  | .loop _ env => env.inCall = [] ∧ env.inLoop = []
  | _ => True

/-! ### Who decides -/

/-- The value that the owner of a setting gives it: a switch of the hub what it has restored, or
on; if there is none, the generated code. -/
def Decides (full : FullConfig) (restored : ℕ → Option Bool) (h : HubConfig) (t : SwitchType)
    (b : Bool) : Prop :=
  (∃ i, switchAt full i = some (t, h.id) ∧ b = (restored i).getD true) ∨
    (∀ i, switchAt full i ≠ some (t, h.id)) ∧ b = initial h t

/-- The owner has made the request. -/
def Made (full : FullConfig) (s : Device) (h : String) (t : SwitchType) : Prop :=
  ∀ i, switchAt full i = some (t, h) → i ∈ s.switches

variable {casefold : String → String} {full : FullConfig} {d : ComponentData}
  {restored : ℕ → Option Bool}

lemma switchAt_some {i : ℕ} {t : SwitchType} {h : String} (hi : switchAt full i = some (t, h)) :
    ∃ e, full.entries[i]? = some e ∧ e ∈ owners full t h := by
  obtain ⟨e, he, hm⟩ := Option.bind_eq_some_iff.mp hi
  refine ⟨e, he, ?_⟩
  split at hm
  · rename_i t' hc
    obtain ⟨h', hr, heq⟩ := Option.map_eq_some_iff.mp hm
    obtain ⟨rfl, rfl⟩ := Prod.mk.inj heq
    exact mem_owners.mpr ⟨List.mem_of_getElem? he, hc, hr⟩
  · cases hm

lemma switchAt_of_owner {t : SwitchType} {h : String} {e : Entry} (he : e ∈ owners full t h) :
    ∃ i, switchAt full i = some (t, h) := by
  obtain ⟨hm, hc, hr⟩ := mem_owners.mp he
  obtain ⟨i, hi⟩ := List.mem_iff_getElem?.mp hm
  exact ⟨i, by simp [switchAt, hi, hc, hr]⟩

lemma switchAt_none_iff {t : SwitchType} {h : String} :
    (∀ i, switchAt full i ≠ some (t, h)) ↔ owners full t h = [] := by
  constructor
  · intro hnone
    by_contra hne
    obtain ⟨e, he⟩ := List.exists_mem_of_ne_nil _ hne
    obtain ⟨i, hi⟩ := switchAt_of_owner he
    exact hnone i hi
  · intro hnil i hi
    obtain ⟨e, -, he⟩ := switchAt_some hi
    rw [hnil] at he
    cases he

lemma switchAt_unique (ha : Accepted casefold full d) {i j : ℕ} {t : SwitchType} {h : String}
    (hi : switchAt full i = some (t, h)) (hj : switchAt full j = some (t, h)) : i = j := by
  obtain ⟨e, he, hem⟩ := switchAt_some hi
  obtain ⟨e', he', hem'⟩ := switchAt_some hj
  have hle := owners_le_one ha t h
  rw [owners, ← List.filterMap_eq_filter] at hle
  refine place_unique hle he he' ?_ ?_
  · simpa using (List.mem_filter.mp hem).2
  · simpa using (List.mem_filter.mp hem').2

lemma decides_unique (ha : Accepted casefold full d) (h : HubConfig) (t : SwitchType) :
    ∃! b, Decides full restored h t b := by
  by_cases hs : ∃ i, switchAt full i = some (t, h.id)
  · obtain ⟨i, hi⟩ := hs
    refine ⟨_, .inl ⟨i, hi, rfl⟩, fun b hb => ?_⟩
    rcases hb with ⟨j, hj, rfl⟩ | ⟨hnone, -⟩
    · rw [switchAt_unique ha hi hj]
    · exact absurd hi (hnone i)
  · have hnone := not_exists.mp hs
    exact ⟨_, .inr ⟨hnone, rfl⟩, fun b hb => hb.elim (fun ⟨i, hi, _⟩ => absurd hi (hnone i)) (·.2)⟩

/-! ### What a log asks for -/

/-- The request behind an entry of a log. -/
def asks : Obs → Option Request
  | .setEnabled b => some (.enabled b)
  | .setUnpairedAccess b => some (.unpairedAccess b)
  | .shutdown => some (.enabled false)
  | _ => none

lemma enabled_asked {log : List Obs} {b : Bool} (h : latestEnabled log = some b) :
    .enabled b ∈ log.filterMap asks := by
  induction log with
  | nil => cases h
  | cons o log ih =>
    have hold : latestEnabled log = some b → .enabled b ∈ (o :: log).filterMap asks :=
      fun hl => ((List.sublist_cons_self o log).filterMap asks).subset (ih hl)
    cases o with
    | setEnabled b' =>
      rw [latestEnabled] at h
      split at h
      · exact hold h
      · obtain rfl := Option.some.inj h
        exact List.mem_cons_self
    | shutdown =>
      obtain rfl := Option.some.inj h
      exact List.mem_cons_self
    | _ => exact hold h

lemma unpaired_asked {log : List Obs} {b : Bool} (h : latestUnpaired log = some b) :
    .unpairedAccess b ∈ log.filterMap asks := by
  induction log with
  | nil => cases h
  | cons o log ih =>
    have hold : latestUnpaired log = some b → .unpairedAccess b ∈ (o :: log).filterMap asks :=
      fun hl => ((List.sublist_cons_self o log).filterMap asks).subset (ih hl)
    cases o with
    | setUnpairedAccess b' =>
      obtain rfl := Option.some.inj h
      exact List.mem_cons_self
    | _ => exact hold h

lemma request_asks (n : Node) (r : Request) :
    (n.request r).log.filterMap asks = r :: n.log.filterMap asks := by
  cases r with
  | enabled b => rw [Node.request, setEnabled_log]; rfl
  | unpairedAccess b => rfl

lemma requests_asks (n : Node) (rs : List Request) :
    (n.requests rs).log.filterMap asks = rs.reverse ++ n.log.filterMap asks := by
  induction rs generalizing n with
  | nil => rfl
  | cons r rs ih =>
    change ((n.request r).requests rs).log.filterMap asks = _
    rw [ih, request_asks, List.reverse_cons, List.append_assoc]
    rfl

/-! ### A `loop()` without callbacks -/

lemma applyRequest_calm {n : Node} {c : Client} {env : LoopEnv} (hq : env.inCall = []) :
    (∀ t, asked (n.applyRequest c env) t = asked n t) ∧
      (n.applyRequest c env).log.filterMap asks = n.log.filterMap asks ∧
      ((n.applyRequest c env).hub.error = true →
        n.hub.error = true ∨ ∀ t, (asked n t).isSome = true) := by
  unfold Node.applyRequest
  split
  · rename_i b u hb hu
    have hboth : ∀ t, (asked n t).isSome = true := fun t => by cases t <;> simp [asked, hb, hu]
    split
    · split
      · rw [hq]
        exact ⟨fun t => by cases t <;> rfl, rfl, fun _ => .inr hboth⟩
      · rw [hq]
        dsimp only
        cases env.startOk <;> exact ⟨fun t => by cases t <;> rfl, rfl, fun _ => .inr hboth⟩
    · exact ⟨fun _ => rfl, rfl, .inl⟩
  · exact ⟨fun _ => rfl, rfl, .inl⟩

lemma updateMdnsService_calm (n : Node) :
    (∀ t, asked n.updateMdnsService t = asked n t) ∧
      n.updateMdnsService.log.filterMap asks = n.log.filterMap asks ∧
      n.updateMdnsService.hub.error = n.hub.error := by
  unfold Node.updateMdnsService
  dsimp only
  split
  · exact ⟨fun _ => rfl, rfl, rfl⟩
  split
  · exact ⟨fun _ => rfl, rfl, rfl⟩
  split <;> exact ⟨fun t => by cases t <;> rfl, rfl, rfl⟩

lemma loop_calm {n v : Node} {env : LoopEnv} (hq : env.inCall = [] ∧ env.inLoop = [])
    (hl : n.loop env = some v) :
    (∀ t, asked v t = asked n t) ∧ v.log.filterMap asks = n.log.filterMap asks ∧
      (v.hub.error = true → n.hub.error = true ∨ ∀ t, (asked n t).isSome = true) := by
  obtain ⟨c, -, rfl⟩ := Option.map_eq_some_iff.mp hl
  obtain ⟨hasked, hasks, herror⟩ := @applyRequest_calm n c env hq.1
  rw [hq.2]
  obtain ⟨hasked', hasks', herror'⟩ := updateMdnsService_calm (n.applyRequest c env)
  exact ⟨fun t => (hasked' t).trans (hasked t), hasks'.trans hasks, fun he => herror (herror' ▸ he)⟩

/-! ### A hub while the device boots -/

/-- The hub has been asked for nothing but what its owners decide, and for everything whose owner
is through. -/
structure Booting (full : FullConfig) (restored : ℕ → Option Bool) (s : Device) (h : HubConfig)
    (n : Node) : Prop where
  inv : Inv n
  decided : ∀ r ∈ n.log.filterMap asks, ∀ t b, value t r = some b → Decides full restored h t b
  made : ∀ t, (asked n t).isSome = true ↔ Made full s h.id t
  error : n.hub.error = true → ∀ t, (asked n t).isSome = true
  runs : n.hub.isClientRunning = true → n.hub.enabled = some true

lemma mem_asks {n : Node} (hn : Inv n) {t : SwitchType} {b : Bool} (ht : asked n t = some b) :
    ∃ r ∈ n.log.filterMap asks, value t r = some b := by
  cases t with
  | enabled => exact ⟨_, enabled_asked (hn.enabled.symm.trans ht), by simp [value]⟩
  | unpairedAccess => exact ⟨_, unpaired_asked (hn.unpaired.symm.trans ht), by simp [value]⟩

lemma Booting.decides {s : Device} {h : HubConfig} {n : Node} (hb : Booting full restored s h n)
    {t : SwitchType} {b : Bool} (ht : asked n t = some b) : Decides full restored h t b := by
  obtain ⟨r, hr, hv⟩ := mem_asks hb.inv ht
  exact hb.decided r hr t b hv

lemma Booting.congr {s s' : Device} {h : HubConfig} {n : Node} (hb : Booting full restored s h n)
    (hm : ∀ t, Made full s' h.id t ↔ Made full s h.id t) : Booting full restored s' h n :=
  { hb with made := fun t => (hb.made t).trans (hm t).symm }

lemma Booting.setup {s : Device} {h : HubConfig} {n v : Node} (hb : Booting full restored s h n)
    {default : Bool} (hv : n.op (.setup default) = some v) : Booting full restored s h v := by
  have hinv : Inv v := inv_op hb.inv hv
  cases hc : n.hub.client with
  | some c => simp [Node.op, hc] at hv
  | none =>
    obtain rfl : n.setup default = v := by simpa [Node.op, hc] using hv
    have hstop : (n.setup default).hub.isClientRunning = false := by
      rw [hinv.running]
      refine hb.inv.running.symm.trans ?_
      simp [Hub.isClientRunning, hc]
    have hasked : ∀ t, asked (n.setup default) t = asked n t := fun t => by cases t <;> rfl
    refine ⟨hinv, hb.decided, fun t => ?_, fun he t => ?_, fun hr => by simp [hstop] at hr⟩
    · rw [hasked]
      exact hb.made t
    · rw [hasked]
      exact hb.error he t

lemma Booting.loop {s : Device} {h : HubConfig} {n v : Node} (hb : Booting full restored s h n)
    {env : LoopEnv} (hq : env.inCall = [] ∧ env.inLoop = []) (hl : n.loop env = some v) :
    Booting full restored s h v := by
  obtain ⟨hasked, hasks, herror⟩ := loop_calm hq hl
  have hinv := hb.inv.loop hl
  refine ⟨hinv, fun r hr => hb.decided r (hasks ▸ hr), fun t => ?_, fun he t => ?_, fun hr => ?_⟩
  · rw [hasked]
    exact hb.made t
  · rw [hasked]
    exact (herror he).elim (fun he => hb.error he t) fun hboth => hboth t
  · -- a client that runs has both requests, and the loop has seen to the first
    obtain ⟨he, hu⟩ := hinv.asked hr
    obtain ⟨b, hb'⟩ := Option.isSome_iff_exists.mp he
    obtain ⟨u, hu'⟩ := Option.isSome_iff_exists.mp hu
    have hold := loop_running hb.inv hl ((hasked .enabled).symm.trans hb')
      ((hasked .unpairedAccess).symm.trans hu')
    rcases hold with hrun | herr
    · rw [hb', ← hrun, hr]
    · rw [hinv.latched herr] at hr
      cases hr

lemma Booting.switch (ha : Accepted casefold full d) {s : Device} {h : HubConfig} {n : Node}
    (hb : Booting full restored s h n) {i : ℕ} {t : SwitchType}
    (hi : switchAt full i = some (t, h.id)) (hnew : i ∉ s.switches) :
    Booting full restored { s with switches := i :: s.switches } h
      (n.request (setupRequest (restored i) t)) := by
  set r := setupRequest (restored i) t with hr
  have hvalue : ∀ t' b, value t' r = some b → t' = t ∧ b = (restored i).getD true := fun t' b => by
    cases t <;> cases t' <;> simp [hr, setupRequest, value, eq_comm]
  have hself : value t r = some ((restored i).getD true) := by
    cases t <;> simp [hr, setupRequest, value]
  have hwaits : ¬ (asked n t).isSome = true := fun hs => hnew ((hb.made t).mp hs i hi)
  have herr : n.hub.error = false := by
    by_contra he
    exact hwaits (hb.error (by simpa using he) t)
  have hsame := same_requests n [r]
  have hother : ∀ t', t' ≠ t → asked (n.request r) t' = asked n t' := fun t' ht => by
    cases t <;> cases t' <;> first | exact absurd rfl ht | rfl | skip
    · simp [asked, Node.request, Node.setEnabled, hr, setupRequest, Node.note, herr]
  refine ⟨hb.inv.requests [r], fun q hq t' b hv => ?_, fun t' => ?_, fun he => ?_, fun hrun => ?_⟩
  · rw [request_asks] at hq
    rcases List.mem_cons.mp hq with rfl | hq
    · obtain ⟨rfl, rfl⟩ := hvalue t' b hv
      exact .inl ⟨i, hi, rfl⟩
    · exact hb.decided q hq t' b hv
  · by_cases ht : t' = t
    · subst ht
      refine iff_of_true (asked_request herr hself) fun j hj => ?_
      rw [switchAt_unique ha hj hi]
      exact List.mem_cons_self
    · rw [hother t' ht, hb.made]
      refine forall_congr' fun j => forall_congr' fun hj => ?_
      have hji : j ≠ i := fun heq => ht (by rw [heq, hi] at hj; cases hj; rfl)
      simp [hji]
  · rw [show (n.request r).hub.error = n.hub.error from hsame.error, herr] at he
    cases he
  · -- a client that runs has both requests already
    have hrun' : n.hub.isClientRunning = true := hsame.running.symm.trans hrun
    cases t with
    | enabled => exact absurd (hb.inv.asked hrun').1 hwaits
    | unpairedAccess => exact absurd (hb.inv.asked hrun').2 hwaits

/-! ### The whole boot -/

lemma values_generated (ha : Accepted casefold full d) {order : List HubConfig}
    (ho : order.Perm full.config.hubs) (core : Sdkconfig) :
    ∃ w, generate full.config d order core = .ok w ∧ ∀ h ∈ full.config.hubs, ∀ t,
      values t (generated w.code h.id) = if owners full t h.id ≠ [] then [] else [initial h t] := by
  obtain ⟨w, hw, hcalls⟩ := generate_calls ho ha.distinct (fun h hm => ha.playable hm) core
  refine ⟨w, hw, fun h hm t => ?_⟩
  obtain ⟨l, hl, hcode⟩ := hcalls h hm
  rw [generated, hcode, List.filterMap_append, requests_roleCalls hl, List.append_nil,
    requests_firstCalls, requests_startRequests]
  exact if_congr (mem_switchTypes ha (List.mem_map_of_mem hm) t) rfl rfl

lemma made_powered {code : List (String × Stmt)} {nodes : String → Node} {h : String}
    {t : SwitchType} : Made full (powered code nodes) h t ↔ owners full t h = [] := by
  rw [← switchAt_none_iff]
  exact forall_congr' fun i => imp_congr_right fun _ => iff_false_intro List.not_mem_nil

lemma booting_powered {code : List (String × Stmt)} {nodes : String → Node} {h : HubConfig}
    (hgen : ∀ t, values t (generated code h.id) =
      if owners full t h.id ≠ [] then [] else [initial h t])
    (hf : HubClient.Fresh (nodes h.id)) :
    Booting full restored (powered code nodes) h ((powered code nodes).nodes h.id) := by
  have hinv := (inv_fresh hf).requests (generated code h.id)
  have hsame := same_requests (nodes h.id) (generated code h.id)
  have hasks : ∀ r ∈ ((powered code nodes).nodes h.id).log.filterMap asks,
      r ∈ generated code h.id := fun r hr => by
    rw [powered, requests_asks, hf.2] at hr
    simpa using hr
  have hleft : ∀ r ∈ generated code h.id, ∀ t b, value t r = some b →
      owners full t h.id = [] ∧ b = initial h t := fun r hr t b hv => by
    have hmem : b ∈ values t (generated code h.id) := List.mem_filterMap.mpr ⟨r, hr, hv⟩
    rw [hgen] at hmem
    split at hmem
    · cases hmem
    · rename_i hnil
      exact ⟨not_not.mp hnil, List.mem_singleton.mp hmem⟩
  refine ⟨hinv, fun r hr t b hv => ?_, fun t => ?_, fun he => ?_, fun hr => ?_⟩
  · obtain ⟨hnil, rfl⟩ := hleft r (hasks r hr) t b hv
    exact .inr ⟨switchAt_none_iff.mpr hnil, rfl⟩
  · rw [made_powered]
    constructor
    · intro hsome
      obtain ⟨b, hb⟩ := Option.isSome_iff_exists.mp hsome
      obtain ⟨r, hr, hv⟩ := mem_asks hinv hb
      exact (hleft r (hasks r hr) t b hv).1
    · intro hnil
      refine asked_requests hf.1.error ?_
      rw [hgen, if_neg (not_not.mpr hnil)]
      exact List.cons_ne_nil _ _
  · rw [show ((powered code nodes).nodes h.id).hub.error = _ from hsame.error, hf.1.error] at he
    cases he
  · rw [show ((powered code nodes).nodes h.id).hub.isClientRunning = _ from hsame.running,
      Hub.isClientRunning, hf.1.client] at hr
    cases hr

/-- The hubs of a device that boots. -/
def AllBooting (full : FullConfig) (restored : ℕ → Option Bool) (s : Device) : Prop :=
  ∀ h ∈ full.config.hubs, Booting full restored s h (s.nodes h.id)

lemma AllBooting.on {s : Device} (hall : AllBooting full restored s) {k : String} {n : Node}
    (hnew : ∀ h ∈ full.config.hubs, h.id = k → Booting full restored s h n) :
    AllBooting full restored (s.on k n) := by
  intro h hm
  have hnode : Booting full restored s h ((s.on k n).nodes h.id) := by
    by_cases he : h.id = k
    · simpa [Device.on, he] using hnew h hm he
    · simpa [Device.on, he] using hall h hm
  exact hnode.congr fun _ => Iff.rfl

lemma booting_step (ha : Accepted casefold full d) :
    KeepsOn (step full restored) Calm (AllBooting full restored) := by
  intro s e s' hall hcalm hs
  cases e with
  | setupHub k default =>
    obtain ⟨n, hn, rfl⟩ := Option.map_eq_some_iff.mp hs
    exact hall.on fun h hm he => (hall h hm).setup (he ▸ hn)
  | loop k env =>
    obtain ⟨n, hn, rfl⟩ := Option.map_eq_some_iff.mp hs
    exact hall.on fun h hm he => (hall h hm).loop hcalm (he ▸ hn)
  | mdns k r =>
    obtain rfl := Option.some.inj hs
    refine hall.on fun h hm he => ?_
    subst he
    have hb := hall h hm
    exact ⟨hb.inv.mdns r, hb.decided, hb.made, hb.error, hb.runs⟩
  | setupSwitch i =>
    obtain ⟨⟨t, k⟩, hi, hs⟩ := Option.bind_eq_some_iff.mp hs
    dsimp only at hs
    split at hs
    · cases hs
    rename_i hnew
    obtain rfl := Option.some.inj hs
    intro h hm
    by_cases he : h.id = k
    · subst he
      have hb := (hall h hm).switch ha hi fun hin => hnew (.inl hin)
      simp only [Device.on, Function.update_self]
      exact hb.congr fun _ => Iff.rfl
    · -- the switch of another hub
      simp only [Device.on, Function.update_of_ne he]
      refine (hall h hm).congr fun t' => forall_congr' fun j => forall_congr' fun hj => ?_
      have hji : j ≠ i := fun heq => he (by rw [heq, hi] at hj; cases hj; rfl)
      simp [hji]

/-- **Nothing runs before it may**: of every accepted configuration, whatever the switches have
restored, each hub's setting is decided by one owner, and in every order of the setups and of the
hubs' loops in between, as long as no callback writes a switch, a client is started only if its
enabling is decided so, and with the unpaired access that is decided. A client that runs has that
setting; and once its hub's switches are through, a loop brings the client to what is decided, or
fails at starting it. -/
theorem power_on (ha : Accepted casefold full d) {order : List HubConfig}
    (ho : order.Perm full.config.hubs) (core : Sdkconfig) :
    ∃ w, generate full.config d order core = .ok w ∧
      ∀ restored nodes es s, (∀ h, HubClient.Fresh (nodes h)) →
        run (step full restored) (powered w.code nodes) es = some s → (∀ e ∈ es, Calm e) →
        ∀ h ∈ full.config.hubs,
          (∀ t, ∃! b, Decides full restored h t b) ∧
          (∀ u t, .start u :: t <:+ (s.nodes h.id).log →
            Decides full restored h .enabled true ∧ Decides full restored h .unpairedAccess u) ∧
          (∀ c ∈ (s.nodes h.id).hub.client, c.started = true →
            Decides full restored h .enabled true ∧
              Decides full restored h .unpairedAccess c.unpaired) ∧
          ((∀ t, Made full s h.id t) → ∀ env v b, (s.nodes h.id).loop env = some v →
            Decides full restored h .enabled b →
              v.hub.isClientRunning = b ∨ v.hub.error = true) := by
  obtain ⟨w, hw, hgen⟩ := values_generated ha ho core
  refine ⟨w, hw, fun restored nodes es s hf hrun hcalm h hm => ?_⟩
  have hall : AllBooting full restored s :=
    (booting_step ha).run (fun h hm => booting_powered (hgen h hm) (hf h.id)) hcalm hrun
  have hb := hall h hm
  refine ⟨decides_unique ha h, fun u t ht => ?_, fun c hc hst => ?_, fun hmade env v b hl hd => ?_⟩
  · obtain ⟨⟨he, hu⟩, -⟩ := hb.inv.justified _ _ ht
    have hsub : ∀ r ∈ t.filterMap asks, r ∈ (s.nodes h.id).log.filterMap asks := fun r hr =>
      ((List.suffix_cons _ _).trans ht |>.sublist.filterMap asks).subset hr
    exact ⟨hb.decided _ (hsub _ (enabled_asked he)) _ _ (by simp [value]),
      hb.decided _ (hsub _ (unpaired_asked hu)) _ _ (by simp [value])⟩
  · have hrunning : (s.nodes h.id).hub.isClientRunning = true := by
      rw [Hub.isClientRunning, Option.mem_def.mp hc]
      exact hst
    obtain ⟨u, hu⟩ := Option.isSome_iff_exists.mp (hb.inv.asked hrunning).2
    rw [hb.inv.pushed c hc u (hb.inv.unpaired.symm.trans hu)]
    exact ⟨hb.decides (t := .enabled) (hb.runs hrunning), hb.decides (t := .unpairedAccess) hu⟩
  · obtain ⟨e, he⟩ := Option.isSome_iff_exists.mp ((hb.made .enabled).mpr (hmade .enabled))
    obtain ⟨u, hu⟩ :=
      Option.isSome_iff_exists.mp ((hb.made .unpairedAccess).mpr (hmade .unpairedAccess))
    obtain rfl := (decides_unique ha h .enabled).unique (hb.decides he) hd
    exact loop_running hb.inv hl he hu

/-- The hub of the study loops before its switch has been set up, and after. -/
def studyBoot : List Ev :=
  [.setupHub "study" true, .loop "study" ⟨true, [], []⟩, .setupSwitch 0,
    .loop "study" ⟨true, [], []⟩]

theorem power_on_study :
    ∃ w, generate studyDevice.config studyData [study] (fun _ => none) = .ok w ∧
      ∃ s, run (step studyDevice fun _ => none) (powered w.code fun _ => music) studyBoot = some s ∧
        (∃ c ∈ (s.nodes "study").hub.client, c.started = true) ∧
        Decides studyDevice (fun _ => none) study .enabled true ∧
        Decides studyDevice (fun _ => none) study .unpairedAccess false := by
  obtain ⟨w, hw, hall⟩ := power_on study_accepted (List.Perm.refl _) fun _ => none
  obtain rfl :
      ((generate studyDevice.config studyData [study] fun _ => none).toOption.get rfl) = w :=
    Option.some.inj (congrArg Except.toOption hw)
  refine ⟨_, hw, _, (Option.some_get (by rfl)).symm, ⟨⟨true, false⟩, by rfl, rfl⟩, ?_⟩
  obtain ⟨-, -, hruns, -⟩ := hall (fun _ => none) (fun _ => music) studyBoot _
    (fun _ => fresh_music) (Option.some_get (by rfl)).symm
    (by simp [studyBoot, Calm]) study List.mem_cons_self
  exact hruns ⟨true, false⟩ (by rfl) rfl

end SendspinMc.PowerOn
