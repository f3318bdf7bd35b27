import SendspinMc.HubClient
import SendspinMc.Lib.History

/-!
When a hub runs its client.

The hub's fields are what its log says they should be, and each call it makes is allowed by
the log before it. Both hold between any two pieces of a handler, so a callback that runs
inside a client call finds them too.
-/

namespace SendspinMc.Lifecycle

open SendspinMc.HubClient SendspinMc.Lib.History SendspinMc.Lib.Runs

/-- What a hub may call, given its log: a start needs both requests and a stopped client, a
stop a running one, and the responder is only told of a change. -/
def Allowed (name : String) (port : UInt16) : Obs → List Obs → Prop
  | .start u, t =>
    (latestEnabled t = some true ∧ latestUnpaired t = some u) ∧ running t = false ∧ .failed ∉ t
  | .stop, t => running t = true
  | .mdnsAdd nm p _, t => (nm = name ∧ p = port) ∧ advertised t = false ∧ running t = true
  | .mdnsRemove nm _, t => nm = name ∧ advertised t = true ∧ running t = false
  | _, _ => True

structure Inv (n : Node) : Prop where
  enabled : n.hub.enabled = latestEnabled n.log
  unpaired : n.hub.unpairedAccess = latestUnpaired n.log
  error : n.hub.error = true ↔ .failed ∈ n.log
  running : n.hub.isClientRunning = running n.log
  advertised : n.hub.mdnsAdvertised = advertised n.log
  pushed : ∀ c ∈ n.hub.client, ∀ u ∈ latestUnpaired n.log, c.unpaired = u
  latched : n.hub.error = true → n.hub.isClientRunning = false
  asked : n.hub.isClientRunning = true →
    n.hub.enabled.isSome = true ∧ n.hub.unpairedAccess.isSome = true
  justified : Justified (Allowed n.hub.clientName n.hub.serverPort) n.log

lemma inv_fresh {n : Node} (h : Fresh n) : Inv n := by
  obtain ⟨⟨hc, he, hu, herr, ha⟩, hl⟩ := h
  constructor <;> simp [hc, he, hu, herr, ha, hl, latestEnabled, latestUnpaired,
    HubClient.running, HubClient.advertised, Hub.isClientRunning, justified_nil]

/-! ### What a request leaves alone -/

/-- The parts of a node no request changes; a request that was made stays made. -/
structure Same (n v : Node) : Prop where
  name : v.hub.clientName = n.hub.clientName
  port : v.hub.serverPort = n.hub.serverPort
  error : v.hub.error = n.hub.error
  running : v.hub.isClientRunning = n.hub.isClientRunning
  some : v.hub.client.isSome = n.hub.client.isSome
  advertised : v.hub.mdnsAdvertised = n.hub.mdnsAdvertised
  responder : v.responder = n.responder
  enabled : n.hub.enabled.isSome = true → v.hub.enabled.isSome = true
  unpaired : n.hub.unpairedAccess.isSome = true → v.hub.unpairedAccess.isSome = true

lemma Same.refl (n : Node) : Same n n := ⟨rfl, rfl, rfl, rfl, rfl, rfl, rfl, id, id⟩

lemma Same.trans {n v w : Node} (h : Same n v) (h' : Same v w) : Same n w :=
  ⟨h'.name.trans h.name, h'.port.trans h.port, h'.error.trans h.error,
    h'.running.trans h.running, h'.some.trans h.some, h'.advertised.trans h.advertised,
    h'.responder.trans h.responder, h'.enabled ∘ h.enabled, h'.unpaired ∘ h.unpaired⟩

lemma same_setEnabled (n : Node) (b : Bool) : Same n (n.setEnabled b) := by
  unfold Node.setEnabled
  dsimp only
  split
  · exact ⟨rfl, rfl, rfl, rfl, rfl, rfl, rfl, id, id⟩
  · exact ⟨rfl, rfl, rfl, rfl, rfl, rfl, rfl, fun _ => rfl, id⟩

lemma same_setUnpaired (n : Node) (b : Bool) : Same n (n.setUnpairedAccessEnabled b) := by
  refine ⟨rfl, rfl, rfl, ?_, ?_, rfl, rfl, id, fun _ => rfl⟩ <;>
    cases hc : n.hub.client <;>
    simp [Node.setUnpairedAccessEnabled, Node.note, Hub.isClientRunning, hc]

lemma same_requests (n : Node) (calls : List Request) : Same n (n.requests calls) := by
  induction calls generalizing n with
  | nil => exact .refl n
  | cons r calls ih =>
    refine .trans ?_ (ih (n.request r))
    cases r with
    | enabled b => exact same_setEnabled n b
    | unpairedAccess b => exact same_setUnpaired n b

/-! ### The invariant along the pieces -/

lemma Inv.note {n : Node} {o : Obs} (h : Inv n)
    (he : latestEnabled (o :: n.log) = latestEnabled n.log)
    (hu : latestUnpaired (o :: n.log) = latestUnpaired n.log)
    (hr : HubClient.running (o :: n.log) = HubClient.running n.log)
    (ha : HubClient.advertised (o :: n.log) = HubClient.advertised n.log) (hf : o ≠ .failed)
    (ho : Allowed n.hub.clientName n.hub.serverPort o n.log) : Inv (n.note o) where
  enabled := h.enabled.trans he.symm
  unpaired := h.unpaired.trans hu.symm
  error := by simpa [Node.note, hf.symm] using h.error
  running := h.running.trans hr.symm
  advertised := h.advertised.trans ha.symm
  pushed := fun c hc u hm => h.pushed c hc u (hu ▸ hm)
  latched := h.latched
  asked := h.asked
  justified := h.justified.cons ho

lemma setEnabled_log (n : Node) (b : Bool) :
    (n.setEnabled b).log = .setEnabled b :: n.log := by
  unfold Node.setEnabled; dsimp only; split <;> rfl

lemma Inv.setEnabled {n : Node} (h : Inv n) (b : Bool) : Inv (n.setEnabled b) := by
  have hs := same_setEnabled n b
  have hlog := setEnabled_log n b
  have hclient : (n.setEnabled b).hub.client = n.hub.client := by
    unfold Node.setEnabled; dsimp only; split <;> rfl
  have hunp : (n.setEnabled b).hub.unpairedAccess = n.hub.unpairedAccess := by
    unfold Node.setEnabled; dsimp only; split <;> rfl
  constructor
  · rw [hlog]
    by_cases he : n.hub.error = true
    · simp [Node.setEnabled, Node.note, he, latestEnabled, h.error.mp he, h.enabled]
    · simp [Node.setEnabled, Node.note, he, latestEnabled, mt h.error.mpr he]
  · rw [hlog, hunp]; exact h.unpaired
  · rw [hlog, hs.error]; simpa using h.error
  · rw [hlog, hs.running]; exact h.running
  · rw [hlog, hs.advertised]; exact h.advertised
  · rw [hlog, hclient]; exact h.pushed
  · rw [hs.error, hs.running]; exact h.latched
  · intro hr
    have ha := h.asked (hs.running ▸ hr)
    exact ⟨hs.enabled ha.1, hs.unpaired ha.2⟩
  · rw [hlog, hs.name, hs.port]; exact h.justified.cons trivial

lemma Inv.setUnpaired {n : Node} (h : Inv n) (b : Bool) :
    Inv (n.setUnpairedAccessEnabled b) := by
  have hs := same_setUnpaired n b
  refine ⟨h.enabled, rfl, ?_, hs.running.trans h.running, h.advertised, ?_, ?_,
    fun hr => ⟨(h.asked (hs.running ▸ hr)).1, rfl⟩, h.justified.cons trivial⟩
  · simpa [Node.setUnpairedAccessEnabled, Node.note] using h.error
  · intro c hc u hu
    obtain ⟨c', -, rfl⟩ := Option.mem_map.mp hc
    exact Option.some.inj hu
  · rw [hs.error, hs.running]; exact h.latched

lemma Inv.requests {n : Node} (h : Inv n) (calls : List Request) : Inv (n.requests calls) := by
  induction calls generalizing n with
  | nil => exact h
  | cons r calls ih =>
    cases r with
    | enabled b => exact ih (h.setEnabled b)
    | unpairedAccess b => exact ih (h.setUnpaired b)

lemma mapStarted_running (n : Node) (o : Obs) (b : Bool) :
    ((n.mapClient fun c => { c with started := b }).note o).hub.isClientRunning =
      (n.hub.client.isSome && b) := by
  cases hc : n.hub.client <;> simp [Node.note, Node.mapClient, Hub.isClientRunning, hc]

lemma Inv.mapStarted {n : Node} {o : Obs} {b : Bool} (h : Inv n) (hc : n.hub.client.isSome = true)
    (hb : o = if b then .started else .stopped)
    (he : b = true → n.hub.error = false ∧ n.hub.enabled.isSome = true ∧
      n.hub.unpairedAccess.isSome = true) :
    Inv ((n.mapClient fun c => { c with started := b }).note o) := by
  have hrun := mapStarted_running n o b
  rw [hc, Bool.true_and] at hrun
  cases b <;> obtain rfl := hb
  all_goals
    refine ⟨h.enabled, h.unpaired, ?_, hrun.trans rfl, h.advertised, ?_, fun hx => ?_,
      fun hx => ?_, h.justified.cons trivial⟩
    · simpa [Node.note, Node.mapClient] using h.error
    · intro c' hc' u hu
      obtain ⟨c'', hc'', rfl⟩ := Option.mem_map.mp hc'
      exact h.pushed c'' hc'' u hu
  · exact hrun
  · exact absurd (hx.symm.trans hrun) (by simp)
  · exact absurd (he rfl).1 (by rw [show n.hub.error = true from hx]; simp)
  · exact (he rfl).2

lemma Inv.clientStop {n : Node} (h : Inv n) (hr : n.hub.isClientRunning = true)
    (calls : List Request) : Inv (n.clientStop calls) := by
  have hstop : Inv (n.note .stop) := h.note rfl rfl rfl rfl (by simp) (h.running.symm.trans hr)
  have hs := same_requests (n.note .stop) calls
  refine (hstop.requests calls).mapStarted (o := .stopped) (b := false) ?_ rfl (by simp)
  rw [hs.some]
  cases hc : n.hub.client with
  | none => simp [Hub.isClientRunning, hc] at hr
  | some c => simp [Node.note, hc]

lemma clientStop_running (n : Node) (calls : List Request) :
    (n.clientStop calls).hub.isClientRunning = false := by
  exact (mapStarted_running _ .stopped false).trans (Bool.and_false _)

lemma Inv.clientStart {n : Node} {c : Client} (h : Inv n) (hc : n.hub.client = some c)
    (hstop : c.started = false) (he : n.hub.enabled = some true)
    (hu : n.hub.unpairedAccess.isSome = true) (herr : n.hub.error = false) (ok : Bool)
    (calls : List Request) : Inv (n.clientStart c ok calls) := by
  obtain ⟨u, hu⟩ := Option.isSome_iff_exists.mp hu
  have hu' : latestUnpaired n.log = some u := h.unpaired.symm.trans hu
  have hrun : n.hub.isClientRunning = false := by simp [Hub.isClientRunning, hc, hstop]
  have hallow : Allowed n.hub.clientName n.hub.serverPort (.start c.unpaired) n.log :=
    ⟨⟨h.enabled.symm.trans he, by rw [hu', h.pushed c hc u hu']⟩, h.running.symm.trans hrun,
      fun hf => by simp [h.error.mpr hf] at herr⟩
  have hstart := h.note (o := .start c.unpaired) rfl rfl rfl rfl (by simp) hallow
  have hs := same_requests (n.note (.start c.unpaired)) calls
  unfold Node.clientStart
  dsimp only
  cases ok with
  | false => exact hstart.requests calls
  | true =>
    exact (hstart.requests calls).mapStarted (o := .started) (b := true)
      (hs.some.trans (by simp [Node.note, hc])) rfl fun _ =>
        ⟨hs.error.trans herr, hs.enabled (by simp [Node.note, he]),
          hs.unpaired (by simp [Node.note, hu])⟩

lemma clientStart_running {n : Node} {c : Client} (hc : n.hub.client = some c)
    (hstop : c.started = false) (ok : Bool) (calls : List Request) :
    (n.clientStart c ok calls).hub.isClientRunning = ok := by
  have hs := same_requests (n.note (.start c.unpaired)) calls
  unfold Node.clientStart
  dsimp only
  cases ok with
  | false =>
    exact hs.running.trans (by simp [Node.note, Hub.isClientRunning, hc, hstop])
  | true =>
    have hsome : ((n.note (.start c.unpaired)).requests calls).hub.client.isSome = true :=
      hs.some.trans (by simp [Node.note, hc])
    exact (mapStarted_running _ .started true).trans (by rw [hsome]; rfl)

lemma Inv.statusSetError {n : Node} (h : Inv n) (hr : n.hub.isClientRunning = false) :
    Inv n.statusSetError :=
  ⟨h.enabled, h.unpaired, by simp [Node.statusSetError, Node.note], h.running, h.advertised,
    h.pushed, fun _ => hr, h.asked, h.justified.cons trivial⟩

/-- `loop()` brings the client to what is requested, or latches the error. -/
lemma applyRequest_spec {n : Node} {c : Client} (h : Inv n) (hc : n.hub.client = some c)
    (env : LoopEnv) :
    Inv (n.applyRequest c env) ∧
      ∀ b u, n.hub.enabled = some b → n.hub.unpairedAccess = some u →
        (n.applyRequest c env).hub.isClientRunning = b ∨
          (n.applyRequest c env).hub.error = true := by
  have hrun : n.hub.isClientRunning = c.started := by simp [Hub.isClientRunning, hc]
  unfold Node.applyRequest
  split
  case h_2 hne => exact ⟨h, fun b u hb hu => (hne b u hb hu).elim⟩
  case h_1 b u hb hu =>
  split
  case isFalse hg =>
    refine ⟨h, fun b' u' hb' _ => ?_⟩
    obtain rfl : b = b' := Option.some.inj (hb.symm.trans hb')
    by_cases he : n.hub.error = true
    · exact .inr he
    · have heq : b = c.started := Decidable.not_not.mp fun hne => hg ⟨hne, by simpa using he⟩
      exact .inl (by rw [hrun, heq])
  case isTrue hg =>
  obtain ⟨hne, herr⟩ := hg
  cases b with
  | false =>
    have hst : c.started = true := by simpa using hne.symm
    exact ⟨h.clientStop (hrun.trans hst) _, fun b' _ hb' _ =>
      .inl ((clientStop_running n _).trans (Option.some.inj (hb.symm.trans hb')))⟩
  | true =>
    have hst : c.started = false := by simpa using hne.symm
    have hi := h.clientStart hc hst hb (by simp [hu]) herr env.startOk env.inCall
    have hr := clientStart_running hc hst env.startOk env.inCall
    cases hok : env.startOk with
    | false =>
      rw [hok] at hi hr
      exact ⟨hi.statusSetError hr, fun _ _ _ _ => .inr rfl⟩
    | true =>
      rw [hok] at hi hr
      exact ⟨hi, fun b' _ hb' _ => .inl (hr.trans (Option.some.inj (hb.symm.trans hb')))⟩

lemma Inv.updateMdnsService {n : Node} (h : Inv n) : Inv n.updateMdnsService := by
  unfold Node.updateMdnsService
  dsimp only
  split
  · exact h
  split
  · exact h
  rename_i hne
  have hadv : HubClient.advertised n.log = !n.hub.isClientRunning := by
    rw [← h.advertised]
    cases hr : n.hub.isClientRunning <;> cases ha : n.hub.mdnsAdvertised <;> simp_all
  split
  case isTrue hr =>
    rw [hr] at hadv ⊢
    exact ⟨h.enabled, h.unpaired, by simpa using h.error, h.running, rfl, h.pushed, h.latched,
      h.asked, h.justified.cons ⟨⟨rfl, rfl⟩, hadv, h.running.symm.trans hr⟩⟩
  case isFalse hr =>
    have hr : n.hub.isClientRunning = false := by simpa using hr
    rw [hr] at hadv ⊢
    exact ⟨h.enabled, h.unpaired, by simpa using h.error, h.running, rfl, h.pushed, h.latched,
      h.asked, h.justified.cons ⟨rfl, hadv, h.running.symm.trans hr⟩⟩

lemma updateMdnsService_hub (n : Node) :
    n.updateMdnsService.hub = n.hub ∨
      n.updateMdnsService.hub = { n.hub with mdnsAdvertised := n.hub.isClientRunning } := by
  unfold Node.updateMdnsService
  dsimp only
  split
  · exact .inl rfl
  split
  · exact .inl rfl
  split <;> exact .inr rfl

/-! ### The operations -/

lemma Inv.setup {n : Node} (h : Inv n) (hc : n.hub.client = none) (default : Bool) :
    Inv (n.setup default) := by
  have hrun : HubClient.running n.log = false := by
    rw [← h.running]
    simp [Hub.isClientRunning, hc]
  have hstop : (n.setup default).hub.isClientRunning = false := by
    unfold Node.setup
    cases n.hub.unpairedAccess <;> rfl
  refine ⟨h.enabled, h.unpaired, h.error, hstop.trans hrun.symm, h.advertised, ?_,
    fun _ => hstop, fun hr => by simp [hstop] at hr, h.justified⟩
  · intro c hc' u hu
    have hu' : n.hub.unpairedAccess = some u := h.unpaired.trans hu
    simp only [Node.setup, hu', Option.mem_def, Option.some.injEq] at hc'
    rw [← hc']

lemma Inv.loop {n v : Node} {env : LoopEnv} (h : Inv n) (hl : n.loop env = some v) : Inv v := by
  obtain ⟨c, hc, rfl⟩ := Option.map_eq_some_iff.mp hl
  exact ((applyRequest_spec h hc env).1.requests env.inLoop).updateMdnsService

lemma Inv.onShutdown {n : Node} (h : Inv n) (calls : List Request) :
    Inv (n.onShutdown calls) := by
  have hd : Inv { n.note .shutdown with hub := { n.hub with enabled := some false } } :=
    ⟨rfl, h.unpaired, by simpa [Node.note] using h.error, h.running, h.advertised, h.pushed,
      h.latched, fun hr => ⟨rfl, (h.asked hr).2⟩, h.justified.cons trivial⟩
  unfold Node.onShutdown
  dsimp only
  split
  · exact hd.clientStop ‹_› calls
  · exact hd

lemma inv_op {n v : Node} {o : Op} (h : Inv n) (ho : n.op o = some v) : Inv v := by
  cases o with
  | setup d =>
    cases hc : n.hub.client with
    | none =>
      obtain rfl : n.setup d = v := by simpa [Node.op, hc] using ho
      exact h.setup hc d
    | some c => simp [Node.op, hc] at ho
  | setEnabled b => obtain rfl := Option.some.inj ho; exact h.setEnabled b
  | setUnpairedAccess b => obtain rfl := Option.some.inj ho; exact h.setUnpaired b
  | loop env => exact h.loop ho
  | shutdown calls => obtain rfl := Option.some.inj ho; exact h.onShutdown calls

lemma Inv.mdns {n : Node} (h : Inv n) (r : Responder) : Inv { n with responder := r } :=
  ⟨h.enabled, h.unpaired, h.error, h.running, h.advertised, h.pushed, h.latched, h.asked,
    h.justified⟩

lemma inv_step {n v : Node} {e : Ev} (h : Inv n) (hs : step n e = some v) : Inv v := by
  cases e with
  | op o => exact inv_op h hs
  | mdns r => obtain rfl := Option.some.inj hs; exact h.mdns r

theorem inv_reachable {n : Node} (h : Reachable n) : Inv n :=
  Keeps.reach (fun _ _ _ hi hst => inv_step hi hst) (fun _ => inv_fresh) h

/-! ### Starting only as requested -/

/-- **The client runs only as requested**: it is started when the latest accepted request is
to run it, under the latest unpaired access request, and keeps to the latest one. -/
theorem runs_as_requested {n : Node} (h : Reachable n) :
    (∀ u t, .start u :: t <:+ n.log → latestEnabled t = some true ∧ latestUnpaired t = some u) ∧
    (∀ c ∈ n.hub.client, ∀ u, latestUnpaired n.log = some u → c.unpaired = u) ∧
    (n.hub.isClientRunning = true →
      (latestEnabled n.log).isSome = true ∧ (latestUnpaired n.log).isSome = true) := by
  have hi := inv_reachable h
  refine ⟨fun u t ht => (hi.justified _ _ ht).1, fun c hc u hu => hi.pushed c hc u hu,
    fun hr => ?_⟩
  rw [← hi.enabled, ← hi.unpaired]
  exact hi.asked hr

/-- A fresh hub, under a responder that is not ready yet. -/
def music : Node where
  hub :=
    { clientName := "music"
      serverPort := 8931
      client := none
      enabled := none
      unpairedAccess := none
      error := false
      mdnsAdvertised := false }
  log := []
  responder := ⟨false, []⟩

lemma fresh_music : Fresh music := ⟨⟨rfl, rfl, rfl, rfl, rfl⟩, rfl⟩

/-- The stop of the first run makes a callback ask for the next one, which fails to start. -/
def restarted : List Ev :=
  [.op (.setUnpairedAccess false), .op (.setup true), .op (.setEnabled true),
    .op (.loop ⟨true, [], []⟩), .op (.setEnabled false),
    .op (.loop ⟨true, [.enabled true, .unpairedAccess true], []⟩),
    .op (.loop ⟨false, [], []⟩), .op (.setEnabled false)]

theorem runs_as_requested_restarted :
    ∃ n, run step music restarted = some n ∧ n.hub.enabled = some true ∧
      ∀ u t, .start u :: t <:+ n.log → latestEnabled t = some true ∧ latestUnpaired t = some u :=
  ⟨_, rfl, by decide, (runs_as_requested ⟨music, fresh_music, restarted, rfl⟩).1⟩

/-! ### Convergence -/

/-- Where both requests are made, the client is as requested, or the error is set. -/
def Steady (n : Node) : Prop :=
  ∀ b u, n.hub.enabled = some b → n.hub.unpairedAccess = some u →
    n.hub.isClientRunning = b ∨ n.hub.error = true

/-- A `loop()` in which no callback makes a request, or a change of the responder. -/
def Quiet : Ev → Prop
  | .op (.loop env) => env.inCall = [] ∧ env.inLoop = []
  | .op _ => False
  | .mdns _ => True

/-- The starts and stops of a log. -/
def activity (log : List Obs) : List Obs :=
  log.filter fun
    | .start _ | .stop => true
    | _ => false

lemma loop_running {n v : Node} {env : LoopEnv} (h : Inv n) (hl : n.loop env = some v) {b u : Bool}
    (hb : n.hub.enabled = some b) (hu : n.hub.unpairedAccess = some u) :
    v.hub.isClientRunning = b ∨ v.hub.error = true := by
  obtain ⟨c, hc, rfl⟩ := Option.map_eq_some_iff.mp hl
  have hs := same_requests (n.applyRequest c env) env.inLoop
  have hup : ∀ m : Node, m.updateMdnsService.hub.isClientRunning = m.hub.isClientRunning ∧
      m.updateMdnsService.hub.error = m.hub.error := fun m => by
    rcases updateMdnsService_hub m with he | he <;> rw [he] <;> exact ⟨rfl, rfl⟩
  rw [(hup _).1, (hup _).2, hs.running, hs.error]
  exact (applyRequest_spec h hc env).2 b u hb hu

lemma loop_steady {n v : Node} {env : LoopEnv} (h : Inv n) (hl : n.loop env = some v)
    (he : v.hub.enabled = n.hub.enabled) (hu : v.hub.unpairedAccess = n.hub.unpairedAccess) :
    Steady v := fun _ _ hb hu' => loop_running h hl (he ▸ hb) (hu ▸ hu')

lemma applyRequest_steady {n : Node} {c : Client} (h : Steady n) (hc : n.hub.client = some c)
    (env : LoopEnv) : n.applyRequest c env = n := by
  unfold Node.applyRequest
  split
  case h_2 => rfl
  case h_1 b u hb hu =>
  rw [if_neg]
  rintro ⟨hne, herr⟩
  rcases h b u hb hu with hr | he
  · exact hne (by rw [← hr]; simp [Hub.isClientRunning, hc])
  · simp [herr] at he

lemma quiet_step {n v : Node} {e : Ev} (h : Steady n) (hq : Quiet e) (hs : step n e = some v) :
    Steady v ∧ activity v.log = activity n.log := by
  cases e with
  | mdns r => obtain rfl := Option.some.inj hs; exact ⟨h, rfl⟩
  | op o =>
    cases o with
    | loop env =>
      obtain ⟨-, hin⟩ := hq
      obtain ⟨c, hc, rfl⟩ := Option.map_eq_some_iff.mp hs
      rw [applyRequest_steady h hc, hin, show n.requests [] = n from rfl]
      refine ⟨?_, ?_⟩
      · rcases updateMdnsService_hub n with he | he <;> rw [Steady, he] <;> exact h
      · unfold Node.updateMdnsService
        dsimp only
        split
        · rfl
        split
        · rfl
        split <;> simp [activity]
    | _ => cases hq

lemma quiet_run {n v : Node} {es : List Ev} (h : Steady n) (hq : ∀ e ∈ es, Quiet e)
    (hr : run step n es = some v) : activity v.log = activity n.log := by
  have hkeeps : KeepsOn step Quiet fun m => Steady m ∧ activity m.log = activity n.log := by
    rintro s e t ⟨hst, hact⟩ he ht
    obtain ⟨hst', hact'⟩ := quiet_step hst he ht
    exact ⟨hst', hact'.trans hact⟩
  exact (hkeeps.run ⟨h, rfl⟩ hq hr).2

/-- **Convergence and the error latch**: a `loop()` leaves the client as requested or the error
set; a hub in error runs no client, starts none again and takes no request; starts and stops
alternate, and without a new request there are no more of them. -/
theorem converges {n : Node} (h : Reachable n) :
    (∀ env v b u, n.loop env = some v → n.hub.enabled = some b → n.hub.unpairedAccess = some u →
      v.hub.enabled = some b → v.hub.isClientRunning = b ∨ v.hub.error = true) ∧
    (n.hub.error = true → n.hub.isClientRunning = false) ∧
    (∀ u t, .start u :: t <:+ n.log → running t = false ∧ .failed ∉ t) ∧
    (.failed ∈ n.log → ∀ b, (n.setEnabled b).hub.enabled = n.hub.enabled) ∧
    (∀ t, .stop :: t <:+ n.log → running t = true) ∧
    (∀ env v es w, n.loop env = some v → v.hub.enabled = n.hub.enabled →
      v.hub.unpairedAccess = n.hub.unpairedAccess → (∀ e ∈ es, Quiet e) →
      run step v es = some w → activity w.log = activity v.log) := by
  have hi := inv_reachable h
  refine ⟨fun env v b u hl hb hu _ => loop_running hi hl hb hu, hi.latched,
    fun u t ht => (hi.justified _ _ ht).2, fun hf b => ?_, fun t ht => hi.justified _ _ ht,
    fun env v es w hl he hu hq hr => quiet_run (loop_steady hi hl he hu) hq hr⟩
  simp [Node.setEnabled, Node.note, hi.error.mpr hf]

theorem converges_restarted :
    ∃ n, run step music restarted = some n ∧ .failed ∈ n.log ∧ n.hub.isClientRunning = false ∧
      ∀ b, (n.setEnabled b).hub.enabled = n.hub.enabled :=
  have h := converges (n := (run step music restarted).get rfl) ⟨music, fresh_music, restarted, rfl⟩
  ⟨_, rfl, by decide, h.2.1 (by decide), h.2.2.2.1 (by decide)⟩

end SendspinMc.Lifecycle
