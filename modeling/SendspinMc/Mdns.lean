import SendspinMc.Lifecycle
import Mathlib.Data.Fintype.Basic

/-!
Any number of hubs with distinct client names on one mDNS responder, which may hold services
of other names as well.

What a hub remembers of its own entry and what the shared table holds of it stay in step,
whatever the others do to their entries.
-/

namespace SendspinMc.Mdns

open SendspinMc.HubClient SendspinMc.Lib.Runs

/-! ### The responder -/

lemma has_eq_false {r : Responder} {name : String} :
    r.has name = false ↔ r.entries name = [] := by
  simp [Responder.has, Responder.entries, List.filter_eq_nil_iff]

lemma filter_eraseP_of_ne {α : Type*} {p q : α → Bool} (h : ∀ a, p a = true → q a = false)
    (l : List α) : (l.eraseP p).filter q = l.filter q := by
  induction l with
  | nil => rfl
  | cons a l ih =>
    cases hp : p a with
    | true => rw [List.eraseP_cons_of_pos hp, List.filter_cons_of_neg (by simp [h a hp])]
    | false => rw [List.eraseP_cons_of_neg (by simp [hp]), List.filter_cons, List.filter_cons, ih]

lemma filter_eraseP_self {α : Type*} (p : α → Bool) (l : List α) :
    (l.eraseP p).filter p = (l.filter p).tail := by
  induction l with
  | nil => rfl
  | cons a l ih =>
    cases hp : p a with
    | true => rw [List.eraseP_cons_of_pos hp, List.filter_cons_of_pos hp, List.tail_cons]
    | false =>
      rw [List.eraseP_cons_of_neg (by simp [hp]), List.filter_cons_of_neg (by simp [hp]),
        List.filter_cons_of_neg (by simp [hp]), ih]

lemma add_entries {r : Responder} {name : String} (h : r.entries name = [])
    (port : UInt16) : (r.add name port).2.entries name = [⟨name, port⟩] := by
  simp [Responder.add, has_eq_false.mpr h, Responder.entries] at h ⊢
  exact h

lemma add_others (r : Responder) (name : String) (port : UInt16) :
    (r.add name port).2.others name = r.others name := by
  unfold Responder.add
  split <;> simp [Responder.others]

lemma remove_entries {r : Responder} {name : String} {s : Service}
    (h : r.entries name = [s]) : (r.remove name).2.entries name = [] := by
  rw [Responder.entries, Responder.remove, filter_eraseP_self]
  exact congrArg List.tail h

lemma remove_others (r : Responder) (name : String) :
    (r.remove name).2.others name = r.others name :=
  filter_eraseP_of_ne (by simp) _

lemma entries_of_others {r r' : Responder} {name : String}
    (h : r'.others name = r.others name) {m : String} (hm : m ≠ name) :
    r'.entries m = r.entries m := by
  have hf : ∀ q : Responder, q.entries m =
      (q.others name).filter (·.name = m) := fun q => by
    rw [Responder.others, List.filter_filter, Responder.entries]
    refine List.filter_congr fun s _ => ?_
    by_cases hs : s.name = m <;> simp [hs, hm]
  rw [hf, hf, h]

/-! ### One hub -/

/-- The responder holds the hub's service just if the hub remembers advertising it. -/
def Owned (n : Node) : Prop :=
  n.responder.entries n.hub.clientName =
    if n.hub.mdnsAdvertised then [⟨n.hub.clientName, n.hub.serverPort⟩] else []

/-- A piece that has nothing to do with the responder. -/
structure Silent (n v : Node) : Prop where
  name : v.hub.clientName = n.hub.clientName
  port : v.hub.serverPort = n.hub.serverPort
  advertised : v.hub.mdnsAdvertised = n.hub.mdnsAdvertised
  responder : v.responder = n.responder

lemma Silent.trans {n v w : Node} (h : Silent n v) (h' : Silent v w) : Silent n w :=
  ⟨h'.name.trans h.name, h'.port.trans h.port, h'.advertised.trans h.advertised,
    h'.responder.trans h.responder⟩

lemma silent_requests (n : Node) (calls : List Request) : Silent n (n.requests calls) :=
  have h := Lifecycle.same_requests n calls
  ⟨h.name, h.port, h.advertised, h.responder⟩

lemma silent_clientStop (n : Node) (calls : List Request) : Silent n (n.clientStop calls) :=
  have h := silent_requests (n.note .stop) calls
  ⟨h.name, h.port, h.advertised, h.responder⟩

lemma silent_clientStart (n : Node) (c : Client) (ok : Bool) (calls : List Request) :
    Silent n (n.clientStart c ok calls) := by
  have h := silent_requests (n.note (.start c.unpaired)) calls
  unfold Node.clientStart
  cases ok <;> exact ⟨h.name, h.port, h.advertised, h.responder⟩

lemma silent_applyRequest (n : Node) (c : Client) (env : LoopEnv) :
    Silent n (n.applyRequest c env) := by
  unfold Node.applyRequest
  split
  case h_2 => exact ⟨rfl, rfl, rfl, rfl⟩
  case h_1 =>
  split
  case isFalse => exact ⟨rfl, rfl, rfl, rfl⟩
  case isTrue =>
  split
  · exact silent_clientStop n env.inCall
  · have h := silent_clientStart n c env.startOk env.inCall
    dsimp only
    split <;> exact ⟨h.name, h.port, h.advertised, h.responder⟩

/-- What an operation of a hub does to its entry and to the others. -/
structure Updates (n v : Node) : Prop where
  name : v.hub.clientName = n.hub.clientName
  port : v.hub.serverPort = n.hub.serverPort
  others : v.responder.others n.hub.clientName =
    n.responder.others n.hub.clientName
  owned : Owned n → Owned v

lemma Silent.updates {n v : Node} (h : Silent n v) : Updates n v :=
  ⟨h.name, h.port, by rw [h.responder], fun ho => by
    rw [Owned, h.name, h.port, h.advertised, h.responder]
    exact ho⟩

lemma Updates.trans {n v w : Node} (h : Updates n v) (h' : Updates v w) : Updates n w :=
  ⟨h'.name.trans h.name, h'.port.trans h.port, (h.name ▸ h'.others).trans h.others,
    h'.owned ∘ h.owned⟩

lemma updateMdnsService_spec (n : Node) :
    Updates n n.updateMdnsService ∧
      (n.responder.ready = true →
        n.updateMdnsService.hub.mdnsAdvertised = n.updateMdnsService.hub.isClientRunning) := by
  unfold Node.updateMdnsService
  dsimp only
  cases hready : n.responder.ready with
  | false => simpa using ⟨rfl, rfl, rfl, id⟩
  | true =>
    rw [if_neg (by simp)]
    split
    case isTrue h => exact ⟨⟨rfl, rfl, rfl, id⟩, fun _ => h.symm⟩
    case isFalse h =>
    cases hr : n.hub.isClientRunning with
    | true =>
      have ha : n.hub.mdnsAdvertised = false := by simpa [hr] using h
      refine ⟨⟨rfl, rfl, add_others _ _ _, fun ho => ?_⟩, fun _ => hr.symm⟩
      rw [Owned, ha] at ho
      exact add_entries ho _
    | false =>
      have ha : n.hub.mdnsAdvertised = true := by simpa [hr] using h
      refine ⟨⟨rfl, rfl, remove_others _ _, fun ho => ?_⟩, fun _ => hr.symm⟩
      rw [Owned, ha] at ho
      exact remove_entries ho

lemma updates_op {n v : Node} {o : Op} (ho : n.op o = some v) : Updates n v := by
  cases o with
  | setup d =>
    cases hc : n.hub.client with
    | none =>
      obtain rfl : n.setup d = v := by simpa [Node.op, hc] using ho
      exact Silent.updates ⟨rfl, rfl, rfl, rfl⟩
    | some c => simp [Node.op, hc] at ho
  | setEnabled b =>
    obtain rfl := Option.some.inj ho
    exact Silent.updates (silent_requests n [.enabled b])
  | setUnpairedAccess b =>
    obtain rfl := Option.some.inj ho
    exact Silent.updates (silent_requests n [.unpairedAccess b])
  | loop env =>
    obtain ⟨c, -, rfl⟩ := Option.map_eq_some_iff.mp ho
    exact ((silent_applyRequest n c env).trans (silent_requests _ _)).updates.trans
      (updateMdnsService_spec _).1
  | shutdown calls =>
    obtain rfl := Option.some.inj ho
    unfold Node.onShutdown
    dsimp only
    split
    · have h := silent_clientStop
        { n.note .shutdown with hub := { n.hub with enabled := some false } } calls
      exact Silent.updates ⟨h.name, h.port, h.advertised, h.responder⟩
    · exact Silent.updates ⟨rfl, rfl, rfl, rfl⟩

lemma loop_advertised {n v : Node} {env : LoopEnv} (hl : n.loop env = some v)
    (hr : n.responder.ready = true) : v.hub.mdnsAdvertised = v.hub.isClientRunning := by
  obtain ⟨c, -, rfl⟩ := Option.map_eq_some_iff.mp hl
  refine (updateMdnsService_spec _).2 ?_
  rw [((silent_applyRequest n c env).trans (silent_requests _ _)).responder]
  exact hr

/-! ### All hubs -/

/-- The hubs, their logs, and the responder they share. -/
structure Net (ι : Type*) where
  hubs : ι → Hub
  logs : ι → List Obs
  responder : Responder

variable {ι : Type*} [DecidableEq ι] [Fintype ι]

def Net.node (w : Net ι) (i : ι) : Node := ⟨w.hubs i, w.logs i, w.responder⟩

def Net.put (w : Net ι) (i : ι) (n : Node) : Net ι where
  hubs := Function.update w.hubs i n.hub
  logs := Function.update w.logs i n.log
  responder := n.responder

/-- No hub has the name. -/
def Net.Foreign (w : Net ι) (name : String) : Prop := ∀ i, (w.hubs i).clientName ≠ name

instance (w : Net ι) (name : String) : Decidable (w.Foreign name) :=
  inferInstanceAs (Decidable (∀ _, _))

/-- An operation of a hub, the responder becoming ready, or someone else's service. -/
inductive NetEv (ι : Type*)
  | hub (i : ι) (o : Op)
  | ready
  | add (name : String) (port : UInt16)
  | remove (name : String)

def netStep (w : Net ι) : NetEv ι → Option (Net ι)
  | .hub i o => ((w.node i).op o).map (w.put i)
  | .ready => some { w with responder := { w.responder with ready := true } }
  | .add name port =>
    if w.Foreign name then some { w with responder := (w.responder.add name port).2 } else none
  | .remove name =>
    if w.Foreign name then some { w with responder := (w.responder.remove name).2 } else none

/-- Hubs with distinct client names, as their constructors leave them, none of whose names
the responder holds yet. -/
structure NetFresh (w : Net ι) : Prop where
  names : Function.Injective fun i => (w.hubs i).clientName
  hubs : ∀ i, (w.hubs i).Fresh
  logs : ∀ i, w.logs i = []
  services : ∀ s ∈ w.responder.services, w.Foreign s.name

abbrev NetReachable : Net ι → Prop := Reach netStep NetFresh

structure Inv (w : Net ι) : Prop where
  names : Function.Injective fun i => (w.hubs i).clientName
  hubs : ∀ i, Lifecycle.Inv (w.node i)
  owned : ∀ i, Owned (w.node i)

omit [DecidableEq ι] [Fintype ι] in
lemma inv_fresh {w : Net ι} (h : NetFresh w) : Inv w := by
  refine ⟨h.names, fun i => Lifecycle.inv_fresh ⟨h.hubs i, h.logs i⟩, fun i => ?_⟩
  rw [Owned, show (w.node i).hub.mdnsAdvertised = false from (h.hubs i).mdnsAdvertised]
  refine List.filter_eq_nil_iff.mpr fun s hs => ?_
  rw [decide_eq_true_eq]
  exact (h.services s hs i).symm

omit [Fintype ι] in
@[simp] lemma put_node (w : Net ι) (i : ι) (n : Node) : (w.put i n).node i = n := by
  simp [Net.put, Net.node]

omit [Fintype ι] in
lemma put_node_ne (w : Net ι) {i j : ι} (n : Node) (h : j ≠ i) :
    (w.put i n).node j = { w.node j with responder := n.responder } := by
  simp [Net.put, Net.node, h]

omit [DecidableEq ι] [Fintype ι] in
lemma Inv.responder {w : Net ι} (h : Inv w) (r : Responder)
    (hr : ∀ i, r.entries (w.hubs i).clientName = w.responder.entries (w.hubs i).clientName) :
    Inv { w with responder := r } :=
  ⟨h.names, fun i => (h.hubs i).mdns r, fun i => (hr i).trans (h.owned i)⟩

omit [Fintype ι] in
lemma Inv.hub {w : Net ι} (h : Inv w) {i : ι} {o : Op} {n : Node}
    (ho : (w.node i).op o = some n) : Inv (w.put i n) := by
  have hu := updates_op ho
  have hname : ∀ j, ((w.put i n).hubs j).clientName = (w.hubs j).clientName := fun j => by
    by_cases hj : j = i
    · subst hj; simpa [Net.put, Net.node] using hu.name
    · simp [Net.put, hj]
  refine ⟨fun a b hab => h.names (by simpa [hname] using hab), fun j => ?_, fun j => ?_⟩ <;>
    by_cases hj : j = i
  · subst hj; rw [put_node]; exact Lifecycle.inv_op (h.hubs j) ho
  · rw [put_node_ne w n hj]; exact (h.hubs j).mdns n.responder
  · subst hj; rw [put_node]; exact hu.owned (h.owned j)
  · rw [put_node_ne w n hj]
    exact (entries_of_others hu.others fun he => hj (h.names he)).trans (h.owned j)

lemma inv_step {w v : Net ι} {e : NetEv ι} (h : Inv w) (hs : netStep w e = some v) : Inv v := by
  cases e with
  | hub i o =>
    obtain ⟨n, hn, rfl⟩ := Option.map_eq_some_iff.mp hs
    exact h.hub hn
  | ready =>
    obtain rfl := Option.some.inj hs
    exact h.responder _ fun _ => rfl
  | add name port =>
    by_cases hf : w.Foreign name
    · obtain rfl : _ = v := by simpa [netStep, hf] using hs
      exact h.responder _ fun i => entries_of_others (add_others _ _ _) (hf i)
    · simp [netStep, hf] at hs
  | remove name =>
    by_cases hf : w.Foreign name
    · obtain rfl : _ = v := by simpa [netStep, hf] using hs
      exact h.responder _ fun i => entries_of_others (remove_others _ _) (hf i)
    · simp [netStep, hf] at hs

theorem inv_reachable {w : Net ι} (h : NetReachable w) : Inv w :=
  Keeps.reach (fun _ _ _ hi hst => inv_step hi hst) (fun _ => inv_fresh) h

/-- **A hub owns its service**: its calls name its own client name and leave every other entry
alone, a `loop()` with the responder ready leaves its service there exactly while its client
runs, and it only calls when that has changed. -/
theorem owns_its_service {w : Net ι} (h : NetReachable w) (i : ι) :
    (∀ nm p ok, .mdnsAdd nm p ok ∈ w.logs i →
      nm = (w.hubs i).clientName ∧ p = (w.hubs i).serverPort) ∧
    (∀ nm ok, .mdnsRemove nm ok ∈ w.logs i → nm = (w.hubs i).clientName) ∧
    (∀ o v, netStep w (.hub i o) = some v →
      v.responder.others (w.hubs i).clientName = w.responder.others (w.hubs i).clientName) ∧
    (∀ env v, netStep w (.hub i (.loop env)) = some v → w.responder.ready = true →
      v.responder.entries (w.hubs i).clientName =
        if (v.hubs i).isClientRunning then [⟨(w.hubs i).clientName, (w.hubs i).serverPort⟩]
        else []) ∧
    (∀ nm p ok t, .mdnsAdd nm p ok :: t <:+ w.logs i → advertised t = false ∧ running t = true) ∧
    (∀ nm ok t, .mdnsRemove nm ok :: t <:+ w.logs i →
      advertised t = true ∧ running t = false) := by
  have hi := inv_reachable h
  have hj := (hi.hubs i).justified
  refine ⟨fun nm p ok hm => ?_, fun nm ok hm => ?_, fun o v hs => ?_, fun env v hs hr => ?_,
    fun nm p ok t ht => (hj _ _ ht).2, fun nm ok t ht => (hj _ _ ht).2⟩
  · obtain ⟨s, t, hst⟩ := List.append_of_mem hm
    exact (hj (.mdnsAdd nm p ok) t ⟨s, hst.symm⟩).1
  · obtain ⟨s, t, hst⟩ := List.append_of_mem hm
    exact (hj (.mdnsRemove nm ok) t ⟨s, hst.symm⟩).1
  · obtain ⟨n, hn, rfl⟩ := Option.map_eq_some_iff.mp hs
    exact (updates_op hn).others
  · obtain ⟨n, hn, rfl⟩ := Option.map_eq_some_iff.mp hs
    have hu := updates_op hn
    have ho := hu.owned (hi.owned i)
    rw [Owned, hu.name, hu.port, loop_advertised hn hr] at ho
    simpa [Net.put, Net.node] using ho

inductive Zone
  | music | artwork
  deriving DecidableEq

instance : Fintype Zone := ⟨{.music, .artwork}, fun z => by cases z <;> decide⟩

/-- Two hubs beside a native service. -/
def twoHubs : Net Zone where
  hubs
    | .music => ⟨"music", 8931, none, none, none, false, false⟩
    | .artwork => ⟨"artwork", 8932, none, none, none, false, false⟩
  logs := fun _ => []
  responder := ⟨false, [⟨"native", 8928⟩]⟩

lemma netFresh_twoHubs : NetFresh twoHubs where
  names := by decide
  hubs := by
    intro i
    cases i <;> exact ⟨rfl, rfl, rfl, rfl, rfl⟩
  logs := fun _ => rfl
  services := by decide

/-- Both clients start before mDNS is up, and one is stopped again. -/
def bothThenOne : List (NetEv Zone) :=
  [.hub .music (.setup true), .hub .music (.setUnpairedAccess true),
    .hub .music (.setEnabled true), .hub .artwork (.setup true),
    .hub .artwork (.setUnpairedAccess false), .hub .artwork (.setEnabled true),
    .hub .music (.loop ⟨true, [], []⟩), .ready, .hub .artwork (.loop ⟨true, [], []⟩),
    .hub .music (.loop ⟨true, [], []⟩), .hub .artwork (.setEnabled false)]

theorem owns_its_service_bothThenOne :
    ∃ w, run netStep twoHubs bothThenOne = some w ∧
      w.responder.services = [⟨"music", 8931⟩, ⟨"artwork", 8932⟩, ⟨"native", 8928⟩] ∧
      ∀ v, netStep w (.hub .artwork (.loop ⟨true, [], []⟩)) = some v →
        v.responder.entries "artwork" =
          if (v.hubs .artwork).isClientRunning then [⟨"artwork", 8932⟩] else [] :=
  ⟨_, rfl, by decide, fun v hv => (owns_its_service ⟨twoHubs, netFresh_twoHubs, bothThenOne, rfl⟩
    .artwork).2.2.2.1 ⟨true, [], []⟩ v hv (by decide)⟩

end SendspinMc.Mdns
