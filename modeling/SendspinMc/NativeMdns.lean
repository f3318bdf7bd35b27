import SendspinMc.Mdns

/-!
The hubs beside the native integration, whose mDNS calls name no service.

A null name matches every service of the type: a native registration is refused as long as there
is any, and a native removal takes the newest, whoever owns it. What a hub is left with then is
less than it should have, never something else.
-/

namespace SendspinMc.NativeMdns

open SendspinMc.HubClient SendspinMc.Mdns SendspinMc.Lib.Runs

/-- `mdns_service_add` with no name, which registers under the name of the host. -/
def addUnnamed (r : Responder) (native : String) (port : UInt16) : Responder :=
  if r.services.isEmpty then { r with services := [⟨native, port⟩] } else r

/-- `mdns_service_remove_for_host` with no name. -/
def removeUnnamed (r : Responder) : Responder := { r with services := r.services.tail }

variable {ι : Type*} [DecidableEq ι] [Fintype ι]

/-- An event of the hubs and the responder, or a call of the native integration. -/
inductive Ev (ι : Type*)
  | net (e : NetEv ι)
  | nativeAdd (port : UInt16)
  | nativeRemove

def Ev.isNativeRemove : Ev ι → Bool
  | .nativeRemove => true
  | _ => false

def step (native : String) (w : Net ι) : Ev ι → Option (Net ι)
  | .net e => netStep w e
  | .nativeAdd port => some { w with responder := addUnnamed w.responder native port }
  | .nativeRemove => some { w with responder := removeUnnamed w.responder }

/-! ### What a hub is left with -/

/-- The hub remembers advertising a service that is no longer there. -/
def Lost (n : Node) : Prop :=
  n.hub.mdnsAdvertised = true ∧ n.responder.entries n.hub.clientName = []

instance (n : Node) : Decidable (Lost n) := inferInstanceAs (Decidable (_ ∧ _))

/-- There is nothing under the name of the hub but its own service while it advertises it. -/
def Within (n : Node) : Prop := Owned n ∨ Lost n

lemma not_lost_of_owned {n : Node} (h : Owned n) : ¬ Lost n := by
  rintro ⟨ha, he⟩
  rw [Owned, ha, he] at h
  cases h

lemma lost_of_silent {n v : Node} (h : Silent n v) (hl : Lost n) : Lost v := by
  rw [Lost, h.name, h.advertised, h.responder]
  exact hl

lemma remove_absent {r : Responder} {name : String} (h : r.entries name = []) :
    (r.remove name).2 = r := by
  have hne : ∀ s ∈ r.services, ¬ (decide (s.name = name) = true) :=
    List.filter_eq_nil_iff.mp h
  rw [Responder.remove, List.eraseP_of_forall_not hne]

lemma lost_updateMdnsService {n : Node} (h : Lost n) : Within n.updateMdnsService := by
  unfold Node.updateMdnsService
  dsimp only
  split
  · exact .inr h
  split
  · exact .inr h
  rename_i hne
  have hrun : n.hub.isClientRunning = false := by
    rw [h.1] at hne
    simpa using hne
  rw [hrun, if_neg (by simp)]
  refine .inl ?_
  rw [Owned]
  dsimp only
  rw [remove_absent h.2]
  exact h.2

lemma silent_op {n v : Node} {o : Op} (hl : ∀ env, o ≠ .loop env) (ho : n.op o = some v) :
    Silent n v := by
  cases o with
  | setup d =>
    cases hc : n.hub.client with
    | none =>
      obtain rfl : n.setup d = v := by simpa [Node.op, hc] using ho
      exact ⟨rfl, rfl, rfl, rfl⟩
    | some c => simp [Node.op, hc] at ho
  | setEnabled b =>
    obtain rfl := Option.some.inj ho
    exact silent_requests n [.enabled b]
  | setUnpairedAccess b =>
    obtain rfl := Option.some.inj ho
    exact silent_requests n [.unpairedAccess b]
  | loop env => exact absurd rfl (hl env)
  | shutdown calls =>
    obtain rfl := Option.some.inj ho
    unfold Node.onShutdown
    dsimp only
    split
    · have h := silent_clientStop
        { n.note .shutdown with hub := { n.hub with enabled := some false } } calls
      exact ⟨h.name, h.port, h.advertised, h.responder⟩
    · exact ⟨rfl, rfl, rfl, rfl⟩

lemma ready_updateMdnsService (n : Node) :
    n.updateMdnsService.responder.ready = n.responder.ready := by
  unfold Node.updateMdnsService Responder.add Responder.remove
  dsimp only
  split_ifs <;> rfl

lemma ready_op {n v : Node} {o : Op} (ho : n.op o = some v) :
    v.responder.ready = n.responder.ready := by
  by_cases hl : ∃ env, o = .loop env
  · obtain ⟨env, rfl⟩ := hl
    obtain ⟨c, -, rfl⟩ := Option.map_eq_some_iff.mp ho
    rw [ready_updateMdnsService,
      ((silent_applyRequest n c env).trans (silent_requests _ env.inLoop)).responder]
  · rw [(silent_op (fun env he => hl ⟨env, he⟩) ho).responder]

lemma lost_op {n v : Node} {o : Op} (h : Lost n) (ho : n.op o = some v) : Within v := by
  by_cases hl : ∃ env, o = .loop env
  · obtain ⟨env, rfl⟩ := hl
    obtain ⟨c, -, rfl⟩ := Option.map_eq_some_iff.mp ho
    have hsilent := (silent_applyRequest n c env).trans (silent_requests _ env.inLoop)
    exact lost_updateMdnsService (lost_of_silent hsilent h)
  · exact .inr (lost_of_silent (silent_op (fun env he => hl ⟨env, he⟩) ho) h)

lemma within_op {n v : Node} {o : Op} (h : Within n) (ho : n.op o = some v) :
    Within v ∧ (Lost v → Lost n) := by
  rcases h with h | h
  · have hv := (updates_op ho).owned h
    exact ⟨.inl hv, fun hl => absurd hl (not_lost_of_owned hv)⟩
  · exact ⟨lost_op h ho, fun _ => h⟩

lemma lost_responder {n : Node} {r : Responder}
    (hr : r.entries n.hub.clientName = n.responder.entries n.hub.clientName) :
    Lost { n with responder := r } ↔ Lost n := by
  rw [Lost, Lost, hr]

lemma within_responder {n : Node} {r : Responder}
    (hr : r.entries n.hub.clientName = n.responder.entries n.hub.clientName)
    (h : Within n) : Within { n with responder := r } := by
  rcases h with h | h
  · exact .inl (hr.trans h)
  · exact .inr ((lost_responder hr).mpr h)

/-! ### All hubs -/

/-- The hubs whose service is gone. -/
def lost (w : Net ι) : Finset ι := Finset.univ.filter fun i => Lost (w.node i)

omit [DecidableEq ι] in
@[simp] lemma mem_lost {w : Net ι} {i : ι} : i ∈ lost w ↔ Lost (w.node i) := by simp [lost]

structure Inv (native : String) (w : Net ι) : Prop where
  names : Function.Injective fun i => (w.hubs i).clientName
  native : w.Foreign native
  within : ∀ i, Within (w.node i)

omit [DecidableEq ι] in
lemma Inv.responder {native : String} {w : Net ι} (h : Inv native w) (r : Responder)
    (hr : ∀ i, r.entries (w.hubs i).clientName = w.responder.entries (w.hubs i).clientName) :
    Inv native { w with responder := r } ∧ lost { w with responder := r } ⊆ lost w :=
  ⟨⟨h.names, h.native, fun i => within_responder (hr i) (h.within i)⟩, fun i hi => by
    rw [mem_lost] at hi ⊢
    exact (lost_responder (n := w.node i) (hr i)).mp hi⟩

lemma Inv.hub {native : String} {w : Net ι} (h : Inv native w) {i : ι} {o : Op} {n : Node}
    (ho : (w.node i).op o = some n) : Inv native (w.put i n) ∧ lost (w.put i n) ⊆ lost w := by
  have hu := updates_op ho
  have hname : ∀ j, ((w.put i n).hubs j).clientName = (w.hubs j).clientName := fun j => by
    by_cases hj : j = i
    · subst hj; simpa [Net.put, Net.node] using hu.name
    · simp [Net.put, hj]
  have hnode : ∀ j, Within ((w.put i n).node j) ∧
      (Lost ((w.put i n).node j) → Lost (w.node j)) := fun j => by
    by_cases hj : j = i
    · subst hj
      rw [put_node]
      exact within_op (h.within j) ho
    · -- the entries of another hub are among the others of this one
      have hother := entries_of_others hu.others fun he => hj (h.names he)
      rw [put_node_ne w n hj]
      exact ⟨within_responder hother (h.within j), (lost_responder hother).mp⟩
  exact ⟨⟨fun a b hab => h.names (by simpa [hname] using hab),
    fun j => by rw [hname]; exact h.native j, fun j => (hnode j).1⟩,
    fun j hj => mem_lost.mpr ((hnode j).2 (mem_lost.mp hj))⟩

lemma Inv.net {native : String} {w v : Net ι} {e : NetEv ι} (h : Inv native w)
    (hs : netStep w e = some v) : Inv native v ∧ lost v ⊆ lost w := by
  cases e with
  | hub i o =>
    obtain ⟨n, hn, rfl⟩ := Option.map_eq_some_iff.mp hs
    exact h.hub hn
  | ready =>
    obtain rfl := Option.some.inj hs
    exact h.responder _ fun _ => rfl
  | add name port =>
    by_cases hf : w.Foreign name
    · obtain rfl : _ = v := by simpa [netStep, hf] using hs
      exact h.responder _ fun i => entries_of_others (add_others _ _ _) (hf i)
    · simp [netStep, hf] at hs
  | remove name =>
    by_cases hf : w.Foreign name
    · obtain rfl : _ = v := by simpa [netStep, hf] using hs
      exact h.responder _ fun i => entries_of_others (remove_others _ _) (hf i)
    · simp [netStep, hf] at hs

lemma entries_addUnnamed {r : Responder} {native name : String} (h : name ≠ native)
    (port : UInt16) : (addUnnamed r native port).entries name = r.entries name := by
  unfold addUnnamed
  split
  · rename_i he
    rw [Responder.entries, Responder.entries, List.isEmpty_iff.mp he]
    simp [h.symm]
  · rfl

lemma entries_removeUnnamed (r : Responder) {name : String}
    (h : ∀ s ∈ r.services.head?, s.name ≠ name) :
    (removeUnnamed r).entries name = r.entries name := by
  rw [Responder.entries, Responder.entries, removeUnnamed]
  cases hs : r.services with
  | nil => rfl
  | cons s rest =>
    rw [List.tail_cons, List.filter_cons_of_neg (by simpa using h s (by simp [hs]))]

lemma lost_removeUnnamed {n : Node} (h : Within n) {s : Service}
    (hs : n.responder.services.head? = some s) (hname : s.name = n.hub.clientName) :
    Lost { n with responder := removeUnnamed n.responder } := by
  obtain ⟨rest, hrest⟩ := List.head?_eq_some_iff.mp hs
  have hentries : n.responder.entries n.hub.clientName =
      s :: (removeUnnamed n.responder).entries n.hub.clientName := by
    rw [Responder.entries, Responder.entries, removeUnnamed, hrest, List.tail_cons,
      List.filter_cons_of_pos (by simpa using hname)]
  rcases h with h | h
  · rw [Owned, hentries] at h
    split at h
    · exact ⟨‹_›, (List.cons.inj h).2⟩
    · cases h
  · rw [h.2] at hentries
    cases hentries

lemma Inv.nativeRemove {native : String} {w : Net ι} (h : Inv native w) :
    Inv native { w with responder := removeUnnamed w.responder } ∧
      (lost { w with responder := removeUnnamed w.responder }).card ≤ (lost w).card + 1 := by
  by_cases hex : ∃ i, ∃ s ∈ w.responder.services.head?, s.name = (w.hubs i).clientName
  · obtain ⟨i, s, hs, hi⟩ := hex
    have hother : ∀ j, j ≠ i → (removeUnnamed w.responder).entries (w.hubs j).clientName =
        w.responder.entries (w.hubs j).clientName := fun j hj =>
      entries_removeUnnamed _ fun s' hs' he => hj (h.names (by
        obtain rfl := Option.mem_unique hs hs'
        exact he.symm.trans hi))
    have hi' := lost_removeUnnamed (h.within i) hs hi
    refine ⟨⟨h.names, h.native, fun j => ?_⟩, ?_⟩
    · by_cases hj : j = i
      · exact hj ▸ .inr hi'
      · exact within_responder (hother j hj) (h.within j)
    · refine (Finset.card_le_card fun j hj => ?_).trans (Finset.card_insert_le i (lost w))
      rw [Finset.mem_insert, mem_lost]
      by_cases hji : j = i
      · exact .inl hji
      · exact .inr ((lost_responder (n := w.node j) (hother j hji)).mp (mem_lost.mp hj))
  · have hother : ∀ j, (removeUnnamed w.responder).entries (w.hubs j).clientName =
        w.responder.entries (w.hubs j).clientName := fun j =>
      entries_removeUnnamed _ fun s hs he => hex ⟨j, s, hs, he⟩
    obtain ⟨hi, hl⟩ := h.responder _ hother
    exact ⟨hi, (Finset.card_le_card hl).trans (Nat.le_succ _)⟩

lemma Inv.harmless {native : String} {w v : Net ι} {e : Ev ι} (h : Inv native w)
    (he : e.isNativeRemove = false) (hs : step native w e = some v) :
    Inv native v ∧ lost v ⊆ lost w := by
  cases e with
  | net e => exact h.net hs
  | nativeAdd port =>
    obtain rfl := Option.some.inj hs
    exact h.responder _ fun i => entries_addUnnamed (h.native i) port
  | nativeRemove => cases he

lemma inv_step {native : String} {w v : Net ι} {e : Ev ι} (h : Inv native w)
    (hs : step native w e = some v) :
    Inv native v ∧ (lost v).card ≤ (lost w).card + e.isNativeRemove.toNat := by
  cases he : e.isNativeRemove with
  | false =>
    obtain ⟨hi, hl⟩ := h.harmless he hs
    exact ⟨hi, Finset.card_le_card hl⟩
  | true =>
    cases e with
    | nativeRemove =>
      obtain rfl := Option.some.inj hs
      exact h.nativeRemove
    | _ => cases he

lemma inv_run {native : String} {w v : Net ι} {es : List (Ev ι)} (h : Inv native w)
    (hr : run (step native) w es = some v) :
    Inv native v ∧ (lost v).card ≤ (lost w).card + es.countP Ev.isNativeRemove := by
  induction es generalizing w with
  | nil =>
    obtain rfl := Option.some.inj hr
    exact ⟨h, le_rfl⟩
  | cons e es ih =>
    obtain ⟨u, hu, hr⟩ := Option.bind_eq_some_iff.mp hr
    obtain ⟨hi, hle⟩ := inv_step h hu
    obtain ⟨hi', hle'⟩ := ih hi hr
    refine ⟨hi', ?_⟩
    rw [List.countP_cons]
    cases he : e.isNativeRemove <;> simp [he] at hle ⊢ <;> omega

omit [DecidableEq ι] in
lemma inv_fresh {native : String} {w : Net ι} (h : NetFresh w) (hn : w.Foreign native) :
    Inv native w ∧ lost w = ∅ := by
  have hi := Mdns.inv_fresh h
  refine ⟨⟨hi.names, hn, fun i => .inl (hi.owned i)⟩, Finset.filter_eq_empty_iff.mpr fun i _ => ?_⟩
  exact not_lost_of_owned (hi.owned i)

/-! ### A client that is stopped and started -/

/-- A `loop()` of this hub. -/
def Ev.isLoop (i : ι) : Ev ι → Bool
  | .net (.hub j (.loop _)) => decide (j = i)
  | _ => false

/-- The hub advertises nothing, and mDNS is up. -/
def Unadvertised (i : ι) (w : Net ι) : Prop :=
  w.responder.ready = true ∧ (w.hubs i).mdnsAdvertised = false

omit [Fintype ι] in
lemma unadvertised_hub {w : Net ι} {i j : ι} {o : Op} {n : Node} (h : Unadvertised i w)
    (he : (Ev.net (.hub j o)).isLoop i = false) (hn : (w.node j).op o = some n) :
    Unadvertised i (w.put j n) := by
  refine ⟨(ready_op hn).trans h.1, ?_⟩
  by_cases hj : i = j
  · subst hj
    have hsilent : Silent (w.node i) n := by
      refine silent_op (fun env ho => ?_) hn
      rw [ho] at he
      simp [Ev.isLoop] at he
    have hadv := hsilent.advertised.trans h.2
    simpa [Net.put] using hadv
  · simpa [Net.put, hj] using h.2

lemma unadvertised_step {native : String} {w v : Net ι} {i : ι} {e : Ev ι}
    (h : Unadvertised i w) (he : e.isLoop i = false) (hs : step native w e = some v) :
    Unadvertised i v := by
  cases e with
  | net e =>
    cases e with
    | hub j o =>
      obtain ⟨n, hn, rfl⟩ := Option.map_eq_some_iff.mp hs
      exact unadvertised_hub h he hn
    | ready =>
      obtain rfl := Option.some.inj hs
      exact ⟨rfl, h.2⟩
    | add name port =>
      by_cases hf : w.Foreign name
      · obtain rfl : _ = v := by simpa [step, netStep, hf] using hs
        refine ⟨?_, h.2⟩
        dsimp only
        unfold Responder.add
        split <;> exact h.1
      · simp [step, netStep, hf] at hs
    | remove name =>
      by_cases hf : w.Foreign name
      · obtain rfl : _ = v := by simpa [step, netStep, hf] using hs
        exact ⟨h.1, h.2⟩
      · simp [step, netStep, hf] at hs
  | nativeAdd port =>
    obtain rfl := Option.some.inj hs
    refine ⟨?_, h.2⟩
    dsimp only
    unfold addUnnamed
    split <;> exact h.1
  | nativeRemove =>
    obtain rfl := Option.some.inj hs
    exact ⟨h.1, h.2⟩

lemma advertised_loop {native : String} {w v : Net ι} {i : ι} {env : LoopEnv}
    (hr : w.responder.ready = true) (hs : step native w (.net (.hub i (.loop env))) = some v) :
    v.responder.ready = true ∧ (v.hubs i).mdnsAdvertised = (v.hubs i).isClientRunning := by
  obtain ⟨n, hn, rfl⟩ := Option.map_eq_some_iff.mp hs
  refine ⟨(ready_op hn).trans hr, ?_⟩
  have hadv := loop_advertised hn hr
  simpa [Net.put] using hadv

lemma Inv.advertises {native : String} {w v : Net ι} {e : NetEv ι} (h : Inv native w)
    (hs : netStep w e = some v) {i : ι} (hw : (w.hubs i).mdnsAdvertised = false)
    (hv : (v.hubs i).mdnsAdvertised = true) :
    v.responder.entries (v.hubs i).clientName =
      [⟨(v.hubs i).clientName, (v.hubs i).serverPort⟩] := by
  obtain ⟨hi, hsub⟩ := h.net hs
  rcases hi.within i with ho | hl
  · rw [Owned, show (v.node i).hub.mdnsAdvertised = true from hv] at ho
    exact ho
  · have hlost : (w.hubs i).mdnsAdvertised = true := (mem_lost.mp (hsub (mem_lost.mpr hl))).1
    rw [hw] at hlost
    cases hlost

/-- **What a native removal can cost**: in every run of the hubs beside the native integration,
there is never more under the name of a hub than its own service while it advertises it; at most
one service is lost for each native removal, and nothing else loses any. Where one `loop()` has
left the client of a hub stopped and the next leaves it running, the hub has its service, whatever
was taken before and in between. -/
theorem native_cost {native : String} {w v : Net ι} {es : List (Ev ι)} (h : NetFresh w)
    (hn : w.Foreign native) (hr : run (step native) w es = some v) :
    (∀ i, (v.responder.entries (v.hubs i).clientName).Sublist
      (if (v.hubs i).mdnsAdvertised then [⟨(v.hubs i).clientName, (v.hubs i).serverPort⟩]
        else [])) ∧
      (lost v).card ≤ es.countP Ev.isNativeRemove ∧
      (∀ e u, e.isNativeRemove = false → step native v e = some u → lost u ⊆ lost v) ∧
      ∀ i env u, v.responder.ready = true →
        step native v (.net (.hub i (.loop env))) = some u →
        (u.hubs i).isClientRunning = false →
        ∀ es' u', (∀ e ∈ es', e.isLoop i = false) → run (step native) u es' = some u' →
        ∀ env' x, step native u' (.net (.hub i (.loop env'))) = some x →
        (x.hubs i).isClientRunning = true →
        x.responder.entries (x.hubs i).clientName =
          [⟨(x.hubs i).clientName, (x.hubs i).serverPort⟩] := by
  obtain ⟨hi₀, hl₀⟩ := inv_fresh h hn
  obtain ⟨hi, hle⟩ := inv_run hi₀ hr
  refine ⟨fun i => ?_, by simpa [hl₀] using hle, fun e u he hu => (hi.harmless he hu).2, ?_⟩
  · rcases hi.within i with ho | hl
    · rw [show v.responder.entries (v.hubs i).clientName = _ from ho]
      exact List.Sublist.refl _
    · rw [show v.responder.entries (v.hubs i).clientName = [] from hl.2]
      exact List.nil_sublist _
  · intro i env u hready hu hstopped es' u' hes' hu' env' x hx hrunning
    obtain ⟨hru, hadv⟩ := advertised_loop hready hu
    have hkeeps : KeepsOn (step native) (fun e => e.isLoop i = false) (Unadvertised i) :=
      fun _ _ _ hw he hs => unadvertised_step hw he hs
    obtain ⟨hr', hadv'⟩ := hkeeps.run ⟨hru, hadv.trans hstopped⟩ hes' hu'
    obtain ⟨-, hadvx⟩ := advertised_loop hr' hx
    have hiu := (inv_run (inv_step hi hu).1 hu').1
    have hnet : netStep u' (.hub i (.loop env')) = some x := hx
    exact hiu.advertises hnet hadv' (hadvx.trans hrunning)

/-- The native integration takes the service of the hub that advertised last; its client is then
asked to stop. -/
def taken : List (Ev Zone) :=
  (bothThenOne.map .net) ++
    [.nativeAdd 8928, .nativeRemove, .net (.hub .music (.setEnabled false))]

theorem native_cost_taken : ∃ v u u' x, run (step "native") twoHubs taken = some v ∧
    (lost v).card ≤ 1 ∧ v.responder.services = [⟨"artwork", 8932⟩, ⟨"native", 8928⟩] ∧
    step "native" v (.net (.hub .music (.loop ⟨true, [], []⟩))) = some u ∧
    run (step "native") u [.nativeRemove, .net (.hub .music (.setEnabled true))] = some u' ∧
    step "native" u' (.net (.hub .music (.loop ⟨true, [], []⟩))) = some x ∧
    x.responder.entries "music" = [⟨"music", 8931⟩] := by
  have hr : run (step "native") twoHubs taken = some _ := rfl
  obtain ⟨-, hlost, -, hback⟩ := native_cost netFresh_twoHubs (by decide) hr
  exact ⟨_, _, _, _, hr, hlost, by decide, rfl, rfl, rfl,
    hback .music ⟨true, [], []⟩ _ rfl rfl rfl
      [.nativeRemove, .net (.hub .music (.setEnabled true))] _ (by decide) rfl
      ⟨true, [], []⟩ _ rfl rfl⟩

end SendspinMc.NativeMdns
