import SendspinMc.Boot
import SendspinMc.Lib.Places
import SendspinMc.SlotNumbers

/-!
From the entries of a configuration to the handlers they end up as.

What is said of an entry goes two ways: into the calls generated for its hub, and into a variable
of its own that is set up on the device. After the boot both meet again: what a hub's client tells
is heard by the children whose entries ask for it, and by no others.
-/

namespace SendspinMc.Wiring

open SendspinMc.Codegen SendspinMc.Roles SendspinMc.RoleCode SendspinMc.HubView
open SendspinMc.HubCode SendspinMc.HubFields SendspinMc.SlotNumbers SendspinMc.Boot
open SendspinMc.Lib.Checks SendspinMc.Lib.Places SendspinMc.Lib.Writes

variable {cfg : Config} {events : List Event}

/-! ### The variables of the entries -/

/-- The validation of an event, with the slot that `config[CONF_SLOT]` of an image is set to. -/
def validateSlot (cfg : Config) (d : ComponentData) :
    Event → Except String (Option ℕ × ComponentData)
  | .entry ⟨parent, .image p⟩ =>
    (assignSlotAndRegister d (cfg.resolve parent) p).map fun r => (some r.1, r.2)
  | ev => (cfg.handle d ev).map fun d => (none, d)

def validateSlots (cfg : Config) :
    ComponentData → List Event → Except String (List (Option ℕ) × ComponentData)
  | d, [] => .ok ([], d)
  | d, ev :: events =>
    match validateSlot cfg d ev with
    | .error e => .error e
    | .ok (n, d) => (validateSlots cfg d events).map fun r => (n :: r.1, r.2)

/-- The class of an entry's variable. Actions have none: they call their hub's. -/
def kindOf (slot : Option ℕ) : Child → Option Kind
  | .image _ => slot.map fun n => .imageSlot (.ofNat n)
  | .mediaSource _ => some .mediaSource
  | .mediaPlayer => some .mediaPlayer
  | .sensor => some .sensor
  | .textSensor pairingCode => some (if pairingCode then .pairingCodeTextSensor else .textSensor)
  | .switch t => some (.switch t)
  | .switchAction | .pairingWindowAction => none

/-- `to_code` of an entry, whose parent has been resolved. -/
def varOf (cfg : Config) (slot : Option ℕ) : Event → Option Var
  | .entry e => (cfg.resolve e.parent).bind fun h => (kindOf slot e.child).map fun k => ⟨h, k⟩
  | .codegenData _ => none

/-- The variables, by the place of their entries. -/
def vars (cfg : Config) (events : List Event) (slots : List (Option ℕ)) (i : ℕ) : Option Var :=
  events[i]?.bind (varOf cfg slots[i]?.join)

/-! ### The slots -/

/-- The preference that an event adds to a hub. -/
def addedBy (cfg : Config) (h : String) : Event → List ArtworkPreference
  | .entry e => if cfg.key e = some h then added e.child else []
  | .codegenData _ => []

/-- The number of images of the hub before an event. -/
def place (cfg : Config) (events : List Event) (h : String) (i : ℕ) : ℕ :=
  ((events.take i).flatMap (addedBy cfg h)).length

lemma validateSlot_map (d : ComponentData) (ev : Event) :
    (validateSlot cfg d ev).map (·.2) = cfg.handle d ev := by
  have hplain : ∀ x : Except String ComponentData,
      (x.map fun d => ((none, d) : Option ℕ × ComponentData)).map (·.2) = x := fun x => by
    cases x <;> rfl
  cases ev with
  | codegenData h => exact hplain (cfg.handle d (.codegenData h))
  | entry e =>
    obtain ⟨parent, child⟩ := e
    cases child with
    | image p =>
      change ((assignSlotAndRegister d (cfg.resolve parent) p).map _).map _ =
        (assignSlotAndRegister d (cfg.resolve parent) p).map _
      cases assignSlotAndRegister d (cfg.resolve parent) p <;> rfl
    | _ => simp only [validateSlot, hplain]

lemma validateSlots_cons {d d' : ComponentData} {ev : Event} {events : List Event}
    {slots : List (Option ℕ)} :
    validateSlots cfg d (ev :: events) = .ok (slots, d') ↔
      ∃ n u rest, validateSlot cfg d ev = .ok (n, u) ∧
        validateSlots cfg u events = .ok (rest, d') ∧ slots = n :: rest := by
  rw [validateSlots]
  cases validateSlot cfg d ev with
  | error e => simp
  | ok r =>
    obtain ⟨n, u⟩ := r
    simp only [map_ok, Except.ok.injEq, Prod.mk.injEq]
    constructor
    · rintro ⟨⟨rest, t⟩, hr, rfl, rfl⟩
      exact ⟨n, u, rest, ⟨rfl, rfl⟩, hr, rfl⟩
    · rintro ⟨_, _, rest, ⟨rfl, rfl⟩, hr, rfl⟩
      exact ⟨(rest, d'), hr, rfl, rfl⟩

lemma validateSlots_of_validate {d d' : ComponentData} (h : cfg.validate d events = .ok d') :
    ∃ slots, validateSlots cfg d events = .ok (slots, d') := by
  induction events generalizing d with
  | nil =>
    obtain rfl := Except.ok.inj h
    exact ⟨[], rfl⟩
  | cons ev events ih =>
    obtain ⟨u, hu, hrest⟩ := foldlM_cons_ok.mp h
    rw [← validateSlot_map, map_ok] at hu
    obtain ⟨⟨n, u'⟩, hn, rfl⟩ := hu
    obtain ⟨slots, hs⟩ := ih hrest
    exact ⟨n :: slots, validateSlots_cons.mpr ⟨n, u', slots, hn, hs, rfl⟩⟩

lemma preferences_handle {d d' : ComponentData} {ev : Event} (h : cfg.handle d ev = .ok d')
    (hub : String) : preferences d' hub = preferences d hub ++ addedBy cfg hub ev := by
  cases ev with
  | entry e => exact preferences_record h hub
  | codegenData k =>
    obtain rfl := Except.ok.inj h
    rw [preferences_getCodegenData, addedBy, List.append_nil]

lemma preferences_validateSlots {d d' : ComponentData} {slots : List (Option ℕ)}
    (h : validateSlots cfg d events = .ok (slots, d')) (hub : String) :
    preferences d' hub = preferences d hub ++ events.flatMap (addedBy cfg hub) := by
  induction events generalizing d slots with
  | nil =>
    obtain ⟨-, rfl⟩ := Prod.mk.inj (Except.ok.inj h)
    simp
  | cons ev events ih =>
    obtain ⟨n, u, rest, hn, hrest, rfl⟩ := validateSlots_cons.mp h
    have hu : cfg.handle d ev = .ok u := by rw [← validateSlot_map, hn]; rfl
    rw [ih hrest, preferences_handle hu, List.flatMap_cons, List.append_assoc]

lemma slots_get {d d' : ComponentData} {slots : List (Option ℕ)} {i : ℕ} {parent : Option String}
    {p : ArtworkPreference} {h : String} (hok : validateSlots cfg d events = .ok (slots, d'))
    (he : events[i]? = some (.entry ⟨parent, .image p⟩)) (hr : cfg.resolve parent = some h) :
    slots[i]? = some (some ((preferences d h).length + place cfg events h i)) ∧
      (preferences d h).length + place cfg events h i < maxArtworkSlots := by
  induction events generalizing d slots i with
  | nil => cases he
  | cons ev events ih =>
    obtain ⟨n, u, rest, hn, hrest, rfl⟩ := validateSlots_cons.mp hok
    cases i with
    | zero =>
      obtain rfl := Option.some.inj he
      change (assignSlotAndRegister d (cfg.resolve parent) p).map _ = _ at hn
      obtain ⟨⟨m, u'⟩, ha, hm⟩ := map_ok.mp hn
      obtain ⟨rfl, rfl⟩ := Prod.mk.inj hm
      rw [hr] at ha
      have hm : m = (preferences d h).length := (assignSlot_spec ha).1
      have hlt : (preferences d h).length < maxArtworkSlots := (assignSlot_ok.mp ⟨_, ha⟩).2
      simpa [place, hm] using hlt
    | succ i =>
      have hu : cfg.handle d ev = .ok u := by rw [← validateSlot_map, hn]; rfl
      obtain ⟨hget, hlt⟩ := ih hrest he
      have hplace : (preferences u h).length + place cfg events h i =
          (preferences d h).length + place cfg (ev :: events) h (i + 1) := by
        rw [preferences_handle hu, place, place, List.take_succ_cons, List.flatMap_cons,
          List.length_append, List.length_append, Nat.add_assoc]
      rw [hplace] at hget hlt
      exact ⟨hget, hlt⟩

lemma place_get {i : ℕ} {parent : Option String} {p : ArtworkPreference} {h : String}
    (he : events[i]? = some (.entry ⟨parent, .image p⟩)) (hr : cfg.resolve parent = some h) :
    (events.flatMap (addedBy cfg h))[place cfg events h i]? = some p := by
  have hadd : addedBy cfg h (.entry ⟨parent, .image p⟩) = [p] := by
    change (if cfg.resolve parent = some h then [p] else []) = [p]
    rw [if_pos hr]
  rw [flatMap_split he, hadd, place, List.getElem?_append_right le_rfl, Nat.sub_self]
  rfl

lemma place_lt {i j : ℕ} {parent : Option String} {p : ArtworkPreference} {h : String}
    (he : events[i]? = some (.entry ⟨parent, .image p⟩)) (hr : cfg.resolve parent = some h)
    (hij : i < j) : place cfg events h i < place cfg events h j := by
  have hadd : addedBy cfg h (.entry ⟨parent, .image p⟩) = [p] := by
    change (if cfg.resolve parent = some h then [p] else []) = [p]
    rw [if_pos hr]
  have hget : (events.take j)[i]? = some (.entry ⟨parent, .image p⟩) := by
    rw [List.getElem?_take_of_lt hij, he]
  have htake : (events.take j).take i = events.take i := by rw [List.take_take, min_eq_left hij.le]
  rw [place, place, flatMap_split hget, htake, hadd, List.length_append, List.length_append,
    List.length_singleton]
  omega

/-! ### The generated fields -/

lemma mem_calls {code : List (String × Stmt)} {h : String} {s : Stmt} :
    s ∈ calls code h ↔ (h, s) ∈ code := by
  rw [calls, List.mem_filterMap]
  constructor
  · rintro ⟨⟨h', s'⟩, hm, hs⟩
    dsimp only at hs
    split at hs
    · rename_i hh
      subst hh
      rwa [← Option.some.inj hs]
    · cases hs
  · intro hm
    exact ⟨_, hm, if_pos rfl⟩

def supportCall (r : Role) : Stmt → Option Bool
  | .setSupport r' v => if r' = r then some v else none
  | _ => none

lemma sets_support (r : Role) : Sets Hub.set (fun h => h.support r) (supportCall r) := by
  intro h s
  cases s with
  | setSupport r' v =>
    by_cases hr : r' = r
    · subst hr
      simp [Hub.set, supportCall]
    · simp [Hub.set, supportCall, hr, Function.update_of_ne fun hc => hr hc.symm]
  | _ => rfl

lemma support_iff {p : Platform} {code : List (String × Stmt)} {h : String} {r : Role} {P : Prop}
    (hs : ∀ v, (h, .setSupport r v) ∈ code → (v = true ↔ P))
    (hp : P → (h, .setSupport r true) ∈ code) :
    (configured p code h).support r = true ↔ P := by
  have hcall : ∀ s ∈ calls code h, ∀ v, supportCall r s = some v → (h, .setSupport r v) ∈ code := by
    intro s hm v hv
    cases s with
    | setSupport r' v' =>
      change (if r' = r then some v' else none) = some v at hv
      split at hv
      · rename_i hr
        subst hr
        rw [← Option.some.inj hv]
        exact mem_calls.mp hm
      · cases hv
    | _ => cases hv
  by_cases hP : P
  · refine iff_of_true ?_ hP
    refine (sets_support r).agree ⟨_, mem_calls.mpr (hp hP), if_pos rfl⟩ fun s hm v hv => ?_
    exact (hs v (hcall s hm v hv)).mpr hP
  · refine iff_of_false (fun htrue => ?_) hP
    -- the last setter would have said so
    change ((calls code h).foldl Hub.set (.new p)).support r = true at htrue
    rw [(sets_support r).foldl] at htrue
    cases hl : ((calls code h).filterMap (supportCall r)).getLast? with
    | none =>
      rw [hl] at htrue
      cases htrue
    | some v =>
      obtain ⟨s, hm, hv⟩ := List.mem_filterMap.mp (List.mem_of_getLast? hl)
      rw [hl] at htrue
      exact hP ((hs v (hcall s hm v hv)).mp htrue)

/-- What the generated code gives the hubs. -/
structure Generated (cfg : Config) (events : List Event) (d : ComponentData) (p : Platform)
    (w : Output) : Prop where
  support : ∀ h ∈ cfg.hubs, ∀ r,
    (configured p w.code h.id).support r = true ↔ Wanted cfg events h.id r
  defines : ∀ r, SomeWanted cfg events r → r.define ∈ w.defines
  opus : (∃ h ∈ cfg.hubs, ∃ q ∈ sources cfg events h.id, .opus ∈ q.codecs) →
    w.sdkconfig (enableOption "OPUS") = some true
  player : ∀ h ∈ cfg.hubs, ∀ q ∈ sources cfg events h.id, ∃ q' ∈ sources cfg events h.id,
    (configured p w.code h.id).playerConfig = some (playerRoleConfig q')
  artwork : ∀ h ∈ cfg.hubs, Wanted cfg events h.id .artwork →
    (configured p w.code h.id).artworkConfig =
      some ⟨(preferences d h.id).map imageSlotPreference, h.taskStackInPsram⟩

theorem generate_fields {d : ComponentData} {order : List HubConfig} (ha : Accepted cfg events d)
    (hn : (ids cfg).Nodup) (ho : order.Perm cfg.hubs) (core : Sdkconfig) (p : Platform) :
    ∃ w, generate cfg d order core = .ok w ∧ Generated cfg events d p w := by
  obtain ⟨w₁, hw₁, hwr⟩ :=
    written_foldlM ha (fun h hm => ho.mem_iff.mp hm) (written_start ha core)
  rw [List.nil_append] at hwr
  obtain ⟨w, hw, hcode, hdefines, hoptions⟩ := generate_ok hw₁
  obtain ⟨hinv, -⟩ := inv_validate inv_empty ha.resolves ha.calls ha.valid
  have hplay : ∀ h ∈ cfg.hubs, Playable cfg d h.id := fun h hm =>
    playable_of_inv hinv (List.mem_map_of_mem hm)
  obtain ⟨w', hw', hcalls⟩ := generate_calls ho hn hplay core
  obtain rfl := Except.ok.inj (hw.symm.trans hw')
  refine ⟨w, hw, ?_, ?_, ?_, ?_, ?_⟩
  · intro h hm r
    rw [hcode]
    exact support_iff (hwr.support h.id r) (hwr.wanted h (ho.mem_iff.mpr hm) r)
  · intro r hr
    rw [hdefines, hwr.defines]
    obtain ⟨h, hm, _⟩ := hr
    exact ⟨List.ne_nil_of_mem (ho.mem_iff.mpr hm), h, hm, ‹_›⟩
  · rintro ⟨h, hm, q, hq, hopus⟩
    rw [hoptions (hwr.scheduled.mpr (List.ne_nil_of_mem (ho.mem_iff.mpr hm)))]
    have hin : ("OPUS", w₁.data.hubs.entries.any fun x =>
        x.2.playerConfig.any fun p => p.codecs.contains .opus) ∈ w₁.data.requested :=
      List.mem_append_right _ (List.mem_singleton_self _)
    have hany := hwr.inv.anyConfig ha.resolves fun p => p.codecs.contains .opus
    exact (shared_finalize (hwr.options _) hin hany).1 ⟨h, hm, q, hq, by simpa using hopus⟩
  · intro h hm q hq
    rw [hcode]
    obtain ⟨q₁, -, hq₁⟩ := hwr.player h (ho.mem_iff.mpr hm) q hq
    refine sets_player.satisfies (P := fun o => ∃ q' ∈ sources cfg events h.id,
      o = some (playerRoleConfig q')) ⟨_, mem_calls.mpr hq₁, rfl⟩ fun s hs v hv => ?_
    cases s with
    | setPlayerConfig c =>
      obtain ⟨q', hq', rfl⟩ := hwr.config h.id c (mem_calls.mp hs)
      exact ⟨q', hq', (Option.some.inj hv).symm⟩
    | _ => cases hv
  · intro h hm hwant
    obtain ⟨l, hl, hc⟩ := hcalls h hm
    have hsup : (view cfg d h.id).artworkSupport = true :=
      (hinv.hub_support (List.mem_map_of_mem hm) .artwork).mpr hwant
    rw [configured, hc, artworkConfig_eq hl, if_pos hsup, view_preferences]

/-! ### What an entry is there for -/

/-- What an entry is to hear of its hub's server; an image, what is said of its place. -/
def hears (place : ℕ) : Child → Signal → Bool
  | .image _, .imageDecode n | .image _, .imageDisplay n | .image _, .imageClear n =>
    n.toNat = place
  | .mediaSource _, .player => true
  | .mediaPlayer, .groupUpdate | .mediaPlayer, .controllerState
  | .mediaPlayer, .controllerStateClear => true
  | .sensor, .metadata | .sensor, .metadataClear => true
  | .textSensor false, .metadata | .textSensor false, .metadataClear => true
  | .textSensor true, .displayPairingCode | .textSensor true, .clearPairingCode => true
  | _, _ => false

/-- The entry at a place is for the hub, and is to hear the signal; an image does if its frames
could be allocated. -/
def Told (cfg : Config) (events : List Event) (allocated : ℕ → Bool) (h : String) (s : Signal)
    (i : ℕ) : Prop :=
  ∃ e, events[i]? = some (.entry e) ∧ cfg.resolve e.parent = some h ∧
    hears (place cfg events h i) e.child s = true ∧ (FinalValidation.isImage e → allocated i)

/-- A boot of the generated program: the calls on the hubs are those of the code, in between each
source is named to its hub, and everything is set up once, in an order sorted by priority. -/
structure Boots (cfg : Config) (events : List Event) (slots : List (Option ℕ))
    (code : List (String × Stmt)) (main : List (Instr ℕ)) (setups : List (Component ℕ)) :
    Prop where
  calls : main.filterMap Instr.call? = code
  listeners : ∀ h i, .setListener h i ∈ main ↔ vars cfg events slots i = some ⟨h, .mediaSource⟩
  sorted : setups.Pairwise fun a b => b.priority ≤ a.priority
  once : setups.Nodup
  hubs : ∀ h, .hub h ∈ setups ↔ h ∈ ids cfg
  children : ∀ i, .child i ∈ setups ↔ (vars cfg events slots i).isSome

/-- The device after such a boot. -/
def device (cfg : Config) (events : List Event) (slots : List (Option ℕ)) (p : Platform)
    (w : Output) (main : List (Instr ℕ)) (setups : List (Component ℕ)) (allocated : ℕ → Bool) :
    World ℕ :=
  boot w.defines (vars cfg events slots) allocated p main setups

lemma vars_eq {slots : List (Option ℕ)} {i : ℕ} {e : Entry} {h : String}
    (he : events[i]? = some (.entry e)) (hr : cfg.resolve e.parent = some h) :
    vars cfg events slots i = (kindOf slots[i]?.join e.child).map fun k => ⟨h, k⟩ := by
  simp [vars, he, varOf, hr]

lemma vars_some {slots : List (Option ℕ)} {i : ℕ} {v : Var}
    (hv : vars cfg events slots i = some v) :
    ∃ e, events[i]? = some (.entry e) ∧ cfg.resolve e.parent = some v.parent ∧
      kindOf slots[i]?.join e.child = some v.kind := by
  obtain ⟨ev, hev, hvar⟩ := Option.bind_eq_some_iff.mp hv
  cases ev with
  | codegenData h => cases hvar
  | entry e =>
    obtain ⟨h, hr, hmap⟩ := Option.bind_eq_some_iff.mp hvar
    obtain ⟨k, hk, rfl⟩ := Option.map_eq_some_iff.mp hmap
    exact ⟨e, hev, hr, hk⟩

lemma handles_iff {child : Child} {slot : Option ℕ} {k : Kind} {n : ℕ}
    (hk : kindOf slot child = some k) (hs : ∀ p, child = .image p → slot = some n ∧ n < 256)
    {s : Signal} {t : Topic} (ht : s.topic = some t) :
    t ∈ k.topics ∧ k.accepts s = true ↔ hears n child s = true := by
  cases child with
  | image p =>
    obtain ⟨rfl, hn⟩ := hs p rfl
    obtain rfl := Option.some.inj hk
    have heq : ∀ m : UInt8, UInt8.ofNat n = m ↔ m.toNat = n := fun m => by
      rw [← UInt8.toNat_inj, UInt8.toNat_ofNat_of_lt' hn, eq_comm]
    cases s <;> cases ht <;> simp [Kind.topics, Kind.accepts, Signal.slot, hears, heq]
  | textSensor pairingCode =>
    obtain rfl := Option.some.inj hk
    cases pairingCode <;> cases s <;> cases ht <;>
      simp [Kind.topics, Kind.accepts, Signal.slot, hears]
  | switchAction | pairingWindowAction => cases hk
  | _ =>
    obtain rfl := Option.some.inj hk
    cases s <;> cases ht <;> simp [Kind.topics, Kind.accepts, Signal.slot, hears]

lemma role_of_hears {child : Child} {n : ℕ} {s : Signal} {r : Role}
    (hh : hears n child s = true) (hr : s.role = some r) : r ∈ roles child := by
  cases child with
  | textSensor pairingCode =>
    cases pairingCode <;> cases s <;> cases hr <;> simp_all [hears, roles]
  | _ => cases s <;> cases hr <;> simp_all [hears, roles]

lemma kindOf_of_hears {child : Child} {slot : Option ℕ} {n m : ℕ} {s : Signal}
    (hh : hears n child s = true) (hs : ∀ p, child = .image p → slot = some m) :
    ∃ k, kindOf slot child = some k := by
  cases child with
  | image p => exact ⟨_, by rw [hs p rfl]; rfl⟩
  | switchAction | pairingWindowAction => cases s <;> simp [hears] at hh
  | _ => exact ⟨_, rfl⟩

/-! ### The boot of an accepted configuration -/

lemma source_unique (h1 : OneSource cfg events) {i j : ℕ} {e e' : Entry} {h : String}
    {q q' : PlayerConfig} (hi : events[i]? = some (.entry e))
    (hj : events[j]? = some (.entry e')) (hr : cfg.resolve e.parent = some h)
    (hr' : cfg.resolve e'.parent = some h) (hq : e.child = .mediaSource q)
    (hq' : e'.child = .mediaSource q') : i = j := by
  have hlen := h1 h
  rw [sources, entries, List.filterMap_filterMap] at hlen
  exact place_unique hlen hi hj (by simp [hq, hr]) (by simp [hq', hr'])

section Booted

variable {d : ComponentData} {p : Platform} {w : Output} {slots : List (Option ℕ)}
  {main : List (Instr ℕ)} {setups : List (Component ℕ)} {allocated : ℕ → Bool}

lemma has_iff (hg : Generated cfg events d p w) (hb : Boots cfg events slots w.code main setups)
    {h : HubConfig} (hh : h ∈ cfg.hubs) (r : Role) :
    ((generated p main h.id).setup w.defines).has r = true ↔ Wanted cfg events h.id r := by
  have hsup : (generated p main h.id).fields.support r = true ↔ Wanted cfg events h.id r := by
    rw [generated_fields, hb.calls]
    exact hg.support h hh r
  have hdef : Wanted cfg events h.id r → r.define ∈ w.defines := fun hw => hg.defines r ⟨h, hh, hw⟩
  rw [← hsup] at hdef ⊢
  cases r with
  | visualizer =>
    rw [hsup]
    exact iff_of_false (by simp [Client.has]) (not_wanted_visualizer h.id)
  | artwork | player =>
    unfold Client.has HubVar.setup
    dsimp only
    split
    · rename_i hc
      exact iff_of_true rfl hc.2
    · rename_i hc
      exact iff_of_false (by simp) fun hs => hc ⟨hdef hs, hs⟩
  | controller | metadata =>
    change (decide _ && _) = true ↔ _
    rw [Bool.and_eq_true, decide_eq_true_eq]
    exact and_iff_right_of_imp hdef

lemma slot_of_image (hs : validateSlots cfg .empty events = .ok (slots, d)) {i : ℕ} {e : Entry}
    {h : String} (he : events[i]? = some (.entry e)) (hr : cfg.resolve e.parent = some h)
    {q : ArtworkPreference} (hq : e.child = .image q) :
    slots[i]?.join = some (place cfg events h i) ∧ place cfg events h i < 256 := by
  obtain ⟨parent, child⟩ := e
  obtain rfl : child = .image q := hq
  obtain ⟨hget, hlt⟩ := slots_get hs he hr
  have hnil : preferences .empty h = [] := by
    simp [preferences, ComponentData.get, ComponentData.empty]
  rw [hnil, List.length_nil, Nat.zero_add] at hget hlt
  exact ⟨by rw [hget]; rfl, hlt.trans (by decide)⟩

lemma setListener_iff (hb : Boots cfg events slots w.code main setups) {h : String} {i : ℕ} :
    .setListener h i ∈ main ↔ ∃ e q, events[i]? = some (.entry e) ∧
      cfg.resolve e.parent = some h ∧ e.child = .mediaSource q := by
  rw [hb.listeners]
  constructor
  · intro hv
    obtain ⟨e, he, hr, hk⟩ := vars_some hv
    refine ⟨e, ?_⟩
    cases hc : e.child with
    | mediaSource q => exact ⟨q, he, hr, rfl⟩
    | image q =>
      rw [hc] at hk
      obtain ⟨n, -, hn⟩ := Option.map_eq_some_iff.mp hk
      cases hn
    | textSensor b =>
      rw [hc] at hk
      cases b <;> cases hk
    | _ =>
      rw [hc] at hk
      cases hk
  · rintro ⟨e, q, he, hr, hq⟩
    rw [vars_eq he hr, hq]
    rfl

lemma source_of_listener (hb : Boots cfg events slots w.code main setups) {h : String} {i : ℕ}
    (hl : (generated p main h).listener = some i) :
    ∃ e q, events[i]? = some (.entry e) ∧ cfg.resolve e.parent = some h ∧
      e.child = .mediaSource q := by
  -- the listener has been named by some call
  by_contra hno
  have hnone : ∀ x ∈ main, ∀ o, listenerOf h x = some o → o ≠ some i := fun x hx o ho hoi => by
    cases x with
    | call h' s => cases ho
    | setListener h' j =>
      change (if h' = h then some (some j) else none) = some o at ho
      split at ho
      · rename_i hh
        subst hh hoi
        obtain rfl := Option.some.inj (Option.some.inj ho)
        exact hno ((setListener_iff hb).mp hx)
      · cases ho
  have hfold := (sets_listener h).foldl (fun _ => ⟨.new p, none⟩) main
  change (generated p main h).listener = _ at hfold
  rw [hl] at hfold
  cases hlast : (main.filterMap (listenerOf h)).getLast? with
  | none =>
    rw [hlast] at hfold
    cases hfold
  | some o =>
    rw [hlast] at hfold
    obtain ⟨x, hx, ho⟩ := List.mem_filterMap.mp (List.mem_of_getLast? hlast)
    exact hnone x hx o ho hfold.symm

lemma listener_of_source (h1 : OneSource cfg events)
    (hb : Boots cfg events slots w.code main setups) {h : String} {i : ℕ} {e : Entry}
    {q : PlayerConfig} (he : events[i]? = some (.entry e)) (hr : cfg.resolve e.parent = some h)
    (hq : e.child = .mediaSource q) : (generated p main h).listener = some i := by
  refine generated_listener ((setListener_iff hb).mpr ⟨e, q, he, hr, hq⟩) fun j hj => ?_
  obtain ⟨e', q', he', hr', hq'⟩ := (setListener_iff hb).mp hj
  exact source_unique h1 he' he hr' hr hq' hq

/-- A child acts on a signal if it is to hear it. As a hub has one listener, this is so of a source
where there is no other. -/
lemma mem_react_iff (hg : Generated cfg events d p w)
    (hs : validateSlots cfg .empty events = .ok (slots, d))
    (hb : Boots cfg events slots w.code main setups) {h : HubConfig} (hh : h ∈ cfg.hubs)
    {s : Signal} {i : ℕ}
    (h1 : s = .player → ∀ e q, events[i]? = some (.entry e) → e.child = .mediaSource q →
      OneSource cfg events) :
    i ∈ (device cfg events slots p w main setups allocated).react (vars cfg events slots) h.id s ↔
      Told cfg events allocated h.id s i := by
  have hid : .hub h.id ∈ setups := (hb.hubs h.id).mpr (List.mem_map_of_mem hh)
  rw [device, (react_spec hb.sorted hb.once hid s).2 i]
  -- a role that some entry is to hear of has been added
  have htells : ∀ e, events[i]? = some (.entry e) → cfg.resolve e.parent = some h.id →
      hears (place cfg events h.id i) e.child s = true →
      ((generated p main h.id).setup w.defines).tells s = true := by
    intro e he hr hears
    unfold Client.tells
    cases hrole : s.role with
    | none => rfl
    | some r =>
      refine (has_iff hg hb hh r).mpr ⟨e, ?_, hr, role_of_hears hears hrole⟩
      exact List.mem_filterMap.mpr ⟨_, List.mem_of_getElem? he, rfl⟩
  cases htop : s.topic with
  | none =>
    have hpl : s = .player := by cases s <;> first | rfl | cases htop
    subst hpl
    dsimp only
    constructor
    · rintro ⟨-, hl⟩
      obtain ⟨e, q, he, hr, hq⟩ := source_of_listener hb hl
      exact ⟨e, he, hr, by rw [hq]; rfl, by simp [FinalValidation.isImage, hq]⟩
    · rintro ⟨e, he, hr, hears, -⟩
      refine ⟨htells e he hr hears, ?_⟩
      cases hc : e.child with
      | mediaSource q => exact listener_of_source (h1 rfl e q he hc) hb he hr hc
      | textSensor b =>
        rw [hc] at hears
        cases b <;> cases hears
      | _ =>
        rw [hc] at hears
        cases hears
  | some t =>
    dsimp only
    have hslot : ∀ e, events[i]? = some (.entry e) → cfg.resolve e.parent = some h.id →
        ∀ q, e.child = .image q →
          slots[i]?.join = some (place cfg events h.id i) ∧ place cfg events h.id i < 256 :=
      fun e he hr q hq => slot_of_image hs he hr hq
    constructor
    · rintro ⟨-, -, v, hv, hreg, hpar, hmem, hacc⟩
      obtain ⟨e, he, hr, hk⟩ := vars_some hv
      rw [hpar] at hr
      refine ⟨e, he, hr, (handles_iff hk (hslot e he hr) htop).mp ⟨hmem, hacc⟩, fun himg => ?_⟩
      cases hc : e.child with
      | image q =>
        rw [hc] at hk
        obtain ⟨n, -, hn⟩ := Option.map_eq_some_iff.mp hk
        rw [registers, ← hn] at hreg
        exact hreg
      | _ => simp [FinalValidation.isImage, hc] at himg
    · rintro ⟨e, he, hr, hears, himg⟩
      obtain ⟨k, hk⟩ := kindOf_of_hears hears fun q hq => (hslot e he hr q hq).1
      have hv : vars cfg events slots i = some ⟨h.id, k⟩ := by
        rw [vars_eq he hr, hk]
        rfl
      obtain ⟨hmem, hacc⟩ := (handles_iff hk (hslot e he hr) htop).mpr hears
      refine ⟨htells e he hr hears, (hb.children i).mpr (by rw [hv]; rfl), _, hv, ?_, rfl, hmem,
        hacc⟩
      cases k with
      | imageSlot n =>
        refine himg ?_
        cases hc : e.child with
        | image q => simp [FinalValidation.isImage, hc]
        | textSensor b =>
          rw [hc] at hk
          cases b <;> cases hk
        | _ =>
          rw [hc] at hk
          cases hk
      | _ => rfl

lemma mem_react (hg : Generated cfg events d p w)
    (hs : validateSlots cfg .empty events = .ok (slots, d))
    (hb : Boots cfg events slots w.code main setups) {h : String} {s : Signal} {i : ℕ}
    (h1 : s = .player → ∀ e q, events[i]? = some (.entry e) → e.child = .mediaSource q →
      OneSource cfg events) :
    i ∈ (device cfg events slots p w main setups allocated).react (vars cfg events slots) h s ↔
      Told cfg events allocated h s i := by
  by_cases hm : h ∈ ids cfg
  · obtain ⟨hub, hhub, rfl⟩ := List.mem_map.mp hm
    exact mem_react_iff hg hs hb hhub h1
  · refine iff_of_false ?_ fun ⟨e, _, hr, _⟩ => hm (resolve_mem hr)
    rw [device, react_of_not_mem fun hc => hm ((hb.hubs h).mp hc)]
    exact List.not_mem_nil

lemma nodup_react (hb : Boots cfg events slots w.code main setups) (h : String) (s : Signal) :
    ((device cfg events slots p w main setups allocated).react
      (vars cfg events slots) h s).Nodup := by
  by_cases hh : .hub h ∈ setups
  · exact (react_spec hb.sorted hb.once hh s).1
  · rw [device, react_of_not_mem hh]
    exact List.nodup_nil

end Booted

/-- **Entries become what they ask for**: of every accepted configuration a program is generated
that, in whatever order its calls and setups come, boots to a device where the client of each hub
has the roles that entries of the hub ask for, and each thing it tells is acted on, once each, by
the children of the hub whose entries are to hear of it, an image among them if it was set up, and
by no others. Where no hub has two media sources, a source has the player role of its own hub, which
was added with the source's configuration and the source as its listener; and what an image asks
for is what its hub asks the server for at the image's place. -/
theorem wired {d : ComponentData} {order : List HubConfig} (ha : Accepted cfg events d)
    (h1 : OneSource cfg events) (hn : (ids cfg).Nodup) (ho : order.Perm cfg.hubs) (core : Sdkconfig)
    (p : Platform) :
    ∃ slots w, validateSlots cfg .empty events = .ok (slots, d) ∧
      generate cfg d order core = .ok w ∧
      ∀ main setups allocated, Boots cfg events slots w.code main setups → ∀ h ∈ cfg.hubs,
        ∃ client,
          (device cfg events slots p w main setups allocated).clients h.id = some client ∧
          (∀ r, client.has r = true ↔ Wanted cfg events h.id r) ∧
          (∀ s,
            ((device cfg events slots p w main setups allocated).react
              (vars cfg events slots) h.id s).Nodup ∧
            ∀ i, i ∈ (device cfg events slots p w main setups allocated).react
              (vars cfg events slots) h.id s ↔ Told cfg events allocated h.id s i) ∧
          (∀ i parent q, events[i]? = some (.entry ⟨parent, .mediaSource q⟩) →
            cfg.resolve parent = some h.id →
              (device cfg events slots p w main setups allocated).playerRole i = some h.id ∧
              client.player = some (some (playerRoleConfig q), some i)) ∧
          ∀ i parent q, events[i]? = some (.entry ⟨parent, .image q⟩) →
            cfg.resolve parent = some h.id →
              ∃ formats, client.artwork = some (some ⟨formats, h.taskStackInPsram⟩) ∧
                formats[place cfg events h.id i]? = some (imageSlotPreference q) := by
  obtain ⟨slots, hs⟩ := validateSlots_of_validate ha.valid
  obtain ⟨w, hw, hg⟩ := generate_fields ha hn ho core p
  refine ⟨slots, w, hs, hw, fun main setups allocated hb h hh => ?_⟩
  have hid : .hub h.id ∈ setups := (hb.hubs h.id).mpr (List.mem_map_of_mem hh)
  obtain ⟨hclients, hroles⟩ :=
    @boot_clients ℕ w.defines (vars cfg events slots) allocated _ p main setups hb.sorted
  have hmem : ∀ {i : ℕ} {e : Entry}, events[i]? = some (.entry e) → e ∈ entries events := fun he =>
    List.mem_filterMap.mpr ⟨_, List.mem_of_getElem? he, rfl⟩
  refine ⟨_, hclients h.id hid, has_iff hg hb hh,
    fun s => ⟨(react_spec hb.sorted hb.once hid s).1, fun _ =>
      mem_react_iff hg hs hb hh fun _ _ _ _ _ => h1⟩, ?_, ?_⟩
  · intro i parent q he hr
    have hwant : Wanted cfg events h.id .player :=
      ⟨_, hmem he, hr, by simp [roles]⟩
    have hsup : (generated p main h.id).fields.support .player = true := by
      rw [generated_fields, hb.calls]
      exact (hg.support h hh .player).mpr hwant
    have hdef : Role.player.define ∈ w.defines := hg.defines .player ⟨h, hh, hwant⟩
    have hv : vars cfg events slots i = some ⟨h.id, .mediaSource⟩ := vars_eq he hr
    have hlistener : (generated p main h.id).listener = some i :=
      listener_of_source h1 hb he hr rfl
    have hconfig : (generated p main h.id).fields.playerConfig = some (playerRoleConfig q) := by
      have hq := mem_sources.mpr ⟨_, hmem he, hr, rfl⟩
      obtain ⟨q', hq', hconfig⟩ := hg.player h hh q hq
      rw [generated_fields, hb.calls, hconfig, h1.eq hq' hq]
    refine ⟨?_, ?_⟩
    · rw [device, hroles i _ hv rfl ((hb.children i).mpr (by rw [hv]; rfl)) hid,
        if_pos ⟨hsup, hdef⟩]
    · simp [HubVar.setup, hsup, hdef, hlistener, hconfig]
  · intro i parent q he hr
    have hwant : Wanted cfg events h.id .artwork := ⟨_, hmem he, hr, by simp [roles]⟩
    have hsup : (generated p main h.id).fields.support .artwork = true := by
      rw [generated_fields, hb.calls]
      exact (hg.support h hh .artwork).mpr hwant
    have hdef : Role.artwork.define ∈ w.defines := hg.defines .artwork ⟨h, hh, hwant⟩
    refine ⟨(preferences d h.id).map imageSlotPreference, ?_, ?_⟩
    · simp only [HubVar.setup, hsup, hdef, and_self, if_true]
      rw [generated_fields, hb.calls, hg.artwork h hh hwant]
    · rw [preferences_validateSlots hs, List.getElem?_map]
      have hnil : preferences .empty h.id = [] := by
        simp [preferences, ComponentData.get, ComponentData.empty]
      rw [hnil, List.nil_append, place_get he hr]
      rfl

/-- The two hubs with displays, one of them with a speaker, in the middle of a read. -/
def houseEvents : List Event :=
  [.entry cover.entry, .entry atticCover.entry, .entry ⟨some "den", .mediaSource opusSource⟩,
    .codegenData "attic", .entry portrait.entry, .entry ⟨some "attic", .mediaPlayer⟩]

def houseData : ComponentData :=
  (displays.config.validate .empty houseEvents).toOption.getD .empty

lemma house_accepted : Accepted displays.config houseEvents houseData :=
  ⟨by decide, by simp [houseEvents, ids, displays, attic, den], by rfl⟩

lemma house_oneSource : OneSource displays.config houseEvents := by
  intro h
  simp only [sources, entries, houseEvents, List.filterMap_cons, List.filterMap_nil, cover,
    atticCover, portrait, ImageEntry.entry]
  split
  · simp
  · rename_i hs
    split at hs
    · cases hs; simp
    · cases hs

def houseVar : ℕ → Option Var
  | 0 => some ⟨"den", .imageSlot 0⟩
  | 1 => some ⟨"attic", .imageSlot 0⟩
  | 2 => some ⟨"den", .mediaSource⟩
  | 4 => some ⟨"den", .imageSlot 1⟩
  | 5 => some ⟨"attic", .mediaPlayer⟩
  | _ => none

def houseSlots : List (Option ℕ) := [some 0, some 0, none, none, some 1, none]

lemma house_slots :
    validateSlots displays.config .empty houseEvents = .ok (houseSlots, houseData) := by
  rfl

lemma house_vars : ∀ i, vars displays.config houseEvents houseSlots i = houseVar i
  | 0 | 1 | 2 | 3 | 4 | 5 => rfl
  | _ + 6 => rfl

def houseMain (w : Output) : List (Instr ℕ) :=
  w.code.map (fun x => .call x.1 x.2) ++ [.setListener "den" 2]

def houseSetups : List (Component ℕ) :=
  [.hub "attic", .hub "den", .child 5, .child 0, .child 4, .child 2, .child 1]

lemma house_boots (w : Output) :
    Boots displays.config houseEvents houseSlots w.code (houseMain w) houseSetups := by
  refine ⟨?_, fun h i => ?_, by decide, by decide, fun h => ?_, fun i => ?_⟩
  · simp [houseMain, List.filterMap_map, Function.comp_def, Instr.call?]
  · rw [house_vars]
    rcases i with _ | _ | _ | _ | _ | _ | i
    case succ.succ.zero => simp [houseMain, houseVar, eq_comm]
    all_goals simp [houseMain, houseVar]
  · simp [houseSetups, ids, displays, attic, den, or_comm]
  · rw [house_vars]
    rcases i with _ | _ | _ | _ | _ | _ | i <;> simp [houseSetups, houseVar]

theorem wired_house :
    ∃ slots w main setups, Boots displays.config houseEvents slots w.code main setups ∧
      4 ∈ (device displays.config houseEvents slots firmware w main setups fun _ => true).react
        (vars displays.config houseEvents slots) "den" (.imageDisplay 1) ∧
      5 ∉ (device displays.config houseEvents slots firmware w main setups fun _ => true).react
        (vars displays.config houseEvents slots) "den" .groupUpdate ∧
      (device displays.config houseEvents slots firmware w main setups fun _ => true).playerRole 2 =
        some "den" := by
  obtain ⟨slots, w, hs, -, hall⟩ :=
    wired house_accepted house_oneSource (by decide) (List.Perm.refl _) (fun _ => none) firmware
  obtain ⟨rfl, -⟩ := Prod.mk.inj (Except.ok.inj (hs.symm.trans house_slots))
  have hb := house_boots w
  obtain ⟨client, -, -, hreact, hsource, -⟩ := hall _ _ (fun _ => true) hb den List.mem_cons_self
  refine ⟨houseSlots, w, _, _, hb, ?_, ?_, (hsource 2 _ _ rfl rfl).1⟩
  · exact ((hreact (.imageDisplay 1)).2 4).mpr ⟨portrait.entry, rfl, rfl, by decide, fun _ => rfl⟩
  · rintro hm
    obtain ⟨e, he, hr, -⟩ := ((hreact .groupUpdate).2 5).mp hm
    obtain rfl := Event.entry.inj (Option.some.inj he)
    revert hr
    decide

end SendspinMc.Wiring
