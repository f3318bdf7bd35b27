import SendspinMc.Wiring

/-!
The preprocessor guards of the generated program.

A setter of the hub, or a whole class, is declared under defines. The code generation makes its
calls and variables by conditions of its own; in every program it generates the defines for them
are there.
-/

namespace SendspinMc.Guards

open SendspinMc.Codegen SendspinMc.Roles SendspinMc.RoleCode
open SendspinMc.HubCode SendspinMc.Boot SendspinMc.Wiring SendspinMc.Lib.Checks

variable {cfg : Config} {events : List Event}

/-! ### What is declared under which defines -/

def idfDefine : String := "USE_ESP_IDF"

def mdnsDefine : String := "USE_MDNS_SUPPORTS_ENABLE_DISABLE"

def switchDefine : String := "USE_SENDSPIN_MC_SWITCH"

/-- The defines a hub's setter is declared under. It has none for the visualizer. -/
def setterGuards : Stmt → Option (List String)
  | .setSupport .visualizer _ => none
  | .setSupport r _ => some [idfDefine, r.define]
  | .setArtworkConfig _ => some [idfDefine, Role.artwork.define]
  | .setPlayerConfig _ => some [idfDefine, Role.player.define]
  | .setMdns => some [idfDefine, mdnsDefine]
  | _ => some [idfDefine]

/-- The defines that other components bring for the classes of theirs that a class extends. -/
def baseDefines : Kind → List String
  | .mediaPlayer => ["USE_MEDIA_PLAYER"]
  | .sensor => ["USE_SENSOR"]
  | .textSensor | .pairingCodeTextSensor => ["USE_TEXT_SENSOR"]
  | .imageSlot _ | .mediaSource | .switch _ => []

/-- The define that a class's own `to_code` adds. -/
def ownDefines : Kind → List String
  | .switch _ => [switchDefine]
  | _ => []

/-- The roles whose defines a class is declared under. -/
def roleGuards : Kind → List Role
  | .imageSlot _ => [.artwork]
  | .mediaSource => [.controller, .player]
  | .mediaPlayer => [.controller]
  | .sensor | .textSensor => [.metadata]
  | .pairingCodeTextSensor | .switch _ => []

def classGuards (k : Kind) : List String :=
  idfDefine :: (roleGuards k).map Role.define ++ baseDefines k ++ ownDefines k

/-- The defines that the hub's method of an action is declared under: `switch_client` belongs to
the controller. -/
def actionGuards : Child → List String
  | .switchAction => [idfDefine, Role.controller.define]
  | .pairingWindowAction => [idfDefine]
  | _ => []

/-- The defines that the hub's `set_listener` is declared under, which a media source calls. -/
def listenerGuards : List String := [idfDefine, Role.player.define]

/-- The actions on a child. Each calls a method of the child's class. -/
inductive ChildAction
  | transitionFinished
  | enableStaticDelayAdjustment
  | disableStaticDelayAdjustment

/-- The class that the `use_id` of an action asks for. -/
def ChildAction.targets : ChildAction → Kind → Bool
  | .transitionFinished, .imageSlot _ => true
  | .enableStaticDelayAdjustment, .mediaSource | .disableStaticDelayAdjustment, .mediaSource => true
  | _, _ => false

/-- The defines that the method is declared under. -/
def ChildAction.guards : ChildAction → List String
  | .transitionFinished => [idfDefine, Role.artwork.define]
  | .enableStaticDelayAdjustment | .disableStaticDelayAdjustment =>
    [idfDefine, Role.controller.define, Role.player.define]

/-- What the framework and the other components define: ESP-IDF is the only framework accepted,
mDNS defines what it answers the hub's request with, and each base component its own class. -/
structure Brings (cfg : Config) (vs : ℕ → Option Var) (others : List String) : Prop where
  idf : idfDefine ∈ others
  mdns : cfg.mdnsEnableDisable = true → mdnsDefine ∈ others
  bases : ∀ i v, vs i = some v → baseDefines v.kind ⊆ others

/-- The defines that the classes of a program add. -/
def ownOf (vs : ℕ → Option Var) (n : ℕ) : List String :=
  (List.range n).flatMap fun i => (vs i).elim [] fun v => ownDefines v.kind

/-! ### The calls -/

/-- A call that is declared once the defines of the wanted roles are there. -/
def Guarded (cfg : Config) (events : List Event) (s : Stmt) : Prop :=
  ∃ g, setterGuards s = some g ∧ ∀ x ∈ g, x = idfDefine ∨
    x = mdnsDefine ∧ cfg.mdnsEnableDisable = true ∨
    ∃ r, x = r.define ∧ SomeWanted cfg events r

lemma guarded_plain {s : Stmt} (hs : setterGuards s = some [idfDefine]) : Guarded cfg events s :=
  ⟨_, hs, fun _ hx => .inl (List.mem_singleton.mp hx)⟩

lemma guarded_role {s : Stmt} {r : Role} (hs : setterGuards s = some [idfDefine, r.define])
    (hr : SomeWanted cfg events r) : Guarded cfg events s := by
  refine ⟨_, hs, fun x hx => ?_⟩
  rcases List.mem_cons.mp hx with rfl | hx
  · exact .inl rfl
  · exact .inr (.inr ⟨r, List.mem_singleton.mp hx, hr⟩)

lemma firstCalls_guarded (h : HubConfig) (c : Configuration) :
    ∀ s ∈ firstCalls cfg h c, Guarded cfg events s := by
  have hstart : ∀ s ∈ startRequests h c.switchTypes, Guarded cfg events s := by
    intro s hs
    rw [startRequests, List.mem_append] at hs
    rcases hs with hs | hs <;> split at hs <;> simp at hs <;> rw [hs] <;> exact guarded_plain rfl
  intro s hs
  simp only [firstCalls, List.mem_append] at hs
  obtain (((((hs | hs) | hs) | hs) | hs) | hs) | hs := hs
  · simp at hs
    obtain rfl | rfl | rfl | rfl := hs <;> exact guarded_plain rfl
  · split at hs <;> simp at hs
    rw [hs]; exact guarded_plain rfl
  · obtain ⟨_, rfl | rfl | rfl⟩ := deviceInfo_shape hs <;> exact guarded_plain rfl
  · simp at hs
    obtain ⟨_, _, rfl⟩ := hs
    exact guarded_plain rfl
  · exact hstart s hs
  · split at hs <;> simp at hs
    rw [hs]; exact guarded_plain rfl
  · split at hs <;> simp at hs
    rename_i hm
    refine hs ▸ ⟨_, rfl, fun x hx => ?_⟩
    rcases List.mem_cons.mp hx with rfl | hx
    · exact .inl rfl
    · exact .inr (.inl ⟨List.mem_singleton.mp hx, hm⟩)

lemma setSupport_guarded {d : ComponentData} {c : Configuration} {r : Role}
    (hany : ∀ r, d.anySupport r = true → SomeWanted cfg events r) (hr : r ≠ .visualizer) :
    ∀ s ∈ setSupport d c r, Guarded cfg events s := by
  intro s hs
  unfold setSupport at hs
  split at hs
  · rename_i ha
    obtain rfl := List.mem_singleton.mp hs
    refine guarded_role (r := r) ?_ (hany r ha)
    cases r <;> first | rfl | exact absurd rfl hr
  · cases hs

lemma roleStmts_guarded {d : ComponentData} {h : HubConfig} {c : Configuration} {l : List Stmt}
    (hany : ∀ r, d.anySupport r = true → SomeWanted cfg events r)
    (hsup : ∀ r, c.support r = true → SomeWanted cfg events r)
    (hl : roleStmts d h c = .ok l) : ∀ s ∈ l, Guarded cfg events s := by
  obtain ⟨pl, hpl, rfl⟩ := map_ok.mp hl
  have hplayer : ∀ s ∈ pl, Guarded cfg events s := by
    intro s hs
    unfold setPlayerConfig at hpl
    split at hpl
    · rename_i hp
      split at hpl
      · cases hpl
      · obtain rfl := Except.ok.inj hpl
        obtain rfl := List.mem_singleton.mp hs
        exact guarded_role rfl (hsup .player hp)
    · obtain rfl := Except.ok.inj hpl
      cases hs
  have hartwork : ∀ s ∈ setArtworkConfig h c, Guarded cfg events s := by
    intro s hs
    unfold setArtworkConfig at hs
    split at hs
    · rename_i ha
      obtain rfl := List.mem_singleton.mp hs
      exact guarded_role rfl (hsup .artwork ha)
    · cases hs
  intro s hs
  simp only [List.mem_append] at hs
  obtain ((((hs | hs) | hs) | hs) | hs) | hs := hs
  · exact setSupport_guarded hany (by decide) s hs
  · exact hartwork s hs
  · exact setSupport_guarded hany (by decide) s hs
  · exact setSupport_guarded hany (by decide) s hs
  · exact setSupport_guarded hany (by decide) s hs
  · exact hplayer s hs

/-- What has been generated so far is guarded, and the data asks for nothing else. -/
structure GuardedSoFar (cfg : Config) (events : List Event) (w : Output) : Prop where
  inv : Inv cfg (entries events) w.data
  code : ∀ x ∈ w.code, Guarded cfg events x.2

lemma toCode_guarded {d₀ : ComponentData} {w w' : Output} {h : HubConfig}
    (ha : Accepted cfg events d₀) (hh : h ∈ cfg.hubs) (hw : GuardedSoFar cfg events w)
    (hok : toCode cfg w h = .ok w') : GuardedSoFar cfg events w' := by
  have hid : h.id ∈ ids cfg := List.mem_map_of_mem hh
  obtain ⟨w'', hw'', hstep⟩ := toCode_step ha hw.inv hh
  obtain rfl := Except.ok.inj (hw''.symm.trans hok)
  obtain ⟨hi₁, -⟩ := hubStmts_inv hw.inv hid
  have hi₂ : Inv cfg (entries events)
      { (hubStmts cfg w.data h).2 with sdkconfigJobScheduled := true } := hi₁.of_hubs rfl
  have hi₃ := hi₂.codegenData hid
  have hsup := hi₂.hub_support hid
  refine ⟨hstep.inv, ?_⟩
  unfold toCode at hok
  obtain ⟨l, hl, rfl⟩ := map_ok.mp hok
  have hroles : ∀ s ∈ l, Guarded cfg events s := by
    refine roleStmts_guarded (fun r hr => ?_) (fun r hr => ?_) hl
    · exact ((hi₃.of_hubs rfl).anySupport ha.resolves r).mp hr
    · exact ⟨h, hh, (hsup r).mp hr⟩
  intro x hx
  rcases List.mem_append.mp hx with hx | hx
  · exact hw.code x hx
  · obtain ⟨s, hs, rfl⟩ := List.mem_map.mp hx
    rcases List.mem_append.mp hs with hs | hs
    · have hfirst : s ∈ (hubStmts cfg w.data h).1 := hs
      rw [(hubStmts_view cfg w.data h).1] at hfirst
      exact firstCalls_guarded h _ s hfirst
    · exact hroles s hs

/-! ### The program -/

/-- All defines of a program. -/
def definesOf (cfg : Config) (events : List Event) (slots : List (Option ℕ)) (w : Output)
    (others : List String) : List String :=
  others ++ w.defines ++ ownOf (vars cfg events slots) events.length

lemma ownDefines_subset {slots : List (Option ℕ)} {i : ℕ} {v : Var}
    (hv : vars cfg events slots i = some v) :
    ownDefines v.kind ⊆ ownOf (vars cfg events slots) events.length := by
  intro x hx
  obtain ⟨e, he, -⟩ := vars_some hv
  obtain ⟨hi, -⟩ := List.getElem?_eq_some_iff.mp he
  exact List.mem_flatMap.mpr ⟨i, List.mem_range.mpr hi, by rw [hv]; exact hx⟩

lemma roleGuards_subset {child : Child} {slot : Option ℕ} {k : Kind}
    (hk : kindOf slot child = some k) : ∀ r ∈ roleGuards k, r ∈ roles child := by
  cases child with
  | image p =>
    obtain ⟨n, -, rfl⟩ := Option.map_eq_some_iff.mp hk
    simp [roleGuards, roles]
  | textSensor b => cases b <;> cases hk <;> simp [roleGuards, roles]
  | _ => cases hk <;> simp [roleGuards, roles]

lemma ChildAction.guards_subset {a : ChildAction} {k : Kind} (h : a.targets k = true) :
    a.guards ⊆ classGuards k := by
  intro x hx
  cases a <;> cases k <;> cases h <;>
    exact List.mem_append_left _ (List.mem_append_left _ hx)

/-- **What is generated is declared**: of every accepted configuration a program is generated in
which each call of a setter, each variable's class and the method of each action, be it one of the
hub's or of a child's, is declared under defines that are there. -/
theorem declared {d : ComponentData} {order : List HubConfig} (ha : Accepted cfg events d)
    (ho : order.Perm cfg.hubs) (core : Sdkconfig) :
    ∃ slots w, validateSlots cfg .empty events = .ok (slots, d) ∧
      generate cfg d order core = .ok w ∧
      ∀ others, Brings cfg (vars cfg events slots) others →
        (∀ x ∈ w.code, ∃ g, setterGuards x.2 = some g ∧
          g ⊆ definesOf cfg events slots w others) ∧
        (∀ i v, vars cfg events slots i = some v →
          classGuards v.kind ⊆ definesOf cfg events slots w others) ∧
        (∀ e ∈ entries events, actionGuards e.child ⊆ definesOf cfg events slots w others) ∧
        (∀ e ∈ entries events, ∀ q, e.child = .mediaSource q →
          listenerGuards ⊆ definesOf cfg events slots w others) ∧
        ∀ a i v, vars cfg events slots i = some v → ChildAction.targets a v.kind = true →
          a.guards ⊆ definesOf cfg events slots w others := by
  obtain ⟨slots, hs⟩ := validateSlots_of_validate ha.valid
  have hstart := written_start ha core
  obtain ⟨w₁, hw₁, hwr⟩ := written_foldlM ha (fun h hm => ho.mem_iff.mp hm) hstart
  rw [List.nil_append] at hwr
  obtain ⟨w, hw, hcode, hdefines, -⟩ := generate_ok hw₁
  have hguard : GuardedSoFar cfg events w₁ :=
    foldlM_keeps (fun u h t hm hu ht => toCode_guarded ha (ho.mem_iff.mp hm) hu ht)
      ⟨hstart.inv, by simp⟩ hw₁
  refine ⟨slots, w, hs, hw, fun others hb => ?_⟩
  have hwanted : ∀ r, SomeWanted cfg events r → r.define ∈ definesOf cfg events slots w others := by
    intro r hr
    refine List.mem_append_left _ (List.mem_append_right _ ?_)
    rw [hdefines, hwr.defines]
    obtain ⟨h, hm, hwant⟩ := hr
    exact ⟨List.ne_nil_of_mem (ho.mem_iff.mpr hm), h, hm, hwant⟩
  have hother : ∀ x ∈ others, x ∈ definesOf cfg events slots w others := fun x hx =>
    List.mem_append_left _ (List.mem_append_left _ hx)
  -- what an entry asks for, its hub has
  have hasked : ∀ e ∈ entries events, ∀ r ∈ roles e.child, SomeWanted cfg events r := by
    intro e he r hr
    obtain ⟨h, hh⟩ := Option.isSome_iff_exists.mp (ha.resolves e he)
    obtain ⟨hub, hhub, rfl⟩ := List.mem_map.mp (resolve_mem hh)
    exact ⟨hub, hhub, e, he, hh, hr⟩
  have hclass : ∀ i v, vars cfg events slots i = some v →
      classGuards v.kind ⊆ definesOf cfg events slots w others := by
    intro i v hv
    obtain ⟨e, he, -, hk⟩ := vars_some hv
    have hentry : e ∈ entries events :=
      List.mem_filterMap.mpr ⟨_, List.mem_of_getElem? he, rfl⟩
    intro y hy
    rw [classGuards, List.mem_append, List.mem_append, List.mem_cons] at hy
    obtain ((rfl | hy) | hy) | hy := hy
    · exact hother _ hb.idf
    · obtain ⟨r, hr, rfl⟩ := List.mem_map.mp hy
      exact hwanted r (hasked e hentry r (roleGuards_subset hk r hr))
    · exact hother _ (hb.bases i v hv hy)
    · exact List.mem_append_right _ (ownDefines_subset hv hy)
  refine ⟨fun x hx => ?_, hclass, fun e he => ?_, fun e he q hq => ?_, fun a i v hv ha =>
    List.Subset.trans (ChildAction.guards_subset ha) (hclass i v hv)⟩
  · rw [hcode] at hx
    obtain ⟨g, hg, hall⟩ := hguard.code x hx
    refine ⟨g, hg, fun y hy => ?_⟩
    obtain rfl | ⟨rfl, hm⟩ | ⟨r, rfl, hr⟩ := hall y hy
    · exact hother _ hb.idf
    · exact hother _ (hb.mdns hm)
    · exact hwanted r hr
  · intro y hy
    unfold actionGuards at hy
    split at hy
    · rename_i hc
      rcases List.mem_cons.mp hy with rfl | hy
      · exact hother _ hb.idf
      · rw [List.mem_singleton.mp hy]
        exact hwanted _ (hasked e he _ (by simp [hc, roles]))
    · rw [List.mem_singleton.mp hy]
      exact hother _ hb.idf
    · cases hy
  · refine List.cons_subset.mpr ⟨hother _ hb.idf, List.cons_subset.mpr ⟨?_, List.nil_subset _⟩⟩
    exact hwanted _ (hasked e he _ (by simp [hq, roles]))

theorem declared_house :
    ∃ slots w, validateSlots SlotNumbers.displays.config .empty houseEvents =
        .ok (slots, houseData) ∧
      generate SlotNumbers.displays.config houseData SlotNumbers.displays.config.hubs
        (fun _ => none) = .ok w ∧
      ∀ i v, vars SlotNumbers.displays.config houseEvents slots i = some v →
        classGuards v.kind ⊆ definesOf SlotNumbers.displays.config houseEvents slots w
          [idfDefine, mdnsDefine, "USE_MEDIA_PLAYER", "USE_SENSOR", "USE_TEXT_SENSOR"] := by
  obtain ⟨slots, w, hs, hw, hall⟩ :=
    declared house_accepted (List.Perm.refl _) fun _ => none
  refine ⟨slots, w, hs, hw, (hall _ ⟨by simp, fun _ => by simp, fun i v _ => ?_⟩).2.1⟩
  cases v.kind <;> simp [baseDefines]

end SendspinMc.Guards
