import SendspinMc.HubView
import SendspinMc.RoleCode

/-!
The generated calls of each hub, as a function of what its configuration is read as.
-/

namespace SendspinMc.HubCode

open SendspinMc.Codegen SendspinMc.Roles SendspinMc.RoleCode SendspinMc.HubView
open SendspinMc.Lib.Checks

variable {cfg : Config}

/-! ### The two halves of `to_code` -/

/-- The calls made before those of the roles. -/
def firstCalls (cfg : Config) (h : HubConfig) (c : Configuration) : List Stmt :=
  [.setClientId h.clientId, .setClientName h.clientName, .setServerPort h.serverPort,
      .setControlPort h.controlPort] ++
    (if h.taskStackInPsram then [.setTaskStackInPsram true] else []) ++
    deviceInfo cfg h ++
    (h.staticPairingCode.map Stmt.setStaticPairingCode).toList ++
    startRequests h c.switchTypes ++
    (if h.onDisplayPairingCode || c.pairingCodeDisplaySupport then
      [.setPairingCodeDisplaySupported true] else []) ++
    (if cfg.mdnsEnableDisable then [.setMdns] else [])

lemma hubStmts_view (cfg : Config) (d : ComponentData) (h : HubConfig) :
    (hubStmts cfg d h).1 = firstCalls cfg h (view cfg d h.id) ∧
      SameView cfg d (hubStmts cfg d h).2 := by
  have hsame : SameView cfg d (d.getCodegenData cfg.hubs.length (some h.id)).2 :=
    sameView_getCodegenData d h.id
  obtain ⟨hdyn, hsame'⟩ :=
    offersDynamicPairingCode_view cfg (d.getCodegenData cfg.hubs.length (some h.id)).2 h
  refine ⟨?_, hsame.trans hsame'⟩
  rw [hsame h.id] at hdyn
  unfold hubStmts firstCalls
  dsimp only
  rw [hdyn]
  rfl

/-! What some of the calls are among these. -/

/-- A call that gives the hub its identity, a port or a device information. -/
def isDetail : Stmt → Bool
  | .setClientId _ | .setClientName _ | .setServerPort _ | .setControlPort _ => true
  | .setManufacturer _ | .setModel _ | .setFirmwareVersion _ => true
  | _ => false

section Among

variable {β : Type*} {g : Stmt → Option β}

lemma among_optional (b : Bool) (s : Stmt) :
    (if b then [s] else []).filterMap g = if b then (g s).toList else [] := by
  cases b
  · rfl
  · cases hs : g s <;> simp [hs]

lemma among_map (o : Option String) (f : String → Stmt) :
    (o.map f).toList.filterMap g = (o.bind fun v => g (f v)).toList := by
  cases o with
  | none => rfl
  | some v => cases hs : g (f v) <;> simp [hs]

lemma among_firstCalls (hg : ∀ s, isDetail s = true → g s = none) (h : HubConfig)
    (c : Configuration) :
    (firstCalls cfg h c).filterMap g =
      (if h.taskStackInPsram then (g (.setTaskStackInPsram true)).toList else []) ++
        (h.staticPairingCode.bind fun v => g (.setStaticPairingCode v)).toList ++
        (startRequests h c.switchTypes).filterMap g ++
        (if h.onDisplayPairingCode || c.pairingCodeDisplaySupport then
          (g (.setPairingCodeDisplaySupported true)).toList else []) ++
        (if cfg.mdnsEnableDisable then (g .setMdns).toList else []) := by
  have hids : [.setClientId h.clientId, .setClientName h.clientName, .setServerPort h.serverPort,
      .setControlPort h.controlPort].filterMap g = [] :=
    List.filterMap_eq_nil_iff.mpr fun s hs => hg s (by
      simp only [List.mem_cons, List.not_mem_nil, or_false] at hs
      obtain rfl | rfl | rfl | rfl := hs <;> rfl)
  have hinfo : (deviceInfo cfg h).filterMap g = [] :=
    List.filterMap_eq_nil_iff.mpr fun s hs => hg s (by
      obtain ⟨_, rfl | rfl | rfl⟩ := deviceInfo_shape hs <;> rfl)
  simp only [firstCalls, List.filterMap_append, among_optional, among_map, hids, hinfo,
    List.nil_append, List.append_nil]

lemma among_startRequests (hg : ∀ v, g (.setEnabled v) = none ∧
    g (.setUnpairedAccessEnabled v) = none) (h : HubConfig) (ts : Finset SwitchType) :
    (startRequests h ts).filterMap g = [] := by
  unfold startRequests
  split <;> split <;> simp [hg]

end Among

/-- A call of the second half. -/
def isRoleCall : Stmt → Bool
  | .setSupport _ _ | .setArtworkConfig _ | .setPlayerConfig _ => true
  | _ => false

/-- The calls of the second half, for a hub that is read as `c`. -/
structure RoleCalls (h : HubConfig) (c : Configuration) (l : List Stmt) : Prop where
  role : ∀ s ∈ l, isRoleCall s = true
  artwork : ∀ v, .setArtworkConfig v ∈ l ↔ c.artworkSupport = true ∧
    v = ⟨c.artworkPreferences.map imageSlotPreference, h.taskStackInPsram⟩
  player : ∀ v, .setPlayerConfig v ∈ l ↔ c.support .player = true ∧
    ∃ p, c.playerConfig = some p ∧ v = playerRoleConfig p

lemma among_roleCalls {β : Type*} {g : Stmt → Option β} {h : HubConfig} {c : Configuration}
    {l : List Stmt} (hl : RoleCalls h c l) (hg : ∀ s, isRoleCall s = true → g s = none) :
    l.filterMap g = [] := List.filterMap_eq_nil_iff.mpr fun s hs => hg s (hl.role s hs)

lemma mem_setArtworkConfig {h : HubConfig} {c : Configuration} {s : Stmt} :
    s ∈ setArtworkConfig h c ↔ c.artworkSupport = true ∧
      s = .setArtworkConfig
        ⟨c.artworkPreferences.map imageSlotPreference, h.taskStackInPsram⟩ := by
  unfold setArtworkConfig
  split
  · rename_i ha
    simp [ha]
  · rename_i ha
    simp [ha]

lemma setSupport_shape {d : ComponentData} {c : Configuration} {r : Role} {s : Stmt}
    (hs : s ∈ setSupport d c r) : ∃ v, s = .setSupport r v := by
  unfold setSupport at hs
  split at hs
  · exact ⟨_, List.mem_singleton.mp hs⟩
  · cases hs

lemma roleStmts_ok {d : ComponentData} {h : HubConfig} {c : Configuration}
    (hc : c.support .player = true → c.playerConfig.isSome = true) :
    ∃ l, roleStmts d h c = .ok l ∧ RoleCalls h c l := by
  obtain ⟨l, hl, hmem⟩ := setPlayerConfig_ok hc
  refine ⟨_, by rw [roleStmts, hl]; rfl, ?_, ?_, ?_⟩
  · intro s hs
    simp only [List.mem_append] at hs
    obtain ((((hs | hs) | hs) | hs) | hs) | hs := hs
    · obtain ⟨v, rfl⟩ := setSupport_shape hs; rfl
    · rw [(mem_setArtworkConfig.mp hs).2]; rfl
    · obtain ⟨v, rfl⟩ := setSupport_shape hs; rfl
    · obtain ⟨v, rfl⟩ := setSupport_shape hs; rfl
    · obtain ⟨v, rfl⟩ := setSupport_shape hs; rfl
    · obtain ⟨-, p, -, rfl⟩ := (hmem s).mp hs; rfl
  · intro v
    have hsup : ∀ r, .setArtworkConfig v ∉ setSupport d c r := fun r hs => by
      obtain ⟨_, hv⟩ := setSupport_shape hs
      cases hv
    simp [hsup, mem_setArtworkConfig, hmem]
  · intro v
    have hsup : ∀ r, .setPlayerConfig v ∉ setSupport d c r := fun r => player_notMem_setSupport
    simp [hsup, mem_setArtworkConfig, hmem]

/-! ### The code of every hub -/

/-- The calls on one hub, in order. -/
def calls (code : List (String × Stmt)) (h : String) : List Stmt :=
  code.filterMap fun x => if x.1 = h then some x.2 else none

lemma calls_append (code code' : List (String × Stmt)) (h : String) :
    calls (code ++ code') h = calls code h ++ calls code' h := List.filterMap_append

lemma calls_map_self (l : List Stmt) (h : String) : calls (l.map (h, ·)) h = l := by
  simp [calls, List.filterMap_map]

lemma calls_map_other (l : List Stmt) {h h' : String} (hne : h' ≠ h) :
    calls (l.map (h', ·)) h = [] := by
  simp [calls, List.filterMap_map, hne]

lemma toCode_ok {w : Output} {h : HubConfig} (hp : Playable cfg w.data h.id) :
    ∃ w' l, toCode cfg w h = .ok w' ∧ RoleCalls h (view cfg w.data h.id) l ∧
      w'.code = w.code ++ (firstCalls cfg h (view cfg w.data h.id) ++ l).map (h.id, ·) ∧
      SameView cfg w.data w'.data := by
  obtain ⟨hfirst, hsame⟩ := hubStmts_view cfg w.data h
  set d₁ : ComponentData := { (hubStmts cfg w.data h).2 with sdkconfigJobScheduled := true }
    with hd₁
  have hsame₁ : SameView cfg w.data d₁ := hsame.trans (sameView_of_hubs rfl)
  have hp₁ : Playable cfg d₁ h.id := playable_of_sameView hsame₁ hp
  obtain ⟨l, hl, hcalls⟩ := roleStmts_ok (d := { (d₁.getCodegenData cfg.hubs.length
    (some h.id)).2 with roleDefinesEmitted := true }) (h := h) hp₁
  refine ⟨_, l, by unfold toCode; exact congrArg (Except.map _) hl, ?_, ?_, ?_⟩
  · rw [← hsame₁ h.id]
    exact hcalls
  · change w.code ++ ((hubStmts cfg w.data h).1 ++ l).map (h.id, ·) = _
    rw [hfirst]
  · exact (hsame₁.trans (sameView_getCodegenData d₁ h.id)).trans (sameView_of_hubs rfl)

lemma foldlM_toCode_ok {order : List HubConfig} {w : Output} (hn : (order.map (·.id)).Nodup)
    (hp : ∀ h ∈ order, Playable cfg w.data h.id) :
    ∃ w', order.foldlM (toCode cfg) w = .ok w' ∧
      (∀ h ∈ order, ∃ l, RoleCalls h (view cfg w.data h.id) l ∧
        calls w'.code h.id = calls w.code h.id ++
          (firstCalls cfg h (view cfg w.data h.id) ++ l)) ∧
      ∀ id, id ∉ order.map (·.id) → calls w'.code id = calls w.code id := by
  induction order generalizing w with
  | nil => exact ⟨w, rfl, by simp, fun _ _ => rfl⟩
  | cons h order ih =>
    obtain ⟨hnot, hn'⟩ := List.nodup_cons.mp hn
    obtain ⟨w₁, l, hw₁, hl, hcode, hv⟩ := toCode_ok (hp h List.mem_cons_self)
    obtain ⟨w₂, hw₂, hin, hout⟩ := ih (w := w₁) hn' fun h' hm =>
      playable_of_sameView hv (hp h' (List.mem_cons_of_mem h hm))
    have hother : ∀ id, id ≠ h.id → calls w₁.code id = calls w.code id := fun id hid => by
      rw [hcode, calls_append, calls_map_other _ hid.symm, List.append_nil]
    refine ⟨w₂, foldlM_cons_ok.mpr ⟨w₁, hw₁, hw₂⟩, fun h' hm => ?_, fun id hid => ?_⟩
    · rcases List.mem_cons.mp hm with rfl | hm'
      · -- the hubs after it make no call on it
        refine ⟨l, hl, ?_⟩
        rw [hout _ hnot, hcode, calls_append, calls_map_self]
      · have hne : h'.id ≠ h.id := fun hc => hnot (List.mem_map.mpr ⟨h', hm', hc⟩)
        obtain ⟨l', hl', hcalls⟩ := hin h' hm'
        rw [hv h'.id] at hl' hcalls
        exact ⟨l', hl', by rw [hcalls, hother _ hne]⟩
    · obtain ⟨hne, hid'⟩ := List.ne_and_not_mem_of_not_mem_cons hid
      rw [hout id hid', hother id hne]

/-- **The code of every hub**: whatever order the hubs are generated in, the calls on a hub are
those of what its configuration is read as. -/
theorem generate_calls {d : ComponentData} {order : List HubConfig} (ho : order.Perm cfg.hubs)
    (hn : (ids cfg).Nodup) (hp : ∀ h ∈ cfg.hubs, Playable cfg d h.id) (core : Sdkconfig) :
    ∃ w, generate cfg d order core = .ok w ∧
      ∀ h ∈ cfg.hubs, ∃ l, RoleCalls h (view cfg d h.id) l ∧
        calls w.code h.id = firstCalls cfg h (view cfg d h.id) ++ l := by
  obtain ⟨w, hw, hcalls, -⟩ := @foldlM_toCode_ok cfg order ⟨d, [], [], [], core⟩
    ((ho.map _).nodup_iff.mpr hn) fun h hm => hp h (ho.mem_iff.mp hm)
  obtain ⟨w', hw', hcode, -⟩ := generate_ok hw
  refine ⟨w', hw', fun h hm => ?_⟩
  obtain ⟨l, hl, hc⟩ := hcalls h (ho.mem_iff.mpr hm)
  exact ⟨l, hl, by rw [hcode, hc]; rfl⟩

end SendspinMc.HubCode
