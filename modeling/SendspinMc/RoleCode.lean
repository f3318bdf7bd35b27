import SendspinMc.Roles

/-!
The generated roles.

Three consumers read the component data while it is still being merged: the setters of each
hub, the defines, which only the first hub emits, and the options that the last job
reconciles. All of them give what the entries ask for.
-/

namespace SendspinMc.RoleCode

open SendspinMc.Codegen SendspinMc.Roles

variable {cfg : Config} {events : List Event}

/-! ### The calls of one hub -/

/-- A setter of a role or of its player's configuration. -/
def ofRole : Stmt → Bool
  | .setSupport _ _ | .setPlayerConfig _ => true
  | _ => false

lemma deviceInfo_shape {h : HubConfig} {s : Stmt} (hs : s ∈ deviceInfo cfg h) :
    ∃ v, s = .setManufacturer v ∨ s = .setModel v ∨ s = .setFirmwareVersion v := by
  simp only [deviceInfo, List.mem_append, Option.mem_toList, Option.map_eq_some_iff] at hs
  obtain (⟨v, _, rfl⟩ | ⟨v, _, rfl⟩) | ⟨v, _, rfl⟩ := hs
  · exact ⟨v, .inl rfl⟩
  · exact ⟨v, .inr (.inl rfl)⟩
  · exact ⟨v, .inr (.inr rfl)⟩

lemma hubStmts_ofRole (d : ComponentData) (h : HubConfig) :
    ∀ s ∈ (hubStmts cfg d h).1, ofRole s = false := by
  have hinfo : ∀ s ∈ deviceInfo cfg h, ofRole s = false := by
    intro s hs
    obtain ⟨_, rfl | rfl | rfl⟩ := deviceInfo_shape hs <;> rfl
  have hstart : ∀ ts, ∀ s ∈ startRequests h ts, ofRole s = false := by
    intro ts s hs
    rw [startRequests, List.mem_append] at hs
    rcases hs with hs | hs <;> split at hs <;> simp at hs <;> rw [hs] <;> rfl
  intro s hs
  simp only [hubStmts, List.mem_append] at hs
  obtain (((((hs | hs) | hs) | hs) | hs) | hs) | hs := hs
  · simp at hs
    obtain rfl | rfl | rfl | rfl := hs <;> rfl
  · split at hs <;> simp at hs
    rw [hs]; rfl
  · exact hinfo s hs
  · simp at hs
    obtain ⟨_, _, rfl⟩ := hs
    rfl
  · exact hstart _ s hs
  · split at hs <;> simp at hs
    rw [hs]; rfl
  · split at hs <;> simp at hs
    rw [hs]; rfl

lemma hubStmts_inv {d : ComponentData} {h : HubConfig} (hi : Inv cfg (entries events) d)
    (hh : h.id ∈ ids cfg) :
    Inv cfg (entries events) (hubStmts cfg d h).2 ∧
      (hubStmts cfg d h).2.roleDefinesEmitted = d.roleDefinesEmitted := by
  have h₁ := hi.codegenData hh
  have hf₁ := (getCodegenData_flags d cfg.hubs.length (some h.id)).1
  simp only [hubStmts, offersDynamicPairingCode]
  split
  · exact ⟨h₁, hf₁⟩
  · exact ⟨h₁.codegenData hh, (getCodegenData_flags _ _ _).1.trans hf₁⟩

/-- The setters among the calls of a hub. -/
structure Setters (cfg : Config) (events : List Event) (h : String) (stmts : List Stmt) :
    Prop where
  support : ∀ r v, .setSupport r v ∈ stmts → (v = true ↔ Wanted cfg events h r)
  wanted : ∀ r, Wanted cfg events h r → .setSupport r true ∈ stmts
  config : ∀ c, .setPlayerConfig c ∈ stmts → ∃ p ∈ sources cfg events h, c = playerRoleConfig p
  player : ∀ p ∈ sources cfg events h,
    ∃ q ∈ sources cfg events h, .setPlayerConfig (playerRoleConfig q) ∈ stmts

lemma not_wanted_visualizer (h : String) : ¬ Wanted cfg events h .visualizer := by
  rintro ⟨e, _, _, hr⟩
  cases hc : e.child with
  | textSensor b => cases b <;> simp [hc, roles] at hr
  | _ => simp [hc, roles] at hr

lemma mem_setSupport {d : ComponentData} {c : Configuration} {r r' : Role} {v : Bool} :
    .setSupport r v ∈ setSupport d c r' ↔ r = r' ∧ v = c.support r' ∧ d.anySupport r' = true := by
  unfold setSupport
  split
  · rename_i h
    simp [h]
  · rename_i h
    simp [h]

lemma player_notMem_setSupport {d : ComponentData} {c : Configuration} {r : Role}
    {p : PlayerRoleConfig} : .setPlayerConfig p ∉ setSupport d c r := by
  unfold setSupport
  split <;> simp

lemma notMem_setArtworkConfig {h : HubConfig} {c : Configuration} {s : Stmt}
    (hs : ofRole s = true) : s ∉ setArtworkConfig h c := by
  intro hm
  unfold setArtworkConfig at hm
  split at hm <;> simp at hm
  subst hm
  cases hs

lemma setPlayerConfig_ok {c : Configuration}
    (hc : c.support .player = true → c.playerConfig.isSome = true) :
    ∃ l, setPlayerConfig c = .ok l ∧ ∀ s, s ∈ l ↔
      c.support .player = true ∧ ∃ p, c.playerConfig = some p ∧
        s = .setPlayerConfig (playerRoleConfig p) := by
  change c.playerSupport = true → _ at hc
  change ∃ l, setPlayerConfig c = .ok l ∧ ∀ s, s ∈ l ↔ c.playerSupport = true ∧ _
  unfold setPlayerConfig
  by_cases hp : c.playerSupport = true
  · obtain ⟨p, hcp⟩ := Option.isSome_iff_exists.mp (hc hp)
    exact ⟨[.setPlayerConfig (playerRoleConfig p)], by simp [hp, hcp], by simp [hp, hcp]⟩
  · exact ⟨[], by simp [hp], by simp [hp]⟩

lemma roleStmts_setters {d₀ d : ComponentData} {h : HubConfig} (ha : Accepted cfg events d₀)
    (hi : Inv cfg (entries events) d) (hh : h ∈ cfg.hubs) :
    ∃ stmts, roleStmts (d.getCodegenData cfg.hubs.length (some h.id)).2 h
        (d.getCodegenData cfg.hubs.length (some h.id)).1 = .ok stmts ∧
      Setters cfg events h.id stmts := by
  have hid : h.id ∈ ids cfg := List.mem_map_of_mem hh
  have hi' := hi.codegenData hid
  have hsup := hi.hub_support hid
  have hcfg : ∀ p, (d.getCodegenData cfg.hubs.length (some h.id)).1.playerConfig = some p →
      p ∈ sources cfg events h.id := fun p => hi.hub_config_mem hid
  have hconfigs : ∀ p ∈ sources cfg events h.id, ∃ q ∈ sources cfg events h.id,
      (d.getCodegenData cfg.hubs.length (some h.id)).1.playerConfig = some q :=
    fun p => hi.hub_config_some hid
  have hany := hi'.anySupport ha.resolves
  have hsome : (d.getCodegenData cfg.hubs.length (some h.id)).1.support .player = true →
      (d.getCodegenData cfg.hubs.length (some h.id)).1.playerConfig.isSome = true := by
    rw [getCodegenData_fst]
    exact (hi'.sound (some h.id)).player
  generalize (d.getCodegenData cfg.hubs.length (some h.id)).1 = c at *
  generalize (d.getCodegenData cfg.hubs.length (some h.id)).2 = d' at *
  obtain ⟨l, hl, hmem⟩ := setPlayerConfig_ok hsome
  refine ⟨setSupport d' c .artwork ++ setArtworkConfig h c ++ setSupport d' c .controller ++
      setSupport d' c .metadata ++ setSupport d' c .player ++ l, ?_, ?_, ?_, ?_, ?_⟩
  · rw [roleStmts, hl]
    rfl
  · intro r v hv
    simp only [List.mem_append, mem_setSupport, notMem_setArtworkConfig (s := .setSupport r v) rfl,
      hmem, or_false] at hv
    obtain (((⟨rfl, rfl, _⟩ | ⟨rfl, rfl, _⟩) | ⟨rfl, rfl, _⟩) | ⟨rfl, rfl, _⟩) | ⟨_, _, _, hc⟩ := hv
    · exact hsup _
    · exact hsup _
    · exact hsup _
    · exact hsup _
    · cases hc
  · intro r hw
    have hr : true = c.support r := ((hsup r).mpr hw).symm
    have hd : d'.anySupport r = true := (hany r).mpr ⟨h, hh, hw⟩
    have hin : .setSupport r true ∈ setSupport d' c r := mem_setSupport.mpr ⟨rfl, hr, hd⟩
    cases r with
    | visualizer => exact absurd hw (not_wanted_visualizer h.id)
    | _ => simp [hin]
  · intro c' hc
    simp only [List.mem_append, player_notMem_setSupport,
      notMem_setArtworkConfig (s := .setPlayerConfig c') rfl, hmem, false_or,
      Stmt.setPlayerConfig.injEq] at hc
    obtain ⟨_, p, hp, rfl⟩ := hc
    exact ⟨p, hcfg p hp, rfl⟩
  · intro p hp
    obtain ⟨q, hqs, hq⟩ := hconfigs p hp
    exact ⟨q, hqs, List.mem_append_right _ <| (hmem _).mpr
      ⟨(hsup .player).mpr (wanted_player_iff.mpr ⟨p, hp⟩), q, hq, rfl⟩⟩

/-! ### One hub after another -/

lemma name_inj {r r' : Role} (h : r.name = r'.name) : r = r' := by
  cases r <;> cases r' <;> first | rfl | exact absurd h (by decide)

lemma define_inj {r r' : Role} (h : r.define = r'.define) : r = r' :=
  name_inj ((String.append_right_inj _).mp h)

lemma mem_roleDefines {d : ComponentData} {r : Role} :
    r.define ∈ roleDefines d ↔ d.anySupport r = true := by
  rw [roleDefines, List.mem_map]
  constructor
  · rintro ⟨r', hr', heq⟩
    obtain rfl := define_inj heq
    exact (List.mem_filter.mp hr').2
  · intro hr
    refine ⟨r, List.mem_filter.mpr ⟨?_, hr⟩, rfl⟩
    cases r <;> simp [Role.all]

lemma mdns_ne_enableOption (name : String) :
    "CONFIG_MDNS_MULTIPLE_INSTANCE" ≠ enableOption name := by
  intro h
  have hl := congrArg String.toList h
  unfold enableOption at hl
  simp only [String.toList_append] at hl
  -- they part after CONFIG_
  have h7 := congrArg (fun l : List Char => l[7]?) hl
  simp at h7

lemma Setters.append {h : String} {first stmts : List Stmt}
    (hf : ∀ s ∈ first, ofRole s = false) (hs : Setters cfg events h stmts) :
    Setters cfg events h (first ++ stmts) := by
  have hmem : ∀ s, ofRole s = true → (s ∈ first ++ stmts ↔ s ∈ stmts) := by
    intro s hr
    rw [List.mem_append, or_iff_right]
    intro hm
    rw [hf s hm] at hr
    cases hr
  refine ⟨fun r v hv => ?_, fun r hw => ?_, fun c hc => ?_, fun p hp => ?_⟩
  · exact hs.support r v ((hmem _ rfl).mp hv)
  · exact (hmem _ rfl).mpr (hs.wanted r hw)
  · exact hs.config c ((hmem _ rfl).mp hc)
  · obtain ⟨q, hqs, hq⟩ := hs.player p hp
    exact ⟨q, hqs, (hmem _ rfl).mpr hq⟩

/-- What `to_code` of a hub adds. -/
structure Step (cfg : Config) (events : List Event) (h : HubConfig) (w w' : Output) : Prop where
  inv : Inv cfg (entries events) w'.data
  code : ∃ stmts, w'.code = w.code ++ stmts.map (h.id, ·) ∧ Setters cfg events h.id stmts
  defines : ∀ r, r.define ∈ w'.defines ↔
    r.define ∈ w.defines ∨ w.data.roleDefinesEmitted = false ∧ SomeWanted cfg events r
  emitted : w'.data.roleDefinesEmitted = true
  scheduled : w'.data.sdkconfigJobScheduled = true
  options : ∀ name, w'.sdkconfig (enableOption name) = w.sdkconfig (enableOption name)

lemma toCode_step {d₀ : ComponentData} {w : Output} {h : HubConfig}
    (ha : Accepted cfg events d₀) (hi : Inv cfg (entries events) w.data) (hh : h ∈ cfg.hubs) :
    ∃ w', toCode cfg w h = .ok w' ∧ Step cfg events h w w' := by
  have hid : h.id ∈ ids cfg := List.mem_map_of_mem hh
  obtain ⟨hi₁, he₁⟩ := hubStmts_inv hi hid
  have hfirst : ∀ s ∈ (hubStmts cfg w.data h).1, ofRole s = false := hubStmts_ofRole w.data h
  -- scheduling the last job changes no request
  set d₁ : ComponentData := { (hubStmts cfg w.data h).2 with sdkconfigJobScheduled := true }
    with hd₁
  have hi₂ : Inv cfg (entries events) d₁ := hi₁.of_hubs rfl
  obtain ⟨roles, hroles, hset⟩ := roleStmts_setters ha hi₂ hh
  obtain ⟨hemit, hsched⟩ := getCodegenData_flags d₁ cfg.hubs.length (some h.id)
  have hany := (hi₂.codegenData hid).anySupport ha.resolves
  set d₂ := (d₁.getCodegenData cfg.hubs.length (some h.id)).2 with hd₂
  refine ⟨_, by
    unfold toCode
    exact congrArg (Except.map _) hroles, ?_⟩
  refine ⟨(hi₂.codegenData hid).of_hubs rfl, ⟨_, rfl, hset.append hfirst⟩, ?_, rfl, hsched, ?_⟩
  · intro r
    have hd : d₂.roleDefinesEmitted = w.data.roleDefinesEmitted := hemit.trans he₁
    change r.define ∈ (if d₂.roleDefinesEmitted then w.defines else w.defines ++ roleDefines d₂) ↔ _
    rw [hd]
    cases w.data.roleDefinesEmitted
    · simp [mem_roleDefines, hany]
    · simp
  · intro name
    dsimp only
    split
    · exact Function.update_of_ne (mdns_ne_enableOption name).symm _ _
    · rfl

/-- What has been written after the code of the hubs `done`. -/
structure Written (cfg : Config) (events : List Event) (core : Sdkconfig)
    (done : List HubConfig) (w : Output) : Prop where
  inv : Inv cfg (entries events) w.data
  support : ∀ id r v, (id, .setSupport r v) ∈ w.code → (v = true ↔ Wanted cfg events id r)
  wanted : ∀ h ∈ done, ∀ r, Wanted cfg events h.id r → (h.id, .setSupport r true) ∈ w.code
  config : ∀ id c, (id, .setPlayerConfig c) ∈ w.code →
    ∃ p ∈ sources cfg events id, c = playerRoleConfig p
  player : ∀ h ∈ done, ∀ p ∈ sources cfg events h.id,
    ∃ q ∈ sources cfg events h.id, (h.id, .setPlayerConfig (playerRoleConfig q)) ∈ w.code
  defines : ∀ r, r.define ∈ w.defines ↔ done ≠ [] ∧ SomeWanted cfg events r
  emitted : w.data.roleDefinesEmitted = true ↔ done ≠ []
  scheduled : w.data.sdkconfigJobScheduled = true ↔ done ≠ []
  options : ∀ name, w.sdkconfig (enableOption name) = core (enableOption name)

lemma Written.step {core : Sdkconfig} {done : List HubConfig} {w w' : Output} {h : HubConfig}
    (hw : Written cfg events core done w) (hs : Step cfg events h w w') :
    Written cfg events core (done ++ [h]) w' := by
  obtain ⟨stmts, hcode, hset⟩ := hs.code
  have hmem : ∀ id s, (id, s) ∈ w'.code ↔ (id, s) ∈ w.code ∨ h.id = id ∧ s ∈ stmts := by
    intro id s
    rw [hcode, List.mem_append, List.mem_map]
    simp only [Prod.mk.injEq]
    constructor
    · rintro (hm | ⟨t, ht, rfl, rfl⟩)
      · exact .inl hm
      · exact .inr ⟨rfl, ht⟩
    · rintro (hm | ⟨hid, ht⟩)
      · exact .inl hm
      · exact .inr ⟨s, ht, hid, rfl⟩
  refine ⟨hs.inv, ?_, ?_, ?_, ?_, ?_, ?_, ?_, ?_⟩
  · intro id r v hv
    rcases (hmem _ _).mp hv with hold | ⟨rfl, hnew⟩
    · exact hw.support id r v hold
    · exact hset.support r v hnew
  · intro h' hm r hr
    rcases List.mem_append.mp hm with hm | hm
    · exact (hmem _ _).mpr (.inl (hw.wanted h' hm r hr))
    · obtain rfl := List.mem_singleton.mp hm
      exact (hmem _ _).mpr (.inr ⟨rfl, hset.wanted r hr⟩)
  · intro id c hc
    rcases (hmem _ _).mp hc with hold | ⟨rfl, hnew⟩
    · exact hw.config id c hold
    · exact hset.config c hnew
  · intro h' hm p hp
    rcases List.mem_append.mp hm with hm | hm
    · obtain ⟨q, hqs, hq⟩ := hw.player h' hm p hp
      exact ⟨q, hqs, (hmem _ _).mpr (.inl hq)⟩
    · obtain rfl := List.mem_singleton.mp hm
      obtain ⟨q, hqs, hq⟩ := hset.player p hp
      exact ⟨q, hqs, (hmem _ _).mpr (.inr ⟨rfl, hq⟩)⟩
  · intro r
    -- the first hub emits the defines of all
    rw [hs.defines, hw.defines, ← Bool.not_eq_true, hw.emitted]
    by_cases hd : done = [] <;> simp [hd]
  · simp [hs.emitted]
  · simp [hs.scheduled]
  · intro name
    rw [hs.options, hw.options]

theorem written_foldlM {core : Sdkconfig} {d₀ : ComponentData} {order done : List HubConfig}
    {w : Output} (ha : Accepted cfg events d₀) (ho : ∀ h ∈ order, h ∈ cfg.hubs)
    (hw : Written cfg events core done w) :
    ∃ w', order.foldlM (toCode cfg) w = .ok w' ∧
      Written cfg events core (done ++ order) w' := by
  induction order generalizing done w with
  | nil => exact ⟨w, rfl, by simpa using hw⟩
  | cons h order ih =>
    obtain ⟨w₁, h₁, hs⟩ := toCode_step ha hw.inv (ho h (by simp))
    obtain ⟨w₂, h₂, hw₂⟩ := ih (fun h' hm => ho h' (List.mem_cons_of_mem _ hm)) (hw.step hs)
    refine ⟨w₂, ?_, by simpa using hw₂⟩
    rw [List.foldlM_cons, h₁]
    exact h₂

lemma written_start {d : ComponentData} (ha : Accepted cfg events d) (core : Sdkconfig) :
    Written cfg events core [] ⟨d, [], [], [], core⟩ := by
  obtain ⟨hi, he, hs⟩ := inv_validate inv_empty ha.resolves ha.calls ha.valid
  refine ⟨hi, by simp, by simp, by simp, by simp, by simp, ?_, ?_, fun _ => rfl⟩
  · simp [he, ComponentData.empty]
  · simp [hs, ComponentData.empty]

/-! ### The last job -/

lemma enableOption_inj {a b : String} (h : enableOption a = enableOption b) : a = b :=
  (String.append_right_inj _).mp h

@[simp] lemma add_enableOption (s : Sdkconfig) (a b : String) (v : Bool) :
    s.add (enableOption a) v (enableOption b) = if b = a then some v else s (enableOption b) := by
  rw [Sdkconfig.add, Function.update_apply]
  by_cases h : b = a
  · rw [if_pos h, if_pos (congrArg enableOption h)]
  · rw [if_neg h, if_neg fun he => h (enableOption_inj he)]

lemma reconcile_of_notMem {core : Bool} {l : List (String × Bool)} {name : String}
    (s : Sdkconfig) (hn : name ∉ l.map (·.1)) :
    l.foldl (fun s (role, enabled) =>
      if enabled || !core then s.add (enableOption role) enabled else s) s (enableOption name) =
      s (enableOption name) := by
  induction l generalizing s with
  | nil => rfl
  | cons x l ih =>
    obtain ⟨role, enabled⟩ := x
    obtain ⟨hne, hl⟩ := List.ne_and_not_mem_of_not_mem_cons hn
    rw [List.foldl_cons, ih _ hl]
    dsimp only
    split
    · rw [add_enableOption, if_neg hne]
    · rfl

lemma reconcile_of_mem {core : Bool} {l : List (String × Bool)} {name : String} {b : Bool}
    (s : Sdkconfig) (hn : (l.map (·.1)).Nodup) (hm : (name, b) ∈ l) :
    l.foldl (fun s (role, enabled) =>
      if enabled || !core then s.add (enableOption role) enabled else s) s (enableOption name) =
      if b || !core then some b else s (enableOption name) := by
  induction l generalizing s with
  | nil => cases hm
  | cons x l ih =>
    obtain ⟨role, enabled⟩ := x
    obtain ⟨hx, hl⟩ := List.nodup_cons.mp hn
    rw [List.foldl_cons]
    rcases List.mem_cons.mp hm with heq | hml
    · obtain ⟨rfl, rfl⟩ := Prod.mk.inj heq
      rw [reconcile_of_notMem _ hx]
      dsimp only
      split
      · rw [add_enableOption, if_pos rfl]
      · rfl
    · have hne : name ≠ role := by
        rintro rfl
        exact hx (List.mem_map.mpr ⟨_, hml, rfl⟩)
      rw [ih _ hl hml]
      dsimp only
      split
      · rfl
      · split
        · rw [add_enableOption, if_neg hne]
        · rfl

lemma finalizeSdkconfig_get {d : ComponentData} {name : String} {b : Bool} (s : Sdkconfig)
    (hm : (name, b) ∈ d.requested) :
    finalizeSdkconfig cfg d s (enableOption name) =
      if b || !cfg.coreSendspin then some b else s (enableOption name) := by
  have hnames : d.requested.map (·.1) =
      ["ARTWORK", "CONTROLLER", "METADATA", "PLAYER", "VISUALIZER", "OPUS"] := rfl
  have hn : (d.requested.map (·.1)).Nodup := by
    rw [hnames]
    decide
  have hin : name ∈ d.requested.map (·.1) := List.mem_map_of_mem hm
  have hcolor : name ≠ "COLOR" := by
    rintro rfl
    rw [hnames] at hin
    exact absurd hin (by decide)
  have hsource : name ≠ "SOURCE" := by
    rintro rfl
    rw [hnames] at hin
    exact absurd hin (by decide)
  unfold finalizeSdkconfig
  dsimp only
  split
  · rw [add_enableOption, if_neg hsource, add_enableOption, if_neg hcolor]
    exact reconcile_of_mem s hn hm
  · exact reconcile_of_mem s hn hm

/-- A shared flag: on if it is needed, otherwise off, or what core made of it if core is
there. -/
def Shared (cfg : Config) (core s : Sdkconfig) (name : String) (needed : Prop) : Prop :=
  (needed → s (enableOption name) = some true) ∧
    (¬ needed → s (enableOption name) =
      if cfg.coreSendspin then core (enableOption name) else some false)

lemma shared_finalize {d : ComponentData} {core s : Sdkconfig} {name : String} {b : Bool}
    {needed : Prop} (hs : s (enableOption name) = core (enableOption name))
    (hm : (name, b) ∈ d.requested) (hb : b = true ↔ needed) :
    Shared cfg core (finalizeSdkconfig cfg d s) name needed := by
  have hget : finalizeSdkconfig cfg d s (enableOption name) =
      if b || !cfg.coreSendspin then some b else s (enableOption name) := finalizeSdkconfig_get s hm
  constructor
  · intro hn
    rw [hget, hb.mpr hn]
    rfl
  · intro hn
    have hf : b = false := Bool.not_eq_true _ ▸ fun h => hn (hb.mp h)
    rw [hget, hf, hs]
    cases cfg.coreSendspin <;> rfl

lemma generate_ok {d : ComponentData} {order : List HubConfig} {core : Sdkconfig} {w : Output}
    (hw : order.foldlM (toCode cfg) ⟨d, [], [], [], core⟩ = .ok w) :
    ∃ w', generate cfg d order core = .ok w' ∧ w'.code = w.code ∧ w'.defines = w.defines ∧
      (w.data.sdkconfigJobScheduled = true →
        w'.sdkconfig = finalizeSdkconfig cfg w.data w.sdkconfig) := by
  refine ⟨_, by rw [generate, hw]; rfl, ?_⟩
  dsimp only
  split
  · exact ⟨rfl, rfl, fun _ => rfl⟩
  · rename_i hs
    exact ⟨rfl, rfl, fun h => absurd h hs⟩

/-! ### What each hub ends with -/

/-- What the setters of a role give a hub, in order. -/
def setters (code : List (String × Stmt)) (h : String) (r : Role) : List Bool :=
  code.filterMap fun
    | (id, .setSupport r' v) => if id = h ∧ r' = r then some v else none
    | _ => none

/-- The flag of a role on a hub: what the last setter gave, off if there is none. -/
def flag (code : List (String × Stmt)) (h : String) (r : Role) : Bool :=
  (setters code h r).getLast?.getD false

lemma mem_setters {code : List (String × Stmt)} {h : String} {r : Role} {v : Bool} :
    v ∈ setters code h r ↔ (h, .setSupport r v) ∈ code := by
  rw [setters, List.mem_filterMap]
  constructor
  · rintro ⟨⟨id, s⟩, hm, hv⟩
    split at hv
    · rename_i heq
      obtain ⟨rfl, rfl⟩ := Prod.mk.inj heq
      split at hv
      · rename_i hc
        obtain ⟨rfl, rfl⟩ := hc
        obtain rfl := Option.some.inj hv
        exact hm
      · cases hv
    · cases hv
  · intro hm
    exact ⟨_, hm, by simp⟩

lemma flag_iff {code : List (String × Stmt)} {h : String} {r : Role} {p : Prop}
    (hs : ∀ v, (h, .setSupport r v) ∈ code → (v = true ↔ p))
    (hp : p → (h, .setSupport r true) ∈ code) : flag code h r = true ↔ p := by
  unfold flag
  cases hl : (setters code h r).getLast? with
  | none =>
    have hnil := List.getLast?_eq_none_iff.mp hl
    constructor
    · intro hf
      cases hf
    · intro h'
      have hm := mem_setters.mpr (hp h')
      rw [hnil] at hm
      cases hm
  | some v => exact hs v (mem_setters.mp (List.mem_of_getLast? hl))

/-- **The generated roles are those asked for**: in every accepted configuration, whatever the
order of the hubs, code is generated. A hub has a role exactly when one of its entries asks for
it, and a player has the configuration of a media source of the hub; a define is there exactly
when some hub has the role; and the shared options are reconciled with those of core. -/
theorem roles_as_requested {d : ComponentData} {order : List HubConfig}
    (ha : Accepted cfg events d) (ho : order.Perm cfg.hubs) (core : Sdkconfig) :
    ∃ w, generate cfg d order core = .ok w ∧
      (∀ h ∈ cfg.hubs, ∀ r, flag w.code h.id r = true ↔ Wanted cfg events h.id r) ∧
      (∀ h ∈ cfg.hubs, flag w.code h.id .player = true →
        ∃ p ∈ sources cfg events h.id, (h.id, .setPlayerConfig (playerRoleConfig p)) ∈ w.code) ∧
      (∀ r, r.define ∈ w.defines ↔ SomeWanted cfg events r) ∧
      (cfg.hubs ≠ [] →
        (∀ r, Shared cfg core w.sdkconfig r.name (SomeWanted cfg events r)) ∧
        Shared cfg core w.sdkconfig "OPUS"
          (∃ h ∈ cfg.hubs, ∃ p ∈ sources cfg events h.id, .opus ∈ p.codecs)) := by
  obtain ⟨w, hw, hwr⟩ :=
    written_foldlM ha (fun h hm => ho.mem_iff.mp hm) (written_start ha core)
  rw [List.nil_append] at hwr
  have hdone : order ≠ [] ↔ cfg.hubs ≠ [] := by
    rw [ne_eq, ne_eq, ← List.length_eq_zero_iff, ← List.length_eq_zero_iff, ho.length_eq]
  have hflag : ∀ h ∈ cfg.hubs, ∀ r, flag w.code h.id r = true ↔ Wanted cfg events h.id r :=
    fun h hm r => flag_iff (hwr.support h.id r) (hwr.wanted h (ho.mem_iff.mpr hm) r)
  obtain ⟨w', hw', hc, hd, hs⟩ := generate_ok hw
  refine ⟨w', hw', ?_⟩
  rw [hc, hd]
  refine ⟨hflag, ?_, ?_, ?_⟩
  · intro h hm hf
    obtain ⟨p, hp⟩ := wanted_player_iff.mp ((hflag h hm .player).mp hf)
    exact hwr.player h (ho.mem_iff.mpr hm) p hp
  · intro r
    rw [hwr.defines, hdone]
    refine and_iff_right_of_imp ?_
    rintro ⟨h, hm, _⟩
    exact List.ne_nil_of_mem hm
  · intro hne
    rw [hs (hwr.scheduled.mpr (hdone.mpr hne))]
    constructor
    · intro r
      refine shared_finalize (hwr.options _) ?_ (hwr.inv.anySupport ha.resolves r)
      rw [ComponentData.requested]
      refine List.mem_append_left _ (List.mem_map.mpr ⟨r, ?_, rfl⟩)
      cases r <;> simp [Role.all]
    · refine shared_finalize (hwr.options _) ?_
        ((hwr.inv.anyConfig ha.resolves fun p => p.codecs.contains .opus).trans ?_)
      · exact List.mem_append_right _ (List.mem_singleton_self _)
      · simp

/-- A hub whose entries leave their parent out, but for the sensor. -/
def implicitParent : Config where
  hubs := [⟨"hub", "sendspin-mc-implicit", "Sendspin MC Implicit", 8931, 32771, "v0.7.0", false,
    none, none, none, none, none, false⟩]
  coreSendspin := true
  project := ⟨none, none⟩
  mdnsEnableDisable := true

def opusSource : PlayerConfig := ⟨[.opus, .pcm], 48000, 1000000, 0, 0, false, none⟩

/-- The implicit requests are merged into the hub between its entries. -/
def implicitEvents : List Event :=
  [.entry ⟨none, .mediaSource opusSource⟩, .codegenData "hub", .entry ⟨some "hub", .sensor⟩,
    .entry ⟨none, .mediaPlayer⟩]

def implicitData : ComponentData :=
  (implicitParent.validate .empty implicitEvents).toOption.getD .empty

lemma implicit_accepted : Accepted implicitParent implicitEvents implicitData := by
  exact ⟨by decide, by simp [implicitEvents, ids, implicitParent], by rfl⟩

theorem roles_as_requested_implicit :
    ∃ w, generate implicitParent implicitData implicitParent.hubs (fun _ => none) = .ok w ∧
      flag w.code "hub" .player = true ∧ flag w.code "hub" .artwork = false ∧
      Role.metadata.define ∈ w.defines ∧ Role.artwork.define ∉ w.defines ∧
      w.sdkconfig (enableOption "OPUS") = some true ∧
      w.sdkconfig (enableOption "ARTWORK") = none := by
  obtain ⟨w, hw, hf, -, hd, hs⟩ :=
    roles_as_requested implicit_accepted (List.Perm.refl _) fun _ => none
  obtain ⟨hr, ho⟩ := hs (List.cons_ne_nil _ _)
  have hhub := hf _ (List.head_mem (List.cons_ne_nil _ _))
  refine ⟨w, hw, (hhub .player).mpr (by decide), ?_, (hd .metadata).mpr (by decide), ?_, ?_, ?_⟩
  · exact Bool.eq_false_iff.mpr fun h => absurd ((hhub .artwork).mp h) (by decide)
  · exact fun h => absurd ((hd .artwork).mp h) (by decide)
  · exact ho.1 (by decide)
  · exact (hr .artwork).2 (by decide)

end SendspinMc.RoleCode
