import SendspinMc.FinalValidation

/-!
Hubs that collide.

The hubs share a library, a network interface and an mDNS responder. Only the validation of the
first hub looks for what they may not have in common, and it finds exactly that.
-/

namespace SendspinMc.Collisions

open SendspinMc.Codegen SendspinMc.Roles SendspinMc.HubView SendspinMc.ClientIds
open SendspinMc.FinalValidation SendspinMc.Lib.Checks

variable {casefold : String → String} {full : FullConfig}

/-! ### The checks of all hubs -/

lemma checkRefs_ok {hubs : List HubConfig} :
    checkRefs hubs = .ok () ↔ ∃ ref, ∀ h ∈ hubs, h.sendspinCppRef = ref := by
  have hmem : ∀ ref, ref ∈ (hubs.map (·.sendspinCppRef)).dedup ↔
      ∃ h ∈ hubs, h.sendspinCppRef = ref := fun ref => by
    rw [List.mem_dedup, List.mem_map]
  have hnd := List.nodup_dedup (hubs.map (·.sendspinCppRef))
  unfold checkRefs
  generalize (hubs.map (·.sendspinCppRef)).dedup = refs at hmem hnd
  dsimp only
  match refs with
  | [] =>
    refine iff_of_true rfl ⟨"", fun h hh => ?_⟩
    cases (hmem h.sendspinCppRef).mpr ⟨h, hh, rfl⟩
  | [ref] =>
    refine iff_of_true rfl ⟨ref, fun h hh => ?_⟩
    exact List.mem_singleton.mp ((hmem h.sendspinCppRef).mpr ⟨h, hh, rfl⟩)
  | ref :: ref' :: refs =>
    refine iff_of_false (by simp) ?_
    rintro ⟨r, hr⟩
    obtain ⟨h, hh, he⟩ := (hmem ref).mp (by simp)
    obtain ⟨h', hh', he'⟩ := (hmem ref').mp (by simp)
    have heq : ref = ref' := by rw [← he, ← he', hr h hh, hr h' hh']
    simp [heq] at hnd

lemma claims_checkPort (name : String) :
    Claims (checkPort name) (fun x => [x.2]) fun used port => (used port).isSome = true := by
  constructor
  · intro used x
    unfold checkPort
    cases hx : used x.2 <;> simp [hx]
  · intro used x used' h port
    unfold checkPort at h
    cases hx : used x.2 with
    | some owner => simp [hx] at h
    | none =>
      rw [hx] at h
      obtain rfl := Except.ok.inj h
      by_cases hp : port = x.2 <;> simp [hp]

/-- The ports of all hubs. -/
def allPorts (hubs : List HubConfig) : List ℕ :=
  hubs.flatMap fun h => [h.serverPort, h.controlPort]

lemma checkPorts_ok {used : ℕ → Option Owner} {hubs : List HubConfig} :
    (∃ used', hubs.foldlM checkPorts used = .ok used') ↔
      (allPorts hubs).Nodup ∧ ∀ port ∈ allPorts hubs, used port = none := by
  have hhub : Claims checkPorts (fun h => [h.serverPort, h.controlPort])
      fun used port => (used port).isSome = true :=
    ⟨fun used h => (claims_checkPort h.clientName).foldlM.passes used (ports h),
      fun used h => (claims_checkPort h.clientName).foldlM.holds used (ports h)⟩
  refine (hhub.foldlM.passes used hubs).trans (and_congr_right fun _ => ?_)
  refine forall₂_congr fun port _ => ?_
  rw [Bool.not_eq_true, Option.isSome_eq_false_iff, Option.isNone_iff_eq_none]

lemma corePorts_none {port : ℕ} : corePorts port = none ↔ port ≠ 8928 ∧ port ≠ 32769 := by
  unfold corePorts
  split <;> simp_all

/-- A hub has what core sendspin has. -/
def MeetsCore (casefold : String → String) (full : FullConfig) : Prop :=
  (∃ h ∈ full.config.hubs, casefold h.clientName = casefold full.deviceName) ∨
    ∃ port ∈ allPorts full.config.hubs, port = 8928 ∨ port = 32769

/-- The hubs do not share one ref, share an id, a name up to case or a port, or collide with core
sendspin. -/
def Collides (casefold : String → String) (full : FullConfig) : Prop :=
  (¬ ∃ ref, ∀ h ∈ full.config.hubs, h.sendspinCppRef = ref) ∨
    ¬ (full.config.hubs.map (·.clientId)).Nodup ∨
    ¬ (full.config.hubs.map fun h => casefold h.clientName).Nodup ∨
    ¬ (allPorts full.config.hubs).Nodup ∨
    full.config.coreSendspin = true ∧ MeetsCore casefold full

lemma checkMdnsInstance_ok {deviceName : String} {hubs : List HubConfig} :
    hubs.foldlM (checkMdnsInstance casefold deviceName) () = .ok () ↔
      ∀ h ∈ hubs, casefold h.clientName ≠ casefold deviceName := by
  have hall : (∃ t, hubs.foldlM (checkMdnsInstance casefold deviceName) () = .ok t) ↔
      ∀ h ∈ hubs, casefold h.clientName ≠ casefold deviceName :=
    foldlM_isOk_iff (P := fun _ => True) (fun _ _ _ _ _ _ => trivial) (fun s h _ _ => ?_) trivial
  · rw [← hall]
    exact ⟨fun h => ⟨(), h⟩, fun ⟨(), h⟩ => h⟩
  · unfold checkMdnsInstance
    by_cases hc : casefold h.clientName = casefold deviceName <;> simp [hc]

lemma checkCore_ok :
    (∃ used, checkCore casefold full = .ok used ∧
      ∃ used', full.config.hubs.foldlM checkPorts used = .ok used') ↔
      (allPorts full.config.hubs).Nodup ∧
        ¬ (full.config.coreSendspin = true ∧ MeetsCore casefold full) := by
  unfold checkCore MeetsCore
  by_cases hc : full.config.coreSendspin = true
  · rw [if_pos hc]
    simp only [map_ok, hc, true_and, not_or, not_exists, not_and]
    constructor
    · rintro ⟨used, ⟨⟨⟩, hm, rfl⟩, hp⟩
      obtain ⟨hn, hfree⟩ := checkPorts_ok.mp hp
      exact ⟨hn, checkMdnsInstance_ok.mp hm, fun p hp => corePorts_none.mp (hfree p hp)⟩
    · rintro ⟨hn, hm, hfree⟩
      refine ⟨corePorts, ⟨(), checkMdnsInstance_ok.mpr hm, rfl⟩, checkPorts_ok.mpr ⟨hn, ?_⟩⟩
      exact fun p hp => corePorts_none.mpr (hfree p hp)
  · rw [if_neg hc]
    simp [hc, checkPorts_ok]

lemma checkHubs_iff :
    checkHubs casefold full = .ok () ↔
      checkRefs full.config.hubs = .ok () ∧
        checkUnique "client ID" id [] (full.config.hubs.map (·.clientId)) = .ok () ∧
        checkUnique "client name" casefold [] (full.config.hubs.map (·.clientName)) = .ok () ∧
        ∃ used, checkCore casefold full = .ok used ∧
          ∃ used', full.config.hubs.foldlM checkPorts used = .ok used' := by
  unfold checkHubs
  simp only [bind_ok, mapError_ok, map_ok]
  constructor
  · rintro ⟨⟨⟩, hrefs, ⟨⟩, hids, ⟨⟩, hnames, used, hcore, used', hports, -⟩
    exact ⟨hrefs, hids, hnames, used, hcore, used', hports⟩
  · rintro ⟨hrefs, hids, hnames, used, hcore, used', hports⟩
    exact ⟨(), hrefs, (), hids, (), hnames, used, hcore, used', hports, trivial⟩

theorem checkHubs_ok : checkHubs casefold full = .ok () ↔ ¬ Collides casefold full := by
  have hids := @checkUnique_ok "client ID" id [] (full.config.hubs.map (·.clientId))
  have hnames := @checkUnique_ok "client name" casefold [] (full.config.hubs.map (·.clientName))
  simp only [List.map_map, List.not_mem_nil, not_false_eq_true, implies_true, and_true]
    at hids hnames
  rw [checkHubs_iff, checkRefs_ok, hids, hnames, checkCore_ok]
  simp only [Collides, not_or, not_not]
  rfl

/-! ### Every order -/

/-- The configuration with its hubs in another order. -/
def reorder (full : FullConfig) (hubs : List HubConfig) : FullConfig :=
  { full with config := { full.config with hubs := hubs } }

lemma collides_reorder {hubs : List HubConfig} (hp : hubs.Perm full.config.hubs) :
    Collides casefold (reorder full hubs) ↔ Collides casefold full := by
  have hmem : ∀ h, h ∈ hubs ↔ h ∈ full.config.hubs := fun h => hp.mem_iff
  have hports : (allPorts hubs).Perm (allPorts full.config.hubs) := hp.flatMap_right _
  have hpm : ∀ port, port ∈ allPorts hubs ↔ port ∈ allPorts full.config.hubs :=
    fun port => hports.mem_iff
  simp only [Collides, MeetsCore, reorder, hmem, hpm, (hp.map _).nodup_iff, hports.nodup_iff]

lemma bothMethods_reorder {hubs : List HubConfig} (hp : hubs.Perm full.config.hubs)
    (d : ComponentData) (h : HubConfig) :
    bothMethods (reorder full hubs).config d h = bothMethods full.config d h := by
  have hview : view (reorder full hubs).config d h.id = view full.config d h.id := by
    rw [view_eq, view_eq]
    change (if hubs.length = 1 then _ else _) = _
    rw [hp.length_eq]
  rw [bothMethods, bothMethods, hview]

lemma finalValidate_fails {d : ComponentData} {order : List HubConfig}
    (ho : order.Perm full.config.hubs)
    (hone : ∀ h ∈ full.config.hubs, bothMethods full.config d h = false) :
    (∃ e, order.foldlM (finalValidate casefold full) d = .error e) ↔ Collides casefold full := by
  have hall : (∃ t, order.foldlM (finalValidate casefold full) d = .ok t) ↔
      ∀ h ∈ order, full.config.hubs.head?.map (·.id) = some h.id →
        checkHubs casefold full = .ok () :=
    foldlM_isOk_iff (P := SameView full.config d) (fun u h t hm hu ht => ?_)
      (fun u h hm hu => ?_) (.refl d)
  · rw [isError_iff, hall, checkHubs_ok]
    cases hhubs : full.config.hubs with
    | nil =>
      have hnil : order = [] := List.perm_nil.mp (hhubs ▸ ho)
      simp [hnil, Collides, MeetsCore, allPorts, hhubs]
    | cons h hubs =>
      -- the first hub is validated at some point of the order
      have hh : h ∈ order := ho.mem_iff.mpr (hhubs ▸ List.mem_cons_self)
      rw [not_iff_comm]
      exact ⟨fun hc h' _ _ => hc, fun hc => hc h hh rfl⟩
  · have hid : h.id ∈ ids full.config := List.mem_map_of_mem (ho.mem_iff.mp hm)
    exact hu.trans (sameView_of_leads ((finalValidate_ok ht).2.2 hid))
  · refine finalValidate_passes ?_
    rw [bothMethods, hu h.id]
    exact hone h (ho.mem_iff.mp hm)

/-- **Collisions are found, all of them and no others**: with at most one pairing method on every
hub, the final validation of the hubs fails exactly when they collide, whatever order it runs in
and whatever order they are listed in. -/
theorem collisions_exact {d : ComponentData} {order hubs : List HubConfig}
    (hone : ∀ h ∈ full.config.hubs, bothMethods full.config d h = false)
    (ho : order.Perm full.config.hubs) (hp : hubs.Perm full.config.hubs) :
    ((∃ e, order.foldlM (finalValidate casefold full) d = .error e) ↔ Collides casefold full) ∧
      ((∃ e, hubs.foldlM (finalValidate casefold (reorder full hubs)) d = .error e) ↔
        ∃ e, full.config.hubs.foldlM (finalValidate casefold full) d = .error e) := by
  refine ⟨finalValidate_fails ho hone, ?_⟩
  rw [finalValidate_fails (List.Perm.refl _) hone, ← collides_reorder hp]
  refine @finalValidate_fails casefold (reorder full hubs) d hubs (.refl _) fun h hm => ?_
  rw [bothMethods_reorder hp]
  exact hone h (hp.mem_iff.mp hm)

def porch : HubConfig :=
  ⟨"porch", "porch-client", "Porch", 8931, 32771, "0.9.3", false, none, none, none, none, none,
    false⟩

/-- A hub whose control port is the porch's server port. -/
def cellar : HubConfig :=
  ⟨"cellar", "cellar-client", "Cellar", 8932, 8931, "0.9.3", false, none, none, none,
    some "01234567", none, false⟩

def crossedPorts : FullConfig where
  config :=
    { hubs := [porch, cellar], coreSendspin := false, project := ⟨none, none⟩
      mdnsEnableDisable := false }
  deviceName := "house"
  entries := []

theorem collisions_exact_crossed :
    (∃ e, [cellar, porch].foldlM (finalValidate String.toLower crossedPorts) .empty = .error e) ∧
      ∃ e, [cellar, porch].foldlM
        (finalValidate String.toLower (reorder crossedPorts [cellar, porch])) .empty = .error e := by
  have hp : [cellar, porch].Perm crossedPorts.config.hubs := List.Perm.swap _ _ _
  have hone : ∀ h ∈ crossedPorts.config.hubs,
      bothMethods crossedPorts.config .empty h = false := by decide
  have hc : Collides String.toLower crossedPorts := .inr (.inr (.inr (.inl (by decide))))
  obtain ⟨hfails, hsame⟩ := @collisions_exact String.toLower _ _ _ _ hone hp hp
  refine ⟨hfails.mpr hc, hsame.mpr ?_⟩
  exact (collisions_exact hone (List.Perm.refl _) hp).1.mpr hc

end SendspinMc.Collisions
