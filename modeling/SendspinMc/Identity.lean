import SendspinMc.Collisions
import SendspinMc.PairingCode
import Mathlib.Tactic.FinCases
import Mathlib.Tactic.IntervalCases

/-!
What a hub tells its server of itself, and where it listens.

The values go from the configuration through generated literals into fields that have defaults of
their own, and from there into the client's configuration. The schema keeps out what would not
arrive as it is written: empty strings, which would hide a default, and ports that do not fit. The
texts here have no NUL in them, where a literal would end.
-/

namespace SendspinMc.Identity

open SendspinMc.Codegen SendspinMc.HubCode
open SendspinMc.HubFields SendspinMc.FinalValidation SendspinMc.Collisions SendspinMc.PairingCode
open SendspinMc.Lib.Writes

/-! ### The schema -/

/-- `_validate_mdns_instance_name`. -/
def validateMdnsInstanceName (value : String) : Except ClientIds.Invalid String :=
  if value = "" then .error (.text "sendspin_mc client_name must not be empty")
  else if 63 < value.utf8ByteSize then
    .error (.text "sendspin_mc client_name must be at most 63 UTF-8 bytes")
  else .ok value

/-- `DEVICE_INFO_STRING`. -/
def deviceInfoString (value : String) : Bool :=
  decide (1 ≤ value.toList.length) && decide (value.utf8ByteSize ≤ 127)

/-- What ESPHome documents of `cv.port`: it passes nothing that is too large for a port. -/
def PassesPorts (port : ℕ → Bool) : Prop := ∀ n, port n = true → n ≤ 65535

/-- The schema of a hub, as far as its server is told of it, by what `cv.port` passes. -/
structure Schema (port : ℕ → Bool) (h : HubConfig) : Prop where
  clientName : validateMdnsInstanceName h.clientName = .ok h.clientName
  serverPort : port h.serverPort = true
  controlPort : port h.controlPort = true
  manufacturer : ∀ v ∈ h.manufacturer, deviceInfoString v = true
  model : ∀ v ∈ h.model, deviceInfoString v = true
  firmwareVersion : ∀ v ∈ h.firmwareVersion, deviceInfoString v = true

lemma ne_empty_of_deviceInfoString {v : String} (h : deviceInfoString v = true) : v ≠ "" := by
  rintro rfl
  cases h

lemma PassesPorts.toNat {port : ℕ → Bool} (hport : PassesPorts port) {n : ℕ}
    (h : port n = true) : (UInt16.ofNat n).toNat = n :=
  UInt16.toNat_ofNat_of_lt' (Nat.lt_succ_of_le (hport n h))

/-! ### The details of a hub -/

/-- A field of a hub that only its details set. -/
structure Field (β : Type) where
  get : Hub → β
  call : Stmt → Option β
  sets : Sets Hub.set get call
  detail : ∀ s, isDetail s = false → call s = none

def clientId : Field String where
  get := Hub.clientId
  call
    | .setClientId v => some v
    | _ => none
  sets h s := by cases s <;> rfl
  detail s hs := by cases s <;> first | rfl | cases hs

def clientName : Field String where
  get := Hub.clientName
  call
    | .setClientName v => some v
    | _ => none
  sets h s := by cases s <;> rfl
  detail s hs := by cases s <;> first | rfl | cases hs

def serverPort : Field UInt16 where
  get := Hub.serverPort
  call
    | .setServerPort v => some (.ofNat v)
    | _ => none
  sets h s := by cases s <;> rfl
  detail s hs := by cases s <;> first | rfl | cases hs

def controlPort : Field UInt16 where
  get := Hub.controlPort
  call
    | .setControlPort v => some (.ofNat v)
    | _ => none
  sets h s := by cases s <;> rfl
  detail s hs := by cases s <;> first | rfl | cases hs

def manufacturer : Field String where
  get := Hub.manufacturer
  call
    | .setManufacturer v => some v
    | _ => none
  sets h s := by cases s <;> rfl
  detail s hs := by cases s <;> first | rfl | cases hs

def model : Field (Option String) where
  get := Hub.model
  call
    | .setModel v => some (some v)
    | _ => none
  sets h s := by cases s <;> rfl
  detail s hs := by cases s <;> first | rfl | cases hs

def firmwareVersion : Field String where
  get := Hub.firmwareVersion
  call
    | .setFirmwareVersion v => some v
    | _ => none
  sets h s := by cases s <;> rfl
  detail s hs := by cases s <;> first | rfl | cases hs

variable {cfg : Config} {h : HubConfig} {c : Configuration} {l : List Stmt} {port : ℕ → Bool}

lemma Field.get_eq {β : Type} (f : Field β) (hl : RoleCalls h c l) (p : Platform) :
    f.get ((firstCalls cfg h c ++ l).foldl Hub.set (.new p)) =
      ([.setClientId h.clientId, .setClientName h.clientName, .setServerPort h.serverPort,
          .setControlPort h.controlPort].filterMap f.call ++
        (deviceInfo cfg h).filterMap f.call).getLast?.getD (f.get (.new p)) := by
  have hrole : l.filterMap f.call = [] :=
    among_roleCalls hl fun s hs => f.detail s (by cases s <;> first | rfl | cases hs)
  have hstart : (startRequests h c.switchTypes).filterMap f.call = [] :=
    among_startRequests (fun _ => ⟨f.detail _ rfl, f.detail _ rfl⟩) h _
  have hnone : ∀ s, isDetail s = false → (f.call s).toList = [] := fun s hs => by
    rw [f.detail s hs]
    rfl
  rw [f.sets.foldl, List.filterMap_append, hrole, List.append_nil]
  simp only [firstCalls, List.filterMap_append, among_optional, among_map, hstart,
    hnone (.setTaskStackInPsram true) rfl, hnone (.setPairingCodeDisplaySupported true) rfl,
    hnone .setMdns rfl, f.detail (.setStaticPairingCode _) rfl, ite_self, Option.bind_fun_none,
    Option.toList_none, List.append_nil]

/-- What is configured, or what the project says, unless that is empty. -/
def orProject (v project : Option String) : Option String :=
  v.orElse fun _ => project.filter (· ≠ "")

lemma orElse_eq {v : Option String} (hv : ∀ s ∈ v, deviceInfoString s = true)
    (project : Option String) : orElse v project = orProject v project := by
  cases v with
  | none => rfl
  | some s =>
    have hs : s ≠ "" := ne_empty_of_deviceInfoString (hv s rfl)
    simp [orElse, orProject, hs]

lemma orProject_getD_ne {v : Option String} (hv : ∀ s ∈ v, deviceInfoString s = true)
    (project : Option String) {fallback : String} (hf : fallback ≠ "") :
    (orProject v project).getD fallback ≠ "" := by
  cases v with
  | some s => exact ne_empty_of_deviceInfoString (hv s rfl)
  | none =>
    change (project.filter (· ≠ "")).getD fallback ≠ ""
    cases project with
    | none => exact hf
    | some s => by_cases hs : s = "" <;> simp [Option.filter, hs, hf]

/-- The project's manufacturer and model: what is before the first dot of its name, and after. -/
def projectParts (cfg : Config) : String × String := partitionDot (cfg.project.name.getD "")

lemma getLast?_toList {β : Type} (o : Option β) : o.toList.getLast? = o := by cases o <;> rfl

/-- The fields of a hub's identity, as the generated calls leave them. -/
structure Identified (cfg : Config) (p : Platform) (h : HubConfig) (hub : Hub) : Prop where
  clientId : hub.clientId = h.clientId
  clientName : hub.clientName = h.clientName
  serverPort : hub.serverPort = .ofNat h.serverPort
  controlPort : hub.controlPort = .ofNat h.controlPort
  manufacturer : hub.manufacturer =
    (orProject h.manufacturer (some (projectParts cfg).1)).getD "ESPHome"
  model : hub.model = orProject h.model (some (projectParts cfg).2)
  firmwareVersion : hub.firmwareVersion =
    (orProject h.firmwareVersion cfg.project.version).getD p.version
  taskStackInPsram : hub.taskStackInPsram = h.taskStackInPsram

def stackCall : Stmt → Option Bool
  | .setTaskStackInPsram v => some v
  | _ => none

lemma sets_stack : Sets Hub.set Hub.taskStackInPsram stackCall := fun h s => by cases s <;> rfl

lemma identified (hs : Schema port h) (hl : RoleCalls h c l) (p : Platform) :
    Identified cfg p h ((firstCalls cfg h c ++ l).foldl Hub.set (.new p)) := by
  have hman := orElse_eq hs.manufacturer (some (projectParts cfg).1)
  have hmod := orElse_eq hs.model (some (projectParts cfg).2)
  have hver := orElse_eq hs.firmwareVersion cfg.project.version
  have hinfo : deviceInfo cfg h =
      ((orProject h.manufacturer (some (projectParts cfg).1)).map Stmt.setManufacturer).toList ++
        ((orProject h.model (some (projectParts cfg).2)).map Stmt.setModel).toList ++
        ((orProject h.firmwareVersion cfg.project.version).map Stmt.setFirmwareVersion).toList := by
    rw [← hman, ← hmod, ← hver]
    rfl
  refine ⟨?_, ?_, ?_, ?_, ?_, ?_, ?_, ?_⟩
  · refine (clientId.get_eq hl p).trans ?_
    simp [hinfo, among_map, clientId]
  · refine (clientName.get_eq hl p).trans ?_
    simp [hinfo, among_map, clientName]
  · refine (serverPort.get_eq hl p).trans ?_
    simp [hinfo, among_map, serverPort]
  · refine (controlPort.get_eq hl p).trans ?_
    simp [hinfo, among_map, controlPort]
  · refine (manufacturer.get_eq hl p).trans ?_
    simp [hinfo, among_map, manufacturer, getLast?_toList, Hub.new]
  · refine (model.get_eq hl p).trans ?_
    simp only [hinfo, List.filterMap_append, among_map, model, Hub.new]
    cases orProject h.model (some (projectParts cfg).2) <;> simp
  · refine (firmwareVersion.get_eq hl p).trans ?_
    simp [hinfo, among_map, firmwareVersion, getLast?_toList, Hub.new]
  · have hrole : l.filterMap stackCall = [] :=
      among_roleCalls hl fun s hs => by cases s <;> first | rfl | cases hs
    have hstart : (startRequests h c.switchTypes).filterMap stackCall = [] :=
      among_startRequests (fun _ => ⟨rfl, rfl⟩) h _
    rw [sets_stack.foldl, List.filterMap_append, hrole,
      among_firstCalls fun s hs => (by cases s <;> first | rfl | cases hs), hstart]
    cases h.taskStackInPsram <;> simp [stackCall, Hub.new]

/-! ### The client -/

lemma upper_cases {x : Char} (hx : 'A' ≤ x ∧ x ≤ 'F') :
    x ∈ ['A', 'B', 'C', 'D', 'E', 'F'] := by
  obtain ⟨h₁, h₂⟩ := hx
  have hlo : 65 ≤ x.toNat := h₁
  have hhi : x.toNat ≤ 70 := h₂
  rw [← Char.ofNat_toNat x]
  interval_cases x.toNat <;> decide

lemma getMacAddress_lower (p : Platform) :
    (∀ x ∈ p.getMacAddress.toList, ¬ ('A' ≤ x ∧ x ≤ 'F')) ∧
      p.getMacAddress.toList.map Char.toLower = p.macAddress.toList.map Char.toLower := by
  rw [Platform.getMacAddress, String.toList_map]
  refine ⟨fun x hx => ?_, ?_⟩
  · obtain ⟨y, -, rfl⟩ := List.mem_map.mp hx
    split
    · rename_i hy
      have hm := upper_cases hy
      fin_cases hm <;> decide
    · rename_i hy
      exact hy
  · rw [List.map_map]
    refine List.map_congr_left fun y _ => ?_
    dsimp only [Function.comp_apply]
    split
    · rename_i hy
      have hm := upper_cases hy
      fin_cases hm <;> decide
    · rfl

/-- The client configuration is the hub's entry in the configuration, with the defaults. -/
structure Describes (cfg : Config) (p : Platform) (h : HubConfig) (c : ClientConfig) : Prop where
  name : c.name = h.clientName
  nameBytes : c.name ≠ "" ∧ c.name.utf8ByteSize ≤ 63
  productName : c.productName = (orProject h.model (some (projectParts cfg).2)).getD p.appName
  manufacturer : c.manufacturer =
    (orProject h.manufacturer (some (projectParts cfg).1)).getD "ESPHome"
  softwareVersion : c.softwareVersion =
    (orProject h.firmwareVersion cfg.project.version).getD p.version
  nonempty : c.manufacturer ≠ "" ∧ (p.appName ≠ "" → c.productName ≠ "") ∧
    (p.version ≠ "" → c.softwareVersion ≠ "")
  serverPort : c.serverPort.toNat = h.serverPort
  httpdCtrlPort : c.httpdCtrlPort.toNat = h.controlPort
  taskStacks : c.httpdPsramStack = h.taskStackInPsram ∧
    c.protocolTaskPsramStack = h.taskStackInPsram
  records : c.maxPairingRecords = p.recordSlots
  macAddress : c.macAddress.toList.map Char.toLower = p.macAddress.toList.map Char.toLower ∧
    ∀ x ∈ c.macAddress.toList, ¬ ('A' ≤ x ∧ x ≤ 'F')

lemma buildClientConfig_fields (hub : Hub) (p : Platform) :
    (hub.buildClientConfig p).name = hub.clientName ∧
      (hub.buildClientConfig p).productName = hub.getProductName p ∧
      (hub.buildClientConfig p).manufacturer = hub.manufacturer ∧
      (hub.buildClientConfig p).softwareVersion = hub.firmwareVersion ∧
      (hub.buildClientConfig p).serverPort = hub.serverPort ∧
      (hub.buildClientConfig p).httpdCtrlPort = hub.controlPort ∧
      (hub.buildClientConfig p).httpdPsramStack = hub.taskStackInPsram ∧
      (hub.buildClientConfig p).protocolTaskPsramStack = hub.taskStackInPsram ∧
      (hub.buildClientConfig p).maxPairingRecords = p.recordSlots ∧
      (hub.buildClientConfig p).macAddress = p.getMacAddress := by
  unfold Hub.buildClientConfig
  cases hub.pairingCodeDisplaySupported <;> cases hub.staticPairingCode <;> simp

lemma describes {p : Platform} {hub : Hub} (hport : PassesPorts port) (hs : Schema port h)
    (hi : Identified cfg p h hub) : Describes cfg p h (hub.buildClientConfig p) := by
  obtain ⟨hname, hproduct, hman, hver, hserver, hctrl, hhttpd, htask, hrec, hmac⟩ :=
    buildClientConfig_fields hub p
  have hbytes : h.clientName ≠ "" ∧ h.clientName.utf8ByteSize ≤ 63 := by
    have hn := hs.clientName
    unfold validateMdnsInstanceName at hn
    split at hn
    · cases hn
    · rename_i hne
      split at hn
      · cases hn
      · rename_i hle
        exact ⟨hne, not_lt.mp hle⟩
  have hproduct' : (hub.buildClientConfig p).productName =
      (orProject h.model (some (projectParts cfg).2)).getD p.appName := by
    rw [hproduct, Hub.getProductName, hi.model]
  refine ⟨?_, ?_, hproduct', hman.trans hi.manufacturer, hver.trans hi.firmwareVersion,
    ⟨?_, fun hp => ?_, fun hp => ?_⟩, ?_, ?_, ?_, hrec, ?_⟩
  · rw [hname, hi.clientName]
  · rw [hname, hi.clientName]
    exact hbytes
  · rw [hman, hi.manufacturer]
    exact orProject_getD_ne hs.manufacturer _ (by decide)
  · rw [hproduct']
    exact orProject_getD_ne hs.model _ hp
  · rw [hver, hi.firmwareVersion]
    exact orProject_getD_ne hs.firmwareVersion _ hp
  · rw [hserver, hi.serverPort, hport.toNat hs.serverPort]
  · rw [hctrl, hi.controlPort, hport.toNat hs.controlPort]
  · rw [hhttpd, htask, hi.taskStackInPsram]
    exact ⟨rfl, rfl⟩
  · rw [hmac]
    exact (getMacAddress_lower p).symm

/-! ### All hubs -/

variable {casefold : String → String} {full : FullConfig} {d : ComponentData}

lemma not_collides (ha : Accepted casefold full d) : ¬ Collides casefold full := by
  cases hhubs : full.config.hubs with
  | nil => simp [Collides, MeetsCore, allPorts, hhubs]
  | cons h hubs =>
    -- the first hub has checked them all
    have hm : h ∈ full.config.hubs := hhubs ▸ List.mem_cons_self
    obtain ⟨u, v, huv, -⟩ := ha.passed
      (List.mem_append_left _ (List.mem_map_of_mem hm) : Step.hub h ∈ full.steps)
    exact checkHubs_ok.mp ((finalValidate_ok huv).2.1 (by rw [hhubs]; rfl))

/-- The ports a client listens on. -/
def listens (c : ClientConfig) : List UInt16 := [c.serverPort, c.httpdCtrlPort]

/-- **The clients are who the configuration says**: of an accepted configuration, whatever the
order of the hubs, each hub's client has its name, device information, ports and stacks as they
are configured, the project's or the default ones where nothing is, with nothing cut off or
empty, as long as ESPHome's own name and version are not. No two clients listen on one port,
announce one name or keep one set of preferences, nor do they meet core sendspin. -/
theorem identities (hport : PassesPorts port) (ha : Accepted casefold full d)
    (hs : ∀ h ∈ full.config.hubs, Schema port h)
    {order : List HubConfig} (ho : order.Perm full.config.hubs) (core : Sdkconfig)
    (p : Platform) :
    ∃ w, generate full.config d order core = .ok w ∧
      (∀ h ∈ full.config.hubs, Describes full.config p h (client p w.code h.id)) ∧
      (full.config.hubs.flatMap fun h => listens (client p w.code h.id)).Nodup ∧
      (full.config.hubs.map fun h => casefold (client p w.code h.id).name).Nodup ∧
      (full.config.hubs.map fun h => (configured p w.code h.id).clientId).Nodup ∧
      (full.config.coreSendspin = true → ∀ h ∈ full.config.hubs,
        casefold (client p w.code h.id).name ≠ casefold full.deviceName ∧
          8928 ∉ listens (client p w.code h.id) ∧ 32769 ∉ listens (client p w.code h.id)) := by
  obtain ⟨w, hw, hcalls⟩ :=
    generate_calls ho ha.distinct (fun h hm => ha.playable hm) core
  have hid : ∀ h ∈ full.config.hubs,
      Identified full.config p h (configured p w.code h.id) := fun h hm => by
    obtain ⟨l, hl, hcode⟩ := hcalls h hm
    rw [configured, hcode]
    exact identified (hs h hm) hl p
  have hdesc : ∀ h ∈ full.config.hubs, Describes full.config p h (client p w.code h.id) :=
    fun h hm => describes hport (hs h hm) (hid h hm)
  have hports : ∀ h ∈ full.config.hubs,
      (listens (client p w.code h.id)).map UInt16.toNat = [h.serverPort, h.controlPort] :=
    fun h hm => by
      rw [listens, List.map_cons, List.map_singleton, (hdesc h hm).serverPort,
        (hdesc h hm).httpdCtrlPort]
  have hno := not_collides ha
  simp only [Collides, not_or, not_not] at hno
  obtain ⟨-, hids, hnames, hnodup, hcore⟩ := hno
  refine ⟨w, hw, hdesc, ?_, ?_, ?_, fun hc h hm => ?_⟩
  · refine List.Nodup.of_map UInt16.toNat ?_
    rw [List.map_flatMap, List.flatMap_congr hports]
    exact hnodup
  · rw [List.map_congr_left fun h hm => congrArg casefold (hdesc h hm).name]
    exact hnames
  · rw [List.map_congr_left fun h hm => (hid h hm).clientId]
    exact hids
  · rw [not_and, MeetsCore, not_or] at hcore
    obtain ⟨hname, hfree⟩ := hcore hc
    have hport : ∀ x ∈ listens (client p w.code h.id), x.toNat ≠ 8928 ∧ x.toNat ≠ 32769 := by
      intro x hx
      have hall : x.toNat ∈ allPorts full.config.hubs := by
        refine List.mem_flatMap.mpr ⟨h, hm, ?_⟩
        rw [← hports h hm]
        exact List.mem_map_of_mem hx
      exact ⟨fun he => hfree ⟨_, hall, .inl he⟩, fun he => hfree ⟨_, hall, .inr he⟩⟩
    refine ⟨fun he => hname ⟨h, hm, ?_⟩, fun hx => (hport _ hx).1 rfl, fun hx => (hport _ hx).2 rfl⟩
    rw [← (hdesc h hm).name]
    exact he

/-- The range of a port. -/
def portRange (n : ℕ) : Bool := decide (1 ≤ n) && decide (n ≤ 65535)

lemma passesPorts_portRange : PassesPorts portRange := fun n h => by
  rw [portRange, Bool.and_eq_true, decide_eq_true_eq, decide_eq_true_eq] at h
  exact h.2

theorem identities_entrance :
    ∃ w, generate entrance.config entranceData [gate, lobby] (fun _ => none) = .ok w ∧
      (client firmware w.code "gate").name = "gate" ∧
      (client firmware w.code "gate").productName = "house" ∧
      (client firmware w.code "lobby").serverPort.toNat = 8932 := by
  have hs : ∀ h ∈ entrance.config.hubs, Schema portRange h := by
    intro h hm
    obtain rfl | rfl := List.mem_pair.mp hm <;>
      exact ⟨by decide, rfl, rfl, by simp [gate, lobby], by simp [gate, lobby],
        by simp [gate, lobby]⟩
  obtain ⟨w, hw, hdesc, -⟩ :=
    identities passesPorts_portRange entrance_accepted hs (List.Perm.refl _) (fun _ => none)
      firmware
  have hgate := hdesc gate (by simp [entrance])
  have hlobby := hdesc lobby (by simp [entrance])
  refine ⟨w, hw, hgate.name, hgate.productName.trans ?_, hlobby.serverPort⟩
  decide

end SendspinMc.Identity
