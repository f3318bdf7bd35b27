import SendspinMc.HubCode
import SendspinMc.Lib.Writes
import Mathlib.Data.UInt

/-!
The fields of a hub that the generated calls set, and the client configuration that is built of
them.
-/

namespace SendspinMc.HubFields

open SendspinMc.Codegen SendspinMc.Roles SendspinMc.HubView SendspinMc.HubCode
open SendspinMc.Lib.Writes

/-! ### The setters -/

/-- A hub, as far as its setters go; the requests for the client's start are left to the
client. -/
structure Hub where
  clientId : String
  clientName : String
  serverPort : UInt16
  controlPort : UInt16
  taskStackInPsram : Bool
  manufacturer : String
  model : Option String
  firmwareVersion : String
  staticPairingCode : Option String
  pairingCodeDisplaySupported : Bool
  support : Role → Bool
  artworkConfig : Option ArtworkRoleConfig
  playerConfig : Option PlayerRoleConfig

inductive PairingCodeChannel
  | display
  deriving DecidableEq

inductive PairingCodeFormat
  | digits
  deriving DecidableEq

/-- The library's `SendspinClientConfig`, as far as the hub sets it. -/
structure ClientConfig where
  macAddress : String
  name : String
  productName : String
  manufacturer : String
  softwareVersion : String
  serverPort : UInt16
  httpdCtrlPort : UInt16
  httpdPsramStack : Bool
  protocolTaskPsramStack : Bool
  maxPairingRecords : ℕ
  pairingCodeOutChannels : List PairingCodeChannel
  pairingCodeFormats : List PairingCodeFormat
  staticPairingCodeLocations : List String
  staticPairingCode : Option String

/-- What the firmware and the library bring. -/
structure Platform where
  /-- `App.get_name()`. -/
  appName : String
  /-- `ESPHOME_VERSION`. -/
  version : String
  /-- The MAC address of the active interface, in the pretty format. -/
  macAddress : String
  /-- `SendspinClientConfig::DEFAULT_SERVER_PORT`. -/
  defaultServerPort : UInt16
  /-- `SENDSPIN_RECORD_SLOTS`. -/
  recordSlots : ℕ
  /-- A new `SendspinClientConfig`. -/
  config : ClientConfig

/-- A firmware whose library offers nothing by itself. -/
def firmware : Platform where
  appName := "house"
  version := "2025.11.0"
  macAddress := "A0:B1:C2:D3:E4:F5"
  defaultServerPort := 8928
  recordSlots := 16
  config := ⟨"", "", "", "", "", 0, 0, false, false, 0, [], [], [], none⟩

/-- A new hub. -/
def Hub.new (p : Platform) : Hub where
  clientId := ""
  clientName := ""
  serverPort := p.defaultServerPort
  controlPort := 0
  taskStackInPsram := false
  manufacturer := "ESPHome"
  model := none
  firmwareVersion := p.version
  staticPairingCode := none
  pairingCodeDisplaySupported := false
  support := fun _ => false
  artworkConfig := none
  playerConfig := none

/-- A setter. -/
def Hub.set (h : Hub) : Stmt → Hub
  | .setClientId v => { h with clientId := v }
  | .setClientName v => { h with clientName := v }
  | .setServerPort v => { h with serverPort := .ofNat v }
  | .setControlPort v => { h with controlPort := .ofNat v }
  | .setTaskStackInPsram v => { h with taskStackInPsram := v }
  | .setManufacturer v => { h with manufacturer := v }
  | .setModel v => { h with model := some v }
  | .setFirmwareVersion v => { h with firmwareVersion := v }
  | .setStaticPairingCode v => { h with staticPairingCode := some v }
  | .setPairingCodeDisplaySupported v => { h with pairingCodeDisplaySupported := v }
  | .setSupport r v => { h with support := Function.update h.support r v }
  | .setArtworkConfig v => { h with artworkConfig := some v }
  | .setPlayerConfig v => { h with playerConfig := some v }
  | .setEnabled _ | .setUnpairedAccessEnabled _ | .setMdns => h

/-- The hub once the generated code has run. -/
def configured (p : Platform) (code : List (String × Stmt)) (h : String) : Hub :=
  (calls code h).foldl Hub.set (.new p)

/-! ### The client's configuration -/

/-- `get_mac_address_into_buffer`. -/
def Platform.getMacAddress (p : Platform) : String :=
  p.macAddress.map fun c => if 'A' ≤ c ∧ c ≤ 'F' then Char.ofNat (c.toNat + 32) else c

/-- `get_product_name_`. -/
def Hub.getProductName (h : Hub) (p : Platform) : String := h.model.getD p.appName

/-- `build_client_config_`. -/
def Hub.buildClientConfig (h : Hub) (p : Platform) : ClientConfig :=
  let config :=
    { p.config with
      macAddress := p.getMacAddress
      name := h.clientName
      productName := h.getProductName p
      manufacturer := h.manufacturer
      softwareVersion := h.firmwareVersion
      serverPort := h.serverPort
      httpdCtrlPort := h.controlPort
      httpdPsramStack := h.taskStackInPsram
      protocolTaskPsramStack := h.taskStackInPsram
      maxPairingRecords := p.recordSlots }
  let config :=
    if h.pairingCodeDisplaySupported then
      { config with pairingCodeOutChannels := [.display], pairingCodeFormats := [.digits] }
    else config
  match h.staticPairingCode with
  | some code =>
    { config with staticPairingCodeLocations := ["operator"], staticPairingCode := some code }
  | none => config

/-! ### What the fields end with -/

/-- The static code that a call sets. -/
def codeCall : Stmt → Option (Option String)
  | .setStaticPairingCode v => some (some v)
  | _ => none

def displayCall : Stmt → Option Bool
  | .setPairingCodeDisplaySupported v => some v
  | _ => none

def artworkCall : Stmt → Option (Option ArtworkRoleConfig)
  | .setArtworkConfig v => some (some v)
  | _ => none

def playerCall : Stmt → Option (Option PlayerRoleConfig)
  | .setPlayerConfig v => some (some v)
  | _ => none

lemma sets_code : Sets Hub.set Hub.staticPairingCode codeCall := fun h s => by cases s <;> rfl

lemma sets_display : Sets Hub.set Hub.pairingCodeDisplaySupported displayCall :=
  fun h s => by cases s <;> rfl

lemma sets_artwork : Sets Hub.set Hub.artworkConfig artworkCall := fun h s => by cases s <;> rfl

lemma sets_player : Sets Hub.set Hub.playerConfig playerCall := fun h s => by cases s <;> rfl

variable {cfg : Config} {h : HubConfig} {c : Configuration} {l : List Stmt}

lemma staticPairingCode_eq (hl : RoleCalls h c l) (p : Platform) :
    ((firstCalls cfg h c ++ l).foldl Hub.set (.new p)).staticPairingCode = h.staticPairingCode := by
  have hrole : l.filterMap codeCall = [] :=
    among_roleCalls hl fun s hs => by cases s <;> first | rfl | cases hs
  have hstart : (startRequests h c.switchTypes).filterMap codeCall = [] :=
    among_startRequests (fun _ => ⟨rfl, rfl⟩) h _
  rw [sets_code.foldl, List.filterMap_append, hrole,
    among_firstCalls fun s hs => (by cases s <;> first | rfl | cases hs), hstart]
  cases h.staticPairingCode <;> simp [codeCall, Hub.new]

lemma pairingCodeDisplaySupported_eq (hl : RoleCalls h c l) (p : Platform) :
    ((firstCalls cfg h c ++ l).foldl Hub.set (.new p)).pairingCodeDisplaySupported =
      (h.onDisplayPairingCode || c.pairingCodeDisplaySupport) := by
  have hrole : l.filterMap displayCall = [] :=
    among_roleCalls hl fun s hs => by cases s <;> first | rfl | cases hs
  have hstart : (startRequests h c.switchTypes).filterMap displayCall = [] :=
    among_startRequests (fun _ => ⟨rfl, rfl⟩) h _
  rw [sets_display.foldl, List.filterMap_append, hrole,
    among_firstCalls fun s hs => (by cases s <;> first | rfl | cases hs), hstart]
  cases h.onDisplayPairingCode || c.pairingCodeDisplaySupport <;> simp [displayCall, Hub.new]

lemma isRoleCall_firstCalls {s : Stmt} (hs : s ∈ firstCalls cfg h c) : isRoleCall s = false := by
  have hstart : (startRequests h c.switchTypes).filterMap (Option.guard (isRoleCall ·)) = [] :=
    among_startRequests (fun _ => ⟨rfl, rfl⟩) h _
  have hnone : (firstCalls cfg h c).filterMap (Option.guard (isRoleCall ·)) = [] := by
    rw [among_firstCalls fun s hs => (by cases s <;> first | rfl | cases hs), hstart]
    simp [Option.guard, isRoleCall]
  simpa [Option.guard] using List.filterMap_eq_nil_iff.mp hnone s hs

lemma artworkConfig_eq (hl : RoleCalls h c l) (p : Platform) :
    ((firstCalls cfg h c ++ l).foldl Hub.set (.new p)).artworkConfig =
      if c.artworkSupport then
        some ⟨c.artworkPreferences.map imageSlotPreference, h.taskStackInPsram⟩
      else none := by
  have hmem : ∀ v, .setArtworkConfig v ∈ firstCalls cfg h c ++ l ↔ c.artworkSupport = true ∧
      v = ⟨c.artworkPreferences.map imageSlotPreference, h.taskStackInPsram⟩ := fun v => by
    rw [List.mem_append, hl.artwork]
    refine or_iff_right fun hs => ?_
    cases isRoleCall_firstCalls hs
  split
  · rename_i ha
    refine sets_artwork.agree ⟨_, (hmem _).mpr ⟨ha, rfl⟩, rfl⟩ fun s hs w hw => ?_
    cases s with
    | setArtworkConfig v => rw [← Option.some.inj hw, ((hmem v).mp hs).2]
    | _ => cases hw
  · rename_i ha
    refine (sets_artwork.unset fun s hs => ?_).trans rfl
    cases s with
    | setArtworkConfig v => exact absurd ((hmem v).mp hs).1 ha
    | _ => rfl

lemma playerConfig_eq (hl : RoleCalls h c l) (p : Platform) :
    ((firstCalls cfg h c ++ l).foldl Hub.set (.new p)).playerConfig =
      if c.support .player then c.playerConfig.map playerRoleConfig else none := by
  have hmem : ∀ v, .setPlayerConfig v ∈ firstCalls cfg h c ++ l ↔ c.support .player = true ∧
      ∃ q, c.playerConfig = some q ∧ v = playerRoleConfig q := fun v => by
    rw [List.mem_append, hl.player]
    refine or_iff_right fun hs => ?_
    cases isRoleCall_firstCalls hs
  have hunset : (∀ v, .setPlayerConfig v ∉ firstCalls cfg h c ++ l) →
      ((firstCalls cfg h c ++ l).foldl Hub.set (.new p)).playerConfig = none := fun hn => by
    refine (sets_player.unset fun s hs => ?_).trans rfl
    cases s with
    | setPlayerConfig v => exact absurd hs (hn v)
    | _ => rfl
  split
  · rename_i hsup
    cases hc : c.playerConfig with
    | none =>
      refine hunset fun v hs => ?_
      obtain ⟨-, q, hq, -⟩ := (hmem v).mp hs
      cases hc.symm.trans hq
    | some q =>
      refine sets_player.agree ⟨_, (hmem _).mpr ⟨hsup, q, hc, rfl⟩, rfl⟩ fun s hs w hw => ?_
      cases s with
      | setPlayerConfig v =>
        obtain ⟨-, q', hq', rfl⟩ := (hmem v).mp hs
        obtain rfl := Option.some.inj (hc.symm.trans hq')
        exact (Option.some.inj hw).symm
      | _ => cases hw
  · rename_i hsup
    exact hunset fun v hs => hsup ((hmem v).mp hs).1

end SendspinMc.HubFields
