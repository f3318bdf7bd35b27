import Mathlib.Data.Finset.Insert
import Mathlib.Data.Finset.Lattice.Basic
import Mathlib.Data.List.AList

/-!
The configuration's code generation: what the child entries ask of their hubs while they are
validated, and the code, defines and library options that come of it.

A hub is its id. An entry that leaves its parent out is recorded under `none` until the ids
are resolved. Requests made of other ESPHome components (TLS, task stacks, callback
automations) are left out.
-/

namespace SendspinMc.Codegen

/-! ### Configurations -/

/-- The library's roles. -/
inductive Role
  | artwork | controller | metadata | player | visualizer
  deriving DecidableEq

def Role.name : Role → String
  | .artwork => "ARTWORK"
  | .controller => "CONTROLLER"
  | .metadata => "METADATA"
  | .player => "PLAYER"
  | .visualizer => "VISUALIZER"

def Role.define (r : Role) : String := "USE_SENDSPIN_MC_" ++ r.name

inductive SwitchType
  | enabled | unpairedAccess
  deriving DecidableEq

inductive Codec
  | flac | opus | pcm
  deriving DecidableEq

inductive MemoryLocation
  | psram | internal
  deriving DecidableEq

/-- What a media source registers. -/
structure PlayerConfig where
  codecs : List Codec
  sampleRate : ℕ
  bufferSize : ℕ
  initialStaticDelay : ℕ
  fixedDelay : ℕ
  taskStackInPsram : Bool
  decodeMemory : Option MemoryLocation
  deriving DecidableEq

inductive ImageSource
  | album | artist
  deriving DecidableEq

inductive ImageFormat
  | jpeg | png
  deriving DecidableEq

/-- What an image registers. -/
structure ArtworkPreference where
  source : ImageSource
  format : ImageFormat
  width : ℕ
  height : ℕ
  displayOffset : ℤ
  deriving DecidableEq

/-- `SendspinMcConfiguration`. -/
structure Configuration where
  artworkSupport : Bool := false
  controllerSupport : Bool := false
  metadataSupport : Bool := false
  playerSupport : Bool := false
  visualizerSupport : Bool := false
  pairingCodeDisplaySupport : Bool := false
  switchTypes : Finset SwitchType := ∅
  artworkPreferences : List ArtworkPreference := []
  playerConfig : Option PlayerConfig := none

def Configuration.support (c : Configuration) : Role → Bool
  | .artwork => c.artworkSupport
  | .controller => c.controllerSupport
  | .metadata => c.metadataSupport
  | .player => c.playerSupport
  | .visualizer => c.visualizerSupport

/-- `SendspinMcComponentData`. -/
structure ComponentData where
  hubs : AList fun _ : Option String => Configuration
  roleDefinesEmitted : Bool
  sdkconfigJobScheduled : Bool

def ComponentData.empty : ComponentData := ⟨∅, false, false⟩

/-- The configuration under a key, a new one if there is none. -/
def ComponentData.get (d : ComponentData) (key : Option String) : Configuration :=
  (d.hubs.lookup key).getD {}

def ComponentData.set (d : ComponentData) (key : Option String) (c : Configuration) :
    ComponentData :=
  { d with hubs := d.hubs.insert key c }

/-- A change of `_get_data(hub_id)`. -/
def ComponentData.update (d : ComponentData) (key : Option String)
    (f : Configuration → Configuration) : ComponentData :=
  d.set key (f (d.get key))

/-- The merge of `_get_codegen_data`. -/
def Configuration.merge (data implicit : Configuration) : Configuration :=
  { data with
    artworkSupport := data.artworkSupport || implicit.artworkSupport
    controllerSupport := data.controllerSupport || implicit.controllerSupport
    metadataSupport := data.metadataSupport || implicit.metadataSupport
    playerSupport := data.playerSupport || implicit.playerSupport
    visualizerSupport := data.visualizerSupport || implicit.visualizerSupport
    pairingCodeDisplaySupport :=
      data.pairingCodeDisplaySupport || implicit.pairingCodeDisplaySupport
    switchTypes := data.switchTypes ∪ implicit.switchTypes
    playerConfig := if data.playerConfig.isNone then implicit.playerConfig else data.playerConfig }

/-- `_get_codegen_data`, in a configuration with this many hubs. -/
def ComponentData.getCodegenData (d : ComponentData) (hubCount : ℕ) (key : Option String) :
    Configuration × ComponentData :=
  let data := d.get key
  let d := d.set key data
  match d.hubs.lookup none with
  | none => (data, d)
  | some implicit =>
    if key = none then (data, d)
    else if hubCount = 1 then (data.merge implicit, d.set key (data.merge implicit))
    else (data, d)

/-! ### Requests -/

def requestArtworkSupport (d : ComponentData) (key : Option String) : ComponentData :=
  d.update key fun c => { c with artworkSupport := true }

def requestControllerSupport (d : ComponentData) (key : Option String) : ComponentData :=
  d.update key fun c => { c with controllerSupport := true }

def requestMetadataSupport (d : ComponentData) (key : Option String) : ComponentData :=
  d.update key fun c => { c with metadataSupport := true }

def requestPlayerSupport (d : ComponentData) (key : Option String) : ComponentData :=
  d.update key fun c => { c with playerSupport := true }

def requestPairingCodeDisplaySupport (d : ComponentData) (key : Option String) : ComponentData :=
  d.update key fun c => { c with pairingCodeDisplaySupport := true }

def requestSwitch (d : ComponentData) (key : Option String) (t : SwitchType) : ComponentData :=
  d.update key fun c => { c with switchTypes := insert t c.switchTypes }

def maxArtworkSlots : ℕ := 4

/-- `register_artwork_preference`, and the slot it gives. -/
def registerArtworkPreference (d : ComponentData) (key : Option String)
    (p : ArtworkPreference) : Except String (ℕ × ComponentData) :=
  let d := requestArtworkSupport d key
  let preferences := (d.get key).artworkPreferences
  if maxArtworkSlots ≤ preferences.length then
    .error ("Too many Sendspin image slots. Maximum is " ++ maxArtworkSlots.repr ++ ".")
  else
    .ok (preferences.length,
      d.update key fun c => { c with artworkPreferences := preferences ++ [p] })

/-- `register_player_config`. -/
def registerPlayerConfig (d : ComponentData) (key : Option String) (p : PlayerConfig) :
    Except String ComponentData :=
  let d := requestPlayerSupport d key
  if (d.get key).playerConfig.isSome then
    .error ("Only one sendspin_mc media_source player configuration is supported for " ++
      key.getD "the implicit hub")
  else .ok (d.update key fun c => { c with playerConfig := some p })

def maxImageDimension : ℕ := 32767

/-- `_assign_slot_and_register`. -/
def assignSlotAndRegister (d : ComponentData) (key : Option String) (p : ArtworkPreference) :
    Except String (ℕ × ComponentData) :=
  if maxImageDimension < p.width ∨ maxImageDimension < p.height then
    .error ("'resize' width and height must be " ++ maxImageDimension.repr ++ " or less")
  else registerArtworkPreference d key p

/-! ### Child entries -/

inductive Child
  | image (p : ArtworkPreference)
  | mediaSource (p : PlayerConfig)
  | mediaPlayer
  | sensor
  | textSensor (pairingCode : Bool)
  | switch (t : SwitchType)
  | switchAction
  | pairingWindowAction
  deriving DecidableEq

/-- What an entry's validation records under a key. -/
def Child.record (d : ComponentData) (key : Option String) : Child → Except String ComponentData
  | .image p => (assignSlotAndRegister d key p).map (·.2)
  | .mediaSource p => registerPlayerConfig (requestControllerSupport d key) key p
  | .mediaPlayer => .ok (requestControllerSupport d key)
  | .sensor => .ok (requestMetadataSupport d key)
  | .textSensor pairingCode =>
    .ok (if pairingCode then requestPairingCodeDisplaySupport d key
      else requestMetadataSupport d key)
  | .switch t => .ok (requestSwitch d key t)
  | .switchAction => .ok (requestControllerSupport d key)
  | .pairingWindowAction => .ok d

/-- An entry, with its parent unless that is left out. -/
structure Entry where
  parent : Option String
  child : Child
  deriving DecidableEq

structure HubConfig where
  id : String
  clientId : String
  clientName : String
  serverPort : ℕ
  controlPort : ℕ
  sendspinCppRef : String
  taskStackInPsram : Bool
  manufacturer : Option String
  model : Option String
  firmwareVersion : Option String
  staticPairingCode : Option String
  unpairedAccess : Option Bool
  /-- `on_display_pairing_code` has an automation. -/
  onDisplayPairingCode : Bool

structure Project where
  name : Option String
  version : Option String

structure Config where
  hubs : List HubConfig
  /-- `"sendspin" in CORE.config`. -/
  coreSendspin : Bool
  project : Project
  /-- `mdns.request_service_enable_disable()`. -/
  mdnsEnableDisable : Bool

/-- The hub an entry is for: the one it names, or the only one. -/
def Config.resolve (cfg : Config) : Option String → Option String
  | some id => if id ∈ cfg.hubs.map (·.id) then some id else none
  | none =>
    match cfg.hubs with
    | [h] => some h.id
    | _ => none

/-- The key an entry's requests are recorded under; images register after the ids are
resolved. -/
def Config.key (cfg : Config) (e : Entry) : Option String :=
  match e.child with
  | .image _ => cfg.resolve e.parent
  | _ => e.parent

/-- The validation of an entry, or a call of `_get_codegen_data` for a hub. -/
inductive Event
  | entry (e : Entry)
  | codegenData (hub : String)

def Config.handle (cfg : Config) (d : ComponentData) : Event → Except String ComponentData
  | .entry e => e.child.record d (cfg.key e)
  | .codegenData hub => .ok (d.getCodegenData cfg.hubs.length (some hub)).2

def Config.validate (cfg : Config) (d : ComponentData) (events : List Event) :
    Except String ComponentData :=
  events.foldlM cfg.handle d

/-! ### Code -/

structure AudioFormat where
  codec : Codec
  channels : ℕ
  sampleRate : ℕ
  bitDepth : ℕ
  deriving DecidableEq

structure PlayerRoleConfig where
  audioFormats : List AudioFormat
  audioBufferCapacity : ℕ
  fixedDelayUs : ℕ
  initialOutputDelayMs : ℕ
  psramStack : Bool
  decodeBufferLocation : Option MemoryLocation
  deriving DecidableEq

structure ImageSlotPreference where
  source : ImageSource
  format : ImageFormat
  width : ℕ
  height : ℕ
  requireFrameDone : Bool
  displayOffsetMs : ℤ
  deriving DecidableEq

structure ArtworkRoleConfig where
  preferredFormats : List ImageSlotPreference
  psramStack : Bool
  deriving DecidableEq

def imageSlotPreference (p : ArtworkPreference) : ImageSlotPreference where
  source := p.source
  format := p.format
  width := p.width
  height := p.height
  requireFrameDone := true
  displayOffsetMs := p.displayOffset

/-- Stereo before mono for each codec, in the order of the codecs. -/
def playerRoleConfig (p : PlayerConfig) : PlayerRoleConfig where
  audioFormats := p.codecs.flatMap fun codec =>
    [2, 1].map fun channels => ⟨codec, channels, p.sampleRate, 16⟩
  audioBufferCapacity := p.bufferSize
  fixedDelayUs := p.fixedDelay
  initialOutputDelayMs := p.initialStaticDelay
  psramStack := p.taskStackInPsram
  decodeBufferLocation := p.decodeMemory

/-- A call on the hub's variable. -/
inductive Stmt
  | setClientId (v : String)
  | setClientName (v : String)
  | setServerPort (v : ℕ)
  | setControlPort (v : ℕ)
  | setTaskStackInPsram (v : Bool)
  | setManufacturer (v : String)
  | setModel (v : String)
  | setFirmwareVersion (v : String)
  | setStaticPairingCode (v : String)
  | setEnabled (v : Bool)
  | setUnpairedAccessEnabled (v : Bool)
  | setPairingCodeDisplaySupported (v : Bool)
  | setMdns
  /-- `set_artwork_support`, `set_controller_support` and so on. -/
  | setSupport (r : Role) (v : Bool)
  | setArtworkConfig (v : ArtworkRoleConfig)
  | setPlayerConfig (v : PlayerRoleConfig)
  deriving DecidableEq

abbrev Sdkconfig := String → Option Bool

/-- `esp32.add_idf_sdkconfig_option`. -/
def Sdkconfig.add (s : Sdkconfig) (name : String) (v : Bool) : Sdkconfig :=
  Function.update s name (some v)

structure Output where
  data : ComponentData
  /-- The generated calls, each on the variable of a hub. -/
  code : List (String × Stmt)
  defines : List String
  /-- The name and the ref of the library. -/
  components : List (String × String)
  sdkconfig : Sdkconfig

/-- `config.get(key)`, or what the project says if that is missing or empty. -/
def orElse (v : Option String) (w : Option String) : Option String :=
  (v.filter (· ≠ "")).orElse fun _ => w.filter (· ≠ "")

/-- `str.partition(".")`, without the separator. -/
def partitionDot (s : String) : String × String :=
  let head := s.toList.takeWhile (· ≠ '.')
  (String.ofList head, String.ofList (s.toList.drop (head.length + 1)))

def deviceInfo (cfg : Config) (h : HubConfig) : List Stmt :=
  let (projectManufacturer, projectModel) := partitionDot (cfg.project.name.getD "")
  ((orElse h.manufacturer (some projectManufacturer)).map Stmt.setManufacturer).toList ++
    ((orElse h.model (some projectModel)).map Stmt.setModel).toList ++
    ((orElse h.firmwareVersion cfg.project.version).map Stmt.setFirmwareVersion).toList

/-- `_offers_dynamic_pairing_code`. -/
def offersDynamicPairingCode (cfg : Config) (d : ComponentData) (h : HubConfig) :
    Bool × ComponentData :=
  if h.onDisplayPairingCode then (true, d)
  else
    let (c, d) := d.getCodegenData cfg.hubs.length (some h.id)
    (c.pairingCodeDisplaySupport, d)

/-- The calls the client waits for, unless a switch makes them. -/
def startRequests (h : HubConfig) (switchTypes : Finset SwitchType) : List Stmt :=
  (if .enabled ∈ switchTypes then [] else [.setEnabled true]) ++
    if .unpairedAccess ∈ switchTypes then []
    else [.setUnpairedAccessEnabled (h.unpairedAccess.getD true)]

/-- Some hub has the role. -/
def ComponentData.anySupport (d : ComponentData) (r : Role) : Bool :=
  d.hubs.entries.any fun x => x.2.support r

/-- The roles in the order of their defines. -/
def Role.all : List Role := [.artwork, .controller, .metadata, .player, .visualizer]

def roleDefines (d : ComponentData) : List String :=
  (Role.all.filter d.anySupport).map Role.define

/-- A setter for a role that some hub has. -/
def setSupport (d : ComponentData) (c : Configuration) (r : Role) : List Stmt :=
  if d.anySupport r then [.setSupport r (c.support r)] else []

def setArtworkConfig (h : HubConfig) (c : Configuration) : List Stmt :=
  if c.artworkSupport then
    [.setArtworkConfig ⟨c.artworkPreferences.map imageSlotPreference, h.taskStackInPsram⟩]
  else []

/-- `player_cfg[...]` fails if there is no player configuration. -/
def setPlayerConfig (c : Configuration) : Except String (List Stmt) :=
  if c.playerSupport then
    match c.playerConfig with
    | none => .error "'NoneType' object is not subscriptable"
    | some p => .ok [.setPlayerConfig (playerRoleConfig p)]
  else .ok []

/-- The role setters of `to_code`. -/
def roleStmts (d : ComponentData) (h : HubConfig) (c : Configuration) :
    Except String (List Stmt) :=
  (setPlayerConfig c).map fun player =>
    setSupport d c .artwork ++ setArtworkConfig h c ++ setSupport d c .controller ++
      setSupport d c .metadata ++ setSupport d c .player ++ player

/-- The first half of `to_code`: everything before the roles. -/
def hubStmts (cfg : Config) (d : ComponentData) (h : HubConfig) : List Stmt × ComponentData :=
  let (c, d) := d.getCodegenData cfg.hubs.length (some h.id)
  let (dynamicCode, d) := offersDynamicPairingCode cfg d h
  ([.setClientId h.clientId, .setClientName h.clientName, .setServerPort h.serverPort,
      .setControlPort h.controlPort] ++
    (if h.taskStackInPsram then [.setTaskStackInPsram true] else []) ++
    deviceInfo cfg h ++
    (h.staticPairingCode.map Stmt.setStaticPairingCode).toList ++
    startRequests h c.switchTypes ++
    (if dynamicCode then [.setPairingCodeDisplaySupported true] else []) ++
    (if cfg.mdnsEnableDisable then [.setMdns] else []), d)

/-- `to_code` of a hub. -/
def toCode (cfg : Config) (w : Output) (h : HubConfig) : Except String Output :=
  let (stmts, d) := hubStmts cfg w.data h
  let d := { d with sdkconfigJobScheduled := true }
  let (c, d) := d.getCodegenData cfg.hubs.length (some h.id)
  let defines := if d.roleDefinesEmitted then w.defines else w.defines ++ roleDefines d
  let d := { d with roleDefinesEmitted := true }
  (roleStmts d h c).map fun roles =>
    { data := d
      code := w.code ++ (stmts ++ roles).map (h.id, ·)
      defines := defines
      components := w.components ++ [("sendspin/sendspin-cpp", h.sendspinCppRef)]
      sdkconfig :=
        if cfg.mdnsEnableDisable then w.sdkconfig.add "CONFIG_MDNS_MULTIPLE_INSTANCE" true
        else w.sdkconfig }

def enableOption (name : String) : String := "CONFIG_SENDSPIN_ENABLE_" ++ name

/-- The role flags the hubs need. -/
def ComponentData.requested (d : ComponentData) : List (String × Bool) :=
  (Role.all.map fun r => (r.name, d.anySupport r)) ++
    [("OPUS", d.hubs.entries.any fun x => x.2.playerConfig.any fun p => p.codecs.contains .opus)]

/-- `_finalize_sendspin_sdkconfig`. -/
def finalizeSdkconfig (cfg : Config) (d : ComponentData) (s : Sdkconfig) : Sdkconfig :=
  let s := d.requested.foldl
    (fun s (role, enabled) =>
      if enabled || !cfg.coreSendspin then s.add (enableOption role) enabled else s) s
  if !cfg.coreSendspin then
    (s.add (enableOption "COLOR") false).add (enableOption "SOURCE") false
  else s

/-- The code generation of the hubs in some order, and the job that runs last, over the options
that core has set by then. -/
def generate (cfg : Config) (d : ComponentData) (order : List HubConfig) (core : Sdkconfig) :
    Except String Output :=
  (order.foldlM (toCode cfg) ⟨d, [], [], [], core⟩).map fun w =>
    if w.data.sdkconfigJobScheduled then
      { w with sdkconfig := finalizeSdkconfig cfg w.data w.sdkconfig }
    else w

end SendspinMc.Codegen
