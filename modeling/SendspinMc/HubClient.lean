import SendspinMc.Lib.Runs
import Mathlib.Data.UInt

/-!
A hub: the requests it holds, the library client it starts and stops from `loop()`, and its
entry in the mDNS responder it shares with the other hubs.

A node is a hub with the responder it sees and a log, newest entry first, of the calls made
to it and by it. Callbacks that run inside a client call can make requests of their own.
-/

namespace SendspinMc.HubClient

open SendspinMc.Lib.Runs

/-- What the hub uses of the library's `SendspinClient`. -/
structure Client where
  started : Bool
  unpaired : Bool
  deriving DecidableEq

structure Service where
  name : String
  port : UInt16
  deriving DecidableEq

/-- The mDNS responder: a service name is taken by at most one `mdns_service_add`. -/
structure Responder where
  ready : Bool
  services : List Service

def Responder.has (r : Responder) (name : String) : Bool := r.services.any (·.name = name)

/-- `mdns_service_add`, and whether it answers `ESP_OK`. -/
def Responder.add (r : Responder) (name : String) (port : UInt16) : Bool × Responder :=
  if r.has name then (false, r) else (true, { r with services := ⟨name, port⟩ :: r.services })

/-- `mdns_service_remove_for_host`, and whether it answers `ESP_OK`. -/
def Responder.remove (r : Responder) (name : String) : Bool × Responder :=
  (r.has name, { r with services := r.services.eraseP (·.name = name) })

/-- The services of one name. -/
def Responder.entries (r : Responder) (name : String) : List Service :=
  r.services.filter (·.name = name)

/-- The services of every other name. -/
def Responder.others (r : Responder) (name : String) : List Service :=
  r.services.filter (·.name ≠ name)

structure Hub where
  clientName : String
  serverPort : UInt16
  client : Option Client
  enabled : Option Bool
  unpairedAccess : Option Bool
  /-- The component's error status. -/
  error : Bool
  mdnsAdvertised : Bool

def Hub.isClientRunning (h : Hub) : Bool := h.client.any (·.started)

/-- A call made to the hub, by the hub, or the return of one. -/
inductive Obs
  | setEnabled (enabled : Bool)
  | setUnpairedAccess (enabled : Bool)
  | shutdown
  | start (unpaired : Bool)
  | started
  | failed
  | stop
  | stopped
  | mdnsAdd (name : String) (port : UInt16) (ok : Bool)
  | mdnsRemove (name : String) (ok : Bool)
  deriving DecidableEq

structure Node where
  hub : Hub
  log : List Obs
  responder : Responder

def Node.note (n : Node) (o : Obs) : Node := { n with log := o :: n.log }

def Node.mapClient (n : Node) (f : Client → Client) : Node :=
  { n with hub := { n.hub with client := n.hub.client.map f } }

/-! ### Requests -/

/-- `SendspinMcHub::set_enabled`. -/
def Node.setEnabled (n : Node) (enabled : Bool) : Node :=
  let n := n.note (.setEnabled enabled)
  if n.hub.error then n else { n with hub := { n.hub with enabled := some enabled } }

/-- `SendspinMcHub::set_unpaired_access_enabled`. -/
def Node.setUnpairedAccessEnabled (n : Node) (enabled : Bool) : Node :=
  let n := n.note (.setUnpairedAccess enabled)
  { n with
    hub :=
      { n.hub with
        unpairedAccess := some enabled
        client := n.hub.client.map fun c => { c with unpaired := enabled } } }

/-- A setter call made by a callback. -/
inductive Request
  | enabled (b : Bool)
  | unpairedAccess (b : Bool)
  deriving DecidableEq

def Node.request (n : Node) : Request → Node
  | .enabled b => n.setEnabled b
  | .unpairedAccess b => n.setUnpairedAccessEnabled b

def Node.requests (n : Node) (calls : List Request) : Node := calls.foldl Node.request n

/-! ### The library client -/

/-- `SendspinMcHub::setup`, as far as the client's setting goes: the library's own default
holds until the stored request is applied. -/
def Node.setup (n : Node) (default : Bool) : Node :=
  let c : Client := ⟨false, default⟩
  let c :=
    match n.hub.unpairedAccess with
    | some u => { c with unpaired := u }
    | none => c
  { n with hub := { n.hub with client := some c } }

/-- `client_->start()`, which leaves the client started exactly when it answers `true`. -/
def Node.clientStart (n : Node) (c : Client) (ok : Bool) (calls : List Request) : Node :=
  let n := (n.note (.start c.unpaired)).requests calls
  if ok then (n.mapClient fun c => { c with started := true }).note .started else n

/-- `client_->stop()`. -/
def Node.clientStop (n : Node) (calls : List Request) : Node :=
  let n := (n.note .stop).requests calls
  (n.mapClient fun c => { c with started := false }).note .stopped

/-- `status_set_error`. -/
def Node.statusSetError (n : Node) : Node :=
  { n.note .failed with hub := { n.hub with error := true } }

/-- `update_mdns_service_`. -/
def Node.updateMdnsService (n : Node) : Node :=
  if !n.responder.ready then n
  else
    let advertise := n.hub.isClientRunning
    if advertise = n.hub.mdnsAdvertised then n
    else
      let hub := { n.hub with mdnsAdvertised := advertise }
      if advertise then
        let (ok, r) := n.responder.add hub.clientName hub.serverPort
        ⟨hub, .mdnsAdd hub.clientName hub.serverPort ok :: n.log, r⟩
      else
        let (ok, r) := n.responder.remove hub.clientName
        ⟨hub, .mdnsRemove hub.clientName ok :: n.log, r⟩

/-- What the library does in one `loop()`: whether a start succeeds, and the requests made by
callbacks inside its start or stop and inside its own loop. -/
structure LoopEnv where
  startOk : Bool
  inCall : List Request
  inLoop : List Request
  deriving DecidableEq

/-- The first half of `SendspinMcHub::loop`. -/
def Node.applyRequest (n : Node) (c : Client) (env : LoopEnv) : Node :=
  match n.hub.enabled, n.hub.unpairedAccess with
  | some enabled, some _ =>
    if enabled ≠ c.started ∧ n.hub.error = false then
      if !enabled then n.clientStop env.inCall
      else
        let n := n.clientStart c env.startOk env.inCall
        if !env.startOk then n.statusSetError else n
    else n
  | _, _ => n

/-- `SendspinMcHub::loop`, which needs the client `setup()` makes. -/
def Node.loop (n : Node) (env : LoopEnv) : Option Node :=
  n.hub.client.map fun c =>
    ((n.applyRequest c env).requests env.inLoop).updateMdnsService

/-- `SendspinMcHub::on_shutdown`. -/
def Node.onShutdown (n : Node) (calls : List Request) : Node :=
  let n := n.note .shutdown
  let n := { n with hub := { n.hub with enabled := some false } }
  if n.hub.isClientRunning then n.clientStop calls else n

/-! ### Runs -/

/-- An operation of one hub. -/
inductive Op
  | setup (default : Bool)
  | setEnabled (enabled : Bool)
  | setUnpairedAccess (enabled : Bool)
  | loop (env : LoopEnv)
  | shutdown (calls : List Request)
  deriving DecidableEq

/-- `setup()` runs once, and `loop()` only after it. -/
def Node.op (n : Node) : Op → Option Node
  | .setup d => if n.hub.client.isSome then none else some (n.setup d)
  | .setEnabled b => some (n.setEnabled b)
  | .setUnpairedAccess b => some (n.setUnpairedAccessEnabled b)
  | .loop env => n.loop env
  | .shutdown calls => some (n.onShutdown calls)

/-- One hub, while others change the responder as they like. -/
inductive Ev
  | op (o : Op)
  | mdns (r : Responder)

def step (n : Node) : Ev → Option Node
  | .op o => n.op o
  | .mdns r => some { n with responder := r }

/-- A hub as its constructor leaves it. -/
structure Hub.Fresh (h : Hub) : Prop where
  client : h.client = none
  enabled : h.enabled = none
  unpairedAccess : h.unpairedAccess = none
  error : h.error = false
  mdnsAdvertised : h.mdnsAdvertised = false

def Fresh (n : Node) : Prop := n.hub.Fresh ∧ n.log = []

abbrev Reachable : Node → Prop := Reach step Fresh

/-! ### What the log says -/

/-- The latest accepted request for the client to run: a request made once a start has failed
is rejected, and a shutdown asks for the client to stop. -/
def latestEnabled : List Obs → Option Bool
  | [] => none
  | .setEnabled b :: t => if .failed ∈ t then latestEnabled t else some b
  | .shutdown :: _ => some false
  | _ :: t => latestEnabled t

/-- The latest request for unpaired access. -/
def latestUnpaired : List Obs → Option Bool
  | [] => none
  | .setUnpairedAccess b :: _ => some b
  | _ :: t => latestUnpaired t

/-- The client is between a start that succeeded and the return of the next stop. -/
def running : List Obs → Bool
  | [] => false
  | .started :: _ => true
  | .stopped :: _ => false
  | _ :: t => running t

/-- The state the hub last asked the responder for. -/
def advertised : List Obs → Bool
  | [] => false
  | .mdnsAdd _ _ _ :: _ => true
  | .mdnsRemove _ _ :: _ => false
  | _ :: t => advertised t

end SendspinMc.HubClient
