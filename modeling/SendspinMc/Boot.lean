import SendspinMc.HubFields
import SendspinMc.Lib.Phases

/-!
The boot of the generated program.

The generated calls fill in the hubs and name each player's listener. Then every component is set
up in the order of its priority: a hub makes its client with the roles it has been given, a child
registers its callbacks with its hub or takes the hub's player role. From then on the library
tells each hub's listeners what the server says.
-/

namespace SendspinMc.Boot

open SendspinMc.Codegen SendspinMc.HubCode SendspinMc.HubFields
open SendspinMc.Lib.Writes SendspinMc.Lib.Phases

/-! ### The generated calls -/

/-- The class of a child's variable, and the slot that an image is made with. -/
inductive Kind
  | imageSlot (slot : UInt8)
  | mediaSource
  | mediaPlayer
  | sensor
  | textSensor
  | pairingCodeTextSensor
  | switch (t : SwitchType)
  deriving DecidableEq

/-- A child's variable, with its `parent_`. -/
structure Var where
  parent : String
  kind : Kind
  deriving DecidableEq

variable {ι : Type*}

/-- A generated call on a hub: one of its own setters, or `set_listener` of a media source. -/
inductive Instr (ι : Type*)
  | call (hub : String) (s : Stmt)
  | setListener (hub : String) (source : ι)

def Instr.call? : Instr ι → Option (String × Stmt)
  | .call h s => some (h, s)
  | .setListener _ _ => none

/-- A hub's variable: its fields and `player_listener_`. -/
structure HubVar (ι : Type*) where
  fields : Hub
  listener : Option ι

def exec (hubs : String → HubVar ι) : Instr ι → String → HubVar ι
  | .call h s => Function.update hubs h { hubs h with fields := (hubs h).fields.set s }
  | .setListener h i => Function.update hubs h { hubs h with listener := some i }

/-- The hubs once the generated code has run. -/
def generated (p : Platform) (main : List (Instr ι)) : String → HubVar ι :=
  main.foldl exec fun _ => ⟨.new p, none⟩

/-! ### Setting up -/

/-- The roles of a client, as they are added: the artwork's configuration, and the player's with
its listener. A configuration that was not set is the library's own. -/
structure Client (ι : Type*) where
  artwork : Option (Option ArtworkRoleConfig)
  controller : Bool
  metadata : Bool
  player : Option (Option PlayerRoleConfig × Option ι)

/-- `SendspinMcHub::setup`: a role's code is there under its define. -/
def HubVar.setup (defines : List String) (h : HubVar ι) : Client ι where
  artwork :=
    if Role.artwork.define ∈ defines ∧ h.fields.support .artwork then some h.fields.artworkConfig
    else none
  controller := decide (Role.controller.define ∈ defines) && h.fields.support .controller
  metadata := decide (Role.metadata.define ∈ defines) && h.fields.support .metadata
  player :=
    if Role.player.define ∈ defines ∧ h.fields.support .player then
      some (h.fields.playerConfig, h.listener)
    else none

/-- The hub's callback managers that children register with. -/
inductive Topic
  | groupUpdate | controllerState | controllerStateClear | metadataUpdate
  | imageDecode | imageDisplay | imageClear
  | displayPairingCode | clearPairingCode
  deriving DecidableEq

/-- What the `setup()` of a class registers. -/
def Kind.topics : Kind → List Topic
  | .imageSlot _ => [.imageDecode, .imageDisplay, .imageClear]
  | .mediaPlayer => [.groupUpdate, .controllerState, .controllerStateClear]
  | .sensor | .textSensor => [.metadataUpdate]
  | .pairingCodeTextSensor => [.displayPairingCode, .clearPairingCode]
  | .mediaSource | .switch _ => []

structure World (ι : Type*) where
  hubs : String → HubVar ι
  /-- Each hub's `client_`, which is there once the hub is ready. -/
  clients : String → Option (Client ι)
  callbacks : String → Topic → List ι
  /-- The hub that a source's `player_role_` is of. -/
  playerRole : ι → Option String

inductive Component (ι : Type*)
  | hub (id : String)
  | child (i : ι)
  deriving DecidableEq

/-- `sendspin_mc_priority`. -/
def hubPriority : ℤ := 200

def childPriority : ℤ := hubPriority - 1

def Component.priority : Component ι → ℤ
  | .hub _ => hubPriority
  | .child _ => childPriority

/-- `SendspinMcHub::get_player_role`. -/
def World.getPlayerRole (w : World ι) (h : String) : Option String :=
  (w.clients h).bind fun c =>
    if (w.hubs h).fields.support .player then c.player.map fun _ => h else none

def World.register (w : World ι) (h : String) (i : ι) (topics : List Topic) : World ι :=
  { w with
    callbacks := fun h' t =>
      w.callbacks h' t ++ if h' = h ∧ t ∈ topics then [i] else [] }

section Setup

variable [DecidableEq ι] (defines : List String) (vars : ι → Option Var) (allocated : ι → Bool)

/-- The `setup()` of a child; that of an image registers nothing if the frames cannot be
allocated. -/
def World.setupChild (w : World ι) (i : ι) (v : Var) : World ι :=
  match v.kind with
  | .mediaSource =>
    { w with playerRole := Function.update w.playerRole i (w.getPlayerRole v.parent) }
  | .imageSlot _ => if allocated i then w.register v.parent i v.kind.topics else w
  | _ => w.register v.parent i v.kind.topics

def World.setup (w : World ι) : Component ι → World ι
  | .hub h => { w with clients := Function.update w.clients h (some ((w.hubs h).setup defines)) }
  | .child i =>
    match vars i with
    | some v => w.setupChild allocated i v
    | none => w

/-- The device once every component is set up. -/
def boot (p : Platform) (main : List (Instr ι)) (order : List (Component ι)) : World ι :=
  order.foldl (World.setup defines vars allocated)
    ⟨generated p main, fun _ => none, fun _ _ => [], fun _ => none⟩

end Setup

/-! ### What the library tells -/

/-- What the client of a hub tells a listener. -/
inductive Signal
  | groupUpdate
  | controllerState
  | controllerStateClear
  | metadata
  | metadataClear
  | imageDecode (slot : UInt8)
  | imageDisplay (slot : UInt8)
  | imageClear (slot : UInt8)
  | displayPairingCode
  | clearPairingCode
  /-- Any call of `PlayerRoleListener`. -/
  | player
  deriving DecidableEq

/-- The role behind a signal; the client tells the others by itself. -/
def Signal.role : Signal → Option Role
  | .groupUpdate | .displayPairingCode | .clearPairingCode => none
  | .controllerState | .controllerStateClear => some .controller
  | .metadata | .metadataClear => some .metadata
  | .imageDecode _ | .imageDisplay _ | .imageClear _ => some .artwork
  | .player => some .player

def Client.has (c : Client ι) : Role → Bool
  | .artwork => c.artwork.isSome
  | .controller => c.controller
  | .metadata => c.metadata
  | .player => c.player.isSome
  | .visualizer => false

def Client.tells (c : Client ι) (s : Signal) : Bool := s.role.all c.has

/-- The callbacks that the hub calls. A player's listener is no hub. -/
def Signal.topic : Signal → Option Topic
  | .groupUpdate => some .groupUpdate
  | .controllerState => some .controllerState
  | .controllerStateClear => some .controllerStateClear
  | .metadata | .metadataClear => some .metadataUpdate
  | .imageDecode _ => some .imageDecode
  | .imageDisplay _ => some .imageDisplay
  | .imageClear _ => some .imageClear
  | .displayPairingCode => some .displayPairingCode
  | .clearPairingCode => some .clearPairingCode
  | .player => none

/-- The slot that the callbacks of an image filter by. -/
def Signal.slot : Signal → Option UInt8
  | .imageDecode n | .imageDisplay n | .imageClear n => some n
  | _ => none

/-- The callback of a class goes on to its handler. -/
def Kind.accepts (k : Kind) (s : Signal) : Bool := s.slot.all fun n => k = .imageSlot n

/-- The children that act on what the hub's client tells. -/
def World.react (w : World ι) (vars : ι → Option Var) (h : String) (s : Signal) : List ι :=
  match w.clients h with
  | none => []
  | some c =>
    if c.tells s then
      match s.topic with
      | some t => (w.callbacks h t).filter fun i => (vars i).any fun v => v.kind.accepts s
      | none => (c.player.bind (·.2)).toList
    else []

/-! ### What the generated calls leave -/

lemma generated_fields (p : Platform) (main : List (Instr ι)) (h : String) :
    (generated p main h).fields = configured p (main.filterMap Instr.call?) h := by
  have hfold : ∀ hubs : String → HubVar ι, (main.foldl exec hubs h).fields =
      (calls (main.filterMap Instr.call?) h).foldl Hub.set (hubs h).fields := by
    induction main with
    | nil => exact fun _ => rfl
    | cons x main ih =>
      intro hubs
      rw [List.foldl_cons, ih]
      cases x with
      | setListener h' i =>
        rw [List.filterMap_cons_none rfl]
        by_cases hh : h = h'
        · subst hh
          simp [exec]
        · simp [exec, hh]
      | call h' s =>
        have hcons : (Instr.call h' s :: main).filterMap Instr.call? =
            (h', s) :: main.filterMap Instr.call? := List.filterMap_cons_some rfl
        rw [hcons]
        by_cases hh : h = h'
        · subst hh
          simp [exec, calls]
        · have hnone : calls ((h', s) :: main.filterMap Instr.call?) h =
              calls (main.filterMap Instr.call?) h :=
            List.filterMap_cons_none (if_neg fun hc => hh hc.symm)
          rw [hnone]
          simp [exec, hh]
  exact hfold _

/-- The listener that an instruction gives a hub. -/
def listenerOf (h : String) : Instr ι → Option (Option ι)
  | .setListener h' i => if h' = h then some (some i) else none
  | .call _ _ => none

lemma sets_listener (h : String) :
    Sets exec (fun hubs : String → HubVar ι => (hubs h).listener) (listenerOf h) := by
  intro hubs x
  cases x with
  | call h' s =>
    by_cases hh : h = h'
    · subst hh
      simp [exec, listenerOf]
    · simp [exec, listenerOf, hh]
  | setListener h' i =>
    by_cases hh : h = h'
    · subst hh
      simp [exec, listenerOf]
    · rw [listenerOf, if_neg fun hc => hh hc.symm]
      simp [exec, hh]

lemma generated_listener {p : Platform} {main : List (Instr ι)} {h : String} {i : ι}
    (hi : .setListener h i ∈ main) (hu : ∀ j, .setListener h j ∈ main → j = i) :
    (generated p main h).listener = some i := by
  refine (sets_listener h).agree ⟨_, hi, by simp [listenerOf]⟩ fun x hx o ho => ?_
  cases x with
  | call h' s => cases ho
  | setListener h' j =>
    rw [listenerOf] at ho
    split at ho
    · rename_i hh
      subst hh
      rw [← Option.some.inj ho, hu j hx]
    · cases ho

/-! ### What a setup changes -/

section Setup

variable {defines : List String} {vars : ι → Option Var} {allocated : ι → Bool}

/-- The child registers callbacks: it is no media source, and an image has its frames. -/
def registers (allocated : ι → Bool) (i : ι) (v : Var) : Bool :=
  match v.kind with
  | .imageSlot _ => allocated i
  | _ => true

/-- What a component appends to the callbacks of a hub. -/
def appended (vars : ι → Option Var) (allocated : ι → Bool) (h : String) (t : Topic) :
    Component ι → List ι
  | .hub _ => []
  | .child i =>
    match vars i with
    | some v =>
      if registers allocated i v = true ∧ h = v.parent ∧ t ∈ v.kind.topics then [i] else []
    | none => []

lemma appended_child {i : ι} {v : Var} (hv : vars i = some v) (h : String) (t : Topic) :
    appended vars allocated h t (.child i) =
      if registers allocated i v = true ∧ h = v.parent ∧ t ∈ v.kind.topics then [i] else [] := by
  simp [appended, hv]

lemma appended_none {i : ι} (hv : vars i = none) (h : String) (t : Topic) :
    appended vars allocated h t (.child i) = [] := by simp [appended, hv]

lemma eq_of_mem_appended {h : String} {t : Topic} {c : Component ι} {i : ι}
    (hi : i ∈ appended vars allocated h t c) : c = .child i := by
  cases c with
  | hub h' => cases hi
  | child j =>
    cases hv : vars j with
    | none =>
      rw [appended_none hv] at hi
      cases hi
    | some v =>
      rw [appended_child hv] at hi
      split at hi
      · rw [List.mem_singleton.mp hi]
      · cases hi

variable [DecidableEq ι]

lemma setup_child {i : ι} {v : Var} (hv : vars i = some v) (w : World ι) :
    w.setup defines vars allocated (.child i) = w.setupChild allocated i v := by
  simp [World.setup, hv]

lemma setup_none {i : ι} (hv : vars i = none) (w : World ι) :
    w.setup defines vars allocated (.child i) = w := by simp [World.setup, hv]

lemma setupChild_spec (w : World ι) (i : ι) (v : Var) :
    (w.setupChild allocated i v).hubs = w.hubs ∧
      (w.setupChild allocated i v).clients = w.clients ∧
      (w.setupChild allocated i v).playerRole =
        (if v.kind = .mediaSource then
          Function.update w.playerRole i (w.getPlayerRole v.parent) else w.playerRole) ∧
      ∀ h t, (w.setupChild allocated i v).callbacks h t = w.callbacks h t ++
        if registers allocated i v = true ∧ h = v.parent ∧ t ∈ v.kind.topics then [i] else [] := by
  obtain ⟨parent, kind⟩ := v
  cases kind with
  | imageSlot n => cases ha : allocated i <;> simp [World.setupChild, World.register, registers, ha]
  | mediaSource => simp [World.setupChild, registers, Kind.topics]
  | _ => simp [World.setupChild, World.register, registers]

lemma setup_hubs (w : World ι) (c : Component ι) :
    (w.setup defines vars allocated c).hubs = w.hubs := by
  cases c with
  | hub h => rfl
  | child i =>
    cases hv : vars i with
    | none => rw [setup_none hv]
    | some v => rw [setup_child hv, (setupChild_spec w i v).1]

lemma foldl_hubs (w : World ι) (order : List (Component ι)) :
    (order.foldl (World.setup defines vars allocated) w).hubs = w.hubs := by
  induction order generalizing w with
  | nil => rfl
  | cons c order ih => rw [List.foldl_cons, ih, setup_hubs]

lemma collects_callbacks (h : String) (t : Topic) :
    Collects (World.setup defines vars allocated) (fun w => w.callbacks h t)
      (appended vars allocated h t) := by
  intro w c
  cases c with
  | hub h' => simp [World.setup, appended]
  | child i =>
    cases hv : vars i with
    | none => rw [setup_none hv, appended_none hv, List.append_nil]
    | some v =>
      rw [setup_child hv, appended_child hv]
      exact (setupChild_spec w i v).2.2.2 h t

theorem boot_callbacks (p : Platform) (main : List (Instr ι)) (order : List (Component ι))
    (h : String) (t : Topic) :
    (boot defines vars allocated p main order).callbacks h t =
      order.flatMap (appended vars allocated h t) := by
  rw [boot, (collects_callbacks h t).foldl, List.nil_append]

lemma mem_boot_callbacks {p : Platform} {main : List (Instr ι)} {order : List (Component ι)}
    {h : String} {t : Topic} {i : ι} :
    i ∈ (boot defines vars allocated p main order).callbacks h t ↔
      .child i ∈ order ∧ ∃ v, vars i = some v ∧ registers allocated i v = true ∧ v.parent = h ∧
        t ∈ v.kind.topics := by
  rw [boot_callbacks, List.mem_flatMap]
  constructor
  · rintro ⟨c, hc, hi⟩
    obtain rfl := eq_of_mem_appended hi
    cases hv : vars i with
    | none =>
      rw [appended_none hv] at hi
      cases hi
    | some v =>
      rw [appended_child hv] at hi
      split at hi
      · rename_i hreg
        exact ⟨hc, v, rfl, hreg.1, hreg.2.1.symm, hreg.2.2⟩
      · cases hi
  · rintro ⟨hc, v, hv, hreg, rfl, ht⟩
    refine ⟨_, hc, ?_⟩
    rw [appended_child hv, if_pos ⟨hreg, rfl, ht⟩]
    exact List.mem_singleton_self i

lemma nodup_boot_callbacks {p : Platform} {main : List (Instr ι)} {order : List (Component ι)}
    (hn : order.Nodup) (h : String) (t : Topic) :
    ((boot defines vars allocated p main order).callbacks h t).Nodup := by
  rw [boot_callbacks]
  refine List.nodup_flatMap.mpr ⟨fun c _ => ?_, hn.imp fun {a b} hab j ha hb => ?_⟩
  · cases c with
    | hub h' => exact List.nodup_nil
    | child i =>
      cases hv : vars i with
      | none => simp [appended_none hv]
      | some v =>
        rw [appended_child hv]
        split <;> simp
  · exact hab ((eq_of_mem_appended ha).trans (eq_of_mem_appended hb).symm)

/-! ### The two phases -/

def Component.isHub : Component ι → Bool
  | .hub _ => true
  | .child _ => false

omit [DecidableEq ι] in
lemma phased_of_priority {order : List (Component ι)}
    (hs : order.Pairwise fun a b => b.priority ≤ a.priority) : Phased Component.isHub order := by
  have hp := phased_of_sorted (p := hubPriority) hs
  have heq : (fun c : Component ι => decide (hubPriority ≤ c.priority)) = Component.isHub := by
    funext c
    cases c <;> simp [Component.priority, Component.isHub, childPriority]
  rwa [heq] at hp

lemma foldl_clients {hubs : List (Component ι)} (hh : ∀ c ∈ hubs, c.isHub = true) (w : World ι)
    (h : String) :
    (hubs.foldl (World.setup defines vars allocated) w).clients h =
      if Component.hub h ∈ hubs then some ((w.hubs h).setup defines) else w.clients h := by
  induction hubs generalizing w with
  | nil => rfl
  | cons c hubs ih =>
    rw [List.foldl_cons, ih fun c' hc => hh c' (List.mem_cons_of_mem c hc), setup_hubs]
    cases c with
    | child i => cases hh _ List.mem_cons_self
    | hub h' =>
      by_cases heq : h = h'
      · subst heq
        simp [World.setup]
      · simp [World.setup, heq]

lemma foldl_children {children : List (Component ι)} (hc : ∀ c ∈ children, c.isHub = false)
    (w : World ι) :
    (children.foldl (World.setup defines vars allocated) w).clients = w.clients ∧
      ∀ i v, vars i = some v → v.kind = .mediaSource → .child i ∈ children →
        (children.foldl (World.setup defines vars allocated) w).playerRole i =
          w.getPlayerRole v.parent := by
  induction children using List.reverseRecOn with
  | nil => exact ⟨rfl, fun i v _ _ hm => by cases hm⟩
  | append_singleton children c ih =>
    obtain ⟨hclients, hroles⟩ := ih fun c' hm => hc c' (List.mem_append_left _ hm)
    have hlast := hc c (by simp)
    rw [List.foldl_append, List.foldl_cons, List.foldl_nil]
    set u := children.foldl (World.setup defines vars allocated) w with hu
    have hhubs : u.hubs = w.hubs := foldl_hubs w children
    have hrole : ∀ h, u.getPlayerRole h = w.getPlayerRole h := fun h => by
      rw [World.getPlayerRole, World.getPlayerRole, hclients, hhubs]
    cases c with
    | hub h => cases hlast
    | child j =>
      have hold : ∀ i v, vars i = some v → v.kind = .mediaSource →
          .child i ∈ children ++ [Component.child j] → i ≠ j →
          u.playerRole i = w.getPlayerRole v.parent := fun i v hv hk hm hne => by
        refine hroles i v hv hk ((List.mem_append.mp hm).resolve_right fun hl => hne ?_)
        simpa using hl
      cases hj : vars j with
      | none =>
        rw [setup_none hj]
        refine ⟨hclients, fun i v hv hk hm => hold i v hv hk hm fun he => ?_⟩
        rw [he, hj] at hv
        cases hv
      | some vj =>
        obtain ⟨-, hcl, hpr, -⟩ := @setupChild_spec _ allocated _ u j vj
        rw [setup_child hj, hcl, hpr]
        refine ⟨hclients, fun i v hv hk hm => ?_⟩
        by_cases hij : i = j
        · subst hij
          obtain rfl := Option.some.inj (hj.symm.trans hv)
          rw [if_pos hk, Function.update_self, hrole]
        · rw [← hold i v hv hk hm hij]
          split
          · rw [Function.update_of_ne hij]
          · rfl

theorem boot_clients {p : Platform} {main : List (Instr ι)} {order : List (Component ι)}
    (hs : order.Pairwise fun a b => b.priority ≤ a.priority) :
    (∀ h, .hub h ∈ order → (boot defines vars allocated p main order).clients h =
      some ((generated p main h).setup defines)) ∧
    ∀ i v, vars i = some v → v.kind = .mediaSource → .child i ∈ order → .hub v.parent ∈ order →
      (boot defines vars allocated p main order).playerRole i =
        if (generated p main v.parent).fields.support .player ∧
          Role.player.define ∈ defines then some v.parent else none := by
  have hph := phased_of_priority hs
  rw [boot, hph.foldl]
  set w₀ : World ι := ⟨generated p main, fun _ => none, fun _ _ => [], fun _ => none⟩
  have hclient : ∀ h, .hub h ∈ order →
      ((order.filter Component.isHub).foldl (World.setup defines vars allocated) w₀).clients h =
        some ((generated p main h).setup defines) := fun h hm => by
    rw [foldl_clients (fun c hc => (List.mem_filter.mp hc).2),
      if_pos (List.mem_filter.mpr ⟨hm, rfl⟩)]
  have hchildren : ∀ c ∈ order.filter (!Component.isHub ·), c.isHub = false :=
    fun c hc => by simpa using (List.mem_filter.mp hc).2
  obtain ⟨hkeep, hroles⟩ := foldl_children hchildren
    ((order.filter Component.isHub).foldl (World.setup defines vars allocated) w₀)
  refine ⟨fun h hm => by rw [hkeep, hclient h hm], fun i v hv hk hi hh => ?_⟩
  rw [hroles i v hv hk (List.mem_filter.mpr ⟨hi, rfl⟩), World.getPlayerRole, hclient _ hh,
    foldl_hubs]
  by_cases hp : (generated p main v.parent).fields.support .player = true
  · by_cases hd : Role.player.define ∈ defines <;> simp [HubVar.setup, w₀, hp, hd]
  · simp [w₀, hp]

lemma react_of_not_mem {p : Platform} {main : List (Instr ι)} {order : List (Component ι)}
    {h : String} (hh : .hub h ∉ order) (s : Signal) :
    (boot defines vars allocated p main order).react vars h s = [] := by
  have hkeep : ∀ w : World ι,
      (order.foldl (World.setup defines vars allocated) w).clients h = w.clients h := by
    induction order with
    | nil => exact fun _ => rfl
    | cons c order ih =>
      obtain ⟨hc, ho⟩ := not_or.mp (List.mem_cons.not.mp hh)
      intro w
      rw [List.foldl_cons, ih ho]
      cases c with
      | hub h' =>
        have hne : h ≠ h' := fun he => hc (he ▸ rfl)
        simp [World.setup, hne]
      | child i =>
        cases hv : vars i with
        | none => rw [setup_none hv]
        | some v => rw [setup_child hv, (setupChild_spec w i v).2.1]
  rw [World.react, boot, hkeep]

/-- **What reaches whom**: once its role is added, what the client of a hub tells runs the handlers
of the hub's children that registered for it, each once, or those of the player's listener. -/
theorem react_spec {p : Platform} {main : List (Instr ι)} {order : List (Component ι)}
    (hs : order.Pairwise fun a b => b.priority ≤ a.priority) (hn : order.Nodup) {h : String}
    (hh : .hub h ∈ order) (s : Signal) :
    ((boot defines vars allocated p main order).react vars h s).Nodup ∧
    ∀ i, i ∈ (boot defines vars allocated p main order).react vars h s ↔
      ((generated p main h).setup defines).tells s = true ∧
        match s.topic with
        | some t => .child i ∈ order ∧ ∃ v, vars i = some v ∧ registers allocated i v = true ∧
            v.parent = h ∧ t ∈ v.kind.topics ∧ v.kind.accepts s = true
        | none => (generated p main h).listener = some i := by
  unfold World.react
  rw [(boot_clients hs).1 h hh]
  dsimp only
  by_cases ht : ((generated p main h).setup defines).tells s = true
  · rw [if_pos ht]
    simp only [ht, true_and]
    cases htop : s.topic with
    | some t =>
      refine ⟨(nodup_boot_callbacks hn h t).filter _, fun i => ?_⟩
      rw [List.mem_filter, mem_boot_callbacks]
      constructor
      · rintro ⟨⟨hi, v, hv, hreg, hpar, hmem⟩, hacc⟩
        rw [hv] at hacc
        exact ⟨hi, v, hv, hreg, hpar, hmem, hacc⟩
      · rintro ⟨hi, v, hv, hreg, hpar, hmem, hacc⟩
        exact ⟨⟨hi, v, hv, hreg, hpar, hmem⟩, by rw [hv]; exact hacc⟩
    | none =>
      -- only the player's signal has no callbacks
      have hpl : s = .player := by cases s <;> first | rfl | cases htop
      subst hpl
      have hbind : ((generated p main h).setup defines).player.bind (·.2) =
          (generated p main h).listener := by
        change ((generated p main h).setup defines).player.isSome = true at ht
        unfold HubVar.setup at ht ⊢
        dsimp only at ht ⊢
        split at ht
        · rename_i hp
          rw [if_pos hp]
          rfl
        · cases ht
      rw [hbind]
      cases (generated p main h).listener <;> simp [eq_comm]
  · rw [if_neg ht]
    simp [ht]

end Setup

end SendspinMc.Boot
