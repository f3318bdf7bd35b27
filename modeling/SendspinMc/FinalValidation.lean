import SendspinMc.ClientIds
import SendspinMc.HubView
import Mathlib.Data.List.Dedup

/-!
The final validation.

It runs once the ids are resolved, over every hub and every entry, in an order that is not
fixed. The hubs' checks read what the entries have asked for so far, the images are registered
in between, and the check of all hubs together is left to the first of them. Warnings are left
out, but not what they read.
-/

namespace SendspinMc.FinalValidation

open SendspinMc.Codegen SendspinMc.Roles SendspinMc.HubView SendspinMc.ClientIds
open SendspinMc.Lib.Checks

/-! ### What is checked -/

/-- Who has a port. -/
inductive Owner
  /-- `the official sendspin server` -/
  | server
  /-- `the official sendspin HTTP control socket` -/
  | controlSocket
  /-- `sendspin_mc hub {hub_name!r}` -/
  | hub (name : String)

/-- What a final validation raises, by its text and path, or by what the text is formatted
from. -/
inductive Invalid
  | text (s : String) (path : List String)
  /-- `Each sendspin_mc hub must use the same sendspin_cpp_ref; got: {refs}` -/
  | refs (refs : List String)
  | identity (e : ClientIds.Invalid)
  /-- `sendspin_mc client name {name!r} conflicts with the official sendspin mDNS instance` -/
  | mdnsInstance (name : String)
  /-- `sendspin_mc {label} {port} for {hub_name!r} conflicts with {owner}` -/
  | port (label : String) (port : ℕ) (hubName : String) (owner : Owner)
  /-- What the registration of an image raises. -/
  | image (s : String)
  /-- `StopIteration`, of `next` -/
  | noHub

def staticPairingCodeDigits : ℕ := 8

/-- `_validate_static_pairing_code`, of a string: `isascii()` and `isdigit()` leave the digits
that `Char.isDigit` has. -/
def validateStaticPairingCode (value : String) : Except Invalid String :=
  if value.toList.length ≠ staticPairingCodeDigits ∨ ¬ value.toList.all Char.isDigit then
    .error (.text ("static_pairing_code must be exactly " ++ staticPairingCodeDigits.repr ++
      " decimal digits (quote the value so leading zeros are preserved, e.g. \"01234567\")") [])
  else .ok value

/-- The configuration of the device. -/
structure FullConfig where
  config : Config
  /-- `full_config["esphome"]["name"]`. -/
  deviceName : String
  entries : List Entry

/-! ### A hub -/

/-- `_has_pairing_method`. -/
def hasPairingMethod (cfg : Config) (d : ComponentData) (h : HubConfig) : Bool × ComponentData :=
  if h.staticPairingCode.isSome then (true, d) else offersDynamicPairingCode cfg d h

def checkRefs (hubs : List HubConfig) : Except Invalid Unit :=
  let refs := (hubs.map (·.sendspinCppRef)).dedup
  if 1 < refs.length then .error (.refs (refs.mergeSort fun a b => decide (a ≤ b))) else .ok ()

def checkMdnsInstance (casefold : String → String) (deviceName : String) (_ : Unit)
    (h : HubConfig) : Except Invalid Unit :=
  if casefold h.clientName = casefold deviceName then .error (.mdnsInstance h.clientName)
  else .ok ()

/-- One pass of the port loop. -/
def checkPort (hubName : String) (used : ℕ → Option Owner) (x : String × ℕ) :
    Except Invalid (ℕ → Option Owner) :=
  match used x.2 with
  | some owner => .error (.port x.1 x.2 hubName owner)
  | none => .ok (Function.update used x.2 (some (.hub hubName)))

def ports (h : HubConfig) : List (String × ℕ) :=
  [("server port", h.serverPort), ("control port", h.controlPort)]

def checkPorts (used : ℕ → Option Owner) (h : HubConfig) : Except Invalid (ℕ → Option Owner) :=
  (ports h).foldlM (checkPort h.clientName) used

/-- The ports of core sendspin. -/
def corePorts : ℕ → Option Owner
  | 8928 => some .server
  | 32769 => some .controlSocket
  | _ => none

/-- The ports taken before those of the hubs, once no hub has the name of core sendspin's
service. -/
def checkCore (casefold : String → String) (full : FullConfig) :
    Except Invalid (ℕ → Option Owner) :=
  if full.config.coreSendspin then
    (full.config.hubs.foldlM (checkMdnsInstance casefold full.deviceName) ()).map fun _ => corePorts
  else .ok fun _ => none

/-- The checks of all hubs together, for some `str.casefold`. -/
def checkHubs (casefold : String → String) (full : FullConfig) : Except Invalid Unit := do
  let hubs := full.config.hubs
  checkRefs hubs
  (checkUnique "client ID" id [] (hubs.map (·.clientId))).mapError .identity
  (checkUnique "client name" casefold [] (hubs.map (·.clientName))).mapError .identity
  let used ← checkCore casefold full
  (hubs.foldlM checkPorts used).map fun _ => ()

/-- `_final_validate` of a hub. -/
def finalValidate (casefold : String → String) (full : FullConfig) (d : ComponentData)
    (h : HubConfig) : Except Invalid ComponentData :=
  let (dynamicCode, d) := offersDynamicPairingCode full.config d h
  if dynamicCode && h.staticPairingCode.isSome then
    .error (.text ("'static_pairing_code' cannot be used with a dynamic pairing code " ++
      "(on_display_pairing_code or a pairing_code text sensor), since only " ++
      "one pairing code method can be offered") ["static_pairing_code"])
  else
    -- the warning reads the pairing method again
    let d := if h.unpairedAccess.getD true then d else (hasPairingMethod full.config d h).2
    if full.config.hubs.head?.map (·.id) ≠ some h.id then .ok d
    else (checkHubs casefold full).map fun _ => d

/-! ### The entries -/

def typeName : SwitchType → String
  | .enabled => "enabled"
  | .unpairedAccess => "unpaired_access"

/-- The switches of a type for the hub of a parent. -/
def sameType (full : FullConfig) (t : SwitchType) (parent : Option String) : List Entry :=
  full.entries.filter fun e =>
    e.child = .switch t && full.config.resolve e.parent = full.config.resolve parent

/-- `_final_validate` of a switch. -/
def switchFinalValidate (full : FullConfig) (d : ComponentData) (t : SwitchType)
    (parent : Option String) : Except Invalid ComponentData :=
  if 1 < (sameType full t parent).length then
    .error (.text ("Only one sendspin_mc '" ++ typeName t ++ "' switch is allowed per hub") [])
  else if t ≠ .unpairedAccess then .ok d
  else
    match full.config.hubs.find? fun h => some h.id = full.config.resolve parent with
    | none => .error .noHub
    | some h =>
      if h.unpairedAccess.isSome then
        .error (.text ("'sendspin_mc: unpaired_access' cannot be set together with an " ++
          "unpaired_access switch; set the switch's restore_mode instead") [])
      else .ok (hasPairingMethod full.config d h).2

/-- A call of a final validation. -/
inductive Step
  | hub (h : HubConfig)
  | entry (e : Entry)

def finalStep (casefold : String → String) (full : FullConfig) (d : ComponentData) :
    Step → Except Invalid ComponentData
  | .hub h => finalValidate casefold full d h
  | .entry e =>
    match e.child with
    | .image p =>
      ((assignSlotAndRegister d (full.config.resolve e.parent) p).map (·.2)).mapError .image
    | .switch t => switchFinalValidate full d t e.parent
    | _ => .ok d

def isImage (e : Entry) : Bool :=
  match e.child with
  | .image _ => true
  | _ => false

/-- The final validations there are. -/
def FullConfig.steps (full : FullConfig) : List Step :=
  full.config.hubs.map .hub ++ full.entries.map .entry

/-- An accepted configuration, and the data its validation leaves: every id is declared once,
every parent is found, the schema accepts every entry, and then the final validations pass, in
some order. -/
structure Accepted (casefold : String → String) (full : FullConfig) (d : ComponentData) :
    Prop where
  distinct : (ids full.config).Nodup
  resolves : ∀ e ∈ full.entries, (full.config.resolve e.parent).isSome
  codes : ∀ h ∈ full.config.hubs, ∀ c ∈ h.staticPairingCode, validateStaticPairingCode c = .ok c
  stages : ∃ (d₀ : ComponentData) (steps : List Step),
    full.config.validate .empty ((full.entries.filter (!isImage ·)).map .entry) = .ok d₀ ∧
      steps.Perm full.steps ∧ steps.foldlM (finalStep casefold full) d₀ = .ok d

/-! ### What a validation reads and records -/

variable {cfg : Config}

/-- The data comes of another by recording these entries, and reading hubs in between. -/
def Leads (cfg : Config) (es : List Entry) (d d' : ComponentData) : Prop :=
  ∃ events, cfg.validate d events = .ok d' ∧ entries events = es ∧
    ∀ h, .codegenData h ∈ events → h ∈ ids cfg

lemma leads_refl (d : ComponentData) : Leads cfg [] d d := ⟨[], rfl, rfl, by simp⟩

lemma Leads.trans {es es' : List Entry} {d d' d'' : ComponentData} (h : Leads cfg es d d')
    (h' : Leads cfg es' d' d'') : Leads cfg (es ++ es') d d'' := by
  obtain ⟨events, hv, rfl, hc⟩ := h
  obtain ⟨events', hv', rfl, hc'⟩ := h'
  refine ⟨events ++ events', ?_, List.filterMap_append, fun k hk => ?_⟩
  · rw [Config.validate, List.foldlM_append]
    exact bind_ok.mpr ⟨d', hv, hv'⟩
  · exact (List.mem_append.mp hk).elim (hc k) (hc' k)

lemma leads_getCodegenData {h : String} (hh : h ∈ ids cfg) (d : ComponentData) :
    Leads cfg [] d (d.getCodegenData cfg.hubs.length (some h)).2 :=
  ⟨[.codegenData h], rfl, rfl, by simpa using hh⟩

lemma leads_record {d d' : ComponentData} {e : Entry}
    (h : e.child.record d (cfg.key e) = .ok d') : Leads cfg [e] d d' :=
  ⟨[.entry e], foldlM_cons_ok.mpr ⟨d', h, rfl⟩, rfl, by simp⟩

lemma leads_offersDynamicPairingCode {h : HubConfig} (hh : h.id ∈ ids cfg) (d : ComponentData) :
    Leads cfg [] d (offersDynamicPairingCode cfg d h).2 := by
  unfold offersDynamicPairingCode
  split
  · exact leads_refl d
  · exact leads_getCodegenData hh d

lemma leads_hasPairingMethod {h : HubConfig} (hh : h.id ∈ ids cfg) (d : ComponentData) :
    Leads cfg [] d (hasPairingMethod cfg d h).2 := by
  unfold hasPairingMethod
  split
  · exact leads_refl d
  · exact leads_offersDynamicPairingCode hh d

lemma sameView_of_leads {d d' : ComponentData} (h : Leads cfg [] d d') : SameView cfg d d' := by
  obtain ⟨events, hv, hes, -⟩ := h
  refine foldlM_keeps (P := SameView cfg d) (fun s ev t hm hs ht => ?_) (.refl d) hv
  cases ev with
  | entry e =>
    have he : e ∈ entries events := List.mem_filterMap.mpr ⟨.entry e, hm, rfl⟩
    rw [hes] at he
    cases he
  | codegenData k =>
    obtain rfl := Except.ok.inj ht
    exact hs.trans (sameView_getCodegenData s k)

/-! ### The validation of a hub -/

variable {casefold : String → String} {full : FullConfig}

/-- A hub has both pairing methods. -/
def bothMethods (cfg : Config) (d : ComponentData) (h : HubConfig) : Bool :=
  (h.onDisplayPairingCode || (view cfg d h.id).pairingCodeDisplaySupport) &&
    h.staticPairingCode.isSome

theorem finalValidate_ok {d d' : ComponentData} {h : HubConfig}
    (hok : finalValidate casefold full d h = .ok d') :
    bothMethods full.config d h = false ∧
      (full.config.hubs.head?.map (·.id) = some h.id → checkHubs casefold full = .ok ()) ∧
      (h.id ∈ ids full.config → Leads full.config [] d d') := by
  obtain ⟨hdyn, -⟩ := offersDynamicPairingCode_view full.config d h
  unfold finalValidate at hok
  dsimp only at hok
  rw [hdyn] at hok
  split at hok
  · cases hok
  rename_i hboth
  rw [Bool.not_eq_true] at hboth
  refine ⟨hboth, fun hhead => ?_, fun hh => ?_⟩
  · rw [if_neg (not_not_intro hhead)] at hok
    obtain ⟨_, hc, -⟩ := map_ok.mp hok
    exact hc
  · have h₁ := leads_offersDynamicPairingCode hh d
    have h₂ := leads_hasPairingMethod hh (offersDynamicPairingCode full.config d h).2
    have hlast : Leads full.config [] d (if h.unpairedAccess.getD true then
        (offersDynamicPairingCode full.config d h).2
        else (hasPairingMethod full.config (offersDynamicPairingCode full.config d h).2 h).2) := by
      split
      · exact h₁
      · exact h₁.trans h₂
    split at hok
    · obtain rfl := Except.ok.inj hok
      exact hlast
    · obtain ⟨_, -, rfl⟩ := map_ok.mp hok
      exact hlast

lemma finalValidate_passes {d : ComponentData} {h : HubConfig}
    (hone : bothMethods full.config d h = false) :
    (∃ d', finalValidate casefold full d h = .ok d') ↔
      (full.config.hubs.head?.map (·.id) = some h.id → checkHubs casefold full = .ok ()) := by
  constructor
  · rintro ⟨d', hok⟩
    exact (finalValidate_ok hok).2.1
  · intro hc
    obtain ⟨hdyn, -⟩ := offersDynamicPairingCode_view full.config d h
    unfold finalValidate
    dsimp only
    rw [hdyn, if_neg (by rw [Bool.not_eq_true]; exact hone)]
    split
    · exact ⟨_, rfl⟩
    · rename_i hhead
      rw [hc (not_not.mp hhead)]
      exact ⟨_, rfl⟩

/-! ### The validation of an accepted configuration -/

lemma leads_flag {es : List Entry} {d d' : ComponentData} (f : Flag) (h : Leads cfg es d d')
    (k : String) :
    f.get (view cfg d' k) =
      (f.get (view cfg d k) || es.any fun e => seen cfg e k && f.asks e.child) := by
  obtain ⟨events, hv, rfl, -⟩ := h
  exact f.validate hv k

lemma flag_of_leads {es : List Entry} {d : ComponentData} (hl : Leads cfg es .empty d)
    (he : ∀ e ∈ es, (cfg.resolve e.parent).isSome) (f : Flag) {h : String} (hh : h ∈ ids cfg) :
    f.get (view cfg d h) = true ↔
      ∃ e ∈ es, cfg.resolve e.parent = some h ∧ f.asks e.child = true := by
  have hempty : f.get (view cfg .empty h) = false := by
    have hget : ∀ k, ComponentData.empty.get k = {} := fun k => by
      simp [ComponentData.get, ComponentData.empty]
    rw [f.get_view, hget, hget, f.get_default, Bool.and_false, Bool.or_false]
  rw [leads_flag f hl, hempty, Bool.false_or, List.any_eq_true]
  refine exists_congr fun e => and_congr_right fun hm => ?_
  rw [Bool.and_eq_true, seen_iff (he e hm) hh]

lemma playable_of_leads {es : List Entry} {d : ComponentData} (hl : Leads cfg es .empty d)
    (he : ∀ e ∈ es, (cfg.resolve e.parent).isSome) {h : String} (hh : h ∈ ids cfg) :
    Playable cfg d h := by
  obtain ⟨events, hv, rfl, hc⟩ := hl
  exact playable_of_inv (inv_validate inv_empty he hc hv).1 hh

lemma leads_images {es : List Entry} {d d' : ComponentData} {f : Flag} (h : Leads cfg es d d')
    (hes : ∀ e ∈ es, isImage e = true) (hf : ∀ p, f.asks (.image p) = false) (k : String) :
    f.get (view cfg d' k) = f.get (view cfg d k) := by
  have hany : (es.any fun e => seen cfg e k && f.asks e.child) = false := by
    refine List.any_eq_false.mpr fun e he => ?_
    have hi := hes e he
    unfold isImage at hi
    split at hi
    · rename_i p hp
      simp [hp, hf p]
    · cases hi
  rw [leads_flag f h, hany, Bool.or_false]

/-- The entry that a final validation registers. -/
def registered : Step → List Entry
  | .hub _ => []
  | .entry e => if isImage e then [e] else []

lemma isImage_of_registered {s : Step} {e : Entry} (he : e ∈ registered s) : isImage e = true := by
  cases s with
  | hub h => cases he
  | entry e' =>
    rw [registered] at he
    split at he
    · rename_i hi
      rwa [List.mem_singleton.mp he]
    · cases he

lemma finalStep_leads {d d' : ComponentData} {s : Step} (hs : s ∈ full.steps)
    (h : finalStep casefold full d s = .ok d') : Leads full.config (registered s) d d' := by
  cases s with
  | hub hub =>
    have hm : hub ∈ full.config.hubs := by simpa [FullConfig.steps] using hs
    exact (finalValidate_ok h).2.2 (List.mem_map_of_mem hm)
  | entry e =>
    obtain ⟨parent, child⟩ := e
    cases child with
    | image p =>
      exact leads_record (e := ⟨parent, .image p⟩) (mapError_ok.mp h)
    | switch t =>
      change switchFinalValidate full d t parent = .ok d' at h
      change Leads full.config [] d d'
      unfold switchFinalValidate at h
      split at h
      · cases h
      split at h
      · obtain rfl := Except.ok.inj h
        exact leads_refl d
      split at h
      · cases h
      rename_i hub hfind
      split at h
      · cases h
      obtain rfl := Except.ok.inj h
      exact leads_hasPairingMethod (List.mem_map_of_mem (List.mem_of_find?_eq_some hfind)) d
    | _ =>
      obtain rfl := Except.ok.inj h
      exact leads_refl d

lemma finalSteps_leads {d d' : ComponentData} {steps : List Step} (hs : ∀ s ∈ steps, s ∈ full.steps)
    (h : steps.foldlM (finalStep casefold full) d = .ok d') :
    Leads full.config (steps.flatMap registered) d d' := by
  induction steps generalizing d with
  | nil =>
    obtain rfl := foldlM_nil_ok.mp h
    exact leads_refl d
  | cons s steps ih =>
    obtain ⟨u, hu, ht⟩ := foldlM_cons_ok.mp h
    rw [List.flatMap_cons]
    exact (finalStep_leads (hs s List.mem_cons_self) hu).trans
      (ih (fun s' hm => hs s' (List.mem_cons_of_mem s hm)) ht)

variable {d : ComponentData}

theorem Accepted.leads (ha : Accepted casefold full d) :
    ∃ es, es.Perm full.entries ∧ Leads full.config es .empty d := by
  obtain ⟨d₀, steps, hv, hperm, hok⟩ := ha.stages
  have hfinal := finalSteps_leads (fun s hm => hperm.mem_iff.mp hm) hok
  set schema := full.entries.filter (!isImage ·) with hschema
  have hentries : entries (schema.map .entry) = schema := by
    simp [entries, List.filterMap_map]
  have hsteps : (steps.flatMap registered).Perm (full.entries.filter isImage) := by
    refine (hperm.flatMap_right registered).trans ?_
    have hhubs : (full.config.hubs.map Step.hub).flatMap registered = [] := by
      simp [registered]
    have himages : (full.entries.map Step.entry).flatMap registered =
        full.entries.filter isImage := by
      induction full.entries with
      | nil => rfl
      | cons e es ih =>
        rw [List.map_cons, List.flatMap_cons, ih, registered, List.filter_cons]
        split <;> rfl
    rw [FullConfig.steps, List.flatMap_append, hhubs, himages, List.nil_append]
  refine ⟨schema ++ steps.flatMap registered, ?_, .trans ⟨_, hv, hentries, by simp⟩ hfinal⟩
  refine (hsteps.append_left schema).trans ?_
  exact List.perm_append_comm.trans (List.filter_append_perm isImage full.entries)

lemma Accepted.flag (ha : Accepted casefold full d) (f : Flag) {h : String}
    (hh : h ∈ ids full.config) :
    f.get (view full.config d h) = true ↔
      ∃ e ∈ full.entries, full.config.resolve e.parent = some h ∧ f.asks e.child = true := by
  obtain ⟨es, hperm, hl⟩ := ha.leads
  rw [flag_of_leads hl (fun e he => ha.resolves e (hperm.mem_iff.mp he)) f hh]
  exact exists_congr fun e => and_congr_left fun _ => hperm.mem_iff

lemma Accepted.playable (ha : Accepted casefold full d) {h : HubConfig}
    (hh : h ∈ full.config.hubs) : Playable full.config d h.id := by
  obtain ⟨es, hperm, hl⟩ := ha.leads
  exact playable_of_leads hl (fun e he => ha.resolves e (hperm.mem_iff.mp he))
    (List.mem_map_of_mem hh)

lemma Accepted.passed (ha : Accepted casefold full d) {s : Step} (hs : s ∈ full.steps) :
    ∃ u v, finalStep casefold full u s = .ok v ∧
      ∀ f : Flag, (∀ p, f.asks (.image p) = false) →
        ∀ k, f.get (view full.config u k) = f.get (view full.config d k) := by
  obtain ⟨d₀, steps, -, hperm, hok⟩ := ha.stages
  have himages : ∀ (steps : List Step) (e : Entry), e ∈ steps.flatMap registered →
      isImage e = true := fun steps e he => by
    obtain ⟨s', -, hm⟩ := List.mem_flatMap.mp he
    exact isImage_of_registered hm
  have hd := finalSteps_leads (fun s hm => hperm.mem_iff.mp hm) hok
  obtain ⟨u, v, ⟨es, hu, hes⟩, huv⟩ := foldlM_passed
    (P := fun u => ∃ es, Leads full.config es d₀ u ∧ ∀ e ∈ es, isImage e = true)
    (fun u s' t hm ⟨es, hu, hes⟩ ht => ⟨_, hu.trans (finalStep_leads (hperm.mem_iff.mp hm) ht),
      fun e he => (List.mem_append.mp he).elim (hes e) isImage_of_registered⟩)
    ⟨[], leads_refl d₀, by simp⟩ hok (hperm.mem_iff.mpr hs)
  refine ⟨u, v, huv, fun f hf k => ?_⟩
  rw [leads_images hu hes hf, leads_images hd (himages steps) hf]

end SendspinMc.FinalValidation
