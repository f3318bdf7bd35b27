import SendspinMc.FinalValidation
import SendspinMc.HubFields

/-!
How a server may pair with a hub.

The protocol allows one method. A hub's client configuration would hold both; it is the final
validation that keeps them apart, going by what the entries have asked for by then.
-/

namespace SendspinMc.PairingCode

open SendspinMc.Codegen SendspinMc.Roles SendspinMc.HubView SendspinMc.HubCode
open SendspinMc.HubFields SendspinMc.FinalValidation

variable {casefold : String → String} {full : FullConfig} {d : ComponentData}

/-- A configuration that offers no method, as a new one does. -/
structure Silent (c : ClientConfig) : Prop where
  channels : c.pairingCodeOutChannels = []
  formats : c.pairingCodeFormats = []
  locations : c.staticPairingCodeLocations = []
  code : c.staticPairingCode = none

def OffersDynamic (c : ClientConfig) : Prop :=
  .display ∈ c.pairingCodeOutChannels ∧ .digits ∈ c.pairingCodeFormats

def OffersStatic (c : ClientConfig) : Prop :=
  c.staticPairingCodeLocations ≠ [] ∧ c.staticPairingCode.isSome = true

/-- The client configuration a hub builds. -/
def client (p : Platform) (code : List (String × Stmt)) (h : String) : ClientConfig :=
  (configured p code h).buildClientConfig p

/-! ### What a hub builds -/

lemma offersDynamic_iff {p : Platform} (hp : Silent p.config) (h : Hub) :
    OffersDynamic (h.buildClientConfig p) ↔ h.pairingCodeDisplaySupported = true := by
  unfold OffersDynamic Hub.buildClientConfig
  cases h.pairingCodeDisplaySupported <;> cases h.staticPairingCode <;>
    simp [hp.channels, hp.formats]

lemma staticPairingCode_build {p : Platform} (hp : Silent p.config) (h : Hub) :
    (h.buildClientConfig p).staticPairingCode = h.staticPairingCode := by
  unfold Hub.buildClientConfig
  cases h.pairingCodeDisplaySupported <;> cases hc : h.staticPairingCode <;> simp [hp.code]

lemma offersStatic_iff {p : Platform} (hp : Silent p.config) (h : Hub) :
    OffersStatic (h.buildClientConfig p) ↔ h.staticPairingCode.isSome = true := by
  rw [OffersStatic, staticPairingCode_build hp]
  refine and_iff_right_of_imp fun hs => ?_
  obtain ⟨code, hc⟩ := Option.isSome_iff_exists.mp hs
  unfold Hub.buildClientConfig
  simp [hc]

/-! ### What is configured -/

/-- Something of the hub's own shows a code. -/
def Displays (full : FullConfig) (h : HubConfig) : Prop :=
  h.onDisplayPairingCode = true ∨
    ∃ e ∈ full.entries, full.config.resolve e.parent = some h.id ∧ e.child = .textSensor true

lemma displays_iff (ha : Accepted casefold full d) {h : HubConfig}
    (hh : h ∈ full.config.hubs) :
    (h.onDisplayPairingCode || (view full.config d h.id).pairingCodeDisplaySupport) = true ↔
      Displays full h := by
  have hflag := ha.flag pairingFlag (List.mem_map_of_mem (f := (·.id)) hh)
  simp only [pairingFlag, decide_eq_true_eq] at hflag
  rw [Bool.or_eq_true, hflag]
  rfl

lemma not_both (ha : Accepted casefold full d) {h : HubConfig} (hh : h ∈ full.config.hubs) :
    bothMethods full.config d h = false := by
  obtain ⟨u, v, huv, hsame⟩ := ha.passed
    (List.mem_append_left _ (List.mem_map_of_mem hh) : Step.hub h ∈ full.steps)
  obtain ⟨hu, -⟩ := finalValidate_ok huv
  have hview := hsame pairingFlag (fun _ => by simp [pairingFlag]) h.id
  simp only [pairingFlag] at hview
  rwa [bothMethods, hview] at hu

lemma validateStaticPairingCode_ok {code : String} :
    validateStaticPairingCode code = .ok code ↔
      code.toList.length = 8 ∧ ∀ x ∈ code.toList, x.isDigit = true := by
  unfold validateStaticPairingCode staticPairingCodeDigits
  split
  · rename_i hc
    refine iff_of_false (by simp) fun ⟨hl, hd⟩ => ?_
    exact hc.elim (fun hn => hn hl) fun hn => hn (List.all_eq_true.mpr hd)
  · rename_i hc
    rw [not_or, not_not, not_not, List.all_eq_true] at hc
    exact iff_of_true rfl hc

lemma configured_fields (ha : Accepted casefold full d) {order : List HubConfig}
    (ho : order.Perm full.config.hubs) (core : Sdkconfig) (p : Platform) :
    ∃ w, generate full.config d order core = .ok w ∧ ∀ h ∈ full.config.hubs,
      (configured p w.code h.id).staticPairingCode = h.staticPairingCode ∧
        ((configured p w.code h.id).pairingCodeDisplaySupported = true ↔ Displays full h) := by
  obtain ⟨w, hw, hcalls⟩ :=
    generate_calls ho ha.distinct (fun h hm => ha.playable hm) core
  refine ⟨w, hw, fun h hm => ?_⟩
  obtain ⟨l, hl, hcode⟩ := hcalls h hm
  rw [configured, hcode]
  refine ⟨staticPairingCode_eq hl p, ?_⟩
  rw [pairingCodeDisplaySupported_eq hl, displays_iff ha hm]

/-- **At most one pairing code, and the configured one**: of an accepted configuration, whatever
the order of the hubs, a hub's client offers the dynamic code exactly if the hub's automation or
a text sensor of its own displays it, and the static code exactly if it is configured, which is
then eight digits as they are written; never both. Entries that are no pairing code sensors of
the hub do not matter to either. -/
theorem one_method (ha : Accepted casefold full d) {order : List HubConfig}
    (ho : order.Perm full.config.hubs) (core : Sdkconfig) {p : Platform}
    (hp : Silent p.config) :
    ∃ w, generate full.config d order core = .ok w ∧ ∀ h ∈ full.config.hubs,
      (OffersDynamic (client p w.code h.id) ↔ Displays full h) ∧
      (OffersStatic (client p w.code h.id) ↔ h.staticPairingCode.isSome = true) ∧
      (∀ code, h.staticPairingCode = some code →
        (client p w.code h.id).staticPairingCode = some code ∧ code.toList.length = 8 ∧
          ∀ x ∈ code.toList, x.isDigit = true) ∧
      ¬ (OffersDynamic (client p w.code h.id) ∧ OffersStatic (client p w.code h.id)) ∧
      ∀ es d' w', Accepted casefold { full with entries := es } d' →
        (∀ e, full.config.resolve e.parent = some h.id → e.child = .textSensor true →
          (e ∈ es ↔ e ∈ full.entries)) →
        generate full.config d' order core = .ok w' →
        (OffersDynamic (client p w'.code h.id) ↔ OffersDynamic (client p w.code h.id)) ∧
          (client p w'.code h.id).staticPairingCode =
            (client p w.code h.id).staticPairingCode := by
  obtain ⟨w, hw, hfields⟩ := configured_fields ha ho core p
  refine ⟨w, hw, fun h hm => ?_⟩
  obtain ⟨hcode, hdisplay⟩ := hfields h hm
  have hdyn : OffersDynamic (client p w.code h.id) ↔ Displays full h :=
    (offersDynamic_iff hp _).trans hdisplay
  have hstat : OffersStatic (client p w.code h.id) ↔ h.staticPairingCode.isSome = true := by
    rw [client, offersStatic_iff hp, hcode]
  have hvalue : (client p w.code h.id).staticPairingCode = h.staticPairingCode := by
    rw [client, staticPairingCode_build hp, hcode]
  refine ⟨hdyn, hstat, fun code hc => ?_, fun ⟨hd, hs⟩ => ?_, fun es d' w' ha' hes hw' => ?_⟩
  · exact ⟨hvalue.trans hc, validateStaticPairingCode_ok.mp (ha.codes h hm code hc)⟩
  · have hboth := not_both ha hm
    rw [bothMethods, (displays_iff ha hm).mpr (hdyn.mp hd), hstat.mp hs] at hboth
    cases hboth
  · obtain ⟨w'', hw'', hfields'⟩ := configured_fields ha' ho core p
    obtain rfl := Except.ok.inj (hw''.symm.trans hw')
    obtain ⟨hcode', hdisplay'⟩ := hfields' h hm
    constructor
    · rw [hdyn, client, offersDynamic_iff hp, hdisplay']
      refine or_congr_right (exists_congr fun e => ?_)
      constructor
      · rintro ⟨he, hr, hc⟩
        exact ⟨(hes e hr hc).mp he, hr, hc⟩
      · rintro ⟨he, hr, hc⟩
        exact ⟨(hes e hr hc).mpr he, hr, hc⟩
    · rw [hvalue, client, staticPairingCode_build hp, hcode']

def gate : HubConfig :=
  ⟨"gate", "gate-client", "gate", 8931, 32771, "0.9.3", false, none, none, none,
    some "01234567", none, false⟩

def lobby : HubConfig :=
  ⟨"lobby", "lobby-client", "lobby", 8932, 32772, "0.9.3", false, none, none, none, none, none,
    false⟩

/-- Two hubs, of which one shows its code on a text sensor. Their names are in lower case
already. -/
def entrance : FullConfig where
  config :=
    { hubs := [gate, lobby], coreSendspin := false, project := ⟨none, none⟩
      mdnsEnableDisable := false }
  deviceName := "house"
  entries := [⟨some "lobby", .textSensor true⟩]

def entranceRequests : ComponentData :=
  (entrance.config.validate .empty (entrance.entries.map .entry)).toOption.getD .empty

def entranceData : ComponentData :=
  (entrance.steps.foldlM (finalStep id entrance) entranceRequests).toOption.getD
    .empty

lemma entrance_accepted : Accepted id entrance entranceData := by
  refine ⟨by decide, by decide, ?_, entranceRequests, entrance.steps, rfl, .refl _, rfl⟩
  intro h hm c hc
  obtain rfl | rfl := List.mem_pair.mp hm
  · obtain rfl := Option.some.inj hc
    rfl
  · cases hc

theorem one_method_entrance :
    ∃ w, generate entrance.config entranceData [gate, lobby] (fun _ => none) = .ok w ∧
      (client firmware w.code "gate").staticPairingCode = some "01234567" ∧
      ¬ OffersDynamic (client firmware w.code "gate") ∧
      OffersDynamic (client firmware w.code "lobby") := by
  obtain ⟨w, hw, hall⟩ := one_method entrance_accepted (List.Perm.refl _) (fun _ => none)
    (p := firmware) ⟨rfl, rfl, rfl, rfl⟩
  obtain ⟨-, hstat, hcode, hone, -⟩ := hall gate (by simp [entrance])
  obtain ⟨hdyn, -⟩ := hall lobby (by simp [entrance])
  refine ⟨w, hw, (hcode "01234567" rfl).1, fun hd => hone ⟨hd, hstat.mpr rfl⟩, hdyn.mpr ?_⟩
  exact .inr ⟨_, List.mem_singleton_self _, by decide, rfl⟩

end SendspinMc.PairingCode
