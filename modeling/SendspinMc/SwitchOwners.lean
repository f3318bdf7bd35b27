import SendspinMc.FinalValidation
import SendspinMc.HubCode
import SendspinMc.Lifecycle

/-!
Who makes a hub's two requests.

A client waits for both, so each must be made at boot, and by one party: the generated code or a
switch. The code goes by the requests that the switches have recorded under their parents, the
final validation by their resolved ids, and the two agree.
-/

namespace SendspinMc.SwitchOwners

open SendspinMc.Codegen SendspinMc.Roles SendspinMc.RoleCode SendspinMc.HubView
open SendspinMc.HubCode SendspinMc.FinalValidation SendspinMc.HubClient SendspinMc.Lifecycle

variable {casefold : String → String} {full : FullConfig} {d : ComponentData}

/-! ### Requests -/

/-- The request a generated call makes. -/
def stmtRequest : Stmt → Option Request
  | .setEnabled v => some (.enabled v)
  | .setUnpairedAccessEnabled v => some (.unpairedAccess v)
  | _ => none

/-- The request `setup()` of a switch makes, with what its restore mode restores. -/
def setupRequest (restored : Option Bool) : SwitchType → Request
  | .enabled => .enabled (restored.getD true)
  | .unpairedAccess => .unpairedAccess (restored.getD true)

/-- What a request sets the setting of a switch to. -/
def value (t : SwitchType) : Request → Option Bool
  | .enabled v => if t = .enabled then some v else none
  | .unpairedAccess v => if t = .unpairedAccess then some v else none

def values (t : SwitchType) (requests : List Request) : List Bool := requests.filterMap (value t)

/-- The requests the generated code makes of a hub. -/
def generated (code : List (String × Stmt)) (h : String) : List Request :=
  (calls code h).filterMap stmtRequest

/-- The switches of a type that a hub has. -/
def owners (full : FullConfig) (t : SwitchType) (h : String) : List Entry :=
  full.entries.filter fun e => e.child = .switch t && full.config.resolve e.parent = some h

/-- The requests the switches of a hub make. -/
def switchRequests (full : FullConfig) (h : String) (restored : Entry → Option Bool) :
    List Request :=
  full.entries.filterMap fun e =>
    match e.child with
    | .switch t =>
      if full.config.resolve e.parent = some h then some (setupRequest (restored e) t) else none
    | _ => none

/-- The requests a hub gets at boot, from the generated code and then from the switches. -/
def bootRequests (full : FullConfig) (code : List (String × Stmt)) (h : String)
    (restored : Entry → Option Bool) : List Request :=
  generated code h ++ switchRequests full h restored

/-- What the generated code sets the setting of a hub to, if it does. -/
def initial (h : HubConfig) : SwitchType → Bool
  | .enabled => true
  | .unpairedAccess => h.unpairedAccess.getD true

/-! ### What the code asks for -/

lemma requests_startRequests (h : HubConfig) (c : Finset SwitchType) (t : SwitchType) :
    values t ((startRequests h c).filterMap stmtRequest) =
      if t ∈ c then [] else [initial h t] := by
  unfold startRequests
  cases t <;> by_cases he : SwitchType.enabled ∈ c <;>
    by_cases hu : SwitchType.unpairedAccess ∈ c <;>
    simp [he, hu, values, value, stmtRequest, initial]

lemma requests_firstCalls (h : HubConfig) (c : Configuration) :
    (firstCalls full.config h c).filterMap stmtRequest =
      (startRequests h c.switchTypes).filterMap stmtRequest := by
  rw [among_firstCalls fun s hs => by cases s <;> first | rfl | cases hs]
  simp [stmtRequest]

lemma requests_roleCalls {h : HubConfig} {c : Configuration} {l : List Stmt}
    (hl : RoleCalls h c l) : l.filterMap stmtRequest = [] :=
  among_roleCalls hl fun s hs => by cases s <;> first | rfl | cases hs

/-! ### Whose the settings are -/

lemma mem_owners {t : SwitchType} {h : String} {e : Entry} :
    e ∈ owners full t h ↔
      e ∈ full.entries ∧ e.child = .switch t ∧ full.config.resolve e.parent = some h := by
  simp [owners]

lemma mem_switchTypes (ha : Accepted casefold full d) {h : String} (hh : h ∈ ids full.config)
    (t : SwitchType) : t ∈ (view full.config d h).switchTypes ↔ owners full t h ≠ [] := by
  have hflag := ha.flag (switchFlag t) hh
  simp only [switchFlag, decide_eq_true_eq] at hflag
  rw [hflag]
  constructor
  · rintro ⟨e, hm, hr, hc⟩
    exact List.ne_nil_of_mem (mem_owners.mpr ⟨hm, hc, hr⟩)
  · intro ho
    obtain ⟨e, he⟩ := List.exists_mem_of_ne_nil _ ho
    obtain ⟨hm, hc, hr⟩ := mem_owners.mp he
    exact ⟨e, hm, hr, hc⟩

lemma switch_passed (ha : Accepted casefold full d) {t : SwitchType} {h : String} {e : Entry}
    (he : e ∈ owners full t h) :
    full.config.resolve e.parent = some h ∧
      ∃ u v, switchFinalValidate full u t e.parent = .ok v := by
  obtain ⟨hm, hc, hr⟩ := mem_owners.mp he
  have hs : Step.entry e ∈ full.steps :=
    List.mem_append_right _ (List.mem_map_of_mem hm)
  obtain ⟨u, v, huv, -⟩ := ha.passed hs
  rw [finalStep, hc] at huv
  exact ⟨hr, u, v, huv⟩

lemma owners_le_one (ha : Accepted casefold full d) (t : SwitchType) (h : String) :
    (owners full t h).length ≤ 1 := by
  cases ho : owners full t h with
  | nil => simp
  | cons e es =>
    have he : e ∈ owners full t h := ho ▸ List.mem_cons_self
    obtain ⟨hr, u, v, huv⟩ := switch_passed ha he
    have hsame : sameType full t e.parent = owners full t h := by rw [sameType, hr]; rfl
    unfold switchFinalValidate at huv
    rw [hsame, ho] at huv
    split at huv
    · cases huv
    · omega

lemma unpairedAccess_none (ha : Accepted casefold full d) {h : HubConfig}
    (hh : h ∈ full.config.hubs) (ho : owners full .unpairedAccess h.id ≠ []) :
    h.unpairedAccess = none := by
  obtain ⟨e, he⟩ := List.exists_mem_of_ne_nil _ ho
  obtain ⟨hr, u, v, huv⟩ := switch_passed ha he
  unfold switchFinalValidate at huv
  split at huv
  · cases huv
  rw [if_neg (by simp), hr] at huv
  split at huv
  · cases huv
  rename_i hub hfind
  -- the ids are distinct, so the hub found is this one
  have hid : hub.id = h.id := by simpa using List.find?_some hfind
  obtain rfl : hub = h :=
    List.inj_on_of_nodup_map ha.distinct (List.mem_of_find?_eq_some hfind) hh hid
  split at huv
  · cases huv
  · rename_i hn
    simpa using hn

lemma values_append (t : SwitchType) (rs rs' : List Request) :
    values t (rs ++ rs') = values t rs ++ values t rs' := List.filterMap_append

lemma values_switchRequests (t : SwitchType) (h : String) (restored : Entry → Option Bool) :
    (values t (switchRequests full h restored)).length = (owners full t h).length := by
  rw [values, switchRequests, List.filterMap_filterMap, List.length_filterMap_eq_countP, owners,
    ← List.countP_eq_length_filter]
  refine List.countP_congr fun e _ => ?_
  cases e.child with
  | switch t' =>
    by_cases hr : full.config.resolve e.parent = some h <;> cases t <;> cases t' <;>
      simp [hr, setupRequest, value]
  | _ => simp

/-! ### The requests at boot -/

/-- What a hub has been asked for a setting. -/
def asked (n : Node) : SwitchType → Option Bool
  | .enabled => n.hub.enabled
  | .unpairedAccess => n.hub.unpairedAccess

lemma asked_request {n : Node} {t : SwitchType} {r : Request} {v : Bool}
    (he : n.hub.error = false) (hv : value t r = some v) : (asked (n.request r) t).isSome := by
  cases r with
  | enabled b =>
    cases t with
    | enabled =>
      rw [Node.request, Node.setEnabled]
      dsimp only
      rw [if_neg (by simp [Node.note, he])]
      rfl
    | unpairedAccess => simp [value] at hv
  | unpairedAccess b =>
    cases t with
    | enabled => simp [value] at hv
    | unpairedAccess => rfl

lemma asked_requests {n : Node} {t : SwitchType} {rs : List Request} (he : n.hub.error = false)
    (hrs : values t rs ≠ []) : (asked (n.requests rs) t).isSome := by
  induction rs generalizing n with
  | nil => exact absurd rfl hrs
  | cons r rs ih =>
    change (asked ((n.request r).requests rs) t).isSome
    have hone := same_requests n [r]
    cases hv : value t r with
    | none =>
      refine ih (hone.error.trans he) ?_
      rwa [values, List.filterMap_cons, hv] at hrs
    | some v =>
      have hsome := asked_request he hv
      have hkeep := same_requests (n.request r) rs
      cases t with
      | enabled => exact hkeep.enabled hsome
      | unpairedAccess => exact hkeep.unpaired hsome

/-- **The settings of a hub's client have one owner each**: of an accepted configuration, whatever
the order of the hubs, the generated code makes a hub's request exactly if no switch is there to
make it, and never two switches are; the hub's own value for unpaired access is the one it is
given; and at boot every setting is written once, so that no hub waits for a request. -/
theorem one_owner (ha : Accepted casefold full d) {order : List HubConfig}
    (ho : order.Perm full.config.hubs) (core : Sdkconfig) :
    ∃ w, generate full.config d order core = .ok w ∧ ∀ h ∈ full.config.hubs,
      (∀ t, values t (generated w.code h.id) = [initial h t] ∧ owners full t h.id = [] ∨
        values t (generated w.code h.id) = [] ∧ ∃ e, owners full t h.id = [e]) ∧
      (∀ v, h.unpairedAccess = some v →
        values .unpairedAccess (generated w.code h.id) = [v]) ∧
      ∀ restored, (∀ t, (values t (bootRequests full w.code h.id restored)).length = 1) ∧
        ∀ n : Node, n.hub.error = false →
          ∀ t, (asked (n.requests (bootRequests full w.code h.id restored)) t).isSome := by
  obtain ⟨w, hw, hcalls⟩ :=
    generate_calls ho ha.distinct (fun h hm => ha.playable hm) core
  refine ⟨w, hw, fun h hm => ?_⟩
  obtain ⟨l, hl, hcode⟩ := hcalls h hm
  have hid : h.id ∈ ids full.config := List.mem_map_of_mem hm
  have hgen : ∀ t, values t (generated w.code h.id) =
      if owners full t h.id ≠ [] then [] else [initial h t] := fun t => by
    rw [generated, hcode, List.filterMap_append, requests_roleCalls hl, List.append_nil,
      requests_firstCalls, requests_startRequests]
    exact if_congr (mem_switchTypes ha hid t) rfl rfl
  have howner : ∀ t, values t (generated w.code h.id) = [initial h t] ∧ owners full t h.id = [] ∨
      values t (generated w.code h.id) = [] ∧ ∃ e, owners full t h.id = [e] := fun t => by
    rw [hgen]
    by_cases hn : owners full t h.id = []
    · exact .inl ⟨if_neg (not_not_intro hn), hn⟩
    · refine .inr ⟨if_pos hn, List.length_eq_one_iff.mp ?_⟩
      have hpos := List.length_pos_iff.mpr hn
      have hle := owners_le_one ha t h.id
      omega
  have hboot : ∀ restored t,
      (values t (bootRequests full w.code h.id restored)).length = 1 := fun restored t => by
    rw [bootRequests, values_append, List.length_append, values_switchRequests]
    rcases howner t with ⟨hv, hn⟩ | ⟨hv, e, he⟩
    · rw [hv, hn]; rfl
    · rw [hv, he]; rfl
  refine ⟨howner, fun v hv => ?_, fun restored => ⟨hboot restored, fun n he t => ?_⟩⟩
  · rw [hgen, if_neg, initial, hv]
    · rfl
    · intro hn
      rw [unpairedAccess_none ha hm hn] at hv
      cases hv
  · exact asked_requests he (List.ne_nil_of_length_pos (by rw [hboot restored t]; omega))

/-- A hub that sets its unpaired access itself, and has a switch that leaves its parent out. -/
def study : HubConfig :=
  ⟨"study", "study-client", "Study", 8931, 32771, "0.9.3", false, none, none, none,
    some "01234567", some false, false⟩

def studyDevice : FullConfig where
  config :=
    { hubs := [study], coreSendspin := false, project := ⟨none, none⟩, mdnsEnableDisable := false }
  deviceName := "house"
  entries := [⟨none, .switch .enabled⟩, ⟨some "study", .mediaPlayer⟩]

def studyRequests : ComponentData :=
  (studyDevice.config.validate .empty (studyDevice.entries.map .entry)).toOption.getD .empty

/-- The entries are validated before the hub. -/
def studySteps : List Step := studyDevice.entries.map .entry ++ [.hub study]

def studyData : ComponentData :=
  (studySteps.foldlM (finalStep String.toLower studyDevice) studyRequests).toOption.getD .empty

lemma study_accepted : FinalValidation.Accepted String.toLower studyDevice studyData := by
  refine ⟨by decide, by decide, ?_, studyRequests, studySteps, rfl, ?_, rfl⟩
  · intro h hm c hc
    obtain rfl := List.mem_singleton.mp hm
    obtain rfl := Option.some.inj hc
    rfl
  · exact List.perm_append_comm

theorem one_owner_study :
    ∃ w, generate studyDevice.config studyData [study] (fun _ => none) = .ok w ∧
      values .enabled (generated w.code "study") = [] ∧
      values .unpairedAccess (generated w.code "study") = [false] := by
  obtain ⟨w, hw, hall⟩ := one_owner study_accepted (List.Perm.refl _) fun _ => none
  obtain ⟨howner, hvalue, -⟩ := hall study List.mem_cons_self
  refine ⟨w, hw, ?_, hvalue false rfl⟩
  rcases howner .enabled with ⟨-, hn⟩ | ⟨hv, -⟩
  · exact absurd hn (by decide)
  · exact hv

end SendspinMc.SwitchOwners
