import SendspinMc.FinalValidation
import SendspinMc.HubFields

/-!
The media sources of a hub.

A player has one configuration, so a hub may have one media source. The check that sees to it
runs before the ids are resolved: it compares the entries that name the hub with each other, and
those that leave it out, but not the ones with the others. The entries are those that
`_resolve_codecs` has passed, with the codecs it leaves.
-/

namespace SendspinMc.SoleSource

open SendspinMc.Codegen SendspinMc.Roles SendspinMc.HubView SendspinMc.HubCode
open SendspinMc.HubFields SendspinMc.FinalValidation SendspinMc.Lib.Checks

variable {cfg : Config} {full : FullConfig} {h : HubConfig}

/-- What an entry registers for the player. -/
def source (e : Entry) : Option PlayerConfig :=
  match e.child with
  | .mediaSource p => some p
  | _ => none

lemma source_eq {e : Entry} {q : PlayerConfig} :
    source e = some q ↔ e.child = .mediaSource q := by
  unfold source
  cases e.child <;> simp

/-- The parents that the media sources give. -/
def parents (es : List Entry) : List (Option String) :=
  (es.filter fun e => (source e).isSome).map (·.parent)

/-- The schema's validation of all entries; images record nothing yet. -/
def schema (full : FullConfig) : Except String ComponentData :=
  full.config.validate .empty ((full.entries.filter (!isImage ·)).map .entry)

/-- The hub has at most one media source, and the player configuration that is generated for it
is that of its media source. -/
def Sole (full : FullConfig) (h : HubConfig) (d : ComponentData) : Prop :=
  (full.entries.filterMap source).length ≤ 1 ∧
    ∀ core p, ∃ w, generate full.config d [h] core = .ok w ∧
      ∀ q ∈ full.entries.filterMap source,
        (configured p w.code h.id).playerConfig = some (playerRoleConfig q)

/-- One media source names the hub, and one leaves it out. -/
def Mixed (full : FullConfig) (h : HubConfig) : Prop :=
  (parents full.entries).count (some h.id) = 1 ∧ (parents full.entries).count none = 1

instance : Decidable (Mixed full h) := inferInstanceAs (Decidable (_ ∧ _))

/-! ### The check -/

/-- The schema's validation of an entry. -/
def schemaStep (d : ComponentData) (e : Entry) : Except String ComponentData :=
  if isImage e then .ok d else e.child.record d e.parent

lemma foldlM_schemaStep (es : List Entry) (d : ComponentData) :
    es.foldlM schemaStep d = cfg.validate d ((es.filter (!isImage ·)).map .entry) := by
  induction es generalizing d with
  | nil => rfl
  | cons e es ih =>
    rw [List.foldlM_cons, List.filter_cons, schemaStep]
    cases hi : isImage e with
    | true => exact ih d
    | false =>
      have hkey : cfg.key e = e.parent := by
        unfold isImage at hi
        unfold Config.key
        cases hc : e.child with
        | image p => simp [hc] at hi
        | _ => rfl
      have hrest : (fun u => es.foldlM schemaStep u) =
          fun u => cfg.validate u ((es.filter (!isImage ·)).map .entry) := funext ih
      change (e.child.record d e.parent >>= fun u => es.foldlM schemaStep u) =
        (e.child.record d (cfg.key e) >>= fun u =>
          cfg.validate u ((es.filter (!isImage ·)).map .entry))
      rw [hrest, hkey]

lemma claims_schemaStep :
    Claims schemaStep (fun e => if (source e).isSome then [e.parent] else [])
      fun d k => (d.get k).playerConfig.isSome = true := by
  constructor
  · rintro d ⟨parent, child⟩
    cases child with
    | mediaSource p =>
      have hget : ((requestPlayerSupport (requestControllerSupport d parent) parent).get
          parent).playerConfig = (d.get parent).playerConfig := by
        simp [requestPlayerSupport, requestControllerSupport, get_update]
      change (∃ t, registerPlayerConfig (requestControllerSupport d parent) parent p = .ok t) ↔ _
      unfold registerPlayerConfig
      dsimp only
      rw [hget]
      cases hc : (d.get parent).playerConfig <;> simp [source, hc]
    | _ => exact iff_of_true ⟨_, rfl⟩ (by simp [source])
  · intro d e d' hok k
    unfold schemaStep at hok
    split at hok
    · rename_i hi
      obtain rfl := Except.ok.inj hok
      have hs : source e = none := by
        unfold isImage at hi
        unfold source
        cases hc : e.child with
        | mediaSource p => simp [hc] at hi
        | _ => rfl
      simp [hs]
    · obtain ⟨-, hother, hrec⟩ := record_spec hok
      by_cases hk : k = e.parent
      · rw [hk, hrec.config]
        unfold playerConfig source
        cases e.child <;> simp
      · rw [hother k hk]
        cases (source e).isSome <;> simp [hk]

lemma flatMap_parents (es : List Entry) :
    es.flatMap (fun e => if (source e).isSome then [e.parent] else []) = parents es := by
  induction es with
  | nil => rfl
  | cons e es ih =>
    rw [List.flatMap_cons, ih, parents, parents, List.filter_cons]
    split <;> rfl

theorem schema_ok : (∃ d, schema full = .ok d) ↔ (parents full.entries).Nodup := by
  have hempty : ∀ k, (ComponentData.empty.get k).playerConfig.isSome ≠ true := fun k => by
    simp [ComponentData.get, ComponentData.empty]
  rw [schema, ← foldlM_schemaStep, ← flatMap_parents]
  refine (claims_schemaStep.foldlM.passes .empty full.entries).trans ?_
  exact and_iff_left fun k _ => hempty k

/-! ### How many there are -/

lemma length_parents (es : List Entry) : (parents es).length = (es.filterMap source).length := by
  rw [parents, List.length_map, List.length_filterMap_eq_countP, ← List.countP_eq_length_filter]

lemma parent_eq (hhub : full.config.hubs = [h]) {e : Entry}
    (he : (full.config.resolve e.parent).isSome) : e.parent = some h.id ∨ e.parent = none := by
  obtain ⟨k, hk⟩ := Option.isSome_iff_exists.mp he
  cases hp : e.parent with
  | none => exact .inr rfl
  | some id =>
    rw [hp] at hk
    obtain rfl := resolve_some hk
    have hmem := resolve_mem hk
    rw [ids, hhub] at hmem
    exact .inl (congrArg some (List.mem_singleton.mp hmem))

lemma length_eq_counts {l : List (Option String)} {k : String}
    (hl : ∀ p ∈ l, p = some k ∨ p = none) : l.length = l.count (some k) + l.count none := by
  induction l with
  | nil => rfl
  | cons p l ih =>
    obtain ⟨hp, hrest⟩ := List.forall_mem_cons.mp hl
    rw [List.length_cons, ih hrest]
    obtain rfl | rfl := hp
    · rw [List.count_cons_self, List.count_cons_of_ne (by simp)]
      omega
    · rw [List.count_cons_self, List.count_cons_of_ne (by simp)]
      omega

lemma le_one_iff (hhub : full.config.hubs = [h])
    (hres : ∀ e ∈ full.entries, (full.config.resolve e.parent).isSome)
    (hn : (parents full.entries).Nodup) :
    (full.entries.filterMap source).length ≤ 1 ↔ ¬ Mixed full h := by
  have hparents : ∀ p ∈ parents full.entries, p = some h.id ∨ p = none := fun p hp => by
    obtain ⟨e, he, rfl⟩ := List.mem_map.mp hp
    exact parent_eq hhub (hres e (List.mem_filter.mp he).1)
  have hcount := List.nodup_iff_count_le_one.mp hn
  have h₁ := hcount (some h.id)
  have h₂ := hcount none
  rw [← length_parents, length_eq_counts hparents, Mixed]
  omega

lemma nodup_of_mixed (hhub : full.config.hubs = [h])
    (hres : ∀ e ∈ full.entries, (full.config.resolve e.parent).isSome) (hm : Mixed full h) :
    (parents full.entries).Nodup := by
  refine List.nodup_iff_count_le_one.mpr fun p => ?_
  by_cases hp : p ∈ parents full.entries
  · obtain ⟨e, he, rfl⟩ := List.mem_map.mp hp
    obtain hs | hs := parent_eq hhub (hres e (List.mem_filter.mp he).1)
    · exact hs ▸ hm.1.le
    · exact hs ▸ hm.2.le
  · exact (List.count_eq_zero.mpr hp).le.trans (Nat.zero_le 1)

/-! ### What is generated -/

lemma generated_source (hhub : cfg.hubs = [h]) {es : List Entry} {d : ComponentData}
    (hl : Leads cfg es .empty d) (hres : ∀ e ∈ es, (cfg.resolve e.parent).isSome)
    (hone : (es.filterMap source).length ≤ 1) (core : Sdkconfig) (p : Platform) :
    ∃ w, generate cfg d [h] core = .ok w ∧ ∀ q ∈ es.filterMap source,
      (configured p w.code h.id).playerConfig = some (playerRoleConfig q) := by
  have hmem : h ∈ cfg.hubs := hhub ▸ List.mem_singleton_self h
  have hid : h.id ∈ ids cfg := List.mem_map_of_mem hmem
  have hn : (ids cfg).Nodup := by rw [ids, hhub]; exact List.nodup_singleton h.id
  have hplay : ∀ h ∈ cfg.hubs, Playable cfg d h.id := fun h' hm =>
    playable_of_leads hl hres (List.mem_map_of_mem hm)
  obtain ⟨w, hw, hcalls⟩ := generate_calls (by rw [hhub]) hn hplay core
  refine ⟨w, hw, fun q hq => ?_⟩
  obtain ⟨l, hroles, hcode⟩ := hcalls h hmem
  obtain ⟨events, hv, rfl, hc⟩ := hl
  have hinv : Inv cfg (entries events) d := (inv_validate inv_empty hres hc hv).1
  have hsources : ∀ k, (sources cfg events k).length ≤ 1 := fun k => by
    refine le_trans ?_ hone
    rw [sources, List.length_filterMap_eq_countP, List.length_filterMap_eq_countP]
    refine List.countP_mono_left fun e _ he => ?_
    cases hch : e.child with
    | mediaSource r => rw [source_eq.mpr hch]; rfl
    | _ => simp [hch] at he
  have hqs : q ∈ sources cfg events h.id := by
    obtain ⟨e, he, hs⟩ := List.mem_filterMap.mp hq
    have hr : cfg.resolve e.parent = some h.id := by
      obtain ⟨k, hk⟩ := Option.isSome_iff_exists.mp (hres e he)
      have hkm := resolve_mem hk
      rw [ids, hhub] at hkm
      rw [hk, List.mem_singleton.mp hkm]
    exact mem_sources.mpr ⟨e, he, hr, source_eq.mp hs⟩
  have hconfig : (view cfg d h.id).playerConfig = some q :=
    (hinv.hub_config hsources hid q).mpr hqs
  have hsupport : (view cfg d h.id).support .player = true :=
    (hinv.hub_support hid .player).mpr (wanted_player_iff.mpr ⟨q, hqs⟩)
  rw [configured, hcode, playerConfig_eq hroles, if_pos hsupport, hconfig]
  rfl

lemma filterMap_source_schema (es : List Entry) :
    (es.filter (!isImage ·)).filterMap source = es.filterMap source := by
  induction es with
  | nil => rfl
  | cons e es ih =>
    rw [List.filter_cons]
    cases hi : isImage e with
    | true =>
      have hs : source e = none := by
        cases hs : source e with
        | none => rfl
        | some q => simp [isImage, source_eq.mp hs] at hi
      rw [List.filterMap_cons_none hs, ← ih]
      rfl
    | false =>
      change (e :: es.filter (!isImage ·)).filterMap source = _
      rw [List.filterMap_cons, List.filterMap_cons, ih]

lemma leads_schema {d : ComponentData} (hok : schema full = .ok d) :
    Leads full.config (full.entries.filter (!isImage ·)) .empty d :=
  ⟨_, hok, by simp [entries, List.filterMap_map], by simp⟩

lemma sole_iff (hhub : full.config.hubs = [h])
    (hres : ∀ e ∈ full.entries, (full.config.resolve e.parent).isSome)
    (hn : (parents full.entries).Nodup) {es : List Entry} {d : ComponentData}
    (hl : Leads full.config es .empty d) (hes : es ⊆ full.entries)
    (hperm : (es.filterMap source).Perm (full.entries.filterMap source)) :
    Sole full h d ↔ ¬ Mixed full h := by
  refine ⟨fun hs => (le_one_iff hhub hres hn).mp hs.1, fun hm => ?_⟩
  have hone := (le_one_iff hhub hres hn).mpr hm
  refine ⟨hone, fun core p => ?_⟩
  obtain ⟨w, hw, hall⟩ := generated_source hhub hl (fun e he => hres e (hes he))
    (hperm.length_eq ▸ hone) core p
  exact ⟨w, hw, fun q hq => hall q (hperm.mem_iff.mpr hq)⟩

/-- **One media source, if the hub is named by all or by none**: with a single hub, what the
schema accepts has at most one media source, whose configuration is generated, exactly unless
one entry names the hub and another leaves it out. The rest of the validation changes nothing
about that. -/
theorem sole_source_iff (hhub : full.config.hubs = [h])
    (hres : ∀ e ∈ full.entries, (full.config.resolve e.parent).isSome) :
    ((∀ d, schema full = .ok d → Sole full h d) ↔ ¬ Mixed full h) ∧
      ∀ casefold d, FinalValidation.Accepted casefold full d →
        (Sole full h d ↔ ¬ Mixed full h) := by
  have hschema : ∀ d, schema full = .ok d → (Sole full h d ↔ ¬ Mixed full h) := fun d hok =>
    sole_iff hhub hres (schema_ok.mp ⟨d, hok⟩) (leads_schema hok)
      (fun e he => (List.mem_filter.mp he).1) (by rw [filterMap_source_schema])
  refine ⟨⟨fun hall hm => ?_, fun hm d hok => (hschema d hok).mpr hm⟩, fun casefold d ha => ?_⟩
  · obtain ⟨d, hok⟩ := schema_ok.mpr (nodup_of_mixed hhub hres hm)
    exact (hschema d hok).mp (hall d hok) hm
  · obtain ⟨es, hperm, hl⟩ := ha.leads
    obtain ⟨d₀, _, hok, -⟩ := ha.stages
    exact sole_iff hhub hres (schema_ok.mp ⟨d₀, hok⟩) hl hperm.subset (hperm.filterMap _)

def cabin : HubConfig :=
  ⟨"cabin", "cabin-client", "cabin", 8931, 32771, "0.9.3", false, none, none, none, none, none,
    false⟩

def cabinConfig : Config where
  hubs := [cabin]
  coreSendspin := false
  project := ⟨none, none⟩
  mdnsEnableDisable := false

def flacSource : PlayerConfig := ⟨[.flac, .pcm], 44100, 500000, 0, 0, false, none⟩

def opusSource : PlayerConfig := ⟨[.opus, .pcm], 48000, 1000000, 0, 0, true, some .psram⟩

/-- One media source, which leaves its parent out. -/
def oneSource : FullConfig := ⟨cabinConfig, "house", [⟨none, .mediaSource opusSource⟩]⟩

theorem sole_source_implicit :
    ∃ d, schema oneSource = .ok d ∧ ∃ w, generate cabinConfig d [cabin] (fun _ => none) = .ok w ∧
      (configured firmware w.code "cabin").playerConfig =
        some (playerRoleConfig opusSource) := by
  obtain ⟨hiff, -⟩ := @sole_source_iff oneSource cabin rfl (by decide)
  obtain ⟨d, hok⟩ := (@schema_ok oneSource).mpr (by decide)
  obtain ⟨-, hall⟩ := hiff.mpr (by decide) d hok
  obtain ⟨w, hw, hq⟩ := hall (fun _ => none) firmware
  exact ⟨d, hok, w, hw, hq opusSource (List.mem_singleton_self _)⟩

/-- Two media sources, of which one leaves its parent out. -/
def twoSources : FullConfig :=
  ⟨cabinConfig, "house", [⟨some "cabin", .mediaSource flacSource⟩, ⟨none, .mediaSource opusSource⟩]⟩

def twoSourcesRequests : ComponentData := (schema twoSources).toOption.getD .empty

def twoSourcesData : ComponentData :=
  (twoSources.steps.foldlM (finalStep id twoSources) twoSourcesRequests).toOption.getD .empty

/-- Both are accepted, and the settings of one are dropped. -/
theorem two_sources_accepted :
    FinalValidation.Accepted id twoSources twoSourcesData ∧
      twoSources.entries.filterMap source = [flacSource, opusSource] ∧
      (∃ w, generate cabinConfig twoSourcesData [cabin] (fun _ => none) = .ok w ∧
        (configured firmware w.code "cabin").playerConfig = some (playerRoleConfig flacSource)) ∧
      ¬ Sole twoSources cabin twoSourcesData := by
  refine ⟨⟨by decide, by decide, ?_, twoSourcesRequests, twoSources.steps, rfl, .refl _, rfl⟩,
    rfl, ⟨_, rfl, rfl⟩, fun hs => absurd hs.1 (by decide)⟩
  intro h hm c hc
  obtain rfl := List.mem_singleton.mp hm
  cases hc

end SendspinMc.SoleSource
