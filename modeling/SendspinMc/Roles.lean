import SendspinMc.Codegen
import SendspinMc.Lib.Checks

/-!
The roles of the hubs follow from the entries that ask for them.

A request is recorded under the hub it names or under `none`; whichever it is, and whenever the
two are merged, the hub's configuration ends up with the roles of its entries and no others.
-/

namespace SendspinMc.Roles

open SendspinMc.Codegen SendspinMc.Lib.Checks

/-! ### What the component data holds -/

lemma get_set (d : ComponentData) (key k : Option String) (c : Configuration) :
    (d.set key c).get k = if k = key then c else d.get k := by
  by_cases hk : k = key
  · subst hk
    simp [ComponentData.set, ComponentData.get]
  · simp [ComponentData.set, ComponentData.get, hk]

lemma get_update (d : ComponentData) (key k : Option String) (f : Configuration → Configuration) :
    (d.update key f).get k = if k = key then f (d.get key) else d.get k :=
  get_set d key k _

lemma merge_default (c : Configuration) : c.merge {} = c := by
  cases c with
  | mk a co m p v pd sw ap pc => cases pc <;> simp [Configuration.merge]

@[simp] lemma support_default (r : Role) : ({} : Configuration).support r = false := by
  cases r <;> rfl

@[simp] lemma support_merge (c i : Configuration) (r : Role) :
    (c.merge i).support r = (c.support r || i.support r) := by
  cases r <;> rfl

lemma merge_config {c i : Configuration} {p : PlayerConfig}
    (h : (c.merge i).playerConfig = some p) :
    c.playerConfig = some p ∨ i.playerConfig = some p := by
  simp only [Configuration.merge] at h
  split at h
  · exact .inr h
  · exact .inl h

lemma merge_config_isSome {c i : Configuration}
    (h : c.playerConfig.isSome = true ∨ i.playerConfig.isSome = true) :
    (c.merge i).playerConfig.isSome = true := by
  cases hc : c.playerConfig <;> simp_all [Configuration.merge]

lemma get_getCodegenData (d : ComponentData) (n : ℕ) (h : String) (k : Option String) :
    (d.getCodegenData n (some h)).2.get k =
      if k = some h ∧ n = 1 then (d.get (some h)).merge (d.get none) else d.get k := by
  have hne : (none : Option String) ≠ some h := by simp
  have hlook : (d.set (some h) (d.get (some h))).hubs.lookup none = d.hubs.lookup none := by
    simp [ComponentData.set]
  have hself : ∀ k, (d.set (some h) (d.get (some h))).get k = d.get k := fun k => by
    rw [get_set]
    split
    · rename_i hk; rw [hk]
    · rfl
  unfold ComponentData.getCodegenData
  dsimp only
  rw [hlook]
  cases hi : d.hubs.lookup none with
  | none =>
    have hget : d.get none = {} := by simp [ComponentData.get, hi]
    dsimp only
    rw [hself, hget, merge_default]
    split
    · rename_i hk; rw [hk.1]
    · rfl
  | some implicit =>
    have hget : d.get none = implicit := by simp [ComponentData.get, hi]
    dsimp only
    rw [if_neg (by simp)]
    by_cases hn : n = 1
    · rw [if_pos hn, get_set, hget]
      by_cases hk : k = some h
      · rw [if_pos hk, if_pos ⟨hk, hn⟩]
      · rw [if_neg hk, if_neg fun hc => hk hc.1, hself]
    · rw [if_neg hn, if_neg fun hc => hn hc.2, hself]

lemma getCodegenData_fst (d : ComponentData) (n : ℕ) (h : String) :
    (d.getCodegenData n (some h)).1 = (d.getCodegenData n (some h)).2.get (some h) := by
  unfold ComponentData.getCodegenData
  dsimp only
  split
  · rw [get_set, if_pos rfl]
  · rw [if_neg (by simp)]
    split <;> rw [get_set, if_pos rfl]

lemma getCodegenData_flags (d : ComponentData) (n : ℕ) (k : Option String) :
    (d.getCodegenData n k).2.roleDefinesEmitted = d.roleDefinesEmitted ∧
      (d.getCodegenData n k).2.sdkconfigJobScheduled = d.sdkconfigJobScheduled := by
  unfold ComponentData.getCodegenData
  dsimp only
  split
  · exact ⟨rfl, rfl⟩
  · split_ifs <;> exact ⟨rfl, rfl⟩

lemma any_entries (d : ComponentData) {p : Configuration → Bool} (hp : p {} = false) :
    (d.hubs.entries.any fun x => p x.2) = true ↔ ∃ k, p (d.get k) = true := by
  rw [List.any_eq_true]
  constructor
  · rintro ⟨⟨k, c⟩, hm, hc⟩
    exact ⟨k, by rw [ComponentData.get, AList.mem_lookup_iff.mpr hm]; exact hc⟩
  · rintro ⟨k, hk⟩
    cases hl : d.hubs.lookup k with
    | none => simp [ComponentData.get, hl, hp] at hk
    | some c =>
      have hc : p c = true := by simpa [ComponentData.get, hl] using hk
      exact ⟨⟨k, c⟩, AList.mem_lookup_iff.mp hl, hc⟩

/-! ### What an entry records -/

/-- The roles an entry asks for. -/
def roles : Child → List Role
  | .image _ => [.artwork]
  | .mediaSource _ => [.controller, .player]
  | .mediaPlayer | .switchAction => [.controller]
  | .sensor | .textSensor false => [.metadata]
  | .textSensor true | .switch _ | .pairingWindowAction => []

/-- The player configuration after an entry is recorded. -/
def playerConfig (c : Configuration) : Child → Option PlayerConfig
  | .mediaSource p => some p
  | _ => c.playerConfig

lemma playerConfig_of_ne {c : Configuration} {child : Child}
    (h : ∀ p, child ≠ .mediaSource p) : playerConfig c child = c.playerConfig := by
  cases child with
  | mediaSource p => exact absurd rfl (h p)
  | _ => rfl

lemma playerConfig_isSome {c : Configuration} (child : Child)
    (h : c.playerConfig.isSome = true) : (playerConfig c child).isSome = true := by
  cases child with
  | mediaSource p => rfl
  | _ => exact h

/-- What recording an entry does to the configuration under its key. -/
structure Records (c c' : Configuration) (child : Child) : Prop where
  support : ∀ r, c'.support r = (c.support r || decide (r ∈ roles child))
  config : c'.playerConfig = playerConfig c child
  fresh : ∀ p, child = .mediaSource p → c.playerConfig = none

/-- The configuration under a key once an entry is recorded there. -/
def recorded (c : Configuration) : Child → Configuration
  | .image p =>
    { c with artworkSupport := true, artworkPreferences := c.artworkPreferences ++ [p] }
  | .mediaSource p =>
    { c with controllerSupport := true, playerSupport := true, playerConfig := some p }
  | .mediaPlayer | .switchAction => { c with controllerSupport := true }
  | .sensor | .textSensor false => { c with metadataSupport := true }
  | .textSensor true => { c with pairingCodeDisplaySupport := true }
  | .switch t => { c with switchTypes := insert t c.switchTypes }
  | .pairingWindowAction => c

/-- Data in which nothing but the configuration under a key differs. -/
structure Differs (d d' : ComponentData) (key : Option String) (c : Configuration) : Prop where
  flags : d'.roleDefinesEmitted = d.roleDefinesEmitted ∧
    d'.sdkconfigJobScheduled = d.sdkconfigJobScheduled
  other : ∀ k, k ≠ key → d'.get k = d.get k
  self : d'.get key = c

lemma differs_update (d : ComponentData) (key : Option String)
    (f : Configuration → Configuration) : Differs d (d.update key f) key (f (d.get key)) :=
  ⟨⟨rfl, rfl⟩, fun k hk => by rw [get_update, if_neg hk], by rw [get_update, if_pos rfl]⟩

lemma differs_update_update (d : ComponentData) (key : Option String)
    (f g : Configuration → Configuration) :
    Differs d ((d.update key f).update key g) key (g (f (d.get key))) := by
  have hf := differs_update d key f
  have hg := differs_update (d.update key f) key g
  refine ⟨⟨hg.flags.1.trans hf.flags.1, hg.flags.2.trans hf.flags.2⟩,
    fun k hk => (hg.other k hk).trans (hf.other k hk), ?_⟩
  rw [hg.self, hf.self]

theorem record_differs {d d' : ComponentData} {key : Option String} {child : Child}
    (h : child.record d key = .ok d') : Differs d d' key (recorded (d.get key) child) := by
  cases child with
  | image p =>
    simp only [Child.record, assignSlotAndRegister, registerArtworkPreference] at h
    split at h
    · cases h
    split at h
    · cases h
    obtain rfl := Except.ok.inj h
    have hpref : ((requestArtworkSupport d key).get key).artworkPreferences =
        (d.get key).artworkPreferences := by simp [requestArtworkSupport, get_update]
    rw [hpref]
    exact differs_update_update d key (fun c => { c with artworkSupport := true })
      fun c => { c with artworkPreferences := (d.get key).artworkPreferences ++ [p] }
  | mediaSource p =>
    simp only [Child.record, registerPlayerConfig] at h
    split at h
    · cases h
    obtain rfl := Except.ok.inj h
    have hboth := differs_update_update d key (fun c => { c with controllerSupport := true })
      fun c => { c with playerSupport := true }
    have hlast := differs_update (requestPlayerSupport (requestControllerSupport d key) key) key
      fun c => { c with playerConfig := some p }
    refine ⟨hboth.flags, fun k hk => (hlast.other k hk).trans (hboth.other k hk), ?_⟩
    rw [hlast.self]
    exact congrArg (fun c : Configuration => { c with playerConfig := some p }) hboth.self
  | textSensor b =>
    obtain rfl := Except.ok.inj h
    cases b with
    | false => exact differs_update d key fun c => { c with metadataSupport := true }
    | true => exact differs_update d key fun c => { c with pairingCodeDisplaySupport := true }
  | pairingWindowAction =>
    obtain rfl := Except.ok.inj h
    exact ⟨⟨rfl, rfl⟩, fun _ _ => rfl, rfl⟩
  | _ =>
    obtain rfl := Except.ok.inj h
    exact differs_update d key _

lemma record_fresh {d d' : ComponentData} {key : Option String} {p : PlayerConfig}
    (h : Child.record d key (.mediaSource p) = .ok d') : (d.get key).playerConfig = none := by
  simp only [Child.record, registerPlayerConfig] at h
  split at h
  · cases h
  · rename_i hn
    simpa [get_update, requestPlayerSupport, requestControllerSupport] using hn

lemma records_recorded {c : Configuration} {child : Child}
    (hf : ∀ p, child = .mediaSource p → c.playerConfig = none) :
    Records c (recorded c child) child := by
  refine ⟨fun r => ?_, ?_, hf⟩
  · cases child with
    | textSensor b => cases b <;> cases r <;> simp [recorded, roles, Configuration.support]
    | _ => cases r <;> simp [recorded, roles, Configuration.support]
  · cases child with
    | textSensor b => cases b <;> rfl
    | _ => rfl

lemma record_spec {d d' : ComponentData} {key : Option String} {child : Child}
    (h : child.record d key = .ok d') :
    (d'.roleDefinesEmitted = d.roleDefinesEmitted ∧
      d'.sdkconfigJobScheduled = d.sdkconfigJobScheduled) ∧
    (∀ k, k ≠ key → d'.get k = d.get k) ∧ Records (d.get key) (d'.get key) child := by
  have hd := record_differs h
  refine ⟨hd.flags, hd.other, hd.self ▸ records_recorded ?_⟩
  rintro p rfl
  exact record_fresh h

/-! ### Whose entries a key holds -/

variable {cfg : Config}

/-- The entries among the events. -/
def entries (events : List Event) : List Entry :=
  events.filterMap fun
    | .entry e => some e
    | .codegenData _ => none

/-- The hubs' ids. -/
def ids (cfg : Config) : List String := cfg.hubs.map (·.id)

lemma resolve_mem {p : Option String} {h : String} (hr : cfg.resolve p = some h) :
    h ∈ ids cfg := by
  unfold Config.resolve at hr
  split at hr
  · split at hr
    · rename_i hm
      obtain rfl := Option.some.inj hr
      exact hm
    · cases hr
  · split at hr
    · rename_i h0 hh
      obtain rfl := Option.some.inj hr
      simp [ids, hh]
    · cases hr

lemma resolve_some {id h : String} (hr : cfg.resolve (some id) = some h) : id = h := by
  simp only [Config.resolve] at hr
  split at hr
  · exact Option.some.inj hr
  · cases hr

lemma resolve_none_iff {h : String} :
    cfg.resolve none = some h ↔ h ∈ ids cfg ∧ cfg.hubs.length = 1 := by
  simp only [Config.resolve, ids]
  split
  · rename_i h0 hh
    simp [hh, eq_comm]
  · rename_i hh
    constructor
    · intro hc
      cases hc
    · rintro ⟨_, hl⟩
      obtain ⟨h0, h0s⟩ := List.length_eq_one_iff.mp hl
      exact absurd h0s (hh h0)

/-- A key holds the requests of an entry: those of its own parent, or those merged into the
hub that the entry is for. -/
def Bears (cfg : Config) (e : Entry) : Option String → Prop
  | none => e.parent = none
  | some h => cfg.resolve e.parent = some h

lemma bears_key {e : Entry} (he : (cfg.resolve e.parent).isSome) : Bears cfg e (cfg.key e) := by
  obtain ⟨h, hh⟩ := Option.isSome_iff_exists.mp he
  obtain ⟨parent, child⟩ := e
  cases parent with
  | none => cases child <;> simp_all [Config.key, Bears]
  | some id =>
    obtain rfl := resolve_some hh
    cases child <;> simp_all [Config.key, Bears]

lemma key_eq {e : Entry} {h : String} (hr : cfg.resolve e.parent = some h) :
    cfg.key e = some h ∨ cfg.key e = none ∧ cfg.hubs.length = 1 := by
  obtain ⟨parent, child⟩ := e
  cases parent with
  | none =>
    have hl := (resolve_none_iff.mp hr).2
    cases child <;> simp_all [Config.key]
  | some id =>
    obtain rfl := resolve_some hr
    cases child <;> simp_all [Config.key]

/-! ### What the component data says of the entries -/

/-- A configuration holds nothing but requests of these entries. -/
structure Sound (cfg : Config) (es : List Entry) (k : Option String) (c : Configuration) :
    Prop where
  support : ∀ r, c.support r = true → ∃ e ∈ es, Bears cfg e k ∧ r ∈ roles e.child
  config : ∀ p, c.playerConfig = some p → ∃ e ∈ es, Bears cfg e k ∧ e.child = .mediaSource p
  player : c.support .player = true → c.playerConfig.isSome = true

/-- A configuration holds the requests of an entry. -/
structure Covers (c : Configuration) (child : Child) : Prop where
  support : ∀ r ∈ roles child, c.support r = true
  config : ∀ p, child = .mediaSource p → c.playerConfig = some p

lemma sound_default (es : List Entry) (k : Option String) : Sound cfg es k {} := by
  refine ⟨fun r hr => ?_, fun p hp => ?_, fun hp => ?_⟩
  · rw [support_default] at hr
    cases hr
  · cases hp
  · rw [support_default] at hp
    cases hp

lemma Sound.mono {es es' : List Entry} {k : Option String} {c : Configuration}
    (h : Sound cfg es k c) (hs : es ⊆ es') : Sound cfg es' k c := by
  refine ⟨fun r hr => ?_, fun p hp => ?_, h.player⟩
  · obtain ⟨e, he, hb, hre⟩ := h.support r hr
    exact ⟨e, hs he, hb, hre⟩
  · obtain ⟨e, he, hb, hpe⟩ := h.config p hp
    exact ⟨e, hs he, hb, hpe⟩

lemma Sound.merge {es : List Entry} {k : Option String} {c i : Configuration}
    (hc : Sound cfg es k c) (hi : Sound cfg es none i)
    (hb : ∀ e, Bears cfg e none → Bears cfg e k) : Sound cfg es k (c.merge i) := by
  refine ⟨fun r hr => ?_, fun p hp => ?_, fun hp => ?_⟩
  · rw [support_merge, Bool.or_eq_true] at hr
    rcases hr with hr | hr
    · exact hc.support r hr
    · obtain ⟨e, he, hbe, hre⟩ := hi.support r hr
      exact ⟨e, he, hb e hbe, hre⟩
  · rcases merge_config hp with hp | hp
    · exact hc.config p hp
    · obtain ⟨e, he, hbe, hpe⟩ := hi.config p hp
      exact ⟨e, he, hb e hbe, hpe⟩
  · rw [support_merge, Bool.or_eq_true] at hp
    exact merge_config_isSome (hp.imp hc.player hi.player)

lemma Covers.merge {c : Configuration} {child : Child} (h : Covers c child) (i : Configuration) :
    Covers (c.merge i) child := by
  refine ⟨fun r hr => ?_, fun p hp => ?_⟩
  · rw [support_merge, h.support r hr, Bool.true_or]
  · simp [Configuration.merge, h.config p hp]

lemma player_mem_roles {child : Child} (h : Role.player ∈ roles child) :
    ∃ p, child = .mediaSource p := by
  cases child with
  | mediaSource p => exact ⟨p, rfl⟩
  | textSensor b => cases b <;> simp [roles] at h
  | _ => simp [roles] at h

lemma Records.sound {es : List Entry} {k : Option String} {c c' : Configuration} {e : Entry}
    (hr : Records c c' e.child) (hc : Sound cfg es k c) (hb : Bears cfg e k) :
    Sound cfg (es ++ [e]) k c' := by
  have hc' : Sound cfg (es ++ [e]) k c := hc.mono (List.subset_append_left _ _)
  have hmem : e ∈ es ++ [e] := by simp
  refine ⟨fun r hs => ?_, fun p hp => ?_, fun hp => ?_⟩
  · rw [hr.support, Bool.or_eq_true] at hs
    rcases hs with hs | hs
    · exact hc'.support r hs
    · exact ⟨e, hmem, hb, of_decide_eq_true hs⟩
  · rw [hr.config] at hp
    by_cases hm : ∃ q, e.child = .mediaSource q
    · obtain ⟨q, hq⟩ := hm
      rw [hq] at hp
      obtain rfl := Option.some.inj hp
      exact ⟨e, hmem, hb, hq⟩
    · rw [playerConfig_of_ne fun q hq => hm ⟨q, hq⟩] at hp
      exact hc'.config p hp
  · rw [hr.support, Bool.or_eq_true] at hp
    rw [hr.config]
    rcases hp with hp | hp
    · exact playerConfig_isSome _ (hc.player hp)
    · obtain ⟨p, hpe⟩ := player_mem_roles (of_decide_eq_true hp)
      rw [hpe]
      rfl

lemma Records.covers {c c' : Configuration} {child : Child} (hr : Records c c' child) :
    Covers c' child := by
  refine ⟨fun r hm => ?_, fun p hp => ?_⟩
  · rw [hr.support, decide_eq_true hm, Bool.or_true]
  · rw [hr.config, hp]
    rfl

lemma Records.keeps {c c' : Configuration} {child child' : Child} (hr : Records c c' child)
    (h : Covers c child') : Covers c' child' := by
  refine ⟨fun r hm => ?_, fun p hp => ?_⟩
  · rw [hr.support, h.support r hm, Bool.true_or]
  · have hold := h.config p hp
    rw [hr.config, playerConfig_of_ne, hold]
    intro q hq
    rw [hr.fresh q hq] at hold
    cases hold

/-- The data holds the requests of these entries, each where it was recorded. -/
structure Inv (cfg : Config) (es : List Entry) (d : ComponentData) : Prop where
  sound : ∀ k, Sound cfg es k (d.get k)
  covers : ∀ e ∈ es, Covers (d.get (cfg.key e)) e.child

lemma Inv.of_hubs {es : List Entry} {d d' : ComponentData} (hi : Inv cfg es d)
    (h : d'.hubs = d.hubs) : Inv cfg es d' := by
  have hget : d'.get = d.get := by
    funext k
    rw [ComponentData.get, ComponentData.get, h]
  exact ⟨hget ▸ hi.sound, hget ▸ hi.covers⟩

lemma inv_empty : Inv cfg [] .empty := by
  have hget : ∀ k, ComponentData.empty.get k = {} := fun k => by
    simp [ComponentData.get, ComponentData.empty]
  exact ⟨fun k => hget k ▸ sound_default [] k, by simp⟩

lemma Inv.entry {es : List Entry} {d d' : ComponentData} {e : Entry} (hi : Inv cfg es d)
    (he : (cfg.resolve e.parent).isSome) (h : e.child.record d (cfg.key e) = .ok d') :
    Inv cfg (es ++ [e]) d' := by
  obtain ⟨-, hother, hrec⟩ := record_spec h
  refine ⟨fun k => ?_, fun e' he' => ?_⟩
  · by_cases hk : k = cfg.key e
    · subst hk
      exact hrec.sound (hi.sound _) (bears_key he)
    · rw [hother k hk]
      exact (hi.sound k).mono (List.subset_append_left _ _)
  · rcases List.mem_append.mp he' with he' | he'
    · have hold := hi.covers e' he'
      by_cases hk : cfg.key e' = cfg.key e
      · rw [hk] at hold ⊢
        exact hrec.keeps hold
      · rwa [hother _ hk]
    · obtain rfl := List.mem_singleton.mp he'
      exact hrec.covers

lemma Inv.codegenData {es : List Entry} {d : ComponentData} {h : String} (hi : Inv cfg es d)
    (hh : h ∈ ids cfg) : Inv cfg es (d.getCodegenData cfg.hubs.length (some h)).2 := by
  have hget := get_getCodegenData d cfg.hubs.length h
  refine ⟨fun k => ?_, fun e he => ?_⟩
  · rw [hget]
    split
    · rename_i hk
      obtain ⟨rfl, h1⟩ := hk
      -- the entries merged are those of the only hub
      refine (hi.sound _).merge (hi.sound none) fun e hb => ?_
      change e.parent = none at hb
      change cfg.resolve e.parent = some h
      rw [hb]
      exact resolve_none_iff.mpr ⟨hh, h1⟩
    · exact hi.sound k
  · have hold := hi.covers e he
    rw [hget]
    split
    · rename_i hk
      rw [hk.1] at hold
      exact hold.merge _
    · exact hold

/-- **The data of an accepted configuration**, however the entries and the merges of it are
ordered. -/
theorem inv_validate {events : List Event} {es : List Entry} {d d' : ComponentData}
    (hi : Inv cfg es d) (he : ∀ e ∈ entries events, (cfg.resolve e.parent).isSome)
    (hc : ∀ h, .codegenData h ∈ events → h ∈ ids cfg)
    (h : cfg.validate d events = .ok d') :
    Inv cfg (es ++ entries events) d' ∧ d'.roleDefinesEmitted = d.roleDefinesEmitted ∧
      d'.sdkconfigJobScheduled = d.sdkconfigJobScheduled := by
  induction events generalizing es d with
  | nil =>
    obtain rfl := Except.ok.inj h
    exact ⟨by simpa [entries] using hi, rfl, rfl⟩
  | cons ev events ih =>
    obtain ⟨d₁, h₁, h₂⟩ := foldlM_cons_ok.mp h
    have hc' : ∀ h, .codegenData h ∈ events → h ∈ ids cfg :=
      fun h hm => hc h (List.mem_cons_of_mem _ hm)
    cases ev with
    | entry e =>
      have hi₁ := hi.entry (he e (by simp [entries])) h₁
      obtain ⟨hinv, hf₁, hf₂⟩ := ih hi₁ (fun e' hm => he e' (by simp_all [entries])) hc' h₂
      obtain ⟨⟨hr₁, hr₂⟩, -, -⟩ := record_spec h₁
      refine ⟨?_, hf₁.trans hr₁, hf₂.trans hr₂⟩
      simpa [entries] using hinv
    | codegenData hub =>
      obtain rfl := Except.ok.inj h₁
      have hi₁ := hi.codegenData (hc hub (by simp))
      obtain ⟨hinv, hf₁, hf₂⟩ := ih hi₁ he hc' h₂
      obtain ⟨hr₁, hr₂⟩ := getCodegenData_flags d cfg.hubs.length (some hub)
      exact ⟨hinv, hf₁.trans hr₁, hf₂.trans hr₂⟩

/-! ### What the entries ask of a hub -/

/-- Some entry that resolves to the hub asks for the role. -/
def Wanted (cfg : Config) (events : List Event) (h : String) (r : Role) : Prop :=
  ∃ e ∈ entries events, cfg.resolve e.parent = some h ∧ r ∈ roles e.child

instance {events : List Event} {h : String} {r : Role} : Decidable (Wanted cfg events h r) :=
  inferInstanceAs <| Decidable <|
    ∃ e ∈ entries events, cfg.resolve e.parent = some h ∧ r ∈ roles e.child

/-- Some hub is asked for the role. -/
def SomeWanted (cfg : Config) (events : List Event) (r : Role) : Prop :=
  ∃ h ∈ cfg.hubs, Wanted cfg events h.id r

instance {events : List Event} {r : Role} : Decidable (SomeWanted cfg events r) :=
  inferInstanceAs (Decidable (∃ h ∈ cfg.hubs, Wanted cfg events h.id r))

/-- The media sources of a hub. -/
def sources (cfg : Config) (events : List Event) (h : String) : List PlayerConfig :=
  (entries events).filterMap fun e =>
    match e.child with
    | .mediaSource p => if cfg.resolve e.parent = some h then some p else none
    | _ => none

lemma mem_sources {events : List Event} {h : String} {p : PlayerConfig} :
    p ∈ sources cfg events h ↔
      ∃ e ∈ entries events, cfg.resolve e.parent = some h ∧ e.child = .mediaSource p := by
  rw [sources, List.mem_filterMap]
  refine exists_congr fun e => and_congr_right fun _ => ?_
  cases hc : e.child with
  | mediaSource q =>
    by_cases hr : cfg.resolve e.parent = some h <;> simp [hr]
  | _ => simp

lemma wanted_player_iff {events : List Event} {h : String} :
    Wanted cfg events h .player ↔ ∃ p, p ∈ sources cfg events h := by
  constructor
  · rintro ⟨e, hm, hr, hre⟩
    obtain ⟨p, hp⟩ := player_mem_roles hre
    exact ⟨p, mem_sources.mpr ⟨e, hm, hr, hp⟩⟩
  · rintro ⟨p, hp⟩
    obtain ⟨e, hm, hr, hpe⟩ := mem_sources.mp hp
    exact ⟨e, hm, hr, by simp [hpe, roles]⟩

/-- An accepted configuration, with the events of its validation: every entry's hub is found. -/
structure Accepted (cfg : Config) (events : List Event) (d : ComponentData) : Prop where
  resolves : ∀ e ∈ entries events, (cfg.resolve e.parent).isSome
  calls : ∀ h, .codegenData h ∈ events → h ∈ ids cfg
  valid : cfg.validate .empty events = .ok d

/-- No hub has two media sources. This does not follow from the validation, which misses two of
which one names the hub and the other leaves it out. -/
def OneSource (cfg : Config) (events : List Event) : Prop :=
  ∀ h, (sources cfg events h).length ≤ 1

lemma OneSource.eq {events : List Event} (h1 : OneSource cfg events) {h : String}
    {p q : PlayerConfig} (hp : p ∈ sources cfg events h) (hq : q ∈ sources cfg events h) :
    p = q := by
  obtain ⟨x, hx⟩ := List.length_eq_one_iff.mp (le_antisymm (h1 h) (List.length_pos_of_mem hp))
  rw [hx, List.mem_singleton] at hp hq
  rw [hp, hq]

variable {events : List Event} {d : ComponentData}

lemma Inv.anySupport (hi : Inv cfg (entries events) d)
    (he : ∀ e ∈ entries events, (cfg.resolve e.parent).isSome) (r : Role) :
    d.anySupport r = true ↔ SomeWanted cfg events r := by
  rw [ComponentData.anySupport, any_entries d (p := fun c => c.support r) (support_default r)]
  constructor
  · rintro ⟨k, hk⟩
    obtain ⟨e, hm, _, hr⟩ := (hi.sound k).support r hk
    obtain ⟨h, hh⟩ := Option.isSome_iff_exists.mp (he e hm)
    obtain ⟨hub, hhub, rfl⟩ := List.mem_map.mp (resolve_mem hh)
    exact ⟨hub, hhub, e, hm, hh, hr⟩
  · rintro ⟨_, _, e, hm, _, hr⟩
    exact ⟨cfg.key e, (hi.covers e hm).support r hr⟩

lemma Inv.anyConfig (hi : Inv cfg (entries events) d)
    (he : ∀ e ∈ entries events, (cfg.resolve e.parent).isSome) (f : PlayerConfig → Bool) :
    (d.hubs.entries.any fun x => x.2.playerConfig.any f) = true ↔
      ∃ h ∈ cfg.hubs, ∃ p ∈ sources cfg events h.id, f p = true := by
  rw [any_entries d (p := fun c => c.playerConfig.any f) rfl]
  constructor
  · rintro ⟨k, hk⟩
    obtain ⟨p, hp, hf⟩ := (Option.any_eq_true _ _).mp hk
    obtain ⟨e, hm, _, hpe⟩ := (hi.sound k).config p hp
    obtain ⟨h, hh⟩ := Option.isSome_iff_exists.mp (he e hm)
    obtain ⟨hub, hhub, rfl⟩ := List.mem_map.mp (resolve_mem hh)
    exact ⟨hub, hhub, p, mem_sources.mpr ⟨e, hm, hh, hpe⟩, hf⟩
  · rintro ⟨h, _, p, hp, hf⟩
    obtain ⟨e, hm, _, hpe⟩ := mem_sources.mp hp
    exact ⟨cfg.key e, (Option.any_eq_true _ _).mpr ⟨p, (hi.covers e hm).config p hpe, hf⟩⟩

lemma Inv.hub_support (hi : Inv cfg (entries events) d) {h : String} (hh : h ∈ ids cfg)
    (r : Role) :
    (d.getCodegenData cfg.hubs.length (some h)).1.support r = true ↔ Wanted cfg events h r := by
  rw [getCodegenData_fst]
  constructor
  · exact ((hi.codegenData hh).sound (some h)).support r
  · rintro ⟨e, hm, hr, hre⟩
    have hsup := (hi.covers e hm).support r hre
    rw [get_getCodegenData]
    rcases key_eq hr with hk | ⟨hk, h1⟩
    · rw [hk] at hsup
      split
      · rw [support_merge, hsup, Bool.true_or]
      · exact hsup
    · rw [hk] at hsup
      rw [if_pos ⟨rfl, h1⟩, support_merge, hsup, Bool.or_true]

lemma Inv.hub_config_mem (hi : Inv cfg (entries events) d) {h : String} (hh : h ∈ ids cfg)
    {p : PlayerConfig}
    (hp : (d.getCodegenData cfg.hubs.length (some h)).1.playerConfig = some p) :
    p ∈ sources cfg events h := by
  rw [getCodegenData_fst] at hp
  exact mem_sources.mpr (((hi.codegenData hh).sound (some h)).config p hp)

lemma Inv.hub_config_some (hi : Inv cfg (entries events) d) {h : String} (hh : h ∈ ids cfg)
    {p : PlayerConfig} (hp : p ∈ sources cfg events h) :
    ∃ q ∈ sources cfg events h,
      (d.getCodegenData cfg.hubs.length (some h)).1.playerConfig = some q := by
  -- the hub has the player's role, so it has the configuration of some source
  have hsup := (hi.hub_support hh .player).mpr (wanted_player_iff.mpr ⟨p, hp⟩)
  have hsome : (d.getCodegenData cfg.hubs.length (some h)).1.playerConfig.isSome = true := by
    rw [getCodegenData_fst] at hsup ⊢
    exact ((hi.codegenData hh).sound (some h)).player hsup
  obtain ⟨q, hq⟩ := Option.isSome_iff_exists.mp hsome
  exact ⟨q, hi.hub_config_mem hh hq, hq⟩

lemma Inv.hub_config (hi : Inv cfg (entries events) d) (h1 : OneSource cfg events) {h : String}
    (hh : h ∈ ids cfg) (p : PlayerConfig) :
    (d.getCodegenData cfg.hubs.length (some h)).1.playerConfig = some p ↔
      p ∈ sources cfg events h := by
  refine ⟨hi.hub_config_mem hh, fun hp => ?_⟩
  obtain ⟨q, hqs, hq⟩ := hi.hub_config_some hh hp
  rw [hq, h1.eq hp hqs]

end SendspinMc.Roles
