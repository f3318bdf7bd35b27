import SendspinMc.Roles

/-!
What a hub's configuration is read as.

The data keeps a hub's requests under two keys and merges one into the other whenever
`_get_codegen_data` is called. What that call returns for a hub does not depend on how often it
was called before, so the code of a hub is a function of it.
-/

namespace SendspinMc.HubView

open SendspinMc.Codegen SendspinMc.Roles SendspinMc.Lib.Checks

variable {cfg : Config}

/-- What `_get_codegen_data` returns for a hub. -/
def view (cfg : Config) (d : ComponentData) (h : String) : Configuration :=
  (d.getCodegenData cfg.hubs.length (some h)).1

lemma view_eq (d : ComponentData) (h : String) :
    view cfg d h =
      if cfg.hubs.length = 1 then (d.get (some h)).merge (d.get none) else d.get (some h) := by
  rw [view, getCodegenData_fst, get_getCodegenData]
  simp

lemma merge_merge (c i : Configuration) : (c.merge i).merge i = c.merge i := by
  obtain ⟨a, co, m, p, v, pd, sw, ap, pc⟩ := c
  cases pc <;> simp [Configuration.merge, Finset.union_assoc]

lemma get_none_getCodegenData (d : ComponentData) (n : ℕ) (h : String) :
    (d.getCodegenData n (some h)).2.get none = d.get none := by
  rw [get_getCodegenData, if_neg (by simp)]

lemma view_getCodegenData (d : ComponentData) (k h : String) :
    view cfg (d.getCodegenData cfg.hubs.length (some k)).2 h = view cfg d h := by
  rw [view_eq, view_eq, get_none_getCodegenData, get_getCodegenData]
  by_cases hn : cfg.hubs.length = 1
  · rw [if_pos hn, if_pos hn]
    by_cases hk : some h = some k
    · rw [if_pos ⟨hk, hn⟩, hk, merge_merge]
    · rw [if_neg fun hc => hk hc.1]
  · rw [if_neg hn, if_neg hn, if_neg fun hc => hn hc.2]

/-- Data under which every hub is read alike. -/
def SameView (cfg : Config) (d d' : ComponentData) : Prop := ∀ h, view cfg d' h = view cfg d h

lemma SameView.refl (d : ComponentData) : SameView cfg d d := fun _ => rfl

lemma SameView.trans {d d' d'' : ComponentData} (h : SameView cfg d d')
    (h' : SameView cfg d' d'') : SameView cfg d d'' := fun k => (h' k).trans (h k)

lemma sameView_getCodegenData (d : ComponentData) (k : String) :
    SameView cfg d (d.getCodegenData cfg.hubs.length (some k)).2 := view_getCodegenData d k

lemma sameView_of_hubs {d d' : ComponentData} (h : d'.hubs = d.hubs) : SameView cfg d d' := by
  have hget : d'.get = d.get := by
    funext k
    rw [ComponentData.get, ComponentData.get, h]
  intro k
  rw [view_eq, view_eq, hget]

lemma offersDynamicPairingCode_view (cfg : Config) (d : ComponentData) (h : HubConfig) :
    (offersDynamicPairingCode cfg d h).1 =
        (h.onDisplayPairingCode || (view cfg d h.id).pairingCodeDisplaySupport) ∧
      SameView cfg d (offersDynamicPairingCode cfg d h).2 := by
  unfold offersDynamicPairingCode
  cases h.onDisplayPairingCode with
  | true => exact ⟨rfl, .refl d⟩
  | false => exact ⟨rfl, sameView_getCodegenData d h.id⟩

/-- A hub that is read as a player has a player's configuration. -/
def Playable (cfg : Config) (d : ComponentData) (h : String) : Prop :=
  (view cfg d h).support .player = true → (view cfg d h).playerConfig.isSome = true

lemma playable_of_inv {es : List Entry} {d : ComponentData} {h : String} (hi : Inv cfg es d)
    (hh : h ∈ ids cfg) : Playable cfg d h := by
  have hs := ((hi.codegenData hh).sound (some h)).player
  rw [← getCodegenData_fst] at hs
  exact hs

lemma playable_of_sameView {d d' : ComponentData} {h : String} (hv : SameView cfg d d')
    (hp : Playable cfg d h) : Playable cfg d' h := by
  unfold Playable
  rw [hv h]
  exact hp

/-! ### Flags -/

/-- A part of a configuration that requests only ever set. -/
structure Flag where
  get : Configuration → Bool
  asks : Child → Bool
  get_default : get {} = false
  get_merge : ∀ c i, get (c.merge i) = (get c || get i)
  get_record : ∀ {d d' : ComponentData} {key : Option String} {child : Child},
    child.record d key = .ok d' → get (d'.get key) = (get (d.get key) || asks child)

variable {f : Flag}

lemma Flag.get_view (f : Flag) (d : ComponentData) (h : String) :
    f.get (view cfg d h) =
      (f.get (d.get (some h)) || (decide (cfg.hubs.length = 1) && f.get (d.get none))) := by
  rw [view_eq]
  split
  · rename_i hn
    simp [f.get_merge, hn]
  · rename_i hn
    simp [hn]

/-- The entry's requests are seen in the view of the hub. -/
def seen (cfg : Config) (e : Entry) (h : String) : Bool :=
  cfg.key e = some h || (cfg.key e = none && cfg.hubs.length = 1)

lemma seen_iff {e : Entry} {h : String} (he : (cfg.resolve e.parent).isSome) (hh : h ∈ ids cfg) :
    seen cfg e h = true ↔ cfg.resolve e.parent = some h := by
  simp only [seen, Bool.or_eq_true, Bool.and_eq_true, decide_eq_true_eq]
  constructor
  · intro hs
    have hb := bears_key he
    rcases hs with hk | ⟨hk, hn⟩
    · rw [hk] at hb
      exact hb
    · rw [hk] at hb
      change e.parent = none at hb
      rw [hb]
      exact resolve_none_iff.mpr ⟨hh, hn⟩
  · exact key_eq

lemma Flag.record (f : Flag) {d d' : ComponentData} {e : Entry}
    (h : e.child.record d (cfg.key e) = .ok d') (k : String) :
    f.get (view cfg d' k) = (f.get (view cfg d k) || (seen cfg e k && f.asks e.child)) := by
  obtain ⟨-, hother, -⟩ := record_spec h
  have hself := f.get_record h
  rw [f.get_view, f.get_view, seen]
  by_cases hk : cfg.key e = some k
  · rw [hk] at hself hother
    rw [hself, hother none (by simp), hk]
    simp only [decide_true, Bool.true_or, Bool.true_and]
    cases f.get (d.get (some k)) <;> cases f.asks e.child <;> simp
  · cases hn : cfg.key e with
    | none =>
      rw [hn] at hself hother
      rw [hself, hother (some k) (by simp)]
      simp only [reduceCtorEq, decide_false, Bool.false_or, decide_true, Bool.true_and]
      cases f.get (d.get (some k)) <;> cases f.asks e.child <;>
        cases f.get (d.get none) <;> cases decide (cfg.hubs.length = 1) <;> rfl
    | some k' =>
      rw [hn] at hother hk
      rw [hother none (by simp), hother (some k) fun hc => hk hc.symm]
      have hne : k' ≠ k := fun hc => hk (congrArg some hc)
      simp [hne]

/-- **What the entries set**: after a validation, a hub is read with a flag set exactly when it
was before or an entry that it sees asks for it, whatever was merged in between. -/
theorem Flag.validate (f : Flag) {events : List Event} {d d' : ComponentData}
    (h : cfg.validate d events = .ok d') (k : String) :
    f.get (view cfg d' k) =
      (f.get (view cfg d k) ||
        (entries events).any fun e => seen cfg e k && f.asks e.child) := by
  induction events generalizing d with
  | nil =>
    obtain rfl := Except.ok.inj h
    simp [entries]
  | cons ev events ih =>
    obtain ⟨d₁, h₁, h₂⟩ := foldlM_cons_ok.mp h
    rw [ih h₂]
    cases ev with
    | entry e =>
      rw [f.record h₁]
      simp [entries, Bool.or_assoc]
    | codegenData hub =>
      obtain rfl := Except.ok.inj h₁
      rw [view_getCodegenData]
      simp [entries]

/-! ### The flags that are not roles -/

lemma mem_switchTypes_recorded {c : Configuration} {child : Child} {t : SwitchType} :
    t ∈ (recorded c child).switchTypes ↔ t ∈ c.switchTypes ∨ child = .switch t := by
  cases child with
  | switch t' =>
    rw [recorded, Finset.mem_insert, Child.switch.injEq, or_comm]
    exact or_congr_right eq_comm
  | textSensor b => cases b <;> simp [recorded]
  | _ => simp [recorded]

/-- A switch drives the setting. -/
def switchFlag (t : SwitchType) : Flag where
  get c := decide (t ∈ c.switchTypes)
  asks child := decide (child = .switch t)
  get_default := by simp
  get_merge c i := by simp [Configuration.merge]
  get_record {d d' key child} h := by
    rw [(record_differs h).self]
    exact (decide_eq_decide.mpr mem_switchTypes_recorded).trans (Bool.decide_or _ _)

/-- Artwork is shown. -/
def artworkFlag : Flag where
  get c := c.artworkSupport
  asks
    | .image _ => true
    | _ => false
  get_default := rfl
  get_merge _ _ := rfl
  get_record {d d' key child} h := by
    rw [(record_differs h).self]
    cases child with
    | textSensor b => cases b <;> simp [recorded]
    | _ => simp [recorded]

/-- A pairing code is displayed. -/
def pairingFlag : Flag where
  get c := c.pairingCodeDisplaySupport
  asks child := decide (child = .textSensor true)
  get_default := rfl
  get_merge _ _ := rfl
  get_record {d d' key child} h := by
    rw [(record_differs h).self]
    cases child with
    | textSensor b => cases b <;> simp [recorded]
    | _ => simp [recorded]

end SendspinMc.HubView
