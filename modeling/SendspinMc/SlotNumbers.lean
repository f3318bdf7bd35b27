import SendspinMc.FinalValidation
import SendspinMc.HubFields
import SendspinMc.Lib.Numbered

/-!
The numbers of the artwork slots.

A slot is known by its number to the image that shows it, and by its place in a list to the hub
that asks the server for it. The number is given when the image is registered, between images
of other hubs, and the list is generated afterwards.
-/

namespace SendspinMc.SlotNumbers

open SendspinMc.Codegen SendspinMc.Roles SendspinMc.HubView SendspinMc.HubCode
open SendspinMc.HubFields SendspinMc.FinalValidation SendspinMc.Lib.Checks
open SendspinMc.Lib.Numbered

variable {cfg : Config}

/-! ### Image entries -/

/-- `runtime_image`'s names of the formats that the schema takes. -/
inductive FormatName
  | jpeg | jpg | png
  deriving DecidableEq

/-- `_FORMAT_TO_SENDSPIN_ENUM`. -/
def formatToSendspinEnum : FormatName → ImageFormat
  | .jpeg | .jpg => .jpeg
  | .png => .png

/-- An image entry, with the hub that its parent has been resolved to. -/
structure ImageEntry (cfg : Config) where
  hub : String
  resolved : hub ∈ ids cfg
  resize : ℕ × ℕ
  source : ImageSource
  format : FormatName
  displayOffset : ℤ

/-- What the entry registers. -/
def ImageEntry.preference (e : ImageEntry cfg) : ArtworkPreference where
  source := e.source
  format := formatToSendspinEnum e.format
  width := e.resize.1
  height := e.resize.2
  displayOffset := e.displayOffset

/-- `_assign_slot_and_register` of the entry, and the slot it is given. -/
def register (d : ComponentData) (e : ImageEntry cfg) : Except String (ℕ × ComponentData) :=
  assignSlotAndRegister d (some e.hub) e.preference

def ImageEntry.entry (e : ImageEntry cfg) : Entry := ⟨some e.hub, .image e.preference⟩

/-- The preference that the server is told for the entry. -/
def ImageEntry.slotPreference (e : ImageEntry cfg) : ImageSlotPreference where
  source := e.source
  format := formatToSendspinEnum e.format
  width := e.resize.1
  height := e.resize.2
  requireFrameDone := true
  displayOffsetMs := e.displayOffset

/-- The data before the first image is registered. -/
def Prepared (cfg : Config) (d : ComponentData) : Prop :=
  ∃ es, Leads cfg es .empty d ∧
    ∀ e ∈ es, (cfg.resolve e.parent).isSome ∧ isImage e = false

lemma prepared_schema {full : FullConfig} {d : ComponentData}
    (hr : ∀ e ∈ full.entries, (full.config.resolve e.parent).isSome)
    (hv : full.config.validate .empty ((full.entries.filter (!isImage ·)).map .entry) = .ok d) :
    Prepared full.config d := by
  refine ⟨full.entries.filter (!isImage ·), ⟨_, hv, ?_, by simp⟩, fun e he => ?_⟩
  · simp [entries, List.filterMap_map]
  · obtain ⟨hm, hi⟩ := List.mem_filter.mp he
    exact ⟨hr e hm, by simpa using hi⟩

/-! ### One image -/

lemma resolve_mem_ids {h : String} (hh : h ∈ ids cfg) : cfg.resolve (some h) = some h :=
  if_pos hh

lemma assignSlot_ok {d : ComponentData} {key : Option String} {p : ArtworkPreference} :
    (∃ r, assignSlotAndRegister d key p = .ok r) ↔
      (p.width ≤ maxImageDimension ∧ p.height ≤ maxImageDimension) ∧
        (d.get key).artworkPreferences.length < maxArtworkSlots := by
  have hpref : ((requestArtworkSupport d key).get key).artworkPreferences =
      (d.get key).artworkPreferences := by simp [requestArtworkSupport, get_update]
  unfold assignSlotAndRegister registerArtworkPreference
  dsimp only
  rw [hpref]
  split
  · rename_i hbig
    exact iff_of_false (by simp) fun hsmall => by omega
  · rename_i hsmall
    rw [not_or, not_lt, not_lt] at hsmall
    rw [and_iff_right hsmall]
    split
    · rename_i hfull
      exact iff_of_false (by simp) (not_lt.mpr hfull)
    · rename_i hroom
      exact iff_of_true ⟨_, rfl⟩ (not_le.mp hroom)

lemma assignSlot_spec {d d' : ComponentData} {key : Option String} {p : ArtworkPreference}
    {n : ℕ} (h : assignSlotAndRegister d key p = .ok (n, d')) :
    n = (d.get key).artworkPreferences.length ∧ Child.record d key (.image p) = .ok d' := by
  have hrec : Child.record d key (.image p) = .ok d' := by rw [Child.record, h]; rfl
  refine ⟨?_, hrec⟩
  unfold assignSlotAndRegister registerArtworkPreference at h
  dsimp only at h
  split at h
  · cases h
  split at h
  · cases h
  obtain ⟨rfl, -⟩ := Prod.mk.inj (Except.ok.inj h)
  simp [requestArtworkSupport, get_update]

/-! ### What is registered -/

/-- A hub's preferences, as its configuration holds them. -/
def preferences (d : ComponentData) (h : String) : List ArtworkPreference :=
  (d.get (some h)).artworkPreferences

/-- The preference that an entry adds. -/
def added : Child → List ArtworkPreference
  | .image p => [p]
  | _ => []

lemma preferences_record {d d' : ComponentData} {key : Option String} {child : Child}
    (h : child.record d key = .ok d') (k : String) :
    preferences d' k = preferences d k ++ if key = some k then added child else [] := by
  have hd := record_differs h
  unfold preferences
  by_cases hk : key = some k
  · rw [if_pos hk, ← hk, hd.self]
    cases child with
    | image p => rfl
    | textSensor b => cases b <;> exact (List.append_nil _).symm
    | _ => exact (List.append_nil _).symm
  · rw [if_neg hk, hd.other _ fun hc => hk hc.symm, List.append_nil]

lemma preferences_getCodegenData (d : ComponentData) (h k : String) :
    preferences (d.getCodegenData cfg.hubs.length (some h)).2 k = preferences d k := by
  rw [preferences, get_getCodegenData]
  split
  · rename_i hk
    rw [preferences, hk.1]
    rfl
  · rfl

lemma preferences_prepared {d : ComponentData} (hd : Prepared cfg d) (h : String) :
    preferences d h = [] := by
  obtain ⟨es, ⟨events, hv, hes, -⟩, himg⟩ := hd
  refine foldlM_keeps (P := fun d => preferences d h = [])
    (fun u ev t hm hu ht => ?_) (by simp [preferences, ComponentData.get, ComponentData.empty]) hv
  cases ev with
  | entry e =>
    have he : e ∈ es := hes ▸ List.mem_filterMap.mpr ⟨.entry e, hm, rfl⟩
    have hno : added e.child = [] := by
      have hi := (himg e he).2
      unfold isImage at hi
      cases hc : e.child with
      | image p => simp [hc] at hi
      | _ => rfl
    rw [preferences_record ht, hu, hno, ite_self, List.append_nil]
  | codegenData k =>
    obtain rfl := Except.ok.inj ht
    exact (preferences_getCodegenData u k h).trans hu

/-- The data holds the preferences of these images, each hub its own in their order. -/
structure Registered (cfg : Config) (d₀ : ComponentData) (done : List (ImageEntry cfg))
    (d : ComponentData) : Prop where
  preferences : ∀ h, preferences d h =
    (group ImageEntry.hub h done).map ImageEntry.preference
  leads : Leads cfg (done.map ImageEntry.entry) d₀ d

theorem numbers_register (d₀ : ComponentData) :
    Numbers (@register cfg) ImageEntry.hub
      (fun e => e.resize.1 ≤ maxImageDimension ∧ e.resize.2 ≤ maxImageDimension) maxArtworkSlots
      (Registered cfg d₀) := by
  have hlen : ∀ {done d} (e : ImageEntry cfg), Registered cfg d₀ done d →
      (d.get (some e.hub)).artworkPreferences.length = (group ImageEntry.hub e.hub done).length :=
    fun e hd => by
      have hp := congrArg List.length (hd.preferences e.hub)
      rwa [List.length_map] at hp
  constructor
  · intro done d e hd
    rw [register, assignSlot_ok, hlen e hd]
    rfl
  · intro done d e n d' hd hok
    obtain ⟨hn, hrec⟩ := assignSlot_spec hok
    refine ⟨hn.trans (hlen e hd), fun h => ?_, ?_⟩
    · rw [preferences_record hrec, hd.preferences, group_append, List.map_append]
      congr 1
      split
      · rename_i hh
        obtain rfl := Option.some.inj hh
        rw [group_cons_self]
        rfl
      · rename_i hh
        rw [group_cons_of_ne fun hc => hh (congrArg some hc)]
        rfl
    · rw [List.map_append]
      refine hd.leads.trans (leads_record (e := e.entry) ?_)
      change Child.record d (cfg.resolve (some e.hub)) (.image e.preference) = .ok d'
      rwa [resolve_mem_ids e.resolved]

/-! ### What the hubs ask the server for -/

lemma view_preferences (d : ComponentData) (h : String) :
    (view cfg d h).artworkPreferences = preferences d h := by
  rw [view_eq]
  split <;> rfl

lemma Registered.leads_all {d₀ d : ComponentData} {images : List (ImageEntry cfg)}
    (hr : Registered cfg d₀ images d) (hd : Prepared cfg d₀) :
    ∃ es, Leads cfg es .empty d ∧ (∀ e ∈ es, (cfg.resolve e.parent).isSome) ∧
      ∀ e ∈ images, e.entry ∈ es := by
  obtain ⟨es, hl, hes⟩ := hd
  refine ⟨_, hl.trans hr.leads, fun e he => ?_, fun e he => ?_⟩
  · rcases List.mem_append.mp he with he | he
    · exact (hes e he).1
    · obtain ⟨i, -, rfl⟩ := List.mem_map.mp he
      exact Option.isSome_of_eq_some (resolve_mem_ids i.resolved)
  · exact List.mem_append_right _ (List.mem_map_of_mem he)

lemma preferredFormats {d₀ d : ComponentData} {images : List (ImageEntry cfg)}
    (hr : Registered cfg d₀ images d) (hd : Prepared cfg d₀) (hn : (ids cfg).Nodup)
    {order : List HubConfig} (ho : order.Perm cfg.hubs) (core : Sdkconfig) (p : Platform) :
    ∃ w, generate cfg d order core = .ok w ∧
      ∀ h ∈ cfg.hubs, (∃ e ∈ images, e.hub = h.id) →
        (configured p w.code h.id).artworkConfig =
          some ⟨(group ImageEntry.hub h.id images).map ImageEntry.slotPreference,
            h.taskStackInPsram⟩ := by
  obtain ⟨es, hl, hes, himages⟩ := hr.leads_all hd
  obtain ⟨w, hw, hcalls⟩ := generate_calls ho hn
    (fun h hm => playable_of_leads hl hes (List.mem_map_of_mem hm)) core
  refine ⟨w, hw, ?_⟩
  rintro h hm ⟨e, he, heh⟩
  obtain ⟨l, hroles, hcode⟩ := hcalls h hm
  have hsupport : (view cfg d h.id).artworkSupport = true :=
    (flag_of_leads hl hes artworkFlag (List.mem_map_of_mem hm)).mpr
      ⟨e.entry, himages e he, heh ▸ resolve_mem_ids e.resolved, rfl⟩
  rw [configured, hcode, artworkConfig_eq hroles, if_pos hsupport, view_preferences,
    hr.preferences, List.map_map]
  rfl

/-- **A slot's number is its place**: images are registered exactly if none is too large and no
hub has more than the maximum; each gets the number of earlier images of its hub, so that those
of a hub are numbered from 0 on, whatever other images there are; and at that place of the list
that is generated for the hub stands what the image asks for. -/
theorem slots_numbered {d₀ : ComponentData} (hd : Prepared cfg d₀) (hn : (ids cfg).Nodup)
    (images : List (ImageEntry cfg)) :
    ((∃ r, registerAll register d₀ images = .ok r) ↔
      (∀ e ∈ images, e.resize.1 ≤ maxImageDimension ∧ e.resize.2 ≤ maxImageDimension) ∧
        ∀ h, (group ImageEntry.hub h images).length ≤ maxArtworkSlots) ∧
    ∀ slots d, registerAll register d₀ images = .ok (slots, d) →
      (∀ (i : ℕ) (e : ImageEntry cfg), images[i]? = some e →
        slots[i]? = some (group ImageEntry.hub e.hub (images.take i)).length) ∧
      (∀ h, ((images.zip slots).filter (·.1.hub = h)).map (·.2) =
        List.range (group ImageEntry.hub h images).length) ∧
      ∀ order, order.Perm cfg.hubs → ∀ core p, ∃ w, generate cfg d order core = .ok w ∧
        ∀ h ∈ cfg.hubs, (∃ e ∈ images, e.hub = h.id) →
          ∃ formats,
            (configured p w.code h.id).artworkConfig = some ⟨formats, h.taskStackInPsram⟩ ∧
            formats.length = (group ImageEntry.hub h.id images).length ∧
            ∀ (i s : ℕ) (e : ImageEntry cfg), images[i]? = some e → e.hub = h.id →
              slots[i]? = some s → formats[s]? = some e.slotPreference := by
  have hstart : Registered cfg d₀ [] d₀ :=
    ⟨fun h => preferences_prepared hd h, leads_refl d₀⟩
  have hnum := @numbers_register cfg d₀
  refine ⟨hnum.registers_iff hstart fun h => Nat.zero_le _, fun slots d hok => ?_⟩
  obtain ⟨rfl, hr⟩ := hnum.ranks hstart hok
  have hrank : ∀ i (e : ImageEntry cfg), images[i]? = some e →
      (ranks ImageEntry.hub [] images)[i]? =
        some (group ImageEntry.hub e.hub (images.take i)).length := fun i e he => ranks_get he
  refine ⟨hrank, fun h => ?_, fun order ho core p => ?_⟩
  · rw [ranks_group h [] images, List.range_eq_range']
    rfl
  · obtain ⟨w, hw, hall⟩ := preferredFormats hr hd hn ho core p
    refine ⟨w, hw, fun h hm hex => ⟨_, hall h hm hex, List.length_map _, ?_⟩⟩
    intro i s e he heh hs
    obtain rfl := Option.some.inj ((hrank i e he).symm.trans hs)
    rw [List.getElem?_map, ← heh]
    exact congrArg (Option.map ImageEntry.slotPreference) (group_get he)

def den : HubConfig :=
  ⟨"den", "den-client", "Den", 8931, 32771, "0.9.3", false, none, none, none, none, none, false⟩

def attic : HubConfig :=
  ⟨"attic", "attic-client", "Attic", 8932, 32772, "0.9.3", true, none, none, none, none, none,
    false⟩

/-- Two hubs with a display each. -/
def displays : FullConfig where
  config :=
    { hubs := [den, attic], coreSendspin := false, project := ⟨none, none⟩
      mdnsEnableDisable := false }
  deviceName := "house"
  entries := [⟨some "attic", .sensor⟩]

lemma den_mem : "den" ∈ ids displays.config := by decide

lemma attic_mem : "attic" ∈ ids displays.config := by decide

def cover : ImageEntry displays.config := ⟨"den", den_mem, (240, 240), .album, .jpg, 0⟩

def portrait : ImageEntry displays.config := ⟨"den", den_mem, (64, 128), .artist, .png, -500⟩

def atticCover : ImageEntry displays.config := ⟨"attic", attic_mem, (480, 480), .album, .jpeg, 0⟩

def displaysData : ComponentData :=
  (displays.config.validate .empty [.entry ⟨some "attic", .sensor⟩]).toOption.getD .empty

theorem slots_numbered_interleaved :
    ∃ slots d w, registerAll register displaysData [cover, atticCover, portrait] = .ok (slots, d) ∧
      generate displays.config d [attic, den] (fun _ => none) = .ok w ∧
      slots[1]? = some 0 ∧ slots[2]? = some 1 ∧
      ∃ formats, (configured firmware w.code "den").artworkConfig = some ⟨formats, false⟩ ∧
        formats[1]? = some ⟨.artist, .png, 64, 128, true, -500⟩ := by
  have hd : Prepared displays.config displaysData :=
    @prepared_schema displays _ (by decide) rfl
  obtain ⟨hiff, hall⟩ := slots_numbered hd (by decide) [cover, atticCover, portrait]
  obtain ⟨⟨slots, d⟩, hr⟩ := hiff.mpr ⟨by simp [cover, atticCover, portrait, maxImageDimension],
    fun h => (List.length_filter_le _ _).trans (by decide)⟩
  obtain ⟨hrank, -, hcode⟩ := hall slots d hr
  obtain ⟨w, hw, hformats⟩ :=
    hcode [attic, den] (List.Perm.swap _ _ _) (fun _ => none) firmware
  have h₁ : slots[1]? = some 0 := hrank 1 atticCover rfl
  have h₂ : slots[2]? = some 1 := hrank 2 portrait rfl
  obtain ⟨formats, hconfig, -, hget⟩ := hformats den List.mem_cons_self ⟨cover, by simp, rfl⟩
  exact ⟨slots, d, w, hr, hw, h₁, h₂, formats, hconfig, hget 2 1 portrait rfl rfl h₂⟩

end SendspinMc.SlotNumbers
