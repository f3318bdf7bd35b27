import SendspinMc.Wiring

/-!
The audio formats that a hub offers its server.

The codecs of a media source are checked against its sample rate while the source is validated;
the formats are generated of them later, and the library is built with a decoder for Opus only if
some source asks for it. A server that goes by the offers never sends what cannot be played.
-/

namespace SendspinMc.Codecs

open SendspinMc.Codegen SendspinMc.Roles SendspinMc.HubFields SendspinMc.FinalValidation
open SendspinMc.Wiring SendspinMc.Lib.Checks

/-! ### The validation of a media source -/

def codecName : Codec → String
  | .flac => "flac"
  | .opus => "opus"
  | .pcm => "pcm"

def defaultCodecs : List Codec := [.flac, .opus, .pcm]

def opusSampleRate : ℕ := 48000

/-- `_resolve_codecs`, and the codecs that it leaves in the configuration. -/
def resolveCodecs (sampleRate : ℕ) : Option (List Codec) → Except Invalid (List Codec)
  | none => .ok (defaultCodecs.filter fun c => c ≠ .opus || sampleRate = opusSampleRate)
  | some codecs =>
    if codecs.dedup.length ≠ codecs.length then
      .error (.text "Each codec may only be listed once" ["codecs"])
    else if .opus ∈ codecs ∧ sampleRate ≠ opusSampleRate then
      .error (.text ("Codec '" ++ codecName .opus ++ "' requires a sample_rate of " ++
        opusSampleRate.repr) ["codecs"])
    else if .flac ∉ codecs ∧ .pcm ∉ codecs then
      .error (.text ("Codecs must include '" ++ codecName .flac ++ "' or '" ++ codecName .pcm ++
        "'") ["codecs"])
    else .ok codecs

/-- The configuration of a media source, after the schema has filled in its defaults. -/
structure SourceConfig where
  codecs : Option (List Codec)
  sampleRate : ℕ := 48000
  bufferSize : ℕ := 1000000
  initialStaticDelay : ℕ := 0
  fixedDelay : ℕ := 0
  taskStackInPsram : Option Bool
  decodeMemory : Option MemoryLocation

/-- `_resolve_codecs` and what `_register` registers. -/
def SourceConfig.validate (s : SourceConfig) : Except Invalid PlayerConfig :=
  (resolveCodecs s.sampleRate s.codecs).map fun codecs =>
    { codecs := codecs
      sampleRate := s.sampleRate
      bufferSize := s.bufferSize
      initialStaticDelay := s.initialStaticDelay
      fixedDelay := s.fixedDelay
      taskStackInPsram := s.taskStackInPsram.getD false
      decodeMemory := s.decodeMemory }

/-- What a list of codecs must be at a sample rate. -/
structure Fits (sampleRate : ℕ) (codecs : List Codec) : Prop where
  distinct : codecs.Nodup
  opus : .opus ∈ codecs → sampleRate = opusSampleRate
  other : .flac ∈ codecs ∨ .pcm ∈ codecs

lemma length_dedup_iff {α : Type*} [DecidableEq α] {l : List α} :
    l.dedup.length = l.length ↔ l.Nodup := by
  rw [← List.dedup_eq_self]
  exact ⟨(List.dedup_sublist l).eq_of_length, congrArg List.length⟩

theorem resolveCodecs_some {sampleRate : ℕ} {codecs l : List Codec} :
    resolveCodecs sampleRate (some codecs) = .ok l ↔ Fits sampleRate codecs ∧ l = codecs := by
  constructor
  · intro h
    rw [resolveCodecs] at h
    split at h
    · cases h
    rename_i hdup
    split at h
    · cases h
    rename_i hopus
    split at h
    · cases h
    rename_i hother
    obtain rfl := Except.ok.inj h
    rw [not_not, length_dedup_iff] at hdup
    rw [not_and, not_not] at hopus
    rw [not_and_or, not_not, not_not] at hother
    exact ⟨⟨hdup, hopus, hother⟩, rfl⟩
  · rintro ⟨h, rfl⟩
    rw [resolveCodecs, if_neg (not_not_intro (length_dedup_iff.mpr h.distinct)),
      if_neg fun hc => hc.2 (h.opus hc.1), if_neg fun hc => h.other.elim hc.1 hc.2]

lemma resolveCodecs_fits {sampleRate : ℕ} {codecs : Option (List Codec)} {l : List Codec}
    (h : resolveCodecs sampleRate codecs = .ok l) : Fits sampleRate l := by
  cases codecs with
  | some codecs =>
    obtain ⟨hfits, rfl⟩ := resolveCodecs_some.mp h
    exact hfits
  | none =>
    obtain rfl := Except.ok.inj h
    by_cases hr : sampleRate = opusSampleRate
    · exact ⟨by simp [defaultCodecs, hr], fun _ => hr, .inl (by simp [defaultCodecs])⟩
    · exact ⟨by simp [defaultCodecs, hr], by simp [hr], .inl (by simp [defaultCodecs])⟩

/-! ### What is offered -/

/-- What a server may choose from: each codec of the list in stereo and in mono, once, in the
order of preference, at the source's rate. -/
structure Offers (q : PlayerConfig) (formats : List AudioFormat) : Prop where
  distinct : formats.Nodup
  shape : ∀ f ∈ formats, f.codec ∈ q.codecs ∧ (f.channels = 2 ∨ f.channels = 1) ∧
    f.sampleRate = q.sampleRate ∧ f.bitDepth = 16
  order : ∀ (i : ℕ) (c : Codec), q.codecs[i]? = some c →
    formats[2 * i]? = some ⟨c, 2, q.sampleRate, 16⟩ ∧
      formats[2 * i + 1]? = some ⟨c, 1, q.sampleRate, 16⟩

lemma getElem?_pairs {α β : Type*} (f g : α → β) {l : List α} {i : ℕ} {a : α}
    (h : l[i]? = some a) :
    (l.flatMap fun x => [f x, g x])[2 * i]? = some (f a) ∧
      (l.flatMap fun x => [f x, g x])[2 * i + 1]? = some (g a) := by
  induction l generalizing i with
  | nil => cases h
  | cons x l ih =>
    cases i with
    | zero =>
      obtain rfl := Option.some.inj h
      exact ⟨rfl, rfl⟩
    | succ i => exact ih h

lemma offers (q : PlayerConfig) (hq : q.codecs.Nodup) :
    Offers q (playerRoleConfig q).audioFormats := by
  have hpairs : (playerRoleConfig q).audioFormats = q.codecs.flatMap fun c =>
      [(⟨c, 2, q.sampleRate, 16⟩ : AudioFormat), ⟨c, 1, q.sampleRate, 16⟩] := rfl
  rw [hpairs]
  refine ⟨?_, fun f hf => ?_, fun i c hc => ?_⟩
  · refine List.nodup_flatMap.mpr ⟨fun c _ => by simp, hq.imp fun {a b} hab => ?_⟩
    rintro f ha hb
    simp only [List.mem_cons, List.not_mem_nil, or_false] at ha hb
    rcases ha with rfl | rfl <;> simp [hab] at hb
  · obtain ⟨c, hc, hf⟩ := List.mem_flatMap.mp hf
    simp only [List.mem_cons, List.not_mem_nil, or_false] at hf
    rcases hf with rfl | rfl
    · exact ⟨hc, .inl rfl, rfl, rfl⟩
    · exact ⟨hc, .inr rfl, rfl, rfl⟩
  · exact getElem?_pairs _ _ hc

variable {cfg : Config} {events : List Event}

/-- **What a hub offers can be played**: of every accepted configuration whose media sources have
been validated, the player of a hub with sources is generated with the formats of one of them (of
the one there is, where no hub has two), each once and in the order of preference. Opus is among
them only at its own rate, and then the library is built with it; and there is always another
codec. -/
theorem offers_playable {d : ComponentData} {order : List HubConfig}
    (ha : Accepted cfg events d) (hn : (ids cfg).Nodup)
    (hs : ∀ e ∈ entries events, ∀ q, e.child = .mediaSource q →
      ∃ s : SourceConfig, s.validate = .ok q)
    (ho : order.Perm cfg.hubs) (core : Sdkconfig) (p : Platform) :
    ∃ w, generate cfg d order core = .ok w ∧ ∀ h ∈ cfg.hubs, ∀ q' ∈ sources cfg events h.id,
      ∃ q ∈ sources cfg events h.id, (OneSource cfg events → q = q') ∧
        ∃ c, (configured p w.code h.id).playerConfig = some c ∧ Offers q c.audioFormats ∧
          (∀ f ∈ c.audioFormats, f.codec = .opus →
            f.sampleRate = opusSampleRate ∧ w.sdkconfig (enableOption "OPUS") = some true) ∧
          ∃ f ∈ c.audioFormats, f.codec ≠ .opus ∧ f.channels = 2 := by
  obtain ⟨w, hw, hg⟩ := generate_fields ha hn ho core p
  refine ⟨w, hw, fun h hm q' hq' => ?_⟩
  obtain ⟨q, hq, hconfig⟩ := hg.player h hm q' hq'
  refine ⟨q, hq, fun h1 => h1.eq hq hq', _, hconfig, ?_⟩
  obtain ⟨e, he, -, hc⟩ := mem_sources.mp hq
  obtain ⟨s, hs⟩ := hs e he q hc
  obtain ⟨l, hl, hvalid⟩ := map_ok.mp hs
  obtain rfl : q.codecs = l := by rw [← hvalid]
  have hrated : q.sampleRate = s.sampleRate := by rw [← hvalid]
  have hfits := resolveCodecs_fits hl
  have hoffers := offers q hfits.distinct
  refine ⟨hoffers, fun f hf hopus => ?_, ?_⟩
  · obtain ⟨hin, -, hrate, -⟩ := hoffers.shape f hf
    rw [hopus] at hin
    exact ⟨(hrate.trans hrated).trans (hfits.opus hin), hg.opus ⟨h, hm, _, hq, hin⟩⟩
  · -- some other codec is in the list, and its stereo format is at an even place
    obtain ⟨c, hc, hne⟩ : ∃ c ∈ q.codecs, c ≠ .opus :=
      hfits.other.elim (fun hf => ⟨.flac, hf, by decide⟩) fun hp => ⟨.pcm, hp, by decide⟩
    obtain ⟨i, hi⟩ := List.mem_iff_getElem?.mp hc
    exact ⟨_, List.mem_of_getElem? (hoffers.order i c hi).1, hne, rfl⟩

theorem offers_playable_house :
    ∃ w, generate SlotNumbers.displays.config houseData SlotNumbers.displays.config.hubs
        (fun _ => none) = .ok w ∧
      ∃ c, (configured firmware w.code "den").playerConfig = some c ∧ ∃ f ∈ c.audioFormats,
        f.codec ≠ .opus ∧ f.channels = 2 := by
  have hs : ∀ e ∈ entries houseEvents, ∀ q, e.child = .mediaSource q →
      ∃ s : SourceConfig, s.validate = .ok q := by
    intro e he q hq
    have hopus : q = RoleCode.opusSource := by
      simp only [houseEvents, entries, List.filterMap_cons, List.filterMap_nil, List.mem_cons,
        List.not_mem_nil, or_false] at he
      rcases he with rfl | rfl | rfl | rfl | rfl <;> cases hq
      rfl
    exact ⟨⟨some [.opus, .pcm], 48000, 1000000, 0, 0, none, none⟩, by rw [hopus]; rfl⟩
  obtain ⟨w, hw, hall⟩ := offers_playable house_accepted (by decide) hs (List.Perm.refl _)
    (fun _ => none) firmware
  obtain ⟨q, -, -, c, hc, -, -, hother⟩ :=
    hall SlotNumbers.den List.mem_cons_self RoleCode.opusSource (by decide)
  exact ⟨w, hw, c, hc, hother⟩

end SendspinMc.Codecs
