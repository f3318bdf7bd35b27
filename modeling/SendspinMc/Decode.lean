import Mathlib.Data.UInt
import SendspinMc.ImageSlot
import SendspinMc.Lib.History

/-!
One call of `on_decode_`, on the decode thread.

The image decoder is the library's: it may refuse the buffer or the start, take as much of the
payload as it likes at a time, give up, and let go of the buffer whenever it is called. The main
loop runs meanwhile, and may have changed the slot by the time the frame is marked as pending.
-/

namespace SendspinMc.Decode

open SendspinMc.ImageSlot SendspinMc.Lib.History

/-- A payload in memory, where nothing is larger than a pointer difference can say. -/
structure Payload where
  data : List UInt8
  fits : data.length < 2 ^ 31

def Payload.length (p : Payload) : ℕ := p.data.length

/-- The `RuntimeImage` under `ArtworkDecodeSink`, by what its calls answer and leave. -/
structure Decoder (σ : Type*) where
  setExternalBuffer : σ → Ptr → ℤ → ℤ → Bool × σ
  beginDecode : σ → ℕ → Bool × σ
  feedData : σ → List UInt8 → Int32 × σ
  endDecode : σ → Bool × σ
  release : σ → σ
  /-- `buffer_`. -/
  buffer : σ → Option Ptr

/-- `decoded_into`. -/
def Decoder.decodedInto {σ : Type*} (d : Decoder σ) (s : σ) (buffer : Ptr) : Bool :=
  d.buffer s = some buffer

/-- A call of the decode thread, with the answer it got. -/
inductive Call
  | setExternalBuffer (buffer : Ptr) (width height : ℤ) (accepted : Bool)
  | beginDecode (length : ℕ) (started : Bool)
  | feedData (offset length : ℕ) (consumed : Int32)
  | endDecode (finished : Bool)
  /-- `decoded_into`, by the buffer it finds. -/
  | decodedInto (buffer : Option Ptr)
  | release
  | reportError
  deriving DecidableEq

/-- The sink, and the calls made so far, newest first. -/
structure Session (σ : Type*) where
  sink : σ
  calls : List Call

variable {σ : Type*}

/-- The loop of `decode_frame_`, with a `size_t` of 32 bits; `none` if it has not ended within the
fuel. -/
def feedLoop (d : Decoder σ) (data : List UInt8) : ℕ → Session σ → ℕ → Option (Bool × Session σ)
  | 0, _, _ => none
  | fuel + 1, s, totalConsumed =>
    if totalConsumed < data.length then
      let (consumed, sink) := d.feedData s.sink (data.drop totalConsumed)
      let s := ⟨sink, .feedData totalConsumed (data.length - totalConsumed) consumed :: s.calls⟩
      if consumed ≤ 0 then some (false, s)
      else feedLoop d data fuel s ((totalConsumed + consumed.toNatClampNeg) % 2 ^ 32)
    else some (true, s)

/-- Fed the payload from an offset on, a decoder takes some of it each time until it has had it
all. -/
inductive Decoder.Takes (d : Decoder σ) (data : List UInt8) : σ → ℕ → σ → Prop
  | all {s : σ} {total : ℕ} (h : data.length ≤ total) : Takes d data s total s
  | more {s s' t : σ} {total : ℕ} {consumed : Int32} (hlt : total < data.length)
      (hfeed : d.feedData s (data.drop total) = (consumed, s')) (hpos : ¬ consumed ≤ 0)
      (h : Takes d data s' (total + consumed.toNatClampNeg) t) : Takes d data s total t

/-- A decoder that starts, takes the payload, finishes, and then still holds the target. -/
def Decoder.Fills (d : Decoder σ) (data : List UInt8) (target : Ptr) (s : σ) : Prop :=
  ∃ s₁ s₂ s₃, d.beginDecode s data.length = (true, s₁) ∧ d.Takes data s₁ 0 s₂ ∧
    d.endDecode s₂ = (true, s₃) ∧ d.buffer s₃ = some target

/-- `decode_frame_`. -/
def decodeFrame (d : Decoder σ) (data : List UInt8) (target : Ptr) (fuel : ℕ) (s : Session σ) :
    Option (Bool × Session σ) :=
  let (started, sink) := d.beginDecode s.sink data.length
  let s := ⟨sink, .beginDecode data.length started :: s.calls⟩
  if !started then some (false, s)
  else
    (feedLoop d data fuel s 0).map fun (fed, s) =>
      if !fed then (false, s)
      else
        let (finished, sink) := d.endDecode s.sink
        let s := ⟨sink, .endDecode finished :: s.calls⟩
        if !finished then (false, s)
        else
          (d.decodedInto s.sink target, ⟨s.sink, .decodedInto (d.buffer s.sink) :: s.calls⟩)

/-- `report_error_`, which leaves the trigger to the main loop. -/
def Session.reportError (s : Session σ) : Session σ := { s with calls := .reportError :: s.calls }

def Session.release (s : Session σ) (d : Decoder σ) : Session σ :=
  ⟨d.release s.sink, .release :: s.calls⟩

/-- What a call leaves: the calls it made, and the slot. -/
structure Outcome where
  calls : List Call
  slot : Slot

/-- `on_decode_`, while the main loop does to the slot what `main` says. -/
def onDecode (d : Decoder σ) (p : Payload) (main : Slot → Slot) (fuel : ℕ) (slot : Slot)
    (sink : σ) : Option Outcome :=
  let target := slot.target
  let (accepted, sink) := d.setExternalBuffer sink target slot.width slot.height
  let s : Session σ := ⟨sink, [.setExternalBuffer target slot.width slot.height accepted]⟩
  if !accepted then some ⟨s.reportError.calls, main slot⟩
  else
    (decodeFrame d p.data target fuel s).map fun (decoded, s) =>
      let s := s.release d
      if !decoded then ⟨s.reportError.calls, main slot⟩
      else ⟨s.calls, (main slot).markPending⟩

/-! ### What is fed -/

/-- The bytes that the decoder has reported as consumed. -/
def fed : List Call → ℕ
  | [] => 0
  | .feedData _ _ consumed :: t => fed t + consumed.toNatClampNeg
  | _ :: t => fed t

/-- A feed is given what the feeds before it have left of the payload, and never nothing. -/
def Continues (length : ℕ) : Call → List Call → Prop
  | .feedData offset len _, t => offset = fed t ∧ offset + len = length ∧ 0 < len
  | _, _ => True

def isFeed : Call → Bool
  | .feedData _ _ _ => true
  | _ => false

lemma fed_append (fs t : List Call) : fed (fs ++ t) = fed fs + fed t := by
  induction fs with
  | nil => simp [fed]
  | cons c fs ih =>
    cases c with
    | feedData offset len consumed =>
      rw [List.cons_append, fed, fed, ih]
      omega
    | _ => simpa only [List.cons_append, fed] using ih

lemma toNatClampNeg_eq_zero {n : Int32} (h : n ≤ 0) : n.toNatClampNeg = 0 := by
  have hle := Int32.le_iff_toInt_le.mp h
  exact Int.toNat_eq_zero.mpr hle

lemma toNatClampNeg_pos {n : Int32} (h : ¬ n ≤ 0) : 0 < n.toNatClampNeg := by
  have hlt := Int32.lt_iff_toInt_lt.mp (Int32.not_le.mp h)
  exact Int.pos_iff_toNat_pos.mp hlt

section loop

variable {d : Decoder σ} {data : List UInt8} {s : Session σ} {total : ℕ} {consumed : Int32}
  {sink : σ}

lemma feedLoop_done (h : data.length ≤ total) (fuel : ℕ) :
    feedLoop d data (fuel + 1) s total = some (true, s) := by
  rw [feedLoop, if_neg (Nat.not_lt.mpr h)]

lemma feedLoop_stop (hlt : total < data.length)
    (hfeed : d.feedData s.sink (data.drop total) = (consumed, sink)) (h : consumed ≤ 0)
    (fuel : ℕ) :
    feedLoop d data (fuel + 1) s total =
      some (false, ⟨sink, .feedData total (data.length - total) consumed :: s.calls⟩) := by
  rw [feedLoop, if_pos hlt, hfeed]
  dsimp only
  rw [if_pos h]

lemma feedLoop_next (hlt : total < data.length)
    (hfeed : d.feedData s.sink (data.drop total) = (consumed, sink)) (h : ¬ consumed ≤ 0)
    (hsum : total + consumed.toNatClampNeg < 2 ^ 32) (fuel : ℕ) :
    feedLoop d data (fuel + 1) s total =
      feedLoop d data fuel ⟨sink, .feedData total (data.length - total) consumed :: s.calls⟩
        (total + consumed.toNatClampNeg) := by
  rw [feedLoop, if_pos hlt, hfeed]
  dsimp only
  rw [if_neg h, Nat.mod_eq_of_lt hsum]

lemma takes_done {s t : σ} (h : data.length ≤ total) : d.Takes data s total t ↔ t = s := by
  constructor
  · rintro (_ | ⟨hlt, -, -, -⟩)
    · rfl
    · exact absurd hlt (Nat.not_lt.mpr h)
  · rintro rfl
    exact .all h

lemma takes_feed {s t : σ} (hlt : total < data.length)
    (hfeed : d.feedData s (data.drop total) = (consumed, sink)) :
    d.Takes data s total t ↔
      ¬ consumed ≤ 0 ∧ d.Takes data sink (total + consumed.toNatClampNeg) t := by
  constructor
  · rintro (hle | ⟨-, hfeed', hpos, h⟩)
    · exact absurd hlt (Nat.not_lt.mpr hle)
    · obtain ⟨rfl, rfl⟩ := Prod.mk.inj (hfeed.symm.trans hfeed')
      exact ⟨hpos, h⟩
  · rintro ⟨hpos, h⟩
    exact .more hlt hfeed hpos h

end loop

/-- **The loop ends**, after feeds that continue one another: in failure, or with the payload
consumed, as the decoder takes it. -/
lemma feedLoop_spec (d : Decoder σ) {data : List UInt8} (hfits : data.length < 2 ^ 31)
    {s : Session σ} (hs : Justified (Continues data.length) s.calls) {total : ℕ}
    (htotal : total = fed s.calls) :
    ∃ ok sink fs, (∀ fuel, data.length - total < fuel →
        feedLoop d data fuel s total = some (ok, ⟨sink, fs ++ s.calls⟩)) ∧
      fs.all isFeed = true ∧ Justified (Continues data.length) (fs ++ s.calls) ∧
      (ok = true ↔ data.length ≤ fed (fs ++ s.calls)) ∧
      ∀ t, d.Takes data s.sink total t ↔ ok = true ∧ t = sink := by
  induction hleft : data.length - total using Nat.strongRecOn generalizing s total with
  | ind left ih =>
    by_cases hlt : total < data.length
    · obtain ⟨⟨consumed, sink⟩, hfeed⟩ : ∃ r, d.feedData s.sink (data.drop total) = r := ⟨_, rfl⟩
      set c : Call := .feedData total (data.length - total) consumed with hc
      have hjust : Justified (Continues data.length) (c :: s.calls) :=
        hs.cons ⟨htotal, by omega, by omega⟩
      by_cases hstop : consumed ≤ 0
      · refine ⟨false, sink, [c], fun fuel hfuel => ?_, rfl, hjust, ?_, fun t => ?_⟩
        · obtain ⟨fuel, rfl⟩ := Nat.exists_eq_add_one_of_ne_zero (Nat.ne_zero_of_lt hfuel)
          exact feedLoop_stop hlt hfeed hstop fuel
        · have hfed : fed ([c] ++ s.calls) = total := by
            rw [hc, List.singleton_append, fed, toNatClampNeg_eq_zero hstop, ← htotal,
              Nat.add_zero]
          rw [hfed]
          simp [hlt]
        · simp [takes_feed hlt hfeed, hstop]
      · -- the total stays below the size of a pointer difference, so the sum does not wrap
        have hpos := toNatClampNeg_pos hstop
        have hmax := consumed.toNatClampNeg_lt
        have hnext : total + consumed.toNatClampNeg = fed (c :: s.calls) := by
          rw [hc, fed, htotal]
        obtain ⟨ok, sink', fs, hrun, hfs, hj, hok, htakes⟩ := @ih
          (data.length - (total + consumed.toNatClampNeg)) (by omega) ⟨sink, c :: s.calls⟩ hjust
          (total + consumed.toNatClampNeg) hnext rfl
        have happ : fs ++ c :: s.calls = (fs ++ [c]) ++ s.calls := by simp
        rw [happ] at hj hok
        refine ⟨ok, sink', fs ++ [c], fun fuel hfuel => ?_, ?_, hj, hok, fun t => ?_⟩
        · obtain ⟨fuel, rfl⟩ := Nat.exists_eq_add_one_of_ne_zero (Nat.ne_zero_of_lt hfuel)
          rw [feedLoop_next hlt hfeed hstop (by omega), hrun fuel (by omega), happ]
        · rw [List.all_append, hfs]
          rfl
        · rw [takes_feed hlt hfeed, htakes t]
          exact and_iff_right hstop
    · have hge := Nat.not_lt.mp hlt
      refine ⟨true, s.sink, [], fun fuel hfuel => ?_, rfl, hs, ?_, fun t => ?_⟩
      · obtain ⟨fuel, rfl⟩ := Nat.exists_eq_add_one_of_ne_zero (Nat.ne_zero_of_lt hfuel)
        exact feedLoop_done hge fuel
      · rw [List.nil_append, ← htotal]
        simpa using hge
      · rw [takes_done hge]
        simp

/-! ### How a call ends -/

/-- Feeds on top of the calls before them. -/
structure Feeds (length : ℕ) (before fs : List Call) : Prop where
  feeds : fs.all isFeed = true
  just : Justified (Continues length) (fs ++ before)

/-- The ways `decode_frame_` ends, by its answer and by the calls it leaves. -/
inductive Ends (length : ℕ) (target : Ptr) (before : List Call) : Bool → List Call → Prop
  | refused : Ends length target before false (.beginDecode length false :: before)
  | stuck (fs : List Call) (hf : Feeds length (.beginDecode length true :: before) fs)
      (h : fed fs < length) :
      Ends length target before false (fs ++ .beginDecode length true :: before)
  | unfinished (fs : List Call) (hf : Feeds length (.beginDecode length true :: before) fs)
      (h : length ≤ fed fs) :
      Ends length target before false
        (.endDecode false :: (fs ++ .beginDecode length true :: before))
  | finished (fs : List Call) (hf : Feeds length (.beginDecode length true :: before) fs)
      (h : length ≤ fed fs) (buffer : Option Ptr) :
      Ends length target before (buffer = some target)
        (.decodedInto buffer :: .endDecode true :: (fs ++ .beginDecode length true :: before))

lemma decodeFrame_ends (d : Decoder σ) {data : List UInt8} (hfits : data.length < 2 ^ 31)
    (target : Ptr) {s : Session σ} (hs : Justified (Continues data.length) s.calls)
    (hfed : fed s.calls = 0) :
    ∃ ok s', (∀ fuel, data.length < fuel → decodeFrame d data target fuel s = some (ok, s')) ∧
      Ends data.length target s.calls ok s'.calls ∧
      (ok = true ↔ d.Fills data target s.sink) := by
  obtain ⟨⟨started, sink⟩, hbegin⟩ : ∃ r, d.beginDecode s.sink data.length = r := ⟨_, rfl⟩
  cases started with
  | false =>
    refine ⟨false, ⟨sink, _⟩, fun fuel _ => ?_, .refused, ?_⟩
    · rw [decodeFrame, hbegin]
      rfl
    · simp [Decoder.Fills, hbegin]
  | true =>
    have hbefore : Justified (Continues data.length) (.beginDecode data.length true :: s.calls) :=
      hs.cons trivial
    obtain ⟨ok, sink₁, fs, hrun, hfs, hjust, hok, htakes⟩ := @feedLoop_spec σ d data hfits
      ⟨sink, .beginDecode data.length true :: s.calls⟩ hbefore 0 hfed.symm
    have hf : Feeds data.length (.beginDecode data.length true :: s.calls) fs := ⟨hfs, hjust⟩
    have hsum : fed (fs ++ .beginDecode data.length true :: s.calls) = fed fs := by
      simp [fed_append, fed, hfed]
    rw [hsum] at hok
    have hfills : d.Fills data target s.sink ↔ ok = true ∧
        ∃ s₃, d.endDecode sink₁ = (true, s₃) ∧ d.buffer s₃ = some target := by
      constructor
      · rintro ⟨s₁, s₂, s₃, hs₁, hs₂, hs₃, hheld⟩
        obtain ⟨-, rfl⟩ := Prod.mk.inj (hbegin.symm.trans hs₁)
        obtain ⟨rfl, rfl⟩ := (htakes s₂).mp hs₂
        exact ⟨rfl, s₃, hs₃, hheld⟩
      · rintro ⟨rfl, s₃, hs₃, hheld⟩
        exact ⟨sink, sink₁, s₃, hbegin, (htakes sink₁).mpr ⟨rfl, rfl⟩, hs₃, hheld⟩
    cases ok with
    | false =>
      refine ⟨false, ⟨sink₁, _⟩, fun fuel hfuel => ?_, .stuck fs hf ?_, by simp [hfills]⟩
      · rw [decodeFrame, hbegin]
        dsimp only
        rw [hrun fuel hfuel]
        rfl
      · simpa using hok
    | true =>
      have hle : data.length ≤ fed fs := hok.mp rfl
      obtain ⟨⟨finished, sink'⟩, hend⟩ : ∃ r, d.endDecode sink₁ = r := ⟨_, rfl⟩
      cases finished with
      | false =>
        refine ⟨false, ⟨sink', _⟩, fun fuel hfuel => ?_, .unfinished fs hf hle,
          by simp [hfills, hend]⟩
        rw [decodeFrame, hbegin]
        dsimp only
        rw [hrun fuel hfuel]
        simp [hend]
      | true =>
        refine ⟨_, ⟨sink', _⟩, fun fuel hfuel => ?_, .finished fs hf hle (d.buffer sink'),
          by simp [hfills, hend]⟩
        rw [decodeFrame, hbegin]
        dsimp only
        rw [hrun fuel hfuel]
        simp [hend, Decoder.decodedInto]

/-- The buffer was accepted, the decode started, its feeds consumed the payload, it finished, and
the sink still held the buffer. -/
def Succeeds (length : ℕ) (slot : Slot) (calls : List Call) : Prop :=
  .setExternalBuffer slot.target slot.width slot.height true ∈ calls ∧
    .beginDecode length true ∈ calls ∧ length ≤ fed calls ∧ .endDecode true ∈ calls ∧
    .decodedInto (some slot.target) ∈ calls

lemma Feeds.not_mem {length : ℕ} {before fs : List Call} (h : Feeds length before fs) {c : Call}
    (hc : isFeed c = false) : c ∉ fs := by
  intro hm
  rw [List.all_eq_true.mp h.feeds c hm] at hc
  cases hc

lemma Feeds.count {length : ℕ} {before fs : List Call} (h : Feeds length before fs) {c : Call}
    (hc : isFeed c = false) : fs.count c = 0 :=
  List.count_eq_zero.mpr (h.not_mem hc)

lemma Feeds.quiet {length : ℕ} {before fs : List Call} (h : Feeds length before fs) :
    fs.count .reportError = 0 ∧ fs.count .release = 0 := ⟨h.count rfl, h.count rfl⟩

lemma ends_spec {length : ℕ} {slot : Slot} {ok : Bool} {calls : List Call}
    (h : Ends length slot.target
      [.setExternalBuffer slot.target slot.width slot.height true] ok calls) :
    Justified (Continues length) calls ∧ (ok = true ↔ Succeeds length slot calls) ∧
      .setExternalBuffer slot.target slot.width slot.height true ∈ calls ∧
      calls.count .reportError = 0 ∧ calls.count .release = 0 := by
  cases h with
  | refused =>
    refine ⟨?_, ?_, by simp, by simp, by simp⟩
    · exact (justified_nil.cons trivial).cons trivial
    · simp [Succeeds]
  | stuck fs hf h =>
    have hend : Call.endDecode true ∉ fs := hf.not_mem rfl
    obtain ⟨herr, hrel⟩ := hf.quiet
    refine ⟨hf.just, ?_, by simp, ?_, ?_⟩
    · simp [Succeeds, hend]
    · simp [herr]
    · simp [hrel]
  | unfinished fs hf h =>
    have hend : Call.endDecode true ∉ fs := hf.not_mem rfl
    obtain ⟨herr, hrel⟩ := hf.quiet
    refine ⟨hf.just.cons trivial, ?_, by simp, ?_, ?_⟩
    · simp [Succeeds, hend]
    · simp [herr]
    · simp [hrel]
  | finished fs hf h buffer =>
    have hheld : Call.decodedInto (some slot.target) ∉ fs := hf.not_mem rfl
    obtain ⟨herr, hrel⟩ := hf.quiet
    have hend : Justified (Continues length) (.endDecode true :: (fs ++ .beginDecode length true ::
      [.setExternalBuffer slot.target slot.width slot.height true])) := hf.just.cons trivial
    refine ⟨hend.cons trivial, ?_, by simp, ?_, ?_⟩
    · simp [Succeeds, fed_append, fed, hheld, h, eq_comm]
    · simp [herr]
    · simp [hrel]

lemma onDecode_accepted {d : Decoder σ} {p : Payload} {slot : Slot} {sink sink₁ : σ}
    (hset : d.setExternalBuffer sink slot.target slot.width slot.height = (true, sink₁))
    {fuel : ℕ} {ok : Bool} {s : Session σ}
    (hrun : decodeFrame d p.data slot.target fuel
      ⟨sink₁, [.setExternalBuffer slot.target slot.width slot.height true]⟩ = some (ok, s))
    (main : Slot → Slot) :
    onDecode d p main fuel slot sink =
      some ⟨if ok then .release :: s.calls else .reportError :: .release :: s.calls,
        if ok then (main slot).markPending else main slot⟩ := by
  rw [onDecode, hset]
  dsimp only
  rw [if_neg (by simp), hrun]
  cases ok <;> rfl

/-- The answers of a decoder that decodes a payload for a slot. -/
def Decoder.Decodes (d : Decoder σ) (p : Payload) (slot : Slot) (sink : σ) : Prop :=
  ∃ s, d.setExternalBuffer sink slot.target slot.width slot.height = (true, s) ∧
    d.Fills p.data slot.target s

lemma onDecode_ends (d : Decoder σ) (p : Payload) (main : Slot → Slot) (slot : Slot) (sink : σ) :
    ∃ (decoded : Bool) (calls : List Call),
      (∀ fuel, p.length < fuel → onDecode d p main fuel slot sink =
        some ⟨calls, if decoded then (main slot).markPending else main slot⟩) ∧
      Justified (Continues p.length) calls ∧ (decoded = true ↔ Succeeds p.length slot calls) ∧
      (decoded = true ↔ d.Decodes p slot sink) ∧
      calls.count .reportError = (if decoded then 0 else 1) ∧
      calls.count .release =
        if .setExternalBuffer slot.target slot.width slot.height true ∈ calls then 1 else 0 := by
  obtain ⟨⟨accepted, sink₁⟩, hset⟩ :
      ∃ r, d.setExternalBuffer sink slot.target slot.width slot.height = r := ⟨_, rfl⟩
  cases accepted with
  | false =>
    refine ⟨false, [.reportError, .setExternalBuffer slot.target slot.width slot.height false],
      fun fuel _ => ?_, ?_, ?_, ?_, ?_, ?_⟩
    · rw [onDecode, hset]
      rfl
    · exact (justified_nil.cons trivial).cons trivial
    · simp [Succeeds]
    · simp [Decoder.Decodes, hset]
    · simp
    · simp
  | true =>
    obtain ⟨ok, s, hrun, hends, hfills⟩ := @decodeFrame_ends σ d p.data p.fits slot.target
      ⟨sink₁, [.setExternalBuffer slot.target slot.width slot.height true]⟩
      (justified_nil.cons trivial) rfl
    obtain ⟨hjust, hok, hset', herr, hrel⟩ := ends_spec hends
    have hdecodes : ok = true ↔ d.Decodes p slot sink := by
      simpa [Decoder.Decodes, hset] using hfills
    have hreleased : Justified (Continues p.length) (.release :: s.calls) := hjust.cons trivial
    refine ⟨ok, _, fun fuel hfuel => onDecode_accepted hset (hrun fuel hfuel) main, ?_⟩
    cases ok with
    | false =>
      refine ⟨hreleased.cons trivial, ?_, hdecodes, ?_, ?_⟩
      · simpa [Succeeds, fed, Payload.length] using hok
      · simp [herr]
      · simp [hrel, hset']
    | true =>
      refine ⟨hreleased, ?_, hdecodes, ?_, ?_⟩
      · simpa [Succeeds, fed, Payload.length] using hok
      · simp [herr]
      · simp [hrel, hset']

/-- **One outcome for each decode**: whatever the decoder does, `on_decode_` ends; its feeds
continue one another within the payload; the frame is pending, and no error is reported, if the
buffer was accepted, the decode started, consumed the payload and finished with the buffer in
place, which is so exactly if these are the decoder's answers; otherwise one error is reported and
the slot is what the main loop made of it; and an accepted buffer is released once. -/
theorem one_outcome (d : Decoder σ) (p : Payload) (main : Slot → Slot) (slot : Slot) (sink : σ) :
    ∃ o, (∀ fuel, p.length < fuel → onDecode d p main fuel slot sink = some o) ∧
      Justified (Continues p.length) o.calls ∧
      (Succeeds p.length slot o.calls ↔ d.Decodes p slot sink) ∧
      (Succeeds p.length slot o.calls →
        o.slot = (main slot).markPending ∧ o.calls.count .reportError = 0) ∧
      (¬ Succeeds p.length slot o.calls →
        o.slot = main slot ∧ o.calls.count .reportError = 1) ∧
      o.calls.count .release =
        if .setExternalBuffer slot.target slot.width slot.height true ∈ o.calls then 1 else 0 := by
  obtain ⟨decoded, calls, hrun, hjust, hok, hdecodes, herr, hrel⟩ :=
    onDecode_ends d p main slot sink
  refine ⟨_, hrun, hjust, hok.symm.trans hdecodes, fun hs => ?_, fun hn => ?_, hrel⟩
  · obtain rfl := hok.mpr hs
    exact ⟨rfl, herr⟩
  · obtain rfl := Bool.eq_false_iff.mpr fun hd => hn (hok.mp hd)
    exact ⟨rfl, herr⟩

end SendspinMc.Decode
