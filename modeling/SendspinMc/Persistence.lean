import SendspinMc.Lib.Addressed
import SendspinMc.Lib.Decimal
import SendspinMc.Lib.Delim
import SendspinMc.Lib.Runs
import Mathlib.Data.UInt
import Mathlib.Data.List.ProdSigma
import Mathlib.Tactic.FinCases

/-!
What the hubs persist for the library: each of the library's keys has a preference of its own
on each hub, found again by the hash of a name and the hub's `client_id`.
-/

namespace SendspinMc.Persistence

open SendspinMc.Lib.Addressed SendspinMc.Lib.Decimal SendspinMc.Lib.Delim SendspinMc.Lib.Runs

abbrev Bytes := List UInt8

/-- A `size_t` wraps here. -/
def sizeMax : ℕ := 2 ^ 32

/-! ### The library's keys -/

def recordSlotPrefix : String := "rec_"

/-- `record_slot_key`. -/
def recordSlotKey (n : ℕ) : String := recordSlotPrefix ++ n.repr

/-- The prefix followed by digits only, and at least one. -/
def SlotShaped (key : String) : Prop :=
  ∃ ds : List Char, ds ≠ [] ∧ (∀ c ∈ ds, c.isDigit = true) ∧
    key.toList = recordSlotPrefix.toList ++ ds

/-- The loop of `parse_record_slot`. -/
def parseDigits (slots : ℕ) : ℕ → List Char → Option ℕ
  | slot, [] => some slot
  | slot, c :: cs =>
    if c < '0' ∨ '9' < c then none
    else
      let slot := (slot * 10 + (c.toNat - '0'.toNat)) % sizeMax
      if slots ≤ slot then none else parseDigits slots slot cs

/-- `parse_record_slot`. -/
def parseRecordSlot (slots : ℕ) (key : String) : Option ℕ :=
  if key.length ≤ recordSlotPrefix.length ∨ ¬ recordSlotPrefix.toList <+: key.toList then none
  else parseDigits slots 0 (key.toList.drop recordSlotPrefix.length)

/-- The names `setup()` chooses itself, and those of the record slots. -/
def setupNames (slots : ℕ) : List String :=
  ["keypair", "pair_psk", "last_played", "static_delay"] ++ (List.range slots).map recordSlotKey

/-- `persistence_keys`, and what the hub relies on of its values: no two keys are confused, and
the name of the record order, which `setup()` takes from there, is none of its other names and
does not continue one of them after an underscore, nor they it. -/
structure PersistenceKeys where
  /-- `SENDSPIN_RECORD_SLOTS`. -/
  slots : ℕ
  recordOrder : String
  keypair : String
  pairingPsk : String
  lastPlayed : String
  outputDelay : String
  recordSlotSize : ℕ
  keypairSize : ℕ
  pairingPskSize : ℕ
  lastPlayedSize : ℕ
  outputDelaySize : ℕ
  slots_fit : 10 * slots + 9 < sizeMax
  nodup : [recordOrder, keypair, pairingPsk, lastPlayed, outputDelay].Nodup
  not_slot : ∀ k ∈ [recordOrder, keypair, pairingPsk, lastPlayed, outputDelay], ¬ SlotShaped k
  order_apart : ∀ n ∈ setupNames slots,
    n ≠ recordOrder ∧ Apart '_' n.toList recordOrder.toList

/-! ### Preferences -/

/-- An `ESPPreferenceObject`. -/
structure Pref where
  size : ℕ
  key : UInt32

/-- The preference backend: a map from the hash to what was saved under it. -/
abbrev Store := UInt32 → Option Bytes

def Pref.load (p : Pref) (s : Store) (len : ℕ) : Option Bytes :=
  (s p.key).filter fun b => b.length = len

/-- The backend may refuse to save. -/
def Pref.save (p : Pref) (s : Store) (data : Bytes) (accepts : Bool) : Bool × Store :=
  if accepts then (true, Function.update s p.key (some data)) else (false, s)

/-- The string a preference is hashed from. -/
def prefString (name clientId : String) : String := "sendspin_mc_" ++ name ++ "_" ++ clientId

/-- `make_blob_pref`. -/
def makeBlobPref (hash : String → UInt32) (clientId name : String) (size : ℕ) : Pref :=
  ⟨size, hash (prefString name clientId)⟩

/-- `read_blob`. -/
def readBlob (p : Pref) (s : Store) (size : ℕ) : Option Bytes := p.load s size

/-- `write_blob`. -/
def writeBlob (p : Pref) (s : Store) (size : ℕ) (data : Bytes) (accepts : Bool) : Bool × Store :=
  if data.length ≠ size then (false, s) else p.save s data accepts

/-- The preferences of a hub. -/
structure Prefs (slots : ℕ) where
  keypairPref : Pref
  pairingPskPref : Pref
  lastPlayedPref : Pref
  outputDelayPref : Pref
  recordSlotPrefs : Fin slots → Pref
  recordOrderPref : Pref

/-- `SendspinMcHub::setup`, as far as the preferences go. -/
def setup (keys : PersistenceKeys) (hash : String → UInt32) (clientId : String) :
    Prefs keys.slots where
  keypairPref := makeBlobPref hash clientId "keypair" keys.keypairSize
  pairingPskPref := makeBlobPref hash clientId "pair_psk" keys.pairingPskSize
  lastPlayedPref := makeBlobPref hash clientId "last_played" keys.lastPlayedSize
  outputDelayPref := makeBlobPref hash clientId "static_delay" keys.outputDelaySize
  recordSlotPrefs := fun slot =>
    makeBlobPref hash clientId (recordSlotKey slot) keys.recordSlotSize
  recordOrderPref := makeBlobPref hash clientId keys.recordOrder keys.slots

/-- `SendspinMcHub::pref_for_key_`. -/
def prefForKey (keys : PersistenceKeys) (p : Prefs keys.slots) (key : String) :
    Option (Pref × ℕ) :=
  match parseRecordSlot keys.slots key with
  | some slot =>
    if h : slot < keys.slots then some (p.recordSlotPrefs ⟨slot, h⟩, keys.recordSlotSize) else none
  | none =>
    if key = keys.recordOrder then some (p.recordOrderPref, keys.slots)
    else if key = keys.keypair then some (p.keypairPref, keys.keypairSize)
    else if key = keys.pairingPsk then some (p.pairingPskPref, keys.pairingPskSize)
    else if key = keys.lastPlayed then some (p.lastPlayedPref, keys.lastPlayedSize)
    else if key = keys.outputDelay then some (p.outputDelayPref, keys.outputDelaySize)
    else none

/-- The hubs of a device, by their `client_id`. -/
structure Device (ι : Type*) where
  keys : PersistenceKeys
  hash : String → UInt32
  clientId : ι → String

variable {ι : Type*}

def Device.prefs (d : Device ι) (h : ι) : Prefs d.keys.slots := setup d.keys d.hash (d.clientId h)

/-- `SendspinMcHub::load_blob`. -/
def Device.loadBlob (d : Device ι) (s : Store) (h : ι) (key : String) : Option Bytes :=
  match prefForKey d.keys (d.prefs h) key with
  | none => none
  | some (pref, size) => readBlob pref s size

/-- `SendspinMcHub::save_blob`. -/
def Device.saveBlob (d : Device ι) (s : Store) (h : ι) (key : String) (data : Bytes)
    (accepts : Bool) : Bool × Store :=
  match prefForKey d.keys (d.prefs h) key with
  | none => (false, s)
  | some (pref, size) => writeBlob pref s size data accepts

/-! ### Runs -/

/-- A call of `save_blob`, and whether the backend accepts the write. -/
structure Save (ι : Type*) where
  hub : ι
  key : String
  data : Bytes
  accepts : Bool

/-- The backend, and the saves that returned `true`, newest first. -/
structure World (ι : Type*) where
  store : Store
  log : List ((ι × String) × Bytes)

def Device.step (d : Device ι) (w : World ι) (e : Save ι) : Option (World ι) :=
  let (saved, store) := d.saveBlob w.store e.hub e.key e.data e.accepts
  some ⟨store, if saved then ((e.hub, e.key), e.data) :: w.log else w.log⟩

/-- The library's own keys; there is storage for the first `slots` of its record slots. -/
def PersistenceKeys.Own (keys : PersistenceKeys) (k : String) : Prop :=
  (∃ n, k = recordSlotKey n) ∨
    k ∈ [keys.recordOrder, keys.keypair, keys.pairingPsk, keys.lastPlayed, keys.outputDelay]

/-! ### Record slots -/

lemma isDigit_iff {c : Char} : c.isDigit = true ↔ ¬ (c < '0' ∨ '9' < c) := by
  simp only [Char.isDigit, Bool.and_eq_true, decide_eq_true_eq, not_or]
  exact Iff.and (UInt32.not_lt (a := c.val) (b := 48)).symm
    (UInt32.not_lt (a := 57) (b := c.val)).symm

lemma le_ofDigitChars (ds : List Char) (n : ℕ) : n ≤ Nat.ofDigitChars 10 ds n := by
  rw [Nat.ofDigitChars_eq_ofDigitChars_zero]
  have : 1 * n ≤ 10 ^ ds.length * n := Nat.mul_le_mul_right n (Nat.one_le_pow _ _ (by decide))
  omega

lemma parseDigits_eq {slots : ℕ} (hfit : 10 * slots + 9 < sizeMax) {ds : List Char}
    (hd : ∀ c ∈ ds, c.isDigit = true) {acc : ℕ} (hacc : acc ≤ slots)
    (hnil : ds = [] → acc < slots) :
    parseDigits slots acc ds =
      if Nat.ofDigitChars 10 ds acc < slots then some (Nat.ofDigitChars 10 ds acc) else none := by
  induction ds generalizing acc with
  | nil => simp [parseDigits, hnil rfl]
  | cons c cs ih =>
    have hc := hd c (by simp)
    have h9 := digit_lt hc
    have hmod : (acc * 10 + (c.toNat - '0'.toNat)) % sizeMax =
        10 * acc + (c.toNat - '0'.toNat) := by
      rw [Nat.mod_eq_of_lt (by omega), Nat.mul_comm]
    rw [parseDigits, if_neg (isDigit_iff.mp hc), hmod, Nat.ofDigitChars_cons]
    dsimp only
    by_cases hlt : slots ≤ 10 * acc + (c.toNat - '0'.toNat)
    · have := le_ofDigitChars cs (10 * acc + (c.toNat - '0'.toNat))
      rw [if_pos hlt, if_neg (by omega)]
    · rw [if_neg hlt]
      exact ih (fun x hx => hd x (by simp [hx])) (by omega) fun _ => by omega

lemma digits_of_parseDigits {slots acc v : ℕ} {ds : List Char}
    (h : parseDigits slots acc ds = some v) : ∀ c ∈ ds, c.isDigit = true := by
  induction ds generalizing acc with
  | nil => simp
  | cons c cs ih =>
    rw [parseDigits] at h
    by_cases hc : c < '0' ∨ '9' < c
    · simp [hc] at h
    · rw [if_neg hc] at h
      dsimp only at h
      split at h
      · cases h
      · intro x hx
        rcases List.mem_cons.mp hx with rfl | hx
        · exact isDigit_iff.mpr hc
        · exact ih h x hx

lemma recordSlotKey_toList (n : ℕ) :
    (recordSlotKey n).toList = recordSlotPrefix.toList ++ Nat.toDigits 10 n := by
  simp [recordSlotKey]

lemma slotShaped_recordSlotKey (n : ℕ) : SlotShaped (recordSlotKey n) :=
  ⟨Nat.toDigits 10 n, (canonical_toDigits n).ne_nil,
    fun _ hc => Nat.isDigit_of_mem_toDigits (by decide) (by decide) hc, recordSlotKey_toList n⟩

lemma recordSlotKey_injective : Function.Injective recordSlotKey := by
  intro m n h
  have h' := congrArg String.toList h
  rw [recordSlotKey_toList, recordSlotKey_toList, List.append_cancel_left_eq] at h'
  rw [← Nat.ofDigitChars_ten_toDigits (n := m), h', Nat.ofDigitChars_ten_toDigits]

lemma parseRecordSlot_eq_none {slots : ℕ} {key : String} (h : ¬ SlotShaped key) :
    parseRecordSlot slots key = none := by
  rw [parseRecordSlot]
  split
  · rfl
  rename_i hc
  obtain ⟨ds, hds⟩ := (not_or.mp hc).2 |> not_not.mp
  have hne : ds ≠ [] := by
    rintro rfl
    rw [List.append_nil] at hds
    exact hc (.inl (by rw [String.toList_inj.mp hds]))
  refine Option.eq_none_iff_forall_ne_some.mpr fun v hv => h ⟨ds, hne, ?_, hds.symm⟩
  rw [← hds, show recordSlotPrefix.length = recordSlotPrefix.toList.length from rfl,
    List.drop_left] at hv
  exact digits_of_parseDigits hv

lemma parseRecordSlot_digits {slots : ℕ} (hfit : 10 * slots + 9 < sizeMax) {key : String}
    {ds : List Char} (hd : Digits ds) (hne : ds ≠ [])
    (hk : key.toList = recordSlotPrefix.toList ++ ds) :
    parseRecordSlot slots key = if value ds < slots then some (value ds) else none := by
  have hlen : recordSlotPrefix.length = recordSlotPrefix.toList.length := rfl
  have hpos := List.length_pos_iff.mpr hne
  rw [parseRecordSlot, if_neg, hk, hlen, List.drop_left,
    parseDigits_eq hfit hd (Nat.zero_le _) (fun h => absurd h hne)]
  rw [← String.length_toList, hk, List.length_append, ← hlen, not_or, not_not]
  exact ⟨by omega, List.prefix_append _ _⟩

lemma parseRecordSlot_recordSlotKey {slots : ℕ} (hfit : 10 * slots + 9 < sizeMax) (n : ℕ) :
    parseRecordSlot slots (recordSlotKey n) = if n < slots then some n else none := by
  have hcan := canonical_toDigits n
  rw [parseRecordSlot_digits hfit hcan.digits hcan.ne_nil (recordSlotKey_toList n), value,
    Nat.ofDigitChars_ten_toDigits]

/-! ### What a hub has storage for -/

inductive Item (slots : ℕ)
  | recordSlot (n : Fin slots)
  | recordOrder
  | keypair
  | pairingPsk
  | lastPlayed
  | outputDelay

section Items

variable (keys : PersistenceKeys)

/-- The library's key. -/
def PersistenceKeys.key : Item keys.slots → String
  | .recordSlot n => recordSlotKey n
  | .recordOrder => keys.recordOrder
  | .keypair => keys.keypair
  | .pairingPsk => keys.pairingPsk
  | .lastPlayed => keys.lastPlayed
  | .outputDelay => keys.outputDelay

/-- The name its preference is hashed with. -/
def PersistenceKeys.name : Item keys.slots → String
  | .recordSlot n => recordSlotKey n
  | .recordOrder => keys.recordOrder
  | .keypair => "keypair"
  | .pairingPsk => "pair_psk"
  | .lastPlayed => "last_played"
  | .outputDelay => "static_delay"

/-- Its fixed size. -/
def PersistenceKeys.size : Item keys.slots → ℕ
  | .recordSlot _ => keys.recordSlotSize
  | .recordOrder => keys.slots
  | .keypair => keys.keypairSize
  | .pairingPsk => keys.pairingPskSize
  | .lastPlayed => keys.lastPlayedSize
  | .outputDelay => keys.outputDelaySize

variable {keys}

lemma recordSlotKey_ne {n : ℕ} {s : String} (h : s.toList.head? ≠ some 'r') :
    recordSlotKey n ≠ s := by
  rintro rfl
  exact h (by rw [recordSlotKey_toList]; rfl)

lemma name_mem (i : Item keys.slots) :
    i = .recordOrder ∨ keys.name i ∈ setupNames keys.slots := by
  cases i with
  | recordSlot n =>
    exact .inr (List.mem_append_right _ (List.mem_map_of_mem (List.mem_range.mpr n.isLt)))
  | recordOrder => exact .inl rfl
  | _ => exact .inr (by simp [setupNames, PersistenceKeys.name])

lemma name_injective : Function.Injective keys.name := by
  have horder : ∀ i : Item keys.slots, keys.name i = keys.recordOrder → i = .recordOrder :=
    fun i h => (name_mem i).resolve_right fun hm => (keys.order_apart _ hm).1 h
  intro i j h
  cases j with
  | recordOrder => exact horder i h
  | recordSlot n =>
    cases i with
    | recordSlot m => rw [Fin.ext (recordSlotKey_injective h)]
    | recordOrder => exact (horder _ h.symm).symm
    | _ => exact absurd h.symm (recordSlotKey_ne (by simp [PersistenceKeys.name]))
  | _ =>
    cases i with
    | recordSlot m => exact absurd h (recordSlotKey_ne (by simp [PersistenceKeys.name]))
    | recordOrder => exact (horder _ h.symm).symm
    | _ => first | rfl | simp [PersistenceKeys.name] at h

lemma setupNames_apart {slots : ℕ} {m n : String} (hm : m ∈ setupNames slots)
    (hn : n ∈ setupNames slots) : Apart '_' m.toList n.toList := by
  have hboth : ∀ s ∈ ["keypair", "pair_psk", "last_played", "static_delay"],
      ∀ t ∈ ["keypair", "pair_psk", "last_played", "static_delay"],
        Apart '_' s.toList t.toList := by decide
  have hfix : ∀ s ∈ ["keypair", "pair_psk", "last_played", "static_delay"], ∀ k,
      Apart '_' s.toList (recordSlotKey k).toList := by
    intro s hs k
    rw [recordSlotKey_toList]
    fin_cases hs <;> exact apart_of_head_ne (by decide)
  rcases List.mem_append.mp hm with hm | hm <;> rcases List.mem_append.mp hn with hn | hn
  · exact hboth m hm n hn
  · obtain ⟨k, -, rfl⟩ := List.mem_map.mp hn
    exact hfix m hm k
  · obtain ⟨k, -, rfl⟩ := List.mem_map.mp hm
    exact (hfix n hn k).symm
  · obtain ⟨j, -, rfl⟩ := List.mem_map.mp hm
    obtain ⟨k, -, rfl⟩ := List.mem_map.mp hn
    rw [recordSlotKey_toList, recordSlotKey_toList]
    exact (apart_of_notMem Nat.underscore_not_in_toDigits
      Nat.underscore_not_in_toDigits).append_left _

lemma names_apart (i j : Item keys.slots) :
    Apart '_' (keys.name i).toList (keys.name j).toList := by
  rcases name_mem i with rfl | hi <;> rcases name_mem j with rfl | hj
  · exact apart_self _ _
  · exact (keys.order_apart _ hj).2.symm
  · exact (keys.order_apart _ hi).2
  · exact setupNames_apart hi hj

lemma prefString_inj {i j : Item keys.slots} {a b : String}
    (h : prefString (keys.name i) a = prefString (keys.name j) b) : i = j ∧ a = b := by
  have h' := congrArg String.toList h
  unfold prefString at h'
  simp only [String.toList_append, List.append_assoc, List.append_cancel_left_eq] at h'
  obtain ⟨hn, hid⟩ := (join_inj (names_apart i j)).mp h'
  exact ⟨name_injective (String.toList_inj.mp hn), String.toList_inj.mp hid⟩

lemma parseRecordSlot_named {k : String} (hk : k ∈ [keys.recordOrder, keys.keypair,
    keys.pairingPsk, keys.lastPlayed, keys.outputDelay]) : parseRecordSlot keys.slots k = none :=
  parseRecordSlot_eq_none (keys.not_slot k hk)

lemma prefForKey_key (hash : String → UInt32) (clientId : String) (i : Item keys.slots) :
    prefForKey keys (setup keys hash clientId) (keys.key i) =
      some (makeBlobPref hash clientId (keys.name i) (keys.size i), keys.size i) := by
  have hnd := keys.nodup
  simp only [List.nodup_cons, List.mem_cons, not_or, List.not_mem_nil, not_false_eq_true] at hnd
  cases i with
  | recordSlot n =>
    simp [prefForKey, PersistenceKeys.key, parseRecordSlot_recordSlotKey keys.slots_fit, setup,
      PersistenceKeys.name, PersistenceKeys.size]
  | _ =>
    simp [prefForKey, PersistenceKeys.key, parseRecordSlot_named, setup, PersistenceKeys.name,
      PersistenceKeys.size, eq_comm, hnd]

/-- The keys a run may use: the library's own, and those that do not look like a record slot. -/
def PersistenceKeys.Plain (keys : PersistenceKeys) (k : String) : Prop :=
  keys.Own k ∨ ¬ SlotShaped k

lemma prefForKey_eq_none {k : String} (hp : keys.Plain k) (hi : ∀ i, k ≠ keys.key i)
    (p : Prefs keys.slots) : prefForKey keys p k = none := by
  have hparse : parseRecordSlot keys.slots k = none := by
    rcases hp with (⟨n, rfl⟩ | hk) | hk
    · rw [parseRecordSlot_recordSlotKey keys.slots_fit,
        if_neg fun hn => hi (.recordSlot ⟨n, hn⟩) rfl]
    · exact parseRecordSlot_named hk
    · exact parseRecordSlot_eq_none hk
  have h₁ : k ≠ keys.recordOrder := hi .recordOrder
  have h₂ : k ≠ keys.keypair := hi .keypair
  have h₃ : k ≠ keys.pairingPsk := hi .pairingPsk
  have h₄ : k ≠ keys.lastPlayed := hi .lastPlayed
  have h₅ : k ≠ keys.outputDelay := hi .outputDelay
  simp [prefForKey, hparse, h₁, h₂, h₃, h₄, h₅]

lemma recordSlotKey_ne_key {n : ℕ} (hn : keys.slots ≤ n) (i : Item keys.slots) :
    recordSlotKey n ≠ keys.key i := by
  intro h
  have hs := slotShaped_recordSlotKey n
  cases i with
  | recordSlot m => exact absurd (recordSlotKey_injective h) (by have := m.isLt; omega)
  | _ => exact keys.not_slot _ (by simp [PersistenceKeys.key]) (h ▸ hs)

lemma own_key (i : Item keys.slots) : keys.Own (keys.key i) := by
  cases i with
  | recordSlot n => exact .inl ⟨n, rfl⟩
  | _ => exact .inr (by simp [PersistenceKeys.key])

end Items

/-! ### Independent stores -/

section Stores

variable {d : Device ι}

/-- The hash tells apart the strings the hubs' preferences are made of. -/
def Device.NoCollision (d : Device ι) : Prop :=
  ∀ h i h' i', d.hash (prefString (d.keys.name i) (d.clientId h)) =
      d.hash (prefString (d.keys.name i') (d.clientId h')) →
    prefString (d.keys.name i) (d.clientId h) = prefString (d.keys.name i') (d.clientId h')

/-- Nothing is stored yet under the hubs' preferences. -/
def Device.Fresh (d : Device ι) (w : World ι) : Prop :=
  (∀ h i, w.store (d.hash (prefString (d.keys.name i) (d.clientId h))) = none) ∧ w.log = []

/-- What is refused whatever the backend says: an unknown key, a record slot without storage, or
a length that is not the key's. -/
def PersistenceKeys.Rejected (keys : PersistenceKeys) (k : String) (len : ℕ) : Prop :=
  (¬ keys.Own k ∧ ¬ SlotShaped k) ∨ (∃ n, keys.slots ≤ n ∧ k = recordSlotKey n) ∨
    ∃ i, k = keys.key i ∧ len ≠ keys.size i

/-- Where a hub's blob is kept. -/
def Device.address (d : Device ι) (x : ι × String) : UInt32 :=
  ((prefForKey d.keys (d.prefs x.1) x.2).map fun p => p.1.key).getD 0

/-- The blobs there is storage for. -/
def Device.stored (d : Device ι) : Set (ι × String) := {x | ∃ i, x.2 = d.keys.key i}

lemma address_key (h : ι) (i : Item d.keys.slots) :
    d.address (h, d.keys.key i) = d.hash (prefString (d.keys.name i) (d.clientId h)) := by
  simp [Device.address, Device.prefs, prefForKey_key, makeBlobPref]

lemma address_injOn (hid : Function.Injective d.clientId) (hhash : d.NoCollision) :
    Set.InjOn d.address d.stored := by
  rintro ⟨h, k⟩ ⟨i, rfl⟩ ⟨h', k'⟩ ⟨i', rfl⟩ he
  rw [address_key, address_key] at he
  obtain ⟨rfl, hh⟩ := prefString_inj (hhash _ _ _ _ he)
  rw [hid hh]

lemma loadBlob_key (s : Store) (h : ι) (i : Item d.keys.slots) :
    d.loadBlob s h (d.keys.key i) =
      (s (d.address (h, d.keys.key i))).filter fun b => b.length = d.keys.size i := by
  rw [address_key]
  simp [Device.loadBlob, Device.prefs, prefForKey_key, readBlob, Pref.load, makeBlobPref]

lemma saveBlob_key (s : Store) (h : ι) (i : Item d.keys.slots) (data : Bytes) (accepts : Bool) :
    d.saveBlob s h (d.keys.key i) data accepts =
      if data.length = d.keys.size i ∧ accepts then
        (true, Function.update s (d.address (h, d.keys.key i)) (some data))
      else (false, s) := by
  rw [address_key]
  by_cases hl : data.length = d.keys.size i <;> cases accepts <;>
    simp [Device.saveBlob, Device.prefs, prefForKey_key, writeBlob, Pref.save, makeBlobPref, hl]

lemma saveBlob_unknown {k : String} (hk : d.keys.Plain k) (hi : ∀ i, k ≠ d.keys.key i) (s : Store)
    (h : ι) (data : Bytes) (accepts : Bool) : d.saveBlob s h k data accepts = (false, s) := by
  simp [Device.saveBlob, prefForKey_eq_none hk hi]

lemma saveBlob_rejected {k : String} {data : Bytes} (hr : d.keys.Rejected k data.length) (s : Store)
    (h : ι) (accepts : Bool) : d.saveBlob s h k data accepts = (false, s) := by
  rcases hr with ⟨ho, hs⟩ | ⟨n, hn, rfl⟩ | ⟨i, rfl, hl⟩
  · exact saveBlob_unknown (.inr hs) (fun i he => ho (he ▸ own_key i)) s h data accepts
  · exact saveBlob_unknown (.inl (.inl ⟨n, rfl⟩)) (recordSlotKey_ne_key hn) s h data accepts
  · rw [saveBlob_key, if_neg fun hc => hl hc.1]

variable [DecidableEq ι]

/-- Each blob's cell holds its latest save, of the blob's size. -/
structure Inv (d : Device ι) (w : World ι) : Prop where
  holds : Holds d.address d.stored w.store w.log
  sized : ∀ x ∈ w.log, ∃ i, x.1.2 = d.keys.key i ∧ x.2.length = d.keys.size i

lemma inv_step (hid : Function.Injective d.clientId) (hhash : d.NoCollision) {w v : World ι}
    {e : Save ι} (hw : Inv d w) (he : d.keys.Plain e.key) (hs : d.step w e = some v) : Inv d v := by
  by_cases hk : ∃ i, e.key = d.keys.key i
  · obtain ⟨i, hi⟩ := hk
    simp only [Device.step, hi, saveBlob_key] at hs
    by_cases hc : e.data.length = d.keys.size i ∧ e.accepts = true
    · rw [if_pos hc] at hs
      obtain rfl := Option.some.inj hs
      refine ⟨hw.holds.write (address_injOn hid hhash) ⟨i, rfl⟩ e.data, fun x hx => ?_⟩
      rcases List.mem_cons.mp hx with rfl | hx
      · exact ⟨i, rfl, hc.1⟩
      · exact hw.sized x hx
    · rw [if_neg hc] at hs
      obtain rfl := Option.some.inj hs
      exact hw
  · rw [Device.step, saveBlob_unknown he fun i hi => hk ⟨i, hi⟩] at hs
    obtain rfl := Option.some.inj hs
    exact hw

lemma keepsOn_inv (hid : Function.Injective d.clientId) (hhash : d.NoCollision) :
    KeepsOn d.step (fun e => d.keys.Plain e.key) (Inv d) :=
  fun _ _ _ hw he hs => inv_step hid hhash hw he hs

omit [DecidableEq ι] in
lemma size_eq {i j : Item d.keys.slots} (h : d.keys.key i = d.keys.key j) :
    d.keys.size i = d.keys.size j := by
  have hi := prefForKey_key d.hash "" i
  rw [h, prefForKey_key] at hi
  exact (Prod.mk.inj (Option.some.inj hi)).2.symm

lemma Inv.load {w : World ι} (hw : Inv d w) (h : ι) {k : String} (hk : d.keys.Own k) :
    d.loadBlob w.store h k = w.log.lookup (h, k) := by
  have hmem : ∀ b, w.log.lookup (h, k) = some b →
      ∃ i, k = d.keys.key i ∧ b.length = d.keys.size i := fun b hb => by
    obtain ⟨l₁, l₂, hl, -⟩ := List.lookup_eq_some_iff.mp hb
    exact hw.sized ((h, k), b) (by simp [hl])
  by_cases hi : ∃ i, k = d.keys.key i
  · obtain ⟨i, rfl⟩ := hi
    rw [loadBlob_key, hw.holds (h, d.keys.key i) ⟨i, rfl⟩]
    cases hb : w.log.lookup (h, d.keys.key i) with
    | none => rfl
    | some b =>
      obtain ⟨j, hj, hl⟩ := hmem b hb
      simp [hl, size_eq hj]
  · have hno : w.log.lookup (h, k) = none := by
      cases hb : w.log.lookup (h, k) with
      | none => rfl
      | some b => obtain ⟨i, hk', -⟩ := hmem b hb; exact absurd ⟨i, hk'⟩ hi
    rw [hno, Device.loadBlob, prefForKey_eq_none (.inl hk) fun i he => hi ⟨i, he⟩]

/-- **Independent stores**: a load finds what was last saved under the key on the hub, whatever
else was saved; a write that is not one of a stored key and its size is refused and changes
nothing; and the string of a preference determines its name and its `client_id`. -/
theorem independent_stores (d : Device ι) (hid : Function.Injective d.clientId)
    (hhash : d.NoCollision) :
    (∀ w es v, d.Fresh w → (∀ e ∈ es, d.keys.Plain e.key) → run d.step w es = some v →
      ∀ h k, d.keys.Own k → d.loadBlob v.store h k = v.log.lookup (h, k)) ∧
    (∀ s h i data, data.length = d.keys.size i →
      (d.saveBlob s h (d.keys.key i) data true).1 = true) ∧
    (∀ s h k data accepts, d.keys.Rejected k data.length →
      d.saveBlob s h k data accepts = (false, s)) ∧
    (∀ i j a b, prefString (d.keys.name i) a = prefString (d.keys.name j) b →
      d.keys.name i = d.keys.name j ∧ a = b) := by
  refine ⟨fun w es v hw hes hr h k hk => ?_, fun s h i data hl => ?_,
    fun s h k data accepts hr => saveBlob_rejected hr s h accepts, fun i j a b he => ?_⟩
  · have h₀ : Inv d w := by
      refine ⟨?_, by simp [hw.2]⟩
      rw [hw.2]
      refine holds_empty ?_
      rintro ⟨h, k⟩ ⟨i, rfl⟩
      rw [address_key]
      exact hw.1 h i
    exact ((keepsOn_inv hid hhash).run h₀ hes hr).load h hk
  · rw [saveBlob_key, if_pos ⟨hl, rfl⟩]
  · obtain ⟨rfl, hab⟩ := prefString_inj he
    exact ⟨rfl, hab⟩

/-! ### Two hubs -/

/-- `fnv1a_hash`. -/
def fnv1aHash (s : String) : UInt32 :=
  s.toUTF8.toList.foldl (fun h b => (h ^^^ b.toUInt32) * 16777619) 2166136261

lemma digits_of_slotShaped {k : String} (h : SlotShaped k) :
    (k.toList.drop 4).all Char.isDigit = true := by
  obtain ⟨ds, -, hd, hk⟩ := h
  rw [hk, show (4 : ℕ) = recordSlotPrefix.toList.length from rfl, List.drop_left]
  exact List.all_eq_true.mpr hd

def sampleKeys : PersistenceKeys where
  slots := 1
  recordOrder := "rec_order"
  keypair := "keypair"
  pairingPsk := "pairing_psk"
  lastPlayed := "last_played"
  outputDelay := "output_delay"
  recordSlotSize := 2
  keypairSize := 3
  pairingPskSize := 2
  lastPlayedSize := 2
  outputDelaySize := 1
  slots_fit := by decide
  nodup := by decide
  not_slot := by
    intro k hk hs
    have := digits_of_slotShaped hs
    fin_cases hk <;> exact absurd this (by decide)
  order_apart := by decide

inductive Kitchen
  | plain | numbered
  deriving DecidableEq

/-- One `client_id` ends in the other, behind something like a name. -/
def kitchens : Device Kitchen where
  keys := sampleKeys
  hash := fnv1aHash
  clientId
    | .plain => "kitchen"
    | .numbered => "0_kitchen"

lemma kitchens_noCollision : kitchens.NoCollision := by
  have hnd : ((["rec_0", "rec_order", "keypair", "pair_psk", "last_played", "static_delay"].product
      ["kitchen", "0_kitchen"]).map fun x => fnv1aHash (prefString x.1 x.2)).Nodup := by
    decide +kernel
  have hmem : ∀ h i, (sampleKeys.name i, kitchens.clientId h) ∈
      ["rec_0", "rec_order", "keypair", "pair_psk", "last_played", "static_delay"].product
        ["kitchen", "0_kitchen"] := by
    intro h i
    refine List.pair_mem_product.mpr ⟨?_, by cases h <;> decide⟩
    cases i with
    | recordSlot n => rw [PersistenceKeys.name, Fin.fin_one_eq_zero n]; decide
    | _ => decide
  intro h i h' i' he
  have := List.inj_on_of_nodup_map hnd (hmem h i) (hmem h' i') he
  exact congrArg₂ prefString (Prod.mk.inj this).1 (Prod.mk.inj this).2

/-- Both hubs save their first pairing record, one of them twice. -/
def records : List (Save Kitchen) :=
  [⟨.plain, "rec_0", [1, 2], true⟩, ⟨.numbered, "rec_0", [3, 4], true⟩,
    ⟨.plain, "rec_0", [5], true⟩]

theorem independent_stores_records :
    ∃ v, run kitchens.step ⟨fun _ => none, []⟩ records = some v ∧
      v.log = [((.numbered, "rec_0"), [3, 4]), ((.plain, "rec_0"), [1, 2])] ∧
      kitchens.loadBlob v.store .plain (recordSlotKey 0) =
        v.log.lookup (.plain, recordSlotKey 0) := by
  have hid : Function.Injective kitchens.clientId := by
    rintro (_ | _) (_ | _) h
    all_goals first
      | rfl
      | exact absurd h (by decide)
  have h := independent_stores kitchens hid kitchens_noCollision
  refine ⟨_, rfl, by decide +kernel,
    h.1 _ records _ ⟨fun _ _ => rfl, rfl⟩ ?_ rfl .plain _ (.inl ⟨0, rfl⟩)⟩
  have hk : ∀ e ∈ records, e.key = recordSlotKey 0 := by decide
  exact fun e he => .inl (.inl ⟨0, hk e he⟩)

end Stores

end SendspinMc.Persistence
