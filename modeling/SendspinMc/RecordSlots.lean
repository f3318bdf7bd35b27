import SendspinMc.Persistence
import Mathlib.Data.Set.Basic

/-!
The keys of the pairing records.

The library writes the number of a record in decimal behind a prefix. The hub reads digits back
with an accumulator that it checks after every digit, which keeps it from wrapping however long
the key is; that a number may be written with zeros in front it does not check.
-/

namespace SendspinMc.RecordSlots

open SendspinMc.Persistence SendspinMc.Lib.Decimal

/-- Some accumulation in the loop of `parse_record_slot` exceeds a `size_t`. -/
def wraps (slots : ℕ) : ℕ → List Char → Bool
  | _, [] => false
  | slot, c :: cs =>
    if c < '0' ∨ '9' < c then false
    else
      let exact := slot * 10 + (c.toNat - '0'.toNat)
      sizeMax ≤ exact || (exact % sizeMax < slots && wraps slots (exact % sizeMax) cs)

/-- On these keys, `parse_record_slot` is the inverse of `record_slot_key`. -/
structure Inverse (slots : ℕ) (keys : Set String) : Prop where
  exact : ∀ key ∈ keys, ∀ n,
    parseRecordSlot slots key = some n ↔ n < slots ∧ key = recordSlotKey n
  /-- No two keys reach one record. -/
  apart : ∀ key ∈ keys, ∀ key' ∈ keys, ∀ n, parseRecordSlot slots key = some n →
    parseRecordSlot slots key' = some n → key = key'

/-- The prefix, a zero and more digits, of a value that a slot has. -/
def Padded (slots : ℕ) (key : String) : Prop :=
  ∃ ds, ds ≠ [] ∧ Digits ds ∧ key.toList = recordSlotPrefix.toList ++ '0' :: ds ∧ value ds < slots

/-! ### The accumulator -/

lemma wraps_eq_false {slots : ℕ} (hfit : 10 * slots + 9 < sizeMax) {acc : ℕ} (hacc : acc ≤ slots)
    (cs : List Char) : wraps slots acc cs = false := by
  induction cs generalizing acc with
  | nil => rfl
  | cons c cs ih =>
    rw [wraps]
    split
    · rfl
    rename_i hc
    have hlt := digit_lt (isDigit_iff.mpr hc)
    have hfits : acc * 10 + (c.toNat - '0'.toNat) < sizeMax := by omega
    rw [Bool.or_eq_false_iff, decide_eq_false_iff_not, Nat.not_le]
    refine ⟨hfits, ?_⟩
    rw [Nat.mod_eq_of_lt hfits, Bool.and_eq_false_iff, decide_eq_false_iff_not, Nat.not_lt]
    by_cases hslots : slots ≤ acc * 10 + (c.toNat - '0'.toNat)
    · exact .inl hslots
    · exact .inr (ih (by omega))

/-! ### The keys -/

lemma value_zero_cons (ds : List Char) : value ('0' :: ds) = value ds := by
  rw [value, Nat.ofDigitChars_cons]
  rfl

/-- A key with a slot is the library's for it, or that with zeros in front of the number. -/
lemma canonical_or_padded {slots n : ℕ} (hfit : 10 * slots + 9 < sizeMax) {key : String}
    (h : parseRecordSlot slots key = some n) :
    n < slots ∧ key = recordSlotKey n ∨ Padded slots key := by
  have hshape : SlotShaped key := by
    by_contra hno
    rw [parseRecordSlot_eq_none hno] at h
    cases h
  obtain ⟨ds, hne, hd, hk⟩ := hshape
  rw [parseRecordSlot_digits hfit hd hne hk] at h
  split at h
  · rename_i hlt
    obtain rfl := Option.some.inj h
    rcases canonical_or_lead hd hne with hcan | ⟨t, ht, rfl⟩
    · refine .inl ⟨hlt, String.toList_inj.mp ?_⟩
      rw [recordSlotKey_toList, toDigits_value hcan, hk]
    · rw [value_zero_cons] at hlt
      exact .inr ⟨t, ht, fun c hc => hd c (List.mem_cons_of_mem _ hc), hk, hlt⟩
  · cases h

lemma Padded.parse {slots : ℕ} (hfit : 10 * slots + 9 < sizeMax) {key : String}
    (h : Padded slots key) :
    ∃ n, parseRecordSlot slots key = some n ∧ key ≠ recordSlotKey n := by
  obtain ⟨ds, hne, hd, hk, hlt⟩ := h
  have hdigits : Digits ('0' :: ds) := List.forall_mem_cons.mpr ⟨rfl, hd⟩
  refine ⟨value ds, ?_, fun he => ?_⟩
  · rw [parseRecordSlot_digits hfit hdigits (List.cons_ne_nil _ _) hk, value_zero_cons, if_pos hlt]
  · rw [he, recordSlotKey_toList, List.append_cancel_left_eq] at hk
    exact hne ((canonical_toDigits (value ds)).lead ds hk)

lemma not_padded_recordSlotKey (slots n : ℕ) : ¬ Padded slots (recordSlotKey n) := by
  rintro ⟨ds, hne, -, hk, -⟩
  rw [recordSlotKey_toList, List.append_cancel_left_eq] at hk
  exact hne ((canonical_toDigits n).lead ds hk)

/-- **When a key is read as it is written**: the accumulator never wraps, whatever the key; and
on any set of keys, `parse_record_slot` is the inverse of the library's `record_slot_key` and tells
the records apart, exactly if no key there has zeros in front of the number of a slot. -/
theorem inverse_iff {slots : ℕ} (hfit : 10 * slots + 9 < sizeMax) :
    (∀ key : String, wraps slots 0 (key.toList.drop recordSlotPrefix.length) = false) ∧
      ∀ keys : Set String, Inverse slots keys ↔ ∀ key ∈ keys, ¬ Padded slots key := by
  refine ⟨fun key => wraps_eq_false hfit (Nat.zero_le slots) _, fun keys => ⟨?_, fun h => ?_⟩⟩
  · rintro hinv key hkey hp
    obtain ⟨n, hn, hne⟩ := hp.parse hfit
    exact hne ((hinv.exact key hkey n).mp hn).2
  · have hkey : ∀ key ∈ keys, ∀ n, parseRecordSlot slots key = some n →
        n < slots ∧ key = recordSlotKey n := fun key hk n hn =>
      (canonical_or_padded hfit hn).resolve_right (h key hk)
    refine ⟨fun key hk n => ⟨hkey key hk n, ?_⟩, fun key hk key' hk' n hn hn' => ?_⟩
    · rintro ⟨hlt, rfl⟩
      rw [parseRecordSlot_recordSlotKey hfit, if_pos hlt]
    · rw [(hkey key hk n hn).2, (hkey key' hk' n hn').2]

theorem inverse_library : Inverse 8 (Set.range recordSlotKey) := by
  refine ((inverse_iff (by decide)).2 _).mpr ?_
  rintro _ ⟨n, rfl⟩
  exact not_padded_recordSlotKey 8 n

/-- Two keys of one record. -/
theorem rec_00_reaches :
    parseRecordSlot 8 "rec_00" = some 0 ∧ parseRecordSlot 8 "rec_0" = some 0 ∧
      ¬ Inverse 8 Set.univ := by
  refine ⟨by decide, by decide, fun h => ?_⟩
  have hsame := h.apart "rec_00" trivial "rec_0" trivial 0 (by decide) (by decide)
  exact absurd hsame (by decide)

end SendspinMc.RecordSlots
