import Mathlib.Data.List.TakeWhile
import SendspinMc.Lib.Mirror
import SendspinMc.Metadata

/-!
The numeric and the text sensors of the metadata.

A sensor shows one field of the latest metadata, and publishes it when it changes.
-/

namespace SendspinMc.MetadataSensors

open SendspinMc.Lib.Mirror SendspinMc.Metadata

/-! ### Numbers -/

inductive NumericMetadataType
  | trackDuration
  | year
  | track

/-- The integer a sensor of this type reads. -/
def NumericMetadataType.field : NumericMetadataType → ServerMetadataState → Option ℤ
  | .trackDuration, metadata => metadata.progress.map (·.trackDuration)
  | .year, metadata => metadata.year
  | .track, metadata => metadata.track

section numeric

/- The conversion of an integer, which is never NAN. -/
variable {α : Type*} (toFloat : ℤ → α)

/-- `std::optional<float>`, of a float that is a number. -/
def extractValue (t : NumericMetadataType) (metadata : ServerMetadataState) :
    Option (Flt α) :=
  (t.field metadata).map fun n => some (toFloat n)

/-- What a sensor of this type should show: the field, or NAN. -/
def shown (t : NumericMetadataType) (u : Update) : Flt α := (t.field u.state).map toFloat

lemma extractValue_getD (t : NumericMetadataType) (u : Update) :
    (extractValue toFloat t u.state).getD NAN = shown toFloat t u := by
  unfold extractValue shown
  cases t.field u.state <;> rfl

variable [DecidableEq α]

def publishIfChanged (s : Entity (Flt α)) (value : Flt α) : Entity (Flt α) :=
  if ne s.raw value && !(isnan s.raw && isnan value) then s.publish value else s

/-- The callback of the sensor. -/
def onUpdate (t : NumericMetadataType) (s : Entity (Flt α)) (u : Update) :
    Entity (Flt α) :=
  publishIfChanged s ((extractValue toFloat t u.state).getD NAN)

lemma publishIfChanged_eq (s : Entity (Flt α)) (value : Flt α) :
    publishIfChanged s value = s.set value := by
  refine set_of_not_iff ?_
  rw [ne_and_nan, decide_eq_true_eq]
  exact ne_comm

lemma onUpdate_follows (t : NumericMetadataType) :
    Follows (fun _ => True) (onUpdate toFloat t) fun _ => shown toFloat t := by
  intro s u _
  rw [onUpdate, publishIfChanged_eq, extractValue_getD]

end numeric

/-! ### Texts -/

/-- The characters of a C string, which ends at the first NUL. -/
def cStr (s : String) : String := .ofList (s.toList.takeWhile (· ≠ '\x00'))

lemma cStr_eq {s : String} (h : '\x00' ∉ s.toList) : cStr s = s := by
  unfold cStr
  rw [List.takeWhile_eq_self_iff.mpr]
  · simp
  · intro c hc
    have : c ≠ '\x00' := fun he => h (he ▸ hc)
    simpa using this

inductive TextMetadataType
  | title
  | artist
  | album
  | albumArtist

def TextMetadataType.field : TextMetadataType → ServerMetadataState → Option String
  | .title, metadata => metadata.title
  | .artist, metadata => metadata.artist
  | .album, metadata => metadata.album
  | .albumArtist, metadata => metadata.albumArtist

namespace Text

/-- `c_str()`, or the empty C string. -/
def extractValue (t : TextMetadataType) (metadata : ServerMetadataState) : String :=
  ((t.field metadata).map cStr).getD ""

def publishIfChanged (s : Entity String) (value : String) : Entity String :=
  if s.raw ≠ value then s.publish value else s

def onUpdate (t : TextMetadataType) (s : Entity String) (u : Update) : Entity String :=
  publishIfChanged s (extractValue t u.state)

/-- What a sensor of this type should show. -/
def shown (t : TextMetadataType) (u : Update) : String := (t.field u.state).getD ""

/-- The text has no NUL in it. -/
def NulFree (t : TextMetadataType) (u : Update) : Prop :=
  ∀ s, t.field u.state = some s → '\x00' ∉ s.toList

lemma publishIfChanged_eq (s : Entity String) (value : String) :
    publishIfChanged s value = s.set value := set_of_not_iff ne_comm

lemma extractValue_eq {t : TextMetadataType} {u : Update} (h : NulFree t u) :
    extractValue t u.state = shown t u := by
  unfold extractValue shown
  cases hs : t.field u.state with
  | none => rfl
  | some s => exact cStr_eq (h s hs)

lemma onUpdate_follows (t : TextMetadataType) :
    Follows (NulFree t) (onUpdate t) fun _ => shown t := by
  intro s u hu
  rw [onUpdate, publishIfChanged_eq, extractValue_eq hu]

end Text

/-! ### The sensors mirror the metadata -/

/-- **Every sensor mirrors its field of the latest metadata**, and publishes only changes: after
each update a numeric sensor has the number or NAN, and a text sensor the text or nothing. -/
theorem mirrors_latest {α : Type*} [DecidableEq α] (toFloat : ℤ → α) :
    (∀ t, Mirrors (fun _ => True) (onUpdate toFloat t) (shown toFloat t) NAN) ∧
      ∀ t, Mirrors (Text.NulFree t) (Text.onUpdate t) (Text.shown t) "" :=
  ⟨fun t => (onUpdate_follows toFloat t).mirrors NAN,
    fun t => (Text.onUpdate_follows t).mirrors ""⟩

end SendspinMc.MetadataSensors
