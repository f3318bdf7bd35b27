import Mathlib.Data.Int.Notation
import Mathlib.Data.Option.Basic
import Mathlib.Tactic.Common

/-!
The metadata of the library, as the hub hands it to the sensors, and the floats these publish.
-/

namespace SendspinMc.Metadata

structure Progress where
  trackProgress : ℤ
  trackDuration : ℤ
  playbackSpeed : ℤ

/-- A field is `none` if the server has not provided it, or has cleared it. -/
structure ServerMetadataState where
  progress : Option Progress := none
  year : Option ℤ := none
  track : Option ℤ := none
  title : Option String := none
  artist : Option String := none
  album : Option String := none
  albumArtist : Option String := none

/-- What the metadata role calls on the hub. -/
inductive Update
  | onMetadata (metadata : ServerMetadataState)
  | onMetadataClear

/-- What the hub calls its metadata callbacks with: a clear travels as the default. -/
def Update.state : Update → ServerMetadataState
  | .onMetadata metadata => metadata
  | .onMetadataClear => {}

/-! ### Floats -/

/-- A float: a number, or `none` for NAN. -/
abbrev Flt (α : Type*) := Option α

variable {α : Type*}

def NAN : Flt α := none

def isnan (x : Flt α) : Bool := x.isNone

@[simp] lemma isnan_NAN : isnan (NAN : Flt α) = true := rfl
@[simp] lemma isnan_some (x : α) : isnan (some x) = false := rfl

variable [DecidableEq α]

/-- `x != y`, which NAN is to itself as well. -/
def ne (x y : Flt α) : Bool := x.isNone || y.isNone || x ≠ y

lemma ne_and_nan (x y : Flt α) : (ne x y && !(isnan x && isnan y)) = decide (x ≠ y) := by
  cases x <;> cases y <;> simp [ne, isnan]

end SendspinMc.Metadata
