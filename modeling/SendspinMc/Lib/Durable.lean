import Mathlib.Data.Option.Basic
import Mathlib.Tactic.Common

/-!
A value kept in storage that is written late.

A save is recorded and only becomes durable with the next sync; a crash drops what is recorded.
What is restored after a crash may be older than the value that was saved last, and the rules
below say when it still has no property that the value lacked.
-/

namespace SendspinMc.Lib.Durable

structure Cell (α : Type*) where
  durable : Option α
  recorded : Option α

variable {α : Type*}

def Cell.save (c : Cell α) (v : α) : Cell α := { c with recorded := some v }

def Cell.sync (c : Cell α) : Cell α := ⟨c.recorded.orElse fun _ => c.durable, none⟩

def Cell.crash (c : Cell α) : Cell α := { c with recorded := none }

/-- What is read after a crash. -/
def Cell.restore (c : Cell α) (default : α) : α := c.durable.getD default

@[simp] lemma restore_save (c : Cell α) (v default : α) :
    (c.save v).restore default = c.restore default := rfl
@[simp] lemma restore_crash (c : Cell α) (default : α) :
    c.crash.restore default = c.restore default := rfl
@[simp] lemma restore_save_sync (c : Cell α) (v default : α) :
    (c.save v).sync.restore default = v := rfl

/-- What a crash would restore has `P` only if the current value has it. -/
structure Guarded (P : α → Prop) (default : α) (c : Cell α) (v : α) : Prop where
  restored : P (c.restore default) → P v
  recorded : ∀ r ∈ c.recorded, r = v

variable {P : α → Prop} {default v v' : α} {c : Cell α}

/-- A save that does not take `P` away may wait for the next sync. -/
lemma Guarded.save (h : Guarded P default c v) (hv : P v → P v') :
    Guarded P default (c.save v') v' := by
  refine ⟨fun hr => hv (h.restored ?_), fun _ hr => (Option.some.inj hr).symm⟩
  rwa [restore_save] at hr

/-- A save that is synced at once may do anything. -/
lemma guarded_save_sync : Guarded P default (c.save v').sync v' := by
  refine ⟨fun hr => ?_, fun _ hr => by cases hr⟩
  rwa [restore_save_sync] at hr

lemma Guarded.sync (h : Guarded P default c v) : Guarded P default c.sync v := by
  refine ⟨fun hr => ?_, fun _ hr => by cases hr⟩
  cases hc : c.recorded with
  | none => exact h.restored (by simpa [Cell.sync, Cell.restore, hc] using hr)
  | some r =>
    obtain rfl := h.recorded r hc
    simpa [Cell.sync, Cell.restore, hc] using hr

lemma guarded_restore : Guarded P default (c.save (c.restore default)) (c.restore default) := by
  refine ⟨fun hr => ?_, fun _ hr => (Option.some.inj hr).symm⟩
  rwa [restore_save] at hr

end SendspinMc.Lib.Durable
