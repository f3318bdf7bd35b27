import Mathlib.Tactic.Common

/-!
Values that pass through a queue: what is held in the end is the last of those that came through.
-/

namespace SendspinMc.Lib.Relay

variable {α β : Type*}

/-- Of the values that were told, the ones in front came through and the rest are pending; held is
the last that came through, or else the first value. -/
def Relays (init : α) (told pending : List α) (held : α) : Prop :=
  ∃ through, through ++ pending = told ∧ held = through.getLast?.getD init

variable {init held : α} {told pending : List α}

lemma relays_nil (init : α) : Relays init [] [] init := ⟨[], rfl, rfl⟩

lemma Relays.tell (h : Relays init told pending held) (x : α) :
    Relays init (told ++ [x]) (pending ++ [x]) held := by
  obtain ⟨through, rfl, hheld⟩ := h
  exact ⟨through, (List.append_assoc _ _ _).symm, hheld⟩

lemma Relays.pass {x : α} (h : Relays init told (x :: pending) held) :
    Relays init told pending x := by
  obtain ⟨through, rfl, -⟩ := h
  exact ⟨through ++ [x], by simp, by simp⟩

/-- **What passed an empty queue** is the last value that was told. -/
theorem Relays.drained (h : Relays init told [] held) : held = told.getLast?.getD init := by
  obtain ⟨through, rfl, hheld⟩ := h
  rw [List.append_nil]
  exact hheld

end SendspinMc.Lib.Relay
