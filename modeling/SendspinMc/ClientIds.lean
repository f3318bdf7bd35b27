import Mathlib.Data.List.Nodup
import Mathlib.Tactic.Common

/-!
The `client_id`s a configuration may give its hubs.
-/

namespace SendspinMc.ClientIds

/-- `cv.Invalid`, by its text, or by what its text is formatted from. -/
inductive Invalid
  | text (s : String)
  /-- `Each sendspin_mc {label} must be unique; duplicate value: {value!r}` -/
  | duplicate (label value : String)
  deriving DecidableEq

/-- `_validate_client_id`. -/
def validateClientId (value : String) : Except Invalid String :=
  if value = "" then .error (.text "sendspin_mc client_id must not be empty")
  else if '/' ∈ value.toList then .error (.text "sendspin_mc client_id must not contain '/'")
  else .ok value

/-- One pass of the uniqueness loop of `_final_validate`, from the values seen so far. -/
def checkUnique (label : String) (comparison : String → String) :
    List String → List String → Except Invalid Unit
  | _, [] => .ok ()
  | seen, value :: values =>
    if comparison value ∈ seen then .error (.duplicate label value)
    else checkUnique label comparison (comparison value :: seen) values

/-- The client ids of the hubs pass both checks. -/
structure Accepted (hubs : List String) : Prop where
  valid : ∀ value ∈ hubs, validateClientId value = .ok value
  unique : checkUnique "client ID" id [] hubs = .ok ()

instance (hubs : List String) : Decidable (Accepted hubs) :=
  decidable_of_iff (_ ∧ _) ⟨fun ⟨h, h'⟩ => ⟨h, h'⟩, fun ⟨h, h'⟩ => ⟨h, h'⟩⟩

lemma validateClientId_ok {value : String} :
    validateClientId value = .ok value ↔ value ≠ "" ∧ '/' ∉ value.toList := by
  unfold validateClientId
  by_cases h : value = ""
  · simp [h]
  · by_cases hs : '/' ∈ value.toList <;> simp [h, hs]

lemma checkUnique_ok {label : String} {comparison : String → String} {seen values : List String} :
    checkUnique label comparison seen values = .ok () ↔
      (values.map comparison).Nodup ∧ ∀ v ∈ values, comparison v ∉ seen := by
  induction values generalizing seen with
  | nil => simp [checkUnique]
  | cons v vs ih =>
    by_cases hv : comparison v ∈ seen
    · simp [checkUnique, hv]
    · rw [checkUnique, if_neg hv, ih, List.map_cons, List.nodup_cons, List.forall_mem_cons]
      constructor
      · rintro ⟨hnd, hs⟩
        refine ⟨⟨fun hm => ?_, hnd⟩, hv, fun x hx hm => hs x hx (.tail _ hm)⟩
        obtain ⟨x, hx, he⟩ := List.mem_map.mp hm
        exact hs x hx (he ▸ .head _)
      · rintro ⟨⟨hne, hnd⟩, -, hs⟩
        refine ⟨hnd, fun x hx hm => ?_⟩
        rcases List.mem_cons.mp hm with he | hm
        · exact hne (he ▸ List.mem_map_of_mem hx)
        · exact hs x hx hm

lemma Accepted.nodup {hubs : List String} (h : Accepted hubs) : hubs.Nodup := by
  simpa using (checkUnique_ok.mp h.unique).1

lemma Accepted.noSlash {hubs : List String} (h : Accepted hubs) {c : String} (hc : c ∈ hubs) :
    '/' ∉ c.toList := (validateClientId_ok.mp (h.valid c hc)).2

end SendspinMc.ClientIds
