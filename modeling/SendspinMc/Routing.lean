import SendspinMc.ClientIds
import SendspinMc.Lib.Delim
import SendspinMc.MediaSource

/-!
Which hub's media source a URI is for.

The `client_id`s are free of the separator that ends them in a URI, so the hub and the target
of a URI can be read back from it.
-/

namespace SendspinMc.Routing

open SendspinMc.ClientIds SendspinMc.MediaSource SendspinMc.Lib.Delim

lemma getMediaSourceUri_inj {a b s t : String} (ha : '/' ∉ a.toList) (hb : '/' ∉ b.toList)
    (h : getMediaSourceUri a s = getMediaSourceUri b t) : a = b ∧ s = t := by
  have h' := congrArg String.toList h
  unfold getMediaSourceUri at h'
  simp only [String.toList_append, List.append_assoc, List.append_cancel_left_eq] at h'
  obtain ⟨hid, ht⟩ := (join_inj (apart_of_notMem ha hb)).mp h'
  exact ⟨String.toList_inj.mp hid, String.toList_inj.mp ht⟩

lemma canHandle_getMediaSourceUri {a b : String} (ha : '/' ∉ a.toList) (hb : '/' ∉ b.toList)
    (target : String) : canHandle b (getMediaSourceUri a target) = true ↔ b = a := by
  rw [canHandle_iff]
  constructor
  · rintro ⟨t, ht⟩
    exact (getMediaSourceUri_inj ha hb ht).1.symm
  · rintro rfl
    exact ⟨target, rfl⟩

/-- What a source plays for a target. -/
def Plays (s : Source) (target : String) (r : Bool × Source) : Prop :=
  r.1 = true ∧ r.2.state = .playing ∧
    r.2.effects = (if target ≠ "current" then [.connect ("ws://" ++ target)] else []) ++ s.effects

/-- **Routing**: at most one hub handles a URI, the URI made for a target is handled by its own
hub, which plays exactly that target, and a source refuses any URI without its hub's prefix and
a target. -/
theorem routing {hubs : List String} (h : Accepted hubs) :
    (∀ uri i j, ∀ hi : i < hubs.length, ∀ hj : j < hubs.length,
      canHandle hubs[i] uri = true → canHandle hubs[j] uri = true → i = j) ∧
    (∀ i, ∀ hi : i < hubs.length, ∀ target ≠ "",
      (∀ j, ∀ hj : j < hubs.length,
        canHandle hubs[j] (getMediaSourceUri hubs[i] target) = true ↔ j = i) ∧
      ∀ s : Source, s.parent.clientId = hubs[i] → s.Playable → s.state = .idle →
        Plays s target (s.playUri (getMediaSourceUri hubs[i] target))) ∧
    (∀ i, ∀ hi : i < hubs.length, ∀ s : Source, s.parent.clientId = hubs[i] →
      ∀ uri, ¬ Carries hubs[i] uri →
        (s.playUri uri).1 = false ∧ (s.playUri uri).2.state = s.state ∧
          (s.playUri uri).2.effects = s.effects) := by
  have hslash : ∀ i, ∀ hi : i < hubs.length, '/' ∉ hubs[i].toList :=
    fun i hi => h.noSlash (List.getElem_mem hi)
  refine ⟨fun uri i j hi hj hci hcj => ?_, fun i hi target ht => ⟨fun j hj => ?_, ?_⟩, ?_⟩
  · obtain ⟨t, rfl⟩ := canHandle_iff.mp hci
    have he := (canHandle_getMediaSourceUri (hslash i hi) (hslash j hj) t).mp hcj
    exact ((h.nodup.getElem_inj_iff).mp he).symm
  · rw [canHandle_getMediaSourceUri (hslash i hi) (hslash j hj), h.nodup.getElem_inj_iff]
  · intro s hs hp hidle
    rw [← hs, playUri_target hp hidle ht]
    exact ⟨rfl, rfl, rfl⟩
  · intro i hi s hs uri hc
    rw [playUri_refused (hs ▸ hc)]
    exact ⟨rfl, rfl, rfl⟩

/-- The source of a hub that plays `kitchen-2`, beside a hub whose `client_id` is a prefix of it. -/
def kitchen2 : Source where
  parent := ⟨"kitchen-2", true, false, true⟩
  state := .idle
  pendingStart := false
  ready := true
  failed := false
  hasListener := true
  requests := []
  effects := []

theorem routing_kitchen2 :
    canHandle "kitchen" (getMediaSourceUri "kitchen-2" "host:8927/sendspin") = false ∧
      Plays kitchen2 "host:8927/sendspin"
        (kitchen2.playUri (getMediaSourceUri "kitchen-2" "host:8927/sendspin")) :=
  have ha : Accepted ["kitchen", "kitchen-2"] := by decide
  have h := routing ha
  ⟨Bool.eq_false_iff.mpr fun hc =>
      absurd (((h.2.1 1 (by decide) _ (by decide)).1 0 (by decide)).mp hc) (by decide),
    (h.2.1 1 (by decide) _ (by decide)).2 kitchen2 rfl ⟨rfl, rfl, rfl, rfl⟩ rfl⟩

end SendspinMc.Routing
