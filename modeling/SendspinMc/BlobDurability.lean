import SendspinMc.Lib.Journal
import SendspinMc.Persistence

/-!
The hubs' blobs across commits and power cuts.

The preferences are the framework's. They keep what is saved until they sync, and a sync is for
every hub: what one hub commits covers the saves of the others. A sync that fails may have written
some of it.
-/

namespace SendspinMc.BlobDurability

open SendspinMc.Lib.Journal SendspinMc.Lib.Runs SendspinMc.Persistence

/-- The framework's preferences, of which the hubs know these calls only. Whether a call succeeds
is up to their state. -/
structure Backend (σ : Type*) where
  /-- What is loaded under a hash. -/
  load : σ → Store
  save : σ → UInt32 → Bytes → Bool × σ
  /-- `global_preferences->sync()`. -/
  sync : σ → Bool × σ
  /-- The device loses power and starts again. -/
  cut : σ → σ

/-- What the hubs rely on. -/
structure Backend.Documented {σ : Type*} (B : Backend σ) : Prop where
  save_refused : ∀ b a x, (B.save b a x).1 = false → B.load (B.save b a x).2 = B.load b
  save_accepted : ∀ b a x, (B.save b a x).1 = true →
    B.load (B.save b a x).2 = Function.update (B.load b) a (some x)
  /-- A save is pending until the next sync. -/
  save_pending : ∀ b a x, B.load (B.cut (B.save b a x).2) = B.load (B.cut b)
  /-- A sync that succeeds has written everything that was pending. -/
  sync_ok : ∀ b, (B.sync b).1 = true →
    B.load (B.sync b).2 = B.load b ∧ B.load (B.cut (B.sync b).2) = B.load b
  /-- One that fails has written some of it, and has kept or dropped the rest. -/
  sync_fails : ∀ b, (B.sync b).1 = false → ∀ a, Settles (B.load (B.cut b) a) (B.load b a)
    (B.load (B.cut (B.sync b).2) a) (B.load (B.sync b).2 a)
  /-- Nothing is pending after a power cut. -/
  cut_cut : ∀ b, B.load (B.cut (B.cut b)) = B.load (B.cut b)

variable {ι σ : Type*}

/-- `write_blob`. -/
def writeBlob (B : Backend σ) (p : Pref) (b : σ) (size : ℕ) (data : Bytes) : Bool × σ :=
  if data.length ≠ size then (false, b) else B.save b p.key data

/-- `SendspinMcHub::save_blob`. -/
def saveBlob (B : Backend σ) (d : Device ι) (b : σ) (h : ι) (key : String) (data : Bytes) :
    Bool × σ :=
  match prefForKey d.keys (d.prefs h) key with
  | none => (false, b)
  | some (pref, size) => writeBlob B pref b size data

/-- `SendspinMcHub::load_blob`. -/
def loadBlob (B : Backend σ) (d : Device ι) (b : σ) (h : ι) (key : String) : Option Bytes :=
  d.loadBlob (B.load b) h key

/-- `SendspinMcHub::commit`. -/
def commit (B : Backend σ) (b : σ) : Bool × σ := B.sync b

structure World (ι σ : Type*) where
  backend : σ
  log : List (Entry (ι × String) Bytes)

/-- A hub saves or commits, the framework syncs on its own, or the device loses power. -/
inductive Ev (ι : Type*)
  | save (h : ι) (key : String) (data : Bytes)
  | commit (h : ι)
  | sync
  | cut

def World.save (B : Backend σ) (d : Device ι) (w : World ι σ) (h : ι) (key : String)
    (data : Bytes) : World ι σ :=
  let (saved, backend) := saveBlob B d w.backend h key data
  ⟨backend, if saved then .saved (h, key) data :: w.log else w.log⟩

def World.commit (B : Backend σ) (w : World ι σ) : World ι σ :=
  let (written, backend) := BlobDurability.commit B w.backend
  ⟨backend, (if written then .committed else .unsettled) :: w.log⟩

def step (B : Backend σ) (d : Device ι) (w : World ι σ) : Ev ι → Option (World ι σ)
  | .save h key data => some (w.save B d h key data)
  | .commit _ => some (w.commit B)
  | .sync => some (w.commit B)
  | .cut => some ⟨B.cut w.backend, .unsettled :: w.log⟩

/-! ### What is loaded -/

section Loads

variable {B : Backend σ} {d : Device ι} {b c : σ}

lemma loadBlob_congr (h : ι) (i : Item d.keys.slots)
    (hl : B.load c (d.address (h, d.keys.key i)) = B.load b (d.address (h, d.keys.key i))) :
    loadBlob B d c h (d.keys.key i) = loadBlob B d b h (d.keys.key i) := by
  rw [loadBlob, loadBlob, loadBlob_key, loadBlob_key, hl]

lemma settles_congr {b' c' : σ} (h : ι) (i : Item d.keys.slots)
    (hs : Settles (B.load c (d.address (h, d.keys.key i))) (B.load b (d.address (h, d.keys.key i)))
      (B.load c' (d.address (h, d.keys.key i))) (B.load b' (d.address (h, d.keys.key i)))) :
    Settles (loadBlob B d c h (d.keys.key i)) (loadBlob B d b h (d.keys.key i))
      (loadBlob B d c' h (d.keys.key i)) (loadBlob B d b' h (d.keys.key i)) := by
  rcases hs with ⟨hc, hb⟩ | ⟨hc, hb⟩ | ⟨hc, hb⟩
  · exact .inl ⟨loadBlob_congr h i hc, loadBlob_congr h i hb⟩
  · exact .inr (.inl ⟨loadBlob_congr h i hc, loadBlob_congr h i hb⟩)
  · exact .inr (.inr ⟨loadBlob_congr h i hc, loadBlob_congr h i hb⟩)

lemma saveBlob_stored (b : σ) (h : ι) (i : Item d.keys.slots) (data : Bytes) :
    saveBlob B d b h (d.keys.key i) data =
      if data.length = d.keys.size i then B.save b (d.address (h, d.keys.key i)) data
      else (false, b) := by
  rw [address_key]
  by_cases hl : data.length = d.keys.size i <;>
    simp [saveBlob, Device.prefs, prefForKey_key, writeBlob, makeBlobPref, hl]

lemma saveBlob_other {k : String} (hk : d.keys.Plain k) (hi : ∀ i, k ≠ d.keys.key i) (b : σ)
    (h : ι) (data : Bytes) : saveBlob B d b h k data = (false, b) := by
  simp [saveBlob, prefForKey_eq_none hk hi]

end Loads

/-! ### Runs -/

section Runs

variable [DecidableEq ι] {B : Backend σ} {d : Device ι}
  {init : ι → Item d.keys.slots → Option Bytes}

/-- Every blob follows the history of all of them. -/
def Inv (B : Backend σ) (d : Device ι) (init : ι → Item d.keys.slots → Option Bytes)
    (w : World ι σ) : Prop :=
  ∀ h i, Follows (init h i) (h, d.keys.key i) w.log
    (loadBlob B d (B.cut w.backend) h (d.keys.key i)) (loadBlob B d w.backend h (d.keys.key i))

lemma Inv.accepted (hB : B.Documented) (hid : Function.Injective d.clientId)
    (hhash : d.NoCollision) {w : World ι σ} (hw : Inv B d init w) (h : ι) (i : Item d.keys.slots)
    {data : Bytes} (hl : data.length = d.keys.size i)
    (ha : (B.save w.backend (d.address (h, d.keys.key i)) data).1 = true) :
    Inv B d init ⟨(B.save w.backend (d.address (h, d.keys.key i)) data).2,
      .saved (h, d.keys.key i) data :: w.log⟩ := by
  intro h' j
  have hload := hB.save_accepted _ _ _ ha
  have hcut := loadBlob_congr (B := B) (d := d) h' j
    (congrFun (hB.save_pending w.backend (d.address (h, d.keys.key i)) data) _)
  by_cases he : (h, d.keys.key i) = (h', d.keys.key j)
  · have hread : loadBlob B d (B.save w.backend (d.address (h, d.keys.key i)) data).2 h'
        (d.keys.key j) = some data := by
      rw [loadBlob, loadBlob_key, hload, ← he, Function.update_self, ← size_eq (Prod.mk.inj he).2,
        Option.filter_some, if_pos (by simpa using hl)]
    rw [hread, hcut, he]
    exact (hw h' j).save data
  · have hne : d.address (h', d.keys.key j) ≠ d.address (h, d.keys.key i) := fun ha =>
      he (address_injOn hid hhash ⟨j, rfl⟩ ⟨i, rfl⟩ ha).symm
    have hread := loadBlob_congr (B := B) (d := d) h' j
      (congrFun hload _ |>.trans (Function.update_of_ne hne _ _))
    rw [hread, hcut]
    exact (hw h' j).other he data

lemma Inv.refused (hB : B.Documented) {w : World ι σ} (hw : Inv B d init w) (a : UInt32)
    {data : Bytes} (ha : (B.save w.backend a data).1 = false) :
    Inv B d init ⟨(B.save w.backend a data).2, w.log⟩ := by
  intro h j
  have hread := loadBlob_congr (B := B) (d := d) h j (congrFun (hB.save_refused _ _ _ ha) _)
  have hcut := loadBlob_congr (B := B) (d := d) h j
    (congrFun (hB.save_pending w.backend a data) _)
  rw [hread, hcut]
  exact hw h j

lemma Inv.save (hB : B.Documented) (hid : Function.Injective d.clientId)
    (hhash : d.NoCollision) {w : World ι σ} (hw : Inv B d init w) (h : ι) {key : String}
    (hk : d.keys.Plain key) (data : Bytes) : Inv B d init (w.save B d h key data) := by
  by_cases hi : ∃ i, key = d.keys.key i
  · obtain ⟨i, rfl⟩ := hi
    rw [World.save, saveBlob_stored]
    by_cases hl : data.length = d.keys.size i
    · rw [if_pos hl]
      dsimp only
      cases ha : (B.save w.backend (d.address (h, d.keys.key i)) data).1 with
      | true => exact hw.accepted hB hid hhash h i hl ha
      | false => exact hw.refused hB _ ha
    · rw [if_neg hl]
      exact hw
  · rw [World.save, saveBlob_other hk fun i he => hi ⟨i, he⟩]
    exact hw

lemma Inv.commit (hB : B.Documented) {w : World ι σ} (hw : Inv B d init w) :
    Inv B d init (w.commit B) := by
  intro h i
  rw [World.commit, BlobDurability.commit]
  dsimp only
  cases hs : (B.sync w.backend).1 with
  | true =>
    obtain ⟨hload, hcut⟩ := hB.sync_ok _ hs
    rw [if_pos rfl, loadBlob_congr h i (congrFun hload _), loadBlob_congr h i (congrFun hcut _)]
    exact (hw h i).commit
  | false =>
    exact (hw h i).unsettle (settles_congr h i (hB.sync_fails _ hs _))

lemma Inv.cut (hB : B.Documented) {w : World ι σ} (hw : Inv B d init w) :
    Inv B d init ⟨B.cut w.backend, .unsettled :: w.log⟩ := by
  intro h i
  rw [loadBlob_congr h i (congrFun (hB.cut_cut w.backend) _)]
  exact (hw h i).unsettle (.inr (.inr ⟨rfl, rfl⟩))

/-- The keys the library uses. -/
def Plain (d : Device ι) : Ev ι → Prop
  | .save _ key _ => d.keys.Plain key
  | _ => True

lemma inv_step (hB : B.Documented) (hid : Function.Injective d.clientId) (hhash : d.NoCollision)
    {w v : World ι σ} {e : Ev ι} (hw : Inv B d init w) (he : Plain d e)
    (hs : step B d w e = some v) : Inv B d init v := by
  cases e with
  | save h key data =>
    obtain rfl := Option.some.inj hs
    exact hw.save hB hid hhash h he data
  | commit h =>
    obtain rfl := Option.some.inj hs
    exact hw.commit hB
  | sync =>
    obtain rfl := Option.some.inj hs
    exact hw.commit hB
  | cut =>
    obtain rfl := Option.some.inj hs
    exact hw.cut hB

lemma keepsOn_inv (hB : B.Documented) (hid : Function.Injective d.clientId)
    (hhash : d.NoCollision) : KeepsOn (step B d) (Plain d) (Inv B d init) :=
  fun _ _ _ hw he hs => inv_step hB hid hhash hw he hs

/-- **What is committed stays**, if the preferences do what they document: after any run of saves
by any hubs, commits by any hubs and other syncs that succeed or fail, and power cuts, a blob loads
as what it was at first or as one of its saves, and a save that a successful commit of any hub
covered loads until the same blob is saved again. -/
theorem commit_durable (B : Backend σ) (hB : B.Documented) (d : Device ι)
    (hid : Function.Injective d.clientId) (hhash : d.NoCollision) {w v : World ι σ}
    {es : List (Ev ι)} (hlog : w.log = []) (hpending : B.load (B.cut w.backend) = B.load w.backend)
    (hes : ∀ e ∈ es, Plain d e) (hr : run (step B d) w es = some v) (h : ι)
    (i : Item d.keys.slots) :
    loadBlob B d v.backend h (d.keys.key i) ∈
        candidates (loadBlob B d w.backend h (d.keys.key i)) (h, d.keys.key i) v.log ∧
      ∀ t' t data, v.log = t' ++ .committed :: t → (∀ x, .saved (h, d.keys.key i) x ∉ t') →
        settled (h, d.keys.key i) t = some data →
          loadBlob B d v.backend h (d.keys.key i) = some data := by
  have h₀ : Inv B d (fun h i => loadBlob B d w.backend h (d.keys.key i)) w := by
    intro h i
    rw [hlog, loadBlob_congr h i (congrFun hpending _)]
    exact follows_nil _ _
  have hload := ((keepsOn_inv hB hid hhash).run h₀ hes hr h i).read
  refine ⟨hload, fun t' t data hlog hno ht => ?_⟩
  rw [hlog, (candidates_committed hno ht).1] at hload
  exact List.mem_singleton.mp hload

end Runs

/-! ### Two hubs -/

/-- Flash, what is pending for it, and whether it can be written at each of the next syncs. -/
structure Nvs where
  flash : Store
  pending : Store
  writable : List Bool

/-- Preferences that drop what they cannot write. -/
def nvs : Backend Nvs where
  load s a := (s.pending a).orElse fun _ => s.flash a
  save s a x := (true, { s with pending := Function.update s.pending a (some x) })
  sync s :=
    let writable := s.writable.headD true
    (writable,
      { flash := fun a => if writable then (s.pending a).orElse fun _ => s.flash a else s.flash a
        pending := fun _ => none
        writable := s.writable.tail })
  cut s := { s with pending := fun _ => none }

lemma nvs_documented : nvs.Documented where
  save_refused _ _ _ h := by cases h
  save_accepted s a x _ := by
    funext a'
    by_cases ha : a' = a
    · subst ha
      simp [nvs]
    · simp [nvs, ha]
  save_pending _ _ _ := rfl
  sync_ok s h := by
    have hw : s.writable.head?.getD true = true := by simpa [nvs] using h
    constructor <;> funext a <;> simp [nvs, hw]
  sync_fails s h a := by
    have hw : s.writable.head?.getD true = false := by simpa [nvs] using h
    exact .inr (.inr ⟨by simp [nvs, hw], by simp [nvs, hw]⟩)
  cut_cut _ := rfl

/-- A commit of one hub covers what the other saved; its next save is lost with a failed commit. -/
def outage : List (Ev Kitchen) :=
  [.save .plain "rec_0" [1, 2], .commit .numbered, .save .numbered "rec_0" [3, 4], .commit .plain,
    .cut]

/-- Nothing is stored, and the second sync will fail. -/
def blank : World Kitchen Nvs := ⟨⟨fun _ => none, fun _ => none, [true, false]⟩, []⟩

theorem commit_durable_outage :
    ∃ v, run (step nvs kitchens) blank outage = some v ∧
      loadBlob nvs kitchens v.backend .plain "rec_0" = some [1, 2] ∧
      loadBlob nvs kitchens v.backend .numbered "rec_0" = none := by
  have hid : Function.Injective kitchens.clientId := by
    rintro (_ | _) (_ | _) h
    all_goals first
      | rfl
      | exact absurd h (by decide)
  have hk : ∀ e ∈ outage, Plain kitchens e := by
    intro e he
    fin_cases he
    all_goals first
      | exact .inl (.inl ⟨0, rfl⟩)
      | trivial
  have hrun : (run (step nvs kitchens) blank outage).map
      (fun v => (v.log, loadBlob nvs kitchens v.backend .numbered "rec_0")) =
        some ([.unsettled, .unsettled, .saved (.numbered, "rec_0") [3, 4], .committed,
          .saved (.plain, "rec_0") [1, 2]], none) := by decide +kernel
  obtain ⟨v, hv, hobs⟩ := Option.map_eq_some_iff.mp hrun
  obtain ⟨hlog, hload⟩ := Prod.mk.inj hobs
  have hcommit := commit_durable nvs nvs_documented kitchens hid kitchens_noCollision rfl rfl hk hv
    .plain (.recordSlot ⟨0, by decide⟩)
  exact ⟨v, hv, hcommit.2 [.unsettled, .unsettled, .saved (.numbered, "rec_0") [3, 4]] _ _ hlog
    (by simp) rfl, hload⟩

end SendspinMc.BlobDurability
