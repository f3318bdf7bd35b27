import SendspinMc.Lifecycle

/-!
What a shutdown leaves behind.

`on_shutdown` records the request to stop where every other request is recorded, and then stops
the client, inside which callbacks may ask for it again.
-/

namespace SendspinMc.Shutdown

open SendspinMc.HubClient SendspinMc.Lifecycle SendspinMc.Lib.History SendspinMc.Lib.Runs

/-- The client is not started once a shutdown has begun. -/
def Final : Obs → List Obs → Prop
  | .start _, t => .shutdown ∉ t
  | _, _ => True

/-- Once a shutdown has begun, a request to run the client is only made of a hub that rejects
it. -/
def Rejected (o : Obs) (t : List Obs) : Prop :=
  o = .setEnabled true → .shutdown ∈ t → .failed ∈ t

instance {o : Obs} {t : List Obs} : Decidable (Rejected o t) :=
  inferInstanceAs (Decidable (o = .setEnabled true → .shutdown ∈ t → .failed ∈ t))

lemma latestEnabled_rejected {log : List Obs} (h : Justified Rejected log)
    (hs : .shutdown ∈ log) : latestEnabled log ≠ some true := by
  induction log with
  | nil => cases hs
  | cons o t ih =>
    obtain ⟨ho, ht⟩ := justified_cons.mp h
    have hlater : o ≠ .shutdown → latestEnabled t ≠ some true := fun hne =>
      ih ht ((List.mem_cons.mp hs).resolve_left hne.symm)
    cases o with
    | shutdown => simp [latestEnabled]
    | setEnabled b =>
      rw [latestEnabled]
      split
      · exact hlater (by simp)
      · rename_i hf
        cases b with
        | false => simp
        | true => exact absurd (ho rfl ((List.mem_cons.mp hs).resolve_left (by simp))) hf
    | _ => exact hlater (by simp)

/-! ### The log grows -/

lemma log_requests (n : Node) (calls : List Request) : n.log <:+ (n.requests calls).log := by
  induction calls generalizing n with
  | nil => exact List.suffix_rfl
  | cons r calls ih =>
    refine List.IsSuffix.trans ?_ (ih (n.request r))
    cases r with
    | enabled b =>
      rw [Node.request, setEnabled_log]
      exact List.suffix_cons _ _
    | unpairedAccess b => exact List.suffix_cons _ _

lemma log_clientStart (n : Node) (c : Client) (ok : Bool) (calls : List Request) :
    .start c.unpaired :: n.log <:+ (n.clientStart c ok calls).log := by
  have hcalls := log_requests (n.note (.start c.unpaired)) calls
  unfold Node.clientStart
  dsimp only
  split
  · exact hcalls.trans (List.suffix_cons _ _)
  · exact hcalls

lemma log_updateMdnsService (n : Node) : n.log <:+ n.updateMdnsService.log := by
  unfold Node.updateMdnsService
  dsimp only
  split
  · exact List.suffix_rfl
  split
  · exact List.suffix_rfl
  split <;> exact List.suffix_cons _ _

lemma loop_starts {n v : Node} {c : Client} {u : Bool} (hc : n.hub.client = some c)
    (hst : c.started = false) (hu : n.hub.unpairedAccess = some u) (herr : n.hub.error = false)
    (env : LoopEnv) (hl : (n.setEnabled true).loop env = some v) :
    .start c.unpaired :: .setEnabled true :: n.log <:+ v.log := by
  have hn : n.setEnabled true =
      { n.note (.setEnabled true) with hub := { n.hub with enabled := some true } } := by
    simp [Node.setEnabled, Node.note, herr]
  rw [hn] at hl
  set n' : Node := { n.note (.setEnabled true) with hub := { n.hub with enabled := some true } }
    with hn'
  obtain ⟨c', hc', rfl⟩ := Option.map_eq_some_iff.mp hl
  obtain rfl : c = c' := Option.some.inj (hc.symm.trans hc')
  have hstart : .start c.unpaired :: n'.log <:+ (n'.applyRequest c env).log := by
    have happly : n'.applyRequest c env =
        if !env.startOk then (n'.clientStart c env.startOk env.inCall).statusSetError
        else n'.clientStart c env.startOk env.inCall := by
      simp [Node.applyRequest, hn', hu, hst, herr]
    have hlog := log_clientStart n' c env.startOk env.inCall
    rw [happly]
    split
    · exact hlog.trans (List.suffix_cons _ _)
    · exact hlog
  exact (hstart.trans (log_requests _ env.inLoop)).trans (log_updateMdnsService _)

/-- **When a shutdown is final**: a hub on which no request to run the client is accepted once
a shutdown has begun, not even inside the stop of the shutdown itself, does not start its client
any more; and one such request, of a hub that has been shut down, starts it in the next
`loop()`. -/
theorem shutdown_final_if {n : Node} (h : Reachable n) :
    (Justified Rejected n.log → Justified Final n.log) ∧
    (∀ c u env v, .shutdown ∈ n.log → n.hub.client = some c → c.started = false →
      n.hub.unpairedAccess = some u → n.hub.error = false →
      (n.setEnabled true).loop env = some v → ¬ Justified Final v.log) := by
  have hi := inv_reachable h
  refine ⟨fun hr o t ht => ?_, fun c u env v hs hc hst hu herr hl hf => ?_⟩
  · cases o with
    | start u =>
      intro hs
      have hlatest : latestEnabled t = some true := (hi.justified _ _ ht).1.1
      have hrt : Justified Rejected t := (justified_cons.mp (hr.suffix ht)).2
      exact latestEnabled_rejected hrt hs hlatest
    | _ => trivial
  · have hstart := hf _ _ (loop_starts hc hst hu herr env hl)
    exact hstart (List.mem_cons_of_mem _ hs)

/-- The callbacks of the stop ask for it as well. -/
def final : List Ev :=
  [.op (.setUnpairedAccess true), .op (.setup true), .op (.setEnabled true),
    .op (.loop ⟨true, [], []⟩), .op (.shutdown [.enabled false, .unpairedAccess false]),
    .op (.loop ⟨true, [], []⟩), .op (.setEnabled false), .op (.loop ⟨true, [], []⟩)]

/-- A callback of the stop asks for the client to run. -/
def reopened : List Ev :=
  [.op (.setUnpairedAccess true), .op (.setup true), .op (.setEnabled true),
    .op (.loop ⟨true, [], []⟩), .op (.shutdown [.enabled true]), .op (.loop ⟨true, [], []⟩)]

theorem shutdown_final_run : ∃ n, run step music final = some n ∧ Justified Final n.log :=
  ⟨_, rfl, (shutdown_final_if ⟨music, fresh_music, final, rfl⟩).1 (by decide)⟩

/-- `loop()` starts the client again. -/
theorem reopened_starts :
    ∃ n, Reachable n ∧ run step music reopened = some n ∧ ¬ Justified Final n.log ∧
      n.hub.isClientRunning = true := by
  refine ⟨_, ⟨music, fresh_music, reopened, rfl⟩, rfl, fun h => ?_, rfl⟩
  exact h (.start true) _ (List.suffix_cons _ _) (by decide)

end SendspinMc.Shutdown
