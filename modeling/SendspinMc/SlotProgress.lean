import SendspinMc.NoTear

/-!
A slot never stalls on its own: every handler ends, and between two handlers the gate is closed
exactly while a transition is pending, which `transition_finished` and a clear both end.
-/

namespace SendspinMc.SlotProgress

open SendspinMc.ImageSlot SendspinMc.SlotMachine SendspinMc.NoTear SendspinMc.Lib.Runs

/-! ### The handlers end -/

/-- The pieces a handler has left to run at most. -/
def left : Pc → ℕ
  | .idle => 0
  | .ack => 1
  | .call _ n => 2 * n + 2
  | .callAck _ n => 2 * n + 3
  | .arm n | .clearViews n => 2 * n + 3
  | .publish n | .clearLock n => 2 * n + 4
  | .displayLock _ n => 2 * n + 5

lemma left_eq_zero {pc : Pc} : left pc = 0 ↔ pc = .idle := by
  cases pc <;> simp [left]

lemma left_piece {s t : Sys} (h : Piece s t) : left t.pc < left s.pc := by
  cases h with
  | swap f n hpc _ | miss f n hpc _ => rw [hpc]; simp [left]
  | publish n hpc | arm n hpc | clearLock n hpc | clearViews n hpc => rw [hpc]; simp [left]
  | finish c n hpc _ | stray c n hpc _ | callAck c n hpc => rw [hpc]; simp [left]; try omega
  | displayDone hpc _ | displayLeft hpc _ | clearDone hpc | ack hpc => rw [hpc]; simp [left]

lemma main_enabled {s : Sys} (h : s.pc ≠ .idle) : ∃ t, step s .main = some t := by
  show ∃ t, mainStep s = some t
  unfold mainStep
  split <;> first | exact absurd ‹_› h | (try split) <;> exact ⟨_, rfl⟩

lemma pc_of_busy {s t : Sys} {e : Ev} (hb : s.pc ≠ .idle) (hst : Move s e t) :
    e = .main ∨ t.pc = s.pc := by
  cases hst with
  | main _ => exact .inl rfl
  | display f n hpc _ | clear n keep hpc | late hpc _ | strayLate hpc _ => exact absurd hpc hb
  | _ => exact .inr rfl

/-- While a handler runs, whatever the decode thread does between its pieces, each piece uses up
one of those it has left. -/
lemma count_main {s t : Sys} {es : List Ev} (hr : run step s es = some t)
    (hb : Throughout step (fun u => u.pc ≠ .idle) s es) :
    es.count .main + left t.pc ≤ left s.pc := by
  induction es generalizing s with
  | nil =>
    obtain rfl := Option.some.inj hr
    simp
  | cons e es ih =>
    obtain ⟨u, hu, hr⟩ := Option.bind_eq_some_iff.mp hr
    obtain ⟨hs, htail⟩ := throughout_cons.mp hb
    have hrest := ih hr (htail u hu)
    have hm := move_of_step hu
    rcases pc_of_busy hs hm with rfl | hpc
    · cases hm with
      | main hp =>
        have := left_piece hp
        rw [List.count_cons_self]
        omega
    · rw [hpc] at hrest
      by_cases he : e = .main
      · subst he
        cases hm with
        | main hp => exact absurd (left_piece hp) (by rw [hpc]; exact lt_irrefl _)
      · rw [List.count_cons_of_ne he]
        exact hrest

/-- What a handler leaves alone. -/
structure Kept (s t : Sys) : Prop where
  thread : t.thread = s.thread
  awaiting : t.awaiting = s.awaiting
  image : t.slot.transitionImage.isSome = s.slot.transitionImage.isSome

lemma Kept.refl (s : Sys) : Kept s s := ⟨rfl, rfl, rfl⟩

lemma Kept.trans {s t u : Sys} (h : Kept s t) (h' : Kept t u) : Kept s u :=
  ⟨h'.thread.trans h.thread, h'.awaiting.trans h.awaiting, h'.image.trans h.image⟩

lemma kept_piece {s t : Sys} (h : Piece s t) : Kept s t := by
  cases h with
  | publish n hpc => exact ⟨rfl, rfl, publish_image _⟩
  | finish c n hpc hp => exact ⟨rfl, rfl, settle_image _⟩
  | displayDone hpc hi => exact ⟨rfl, rfl, settle_image _⟩
  | clearViews n hpc => exact ⟨rfl, rfl, clearViews_image _⟩
  | _ => exact ⟨rfl, rfl, rfl⟩

lemma ends (s : Sys) : ∃ t, Leads step (· = .main) s t ∧ t.pc = .idle ∧ Kept s t := by
  have hstep : ∀ u : Sys, left u.pc ≠ 0 →
      ∃ e t, e = .main ∧ step u e = some t ∧ left t.pc < left u.pc := by
    intro u hu
    obtain ⟨t, hst⟩ := main_enabled fun h => hu (left_eq_zero.mpr h)
    cases move_of_step hst with
    | main hp => exact ⟨.main, t, rfl, hst, left_piece hp⟩
  obtain ⟨t, ht, hleft⟩ := leads_of_variant hstep s
  refine ⟨t, ht, left_eq_zero.mp hleft, ?_⟩
  obtain ⟨es, hes, hr⟩ := ht
  have hk : KeepsOn step (· = .main) (Kept s) := by
    rintro u e v hu rfl hst
    cases move_of_step hst with
    | main hp => exact hu.trans (kept_piece hp)
  exact hk.run (.refl s) hes hr

/-! ### The gate between two handlers -/

/-- What is owed where a handler may end without an ack of its own. -/
def Gate (s : Sys) : Prop :=
  match s.pc with
  | .idle => s.owes = s.slot.transitionPending
  | .call .display _ =>
    s.owes = (s.slot.transitionPending || !s.slot.transitionImage.isSome)
  | _ => True

structure Inv (s : Sys) : Prop where
  views : NoTear.Inv s
  gate : Gate s

lemma inv_fresh {s : Sys} (h : Fresh s) : Inv s := by
  have hv := NoTear.inv_fresh h
  obtain ⟨n, a, c, slot, hs, rfl⟩ := h
  obtain ⟨-, -, -, hp, -⟩ := setup_ok hs
  exact ⟨hv, hp.symm⟩

lemma gate_piece {s t : Sys} (h : Inv s) (hst : Piece s t) : Gate t := by
  obtain ⟨hv, hg⟩ := h
  have hat := hv.at_pc
  cases hst with
  | arm n hpc =>
    -- the delivery is un-acked, and armed if there is an image to fade
    rw [hpc] at hat
    have ho : s.owes = true := hat.1.1
    show s.owes = (s.slot.arm.transitionPending || !s.slot.arm.transitionImage.isSome)
    cases hi : s.slot.transitionImage <;> simp [ho, hi]
  | stray c n hpc hp =>
    unfold Gate at hg
    rw [hpc] at hg
    cases c with
    | clear => trivial
    | display => exact hg
  | displayLeft hpc hi =>
    unfold Gate at hg ⊢
    rw [hpc] at hg
    simpa [hi] using hg
  | callAck c n hpc =>
    rw [hpc] at hat
    cases c with
    | clear => trivial
    | display =>
      show false = (s.slot.transitionPending || !s.slot.transitionImage.isSome)
      simp [hat.1.unarmed, hat.2]
  | ack hpc =>
    rw [hpc] at hat
    exact (Rest.unarmed hat).symm
  | _ => trivial

lemma inv_move {s t : Sys} {e : Ev} (h : Inv s) (hst : Move s e t) : Inv t := by
  refine ⟨NoTear.inv_move h.views hst, ?_⟩
  cases hst with
  | main hp => exact gate_piece h hp
  | display f n hpc hf | clear n keep hpc | late hpc hp => trivial
  | _ => exact h.gate

theorem inv_reachable {s : Sys} (h : Reachable s) : Inv s :=
  Keeps.reach (fun _ _ _ hi hst => inv_move hi (move_of_step hst)) (fun _ => inv_fresh) h

lemma owes_idle {s : Sys} (h : Reachable s) (hpc : s.pc = .idle) :
    s.owes = s.slot.transitionPending := by
  have hg := (inv_reachable h).gate
  unfold Gate at hg
  rwa [hpc] at hg

lemma pending_idle {s : Sys} (h : Reachable s) (hpc : s.pc = .idle)
    (hp : s.slot.transitionPending = true) :
    NoTear.Closed s ∧ s.slot.transitionImage.isSome = true := by
  have hat := (inv_reachable h).views.at_pc
  rw [hpc] at hat
  exact Steady.armed hat hp

/-! ### The way on -/

/-- An event that takes a frame further: no clear, and `transition_finished` only where there is
a transition image. -/
def Onward (image : Bool) (e : Ev) : Prop :=
  e.isClear = false ∧ (e = .transitionFinished → image = true)

lemma Onward.of_ne (image : Bool) {e : Ev} (hc : e.isClear = false) (ht : e ≠ .transitionFinished) :
    Onward image e :=
  ⟨hc, fun h => (ht h).elim⟩

lemma Onward.main (image : Bool) {e : Ev} (h : e = .main) : Onward image e := by
  subst h
  exact .of_ne image rfl (by simp)

lemma opens {s : Sys} (h : Reachable s) (hpc : s.pc = .idle) (hth : s.thread = .idle)
    (ha : s.awaiting = none) :
    ∃ t, Leads step (Onward s.slot.transitionImage.isSome) s t ∧ t.mayBegin = true := by
  cases hp : s.slot.transitionPending with
  | false =>
    have ho : s.owes = false := (owes_idle h hpc).trans hp
    exact ⟨s, .refl s, by simp [Sys.mayBegin, hth, ha, ho]⟩
  | true =>
    have himg := (pending_idle h hpc hp).2
    have hfin : step s .transitionFinished = some { s with slot := s.slot.settle, pc := .ack } := by
      simp [step, hpc, hp]
    refine ⟨{ s with slot := s.slot.settle, pc := .idle, owes := false }, ?_, ?_⟩
    · exact (Leads.single ⟨rfl, fun _ => himg⟩ hfin).trans (.single (.main _ rfl) rfl)
    · simp [Sys.mayBegin, hth, ha]

lemma decode_ends (s : Sys) (hpc : s.pc = .idle) :
    ∃ t, Leads step (Onward s.slot.transitionImage.isSome) s t ∧ t.pc = .idle ∧
      t.thread = .idle ∧ t.slot.transitionImage = s.slot.transitionImage := by
  cases hth : s.thread with
  | idle => exact ⟨s, .refl s, hpc, hth, rfl⟩
  | entered d =>
    have h₁ : step s .pick = some { s with thread := .writing d s.slot.target } := by
      simp [step, hth]
    have h₂ : Leads step (Onward s.slot.transitionImage.isSome) _ _ :=
      .single (s := { s with thread := .writing d s.slot.target }) (e := .finish false)
        (.of_ne _ rfl (by simp)) rfl
    exact ⟨_, (Leads.single (e := .pick) (.of_ne _ rfl (by simp)) h₁).trans h₂, hpc, rfl, rfl⟩
  | writing d p =>
    have h₁ : step s (.finish false) =
        some { s with thread := .idle, awaiting := s.returned d false } := by
      simp [step, hth]
    exact ⟨_, .single (e := .finish false) (.of_ne _ rfl (by simp)) h₁, hpc, rfl, rfl⟩
  | decoded d p =>
    have h₁ : step s .commit = some
        { s with slot := s.slot.markPending, thread := .idle, awaiting := s.returned d true } := by
      simp [step, hth]
    exact ⟨_, .single (e := .commit) (.of_ne _ rfl (by simp)) h₁, hpc, rfl, rfl⟩

lemma display_ends (s : Sys) (hpc : s.pc = .idle) (hth : s.thread = .idle) :
    ∃ t, Leads step (Onward s.slot.transitionImage.isSome) s t ∧ t.pc = .idle ∧
      t.thread = .idle ∧ t.awaiting = none ∧
      t.slot.transitionImage.isSome = s.slot.transitionImage.isSome := by
  cases ha : s.awaiting with
  | none => exact ⟨s, .refl s, hpc, hth, ha, rfl⟩
  | some f =>
    have h₁ : step s (.display 0) =
        some { s with pc := .displayLock f 0, awaiting := none, owes := true } := by
      simp [step, hpc, ha]
    obtain ⟨t, ht, htpc, hk⟩ :=
      ends { s with pc := .displayLock f 0, awaiting := none, owes := true }
    exact ⟨t, (Leads.single (e := .display 0) (.of_ne _ rfl (by simp)) h₁).trans
      (ht.mono fun _ => .main _), htpc, hk.thread.trans hth, hk.awaiting, hk.image⟩

lemma reopens {s : Sys} (h : Reachable s) :
    ∃ t, Leads step (Onward s.slot.transitionImage.isSome) s t ∧ t.mayBegin = true := by
  obtain ⟨u, hu, hpc, hk⟩ := ends s
  have hu : Leads step (Onward s.slot.transitionImage.isSome) s u := hu.mono fun _ => .main _
  obtain ⟨v, hv, hpc, hth, himg⟩ := decode_ends u hpc
  rw [hk.image] at hv
  obtain ⟨w, hw, hpc, hth, ha, himg'⟩ := display_ends v hpc hth
  rw [himg, hk.image] at hw
  have hsw := (hu.trans hv).trans hw
  obtain ⟨t, ht, hb⟩ := opens (hsw.reach h) hpc hth ha
  rw [himg', himg, hk.image] at ht
  exact ⟨t, hsw.trans ht, hb⟩

/-- A clear is under way, or has ended with nothing pending. -/
def Clearing (s : Sys) : Prop :=
  match s.pc with
  | .clearLock _ | .clearViews _ => True
  | .call .clear _ | .callAck .clear _ | .ack | .idle => s.slot.transitionPending = false
  | _ => False

lemma clearing_piece {s t : Sys} (h : Clearing s) (hst : Piece s t) : Clearing t := by
  unfold Clearing at h
  cases hst with
  | finish c n hpc hp =>
    rw [hpc] at h
    cases c with
    | display => exact h.elim
    | clear =>
      rw [hp] at h
      cases h
  | stray c n hpc _ | callAck c n hpc =>
    rw [hpc] at h
    cases c with
    | display => exact h.elim
    | clear => exact h
  | clearDone hpc | ack hpc =>
    rw [hpc] at h
    exact h
  | clearLock n hpc => trivial
  | clearViews n hpc => exact clearViews_pending _
  | swap f n hpc _ | miss f n hpc _ | publish n hpc | arm n hpc | displayDone hpc _
  | displayLeft hpc _ =>
    rw [hpc] at h
    exact h.elim

lemma clearing_move {s t : Sys} {e : Ev} (hb : s.pc ≠ .idle) (h : Clearing s) (hst : Move s e t) :
    Clearing t := by
  cases hst with
  | main hp => exact clearing_piece h hp
  | display f n hpc _ | clear n keep hpc | late hpc _ | strayLate hpc _ => exact absurd hpc hb
  | _ => exact h

lemma open_of_clearing {s : Sys} (h : Reachable s) (hc : Clearing s) (hpc : s.pc = .idle) :
    s.owes = false ∧ s.slot.transitionPending = false := by
  have hp : s.slot.transitionPending = false := by
    unfold Clearing at hc
    rwa [hpc] at hc
  exact ⟨(owes_idle h hpc).trans hp, hp⟩

/-- A clear leaves the gate open, whatever was pending and whatever the decode thread does while
the handler runs. -/
lemma clear_reopens {s : Sys} (h : Reachable s) (hpc : s.pc = .idle) (n : ℕ) (keep : Bool) :
    ∃ t, step s (.clear n keep) = some t ∧
      (∃ u, Leads step (· = .main) t u ∧ u.pc = .idle ∧ u.owes = false ∧
        u.slot.transitionPending = false) ∧
      ∀ es v e u, run step t es = some v → Throughout step (fun x => x.pc ≠ .idle) t es →
        step v e = some u → u.pc = .idle → u.owes = false ∧ u.slot.transitionPending = false := by
  obtain ⟨t, hst, hcl⟩ : ∃ t, step s (.clear n keep) = some t ∧ Clearing t := by
    simp only [step, hpc]
    exact ⟨_, rfl, trivial⟩
  have ht : Reachable t := (Leads.single (E := fun _ => True) trivial hst).reach h
  refine ⟨t, hst, ?_, fun es v e u hr hall hv hupc => ?_⟩
  · obtain ⟨u, hu, hupc, -⟩ := ends t
    have hk : KeepsOn step (· = .main) Clearing := by
      rintro v e w hc rfl hst
      cases move_of_step hst with
      | main hp => exact clearing_piece hc hp
    have hclu : Clearing u := by
      obtain ⟨es, hes, hr⟩ := hu
      exact hk.run hcl hes hr
    exact ⟨u, hu, hupc, open_of_clearing (hu.reach ht) hclu hupc⟩
  · have hkeeps : ∀ x e y, x.pc ≠ .idle → Clearing x → step x e = some y → Clearing y :=
      fun x e y hx hc hxy => clearing_move hx hc (move_of_step hxy)
    have hclv : Clearing v := hall.keeps hkeeps hcl hr
    have hclu : Clearing u := hkeeps v e u (hall es List.prefix_rfl v hr) hclv hv
    have hlead : Leads step (fun _ => True) t u :=
      Leads.trans ⟨es, fun _ _ => trivial, hr⟩ (.single trivial hv)
    exact open_of_clearing (hlead.reach ht) hclu hupc

/-- **A slot never stalls on its own**: a handler runs at most the pieces it has left, whatever
the decode thread does in between; between two handlers an ack is owed exactly while a transition
is pending, which takes a transition image; without a clear the next decode can always be brought
to start, and a clear always leaves the gate open, whatever the decode thread does meanwhile. -/
theorem never_stalls {s : Sys} (h : Reachable s) :
    (∀ es t, run step s es = some t → Throughout step (fun u => u.pc ≠ .idle) s es →
        es.count .main + left t.pc ≤ left s.pc) ∧
      (s.pc = .idle → s.owes = s.slot.transitionPending ∧
        (s.owes = true → s.slot.transitionImage.isSome = true)) ∧
      (∃ t, Leads step (Onward s.slot.transitionImage.isSome) s t ∧ t.mayBegin = true) ∧
      (s.pc = .idle → ∀ n keep, ∃ t, step s (.clear n keep) = some t ∧
        (∃ u, Leads step (· = .main) t u ∧ u.pc = .idle ∧ u.owes = false ∧
          u.slot.transitionPending = false) ∧
        ∀ es v e u, run step t es = some v → Throughout step (fun x => x.pc ≠ .idle) t es →
          step v e = some u → u.pc = .idle →
            u.owes = false ∧ u.slot.transitionPending = false) := by
  refine ⟨fun es t => count_main, fun hpc => ?_, reopens h, fun hpc => clear_reopens h hpc⟩
  have ho := owes_idle h hpc
  exact ⟨ho, fun hp => (pending_idle h hpc (ho.symm.trans hp)).2⟩

/-- A first frame whose automation does not finish the transition. -/
def unfinished : List Ev :=
  [.begin, .pick, .paint, .finish true, .commit, .display 0] ++ List.replicate 4 .main

theorem never_stalls_unfinished :
    ∃ s, run step sample unfinished = some s ∧ s.pc = .idle ∧ s.owes = true ∧
      s.mayBegin = false ∧ ∃ t, Leads step (Onward true) s t ∧ t.mayBegin = true :=
  ⟨_, rfl, rfl, rfl, rfl, (never_stalls ⟨sample, fresh_sample, unfinished, rfl⟩).2.2.1⟩

end SendspinMc.SlotProgress
