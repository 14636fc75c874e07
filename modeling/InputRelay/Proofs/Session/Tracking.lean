/-
Tracking and the policy. They are kept apart, and the gate for input without a display reads both. In a session that is
asked nothing but session steps, from outside or by its listeners, tracking is as the policy wants it at every moment
(`coherent_invariant`): an update puts the policy in place and then switches tracking, and no listener is told in between.
That makes the gate a simple one (`Router.plan_untargeted`, `Router.plan_held`): input of a device goes where it would go
if it named the focused display, if that display is valid and the policy lets the device use it, and else nowhere.
-/
import InputRelay.Proofs.Focus
import InputRelay.Proofs.Session.Moments

namespace InputRelay

/-! ## The gate -/

namespace Router

/-- while tracking is as the policy wants it, a device that the policy lets through reaches any valid focus -/
theorem plan_untargeted (focus : Snapshot) {policy : Policy} (h : focus.tracking = policy.tracksFocus) {device : Device}
    (hvalid : focus.focused.isValid = true) (hallowed : policy.allows device = some true) (e : RawEvent) :
    plan focus policy (.event device e none) = plan focus policy (.event device e (some focus.focused)) := by
  have htarget : focus.target = some focus.focused :=
    Snapshot.target_eq_some_iff.2 ⟨h.trans (Policy.tracksFocus_of_allows hallowed), hvalid, rfl⟩
  simp only [plan, targetFocused, htarget, hallowed]

/-- a device that the policy does not let through reaches nothing, nor does any while no valid display has the focus -/
theorem plan_held (focus : Snapshot) {policy : Policy} {device : Device}
    (h : ¬ (focus.focused.isValid = true ∧ policy.allows device = some true)) (e : RawEvent) :
    plan focus policy (.event device e none) = .drop ∨
      ∃ fault, plan focus policy (.event device e none) = .refuse fault := by
  simp only [plan, targetFocused]
  cases htarget : focus.target with
  | none => exact Or.inl rfl
  | some d =>
    obtain ⟨-, hvalid, -⟩ := Snapshot.target_eq_some_iff.1 htarget
    cases hallowed : policy.allows device with
    | none => exact Or.inr ⟨_, rfl⟩
    | some allowed =>
      cases allowed with
      | false => exact Or.inl rfl
      | true => exact absurd ⟨hvalid, hallowed⟩ h

end Router

namespace Session

variable {μ : Type}

/-- two requests are routed alike: in the end only the names that they are logged under differ -/
def RoutedAlike (s : Surroundings μ) (depth : Nat) (w : World μ) (r r' : Request) : Prop :=
  ∃ routed : World μ,
    (perform s depth (.dispatch r) w).1 = routed.record (.dispatched r w.registry.snapshot w.policy) ∧
    (perform s depth (.dispatch r') w).1 = routed.record (.dispatched r' w.registry.snapshot w.policy)

/-- a request comes to nothing: it is logged, perhaps with a complaint, and that is all -/
def ComesToNothing (s : Surroundings μ) (depth : Nat) (w : World μ) (r : Request) : Prop :=
  ∃ complaints : List Notice, (perform s depth (.dispatch r) w).1 =
    { w with log := w.log ++ (complaints.map .noticed ++ [.dispatched r w.registry.snapshot w.policy]) }

theorem routedAlike_of_plan {s : Surroundings μ} {depth : Nat} {w : World μ} {r r' : Request}
    (h : Router.plan w.registry.snapshot w.policy r = Router.plan w.registry.snapshot w.policy r') :
    RoutedAlike s depth w r r' := by
  refine ⟨_, rfl, ?_⟩
  simp only [perform, answer, dispatch, h]

theorem comesToNothing_of_plan {s : Surroundings μ} {depth : Nat} {w : World μ} {r : Request}
    (h : Router.plan w.registry.snapshot w.policy r = .drop ∨
      ∃ fault, Router.plan w.registry.snapshot w.policy r = .refuse fault) : ComesToNothing s depth w r := by
  rcases h with h | ⟨fault, h⟩
  · refine ⟨[], ?_⟩
    simp only [perform, answer, dispatch, h]
    rfl
  · refine ⟨[.refused fault], ?_⟩
    simp only [perform, answer, dispatch, h]
    simp [World.record]

/-! ## Session steps -/

/-- a call that changes tracking only through the policy, and the policy only together with tracking -/
def Call.IsSessionStep : Call → Prop
  | .focus (.setTracking _) => False
  | .replacePolicy _ => False
  | _ => True

/-- tracking is as the policy wants it, and was whenever a listener was told -/
def Coherent (w : World μ) : Prop :=
  w.registry.tracking = w.policy.tracksFocus ∧
    ∀ l d seen policy, .told l d seen policy ∈ w.log → seen.tracking = policy.tracksFocus

theorem Coherent.more {w w' : World μ} {es : List Entry} (h : Coherent w) (hlog : w'.log = w.log ++ es)
    (htracking : w'.registry.tracking = w'.policy.tracksFocus)
    (htold : ∀ l d seen policy, .told l d seen policy ∈ es → seen.tracking = policy.tracksFocus) : Coherent w' := by
  refine ⟨htracking, fun l d seen policy hmem => ?_⟩
  rw [hlog] at hmem
  rcases List.mem_append.1 hmem with hmem | hmem
  · exact h.2 l d seen policy hmem
  · exact htold l d seen policy hmem

theorem Coherent.enter {w : World μ} (h : Coherent w) {c : FocusCall} (hc : ∀ on, c ≠ .setTracking on) :
    Coherent (w.enter c) :=
  h.more (w.enter_log c) ((w.registry.tracking_after hc).trans h.1) (by simp)

theorem coherent_invariant : Invariant (μ := μ) Call.IsSessionStep Coherent where
  note {w e} he h := h.more (w.record_log e) h.1 (by
    intro l d seen policy hmem
    cases List.mem_singleton.1 hmem
    cases he)
  told {w l d} h := h.more (w.tell_log l d) h.1 (by
    intro l d seen policy hmem
    cases List.mem_singleton.1 hmem
    exact h.1)
  unlogged h := h
  replace hstep := False.elim hstep
  close h := h
  send {display now w draft} h := h.more (World.send_log display now w draft) h.1 (by simp)
  focus hstep h := h.enter (by
    rintro on rfl
    exact hstep)
  update {w policy} _ h := h.more (World.enter_log _ _) (by
    rw [World.enter_registry, Registry.after_setTracking]
    rfl) (by simp)
  take _ _ _ h := h.enter nofun
  pumped _ := trivial

theorem coherent_new (policy : Policy) (memory : μ) : Coherent (World.new policy memory) := by
  refine ⟨?_, nofun⟩
  simp only [World.new, Registry.after_setTracking]
  rfl

/-! ## Main result -/

/-- **Tracking follows the policy.** Take any session, new with any policy, and any run of session steps, with listeners
that make any session steps of their own; an update of the policy in the round of another update is among them, though a
session with a lock around its updates would never come back from it. Whenever a listener is told, and at every moment of
the run, tracking is as the policy wants it. So at each of them input of a device without a display is routed just as if
it named the focused display, if that is valid and the policy lets the device use it, and comes to nothing otherwise. -/
theorem tracking_follows_policy (s : Surroundings μ) (depth : Nat) (cs : List Call) (policy : Policy) (memory : μ)
    (hcs : ∀ c ∈ cs, c.IsSessionStep) (hs : ∀ l d, (s.callback l d).Only Call.IsSessionStep) :
    (∀ l d seen now, .told l d seen now ∈ (run s depth cs (.new policy memory)).log →
      seen.tracking = now.tracksFocus) ∧
    ∀ v, Visits s depth (.calls cs) (.new policy memory) v →
      v.registry.tracking = v.policy.tracksFocus ∧
      ∀ n device e,
        (v.registry.focused.isValid = true ∧ v.policy.allows device = some true →
          RoutedAlike s n v (.event device e none) (.event device e (some v.registry.focused))) ∧
        (¬ (v.registry.focused.isValid = true ∧ v.policy.allows device = some true) →
          ComesToNothing s n v (.event device e none)) := by
  have hmoment : ∀ v, Visits s depth (.calls cs) (.new policy memory) v → Coherent v := fun v hv =>
    coherent_invariant.visits hs hv ⟨hcs, coherent_new policy memory⟩
  refine ⟨(hmoment _ (visits_run s depth cs _)).2, fun v hv => ⟨(hmoment v hv).1, fun n device e => ⟨?_, fun hheld => ?_⟩⟩⟩
  · rintro ⟨hvalid, hallowed⟩
    exact routedAlike_of_plan (Router.plan_untargeted v.registry.snapshot (hmoment v hv).1 hvalid hallowed e)
  · exact comesToNothing_of_plan (Router.plan_held v.registry.snapshot hheld e)

/-- a policy that lets the keyboard through is put in place, and a listener that hears of it moves the focus -/
theorem tracking_follows_policy_update :
    let s : Surroundings Unit :=
      ⟨fun _ => 0, fun _ d => if d = ⟨4⟩ then .call (.focus (.setFocus ⟨7⟩)) fun _ => .done else .done⟩
    let cs : List Call :=
      [.focus (.addDisplay ⟨4⟩), .focus (.addListener ⟨"panel"⟩), .updatePolicy ⟨false, false, true, false⟩]
    let v := run s 2 cs (.new .closed ())
    (∀ c ∈ cs, c.IsSessionStep) ∧ (∀ l d, (s.callback l d).Only Call.IsSessionStep) ∧
    v.registry.focused = ⟨7⟩ ∧ v.registry.tracking = true ∧
    ∀ e, RoutedAlike s 2 v (.event .keyboard e none) (.event .keyboard e (some ⟨7⟩)) ∧
      ComesToNothing s 2 v (.event .mouse e none) := by
  intro s cs v
  have hcs : ∀ c ∈ cs, c.IsSessionStep := by simp [cs, Call.IsSessionStep]
  have hs : ∀ l d, (s.callback l d).Only Call.IsSessionStep := by
    intro l d
    by_cases hd : d = ⟨4⟩
    · simp only [s, if_pos hd]
      exact ⟨trivial, fun _ => trivial⟩
    · simp only [s, if_neg hd]
      exact trivial
  have hfocused : v.registry.focused = ⟨7⟩ := by decide +kernel
  obtain ⟨htracking, hgate⟩ := (tracking_follows_policy s 2 cs .closed () hcs hs).2 v (visits_run s 2 cs _)
  have hon : v.registry.tracking = true := htracking.trans (by decide +kernel)
  refine ⟨hcs, hs, hfocused, hon, fun e => ⟨?_, ?_⟩⟩
  · exact hfocused ▸ (hgate 2 .keyboard e).1 (by decide +kernel)
  · exact (hgate 2 .mouse e).2 (by decide +kernel)

end Session

end InputRelay
