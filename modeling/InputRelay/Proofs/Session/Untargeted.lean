/-
Events without a display, in a session. The focus decides where they go, and they never decide where the focus is. A motion
of the touchpad does ask for the focus, but for the display that has it already, so nothing changes and nobody is told
(`change_focused`). So such an event leaves registry and policy as it meets them (`rests_dispatch`), and all events of a run
meet the same ones (`rests_run`).
-/
import InputRelay.Proofs.Session.Targeted
import InputRelay.Proofs.Session.Tracking

namespace InputRelay.Session

open Wire (Event)

variable {μ : Type}

/-- the calls that route events without a display, one after the other -/
def untargeted (inputs : List (Device × RawEvent)) : List Call :=
  inputs.map fun (device, e) => .dispatch (.event device e none)

/-- a stretch that leaves registry and policy as they are, tells nobody, and sends to the display that such events go to -/
structure Rests (w w' : World μ) : Prop where
  registry : w'.registry = w.registry
  policy : w'.policy = w.policy
  log : ∃ es, w'.log = w.log ++ es ∧ tellingsIn es = [] ∧
    ∀ message ∈ sentIn es, w.registry.snapshot.target = some message.display

namespace Rests

theorem refl (w : World μ) : Rests w w := ⟨rfl, rfl, [], (List.append_nil _).symm, rfl, nofun⟩

theorem trans {u v w : World μ} (h : Rests u v) (h' : Rests v w) : Rests u w := by
  obtain ⟨hregistry, hpolicy, es, hlog, htold, hsent⟩ := h
  obtain ⟨hregistry', hpolicy', es', hlog', htold', hsent'⟩ := h'
  refine ⟨hregistry'.trans hregistry, hpolicy'.trans hpolicy, es ++ es', ?_, ?_, fun message hmem => ?_⟩
  · rw [hlog', hlog, List.append_assoc]
  · rw [tellingsIn_append, htold, htold']
    rfl
  · rw [sentIn_append] at hmem
    rcases List.mem_append.1 hmem with hmem | hmem
    · exact hsent message hmem
    · rw [← hregistry]
      exact hsent' message hmem

end Rests

/-- asked to focus the display that has the focus, the registry stays as it is and nobody is told -/
theorem change_focused (tell : Tell μ) (w : World μ) :
    change tell (.setFocus w.registry.focused) w =
      (w.record (.entered (.setFocus w.registry.focused) w.registry)).record .left := by
  have hsame : w.registry.apply (.setFocus w.registry.focused) = (w.registry, none) := if_pos rfl
  simp only [change, hsame]
  rfl

/-- before the messages of an event without a display are sent, the focus is asked for the display that has it, if at all -/
theorem rests_heard (tell : Tell μ) (device : Device) (e : RawEvent) (w : World μ) :
    Rests w (heard tell (.event device e none) w) := by
  unfold heard
  split
  next p hplan =>
    obtain ⟨-, -, hfocused⟩ := Snapshot.target_eq_some_iff.1 (Router.plan_display hplan)
    split_ifs
    · have hdisplay : p.display = w.registry.focused := hfocused
      rw [hdisplay, change_focused]
      exact ⟨rfl, rfl, _, List.append_assoc _ _ _, rfl, nofun⟩
    · exact Rests.refl w
  next => exact Rests.refl w
  next => exact Rests.refl w

theorem rests_dispatch (clock : Nat → Int64) (tell : Tell μ) (device : Device) (e : RawEvent) (w : World μ) :
    Rests w (dispatch clock tell (.event device e none) w) := by
  obtain ⟨hlog, -, hregistry, hpolicy⟩ := dispatch_adds clock tell (.event device e none) w
  refine (rests_heard tell device e w).trans ⟨hregistry, hpolicy, _, hlog, Block.tellingsIn_entries _, ?_⟩
  intro message hmem
  rw [Block.sentIn_entries] at hmem
  rw [(rests_heard tell device e w).registry]
  exact Router.destination_of_mem hmem

/-- every event of a run meets the registry and the policy that the run began with -/
theorem rests_run (s : Surroundings μ) (depth : Nat) (inputs : List (Device × RawEvent)) (w : World μ) :
    Rests w (run s depth (untargeted inputs) w) := by
  induction inputs generalizing w with
  | nil => exact Rests.refl w
  | cons input inputs ih => exact (rests_dispatch s.clock (tell s depth) input.1 input.2 w).trans (ih _)

/-- **Events without a display never move the focus.** Take any session, with any registry, any policy, in step with
tracking or not, and listeners that would make any calls if they were told. Then make a run of events without a display, of
any devices, touchpad motions among them.
- At the end registry and policy are what they were, and nobody has been told of anything.
- All that has been sent is for the display that had the focus at the start, and that is valid. Nothing has been sent if
  tracking is off or that display is invalid.
- In between, each event of a touchscreen comes to nothing, and so does each event of a device that the policy does not let
  through. If tracking is on, the focused display valid and the device let through, the event is routed as if it named the
  focused display. -/
theorem untargeted_keeps_focus (s : Surroundings μ) (depth : Nat) (w : World μ) (inputs : List (Device × RawEvent)) :
    let w' := run s depth (untargeted inputs) w
    w'.registry = w.registry ∧ w'.policy = w.policy ∧ tellingsIn (logged w w') = [] ∧
    (∀ message ∈ sentIn (logged w w'), message.display = w.registry.focused ∧ message.display.isValid = true) ∧
    (w.registry.tracking = false ∨ w.registry.focused.isValid = false → sentIn (logged w w') = []) ∧
    ∀ before device e after, inputs = before ++ (device, e) :: after →
      let v := run s depth (untargeted before) w
      (device = .touchscreen ∨ w.policy.allows device = some false → ComesToNothing s depth v (.event device e none)) ∧
      (w.registry.tracking = true → w.registry.focused.isValid = true → w.policy.allows device = some true →
        RoutedAlike s depth v (.event device e none) (.event device e (some w.registry.focused))) := by
  intro w'
  obtain ⟨hregistry, hpolicy, es, hlog, htold, hsent⟩ := rests_run s depth inputs w
  rw [logged_of_append hlog]
  refine ⟨hregistry, hpolicy, htold, fun message hmem => ?_, fun hnowhere => ?_, fun before device e after _ => ?_⟩
  · obtain ⟨-, hvalid, hfocused⟩ := Snapshot.target_eq_some_iff.1 (hsent message hmem)
    have hdisplay : message.display = w.registry.focused := hfocused
    exact ⟨hdisplay, hdisplay ▸ hvalid⟩
  · refine List.eq_nil_iff_forall_not_mem.2 fun message hmem => ?_
    obtain ⟨hon, hvalid, -⟩ := Snapshot.target_eq_some_iff.1 (hsent message hmem)
    rcases hnowhere with hoff | hinvalid
    · exact Bool.false_ne_true (hoff.symm.trans hon)
    · exact Bool.false_ne_true (hinvalid.symm.trans hvalid)
  · intro v
    have hstill : Rests w v := rests_run s depth before w
    constructor
    · intro hheld
      refine comesToNothing_of_plan (Router.plan_held v.registry.snapshot (fun hgate => ?_) e)
      obtain ⟨-, hallowed⟩ := hgate
      rw [hstill.policy] at hallowed
      rcases hheld with rfl | hdisabled
      · cases hallowed
      · cases hdisabled.symm.trans hallowed
    · intro hon hvalid hallowed
      rw [← hstill.registry] at hon hvalid ⊢
      rw [← hstill.policy] at hallowed
      have htracking : v.registry.tracking = v.policy.tracksFocus :=
        hon.trans (Policy.tracksFocus_of_allows hallowed).symm
      exact routedAlike_of_plan (Router.plan_untargeted v.registry.snapshot htracking hvalid hallowed e)

end InputRelay.Session
