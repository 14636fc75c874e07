/-
Turns of the scroll wheel. No motion of the mouse takes the focus (`heard_mouse`), so nobody hears of one before its message
is sent, and what is sent is what was decided (`sent_mouse`). A turn of the wheel sends both axes, clamped; what that makes
of a pattern is told by the number that it stands for (`Single.Clamped`), not by the bits.
-/
import InputRelay.Proofs.Session.Targeted
import InputRelay.Proofs.Single

namespace InputRelay.Session

open Wire (Event)

variable {μ : Type}

/-- nothing happens before a motion of the mouse is sent -/
theorem heard_mouse (tell : Tell μ) (m : Motion) (target : Option Display) (w : World μ) :
    heard tell (.event .mouse (.motion m) target) w = w := by
  cases target with
  | some d => rfl
  | none =>
    unfold heard
    simp only [Router.plan, Router.targetFocused, Policy.allows]
    cases w.registry.snapshot.target with
    | none => rfl
    | some d => cases w.policy.mouse <;> rfl

/-- what is sent for a motion of the mouse is what the router decides, whatever listeners would do -/
theorem sent_mouse (s : Surroundings μ) (depth : Nat) (w : World μ) (m : Motion) (target : Option Display) :
    sentIn (logged w (perform s depth (.dispatch (.event .mouse (.motion m) target)) w).1) =
      (Router.plan w.registry.snapshot w.policy (.event .mouse (.motion m) target)).events (s.clock w.reads) := by
  obtain ⟨hlog, -⟩ := dispatch_adds s.clock (tell s depth) (.event .mouse (.motion m) target) w
  rw [heard_mouse] at hlog
  exact (congrArg sentIn (logged_of_append hlog)).trans (Block.sentIn_entries _)

/-- **The scroll wheel, clamped.** Take any session, with any listeners, and any turn of the scroll wheel.
- With a display it gives one message, for that display, with the horizontal axis first and then the vertical one, both
  clamped. Without one it gives the same message for the display that untargeted input goes to, if there is one and the
  policy lets the mouse use it, and nothing otherwise.
- Any pattern is clamped by the number that it stands for. A NaN is left alone, bit by bit, and so is a number of [-1, 1],
  -0.0 among them; any other, infinity among them, becomes 1 or -1 with its own sign. That is the point of [-1, 1] nearest
  to it.
- What is clamped stays as it is when clamped again, and clamping keeps the order of numbers. -/
theorem scroll_clamped (s : Surroundings μ) (depth : Nat) (w : World μ) (m : Motion)
    (hwheel : m.action = MotionAction.scroll) :
    let out target := sentIn (logged w (perform s depth (.dispatch (.event .mouse (.motion m) target)) w).1)
    let message d : Event :=
      .input ⟨d, .mouse, s.clock w.reads, .mouseScroll m.hscroll.clampUnit m.vscroll.clampUnit⟩
    (∀ d, out (some d) = [message d]) ∧
    out none = (if w.policy.mouse then w.registry.snapshot.target.toList.map message else []) ∧
    (∀ x : Single, x.Clamped x.clampUnit) ∧
    (∀ x : Single, x.clampUnit.clampUnit = x.clampUnit) ∧
    ∀ (x y : Single) (v u : EReal), x.value? = some v → y.value? = some u → v ≤ u →
      ∃ v' u', x.clampUnit.value? = some v' ∧ y.clampUnit.value? = some u' ∧ v' ≤ u' := by
  intro out message
  have hsays : m.Says (.mouseScroll m.hscroll.clampUnit m.vscroll.clampUnit) := .wheel hwheel
  have hbody := Router.mouseBody?_eq_some_iff.2 hsays
  have htarget : ∀ d, (Router.target .mouse (.motion m) d).events (s.clock w.reads) = [message d] := by
    intro d
    simp only [Router.target, hbody]
    rfl
  refine ⟨fun d => ?_, ?_, Single.clamped_clampUnit, Single.clampUnit_clampUnit, fun x y v u => Single.clampUnit_mono⟩
  · exact (sent_mouse s depth w m (some d)).trans (htarget d)
  · refine (sent_mouse s depth w m none).trans ?_
    simp only [Router.plan, Router.targetFocused, Policy.allows]
    cases w.registry.snapshot.target with
    | none => simp [Router.Decision.events]
    | some d =>
      cases w.policy.mouse with
      | true => exact htarget d
      | false => rfl

/-- the horizontal axis reads minus infinity and becomes -1; the vertical one is a signalling NaN and stays as it is -/
theorem scroll_clamped_infinite :
    let s : Surroundings Unit := ⟨fun _ => 7, fun _ _ => .done⟩
    let w : World Unit := .bare .closed ()
    let m : Motion := .wheel 0 ⟨0xff800000⟩ ⟨0x7f800001⟩
    m.action = MotionAction.scroll ∧ m.hscroll.value? = some ⊥ ∧ m.vscroll.value? = none ∧
      sentIn (logged w (perform s 1 (.dispatch (.event .mouse (.motion m) (some ⟨3⟩))) w).1) =
        [.input ⟨⟨3⟩, .mouse, 7, .mouseScroll .minusOne ⟨0x7f800001⟩⟩] := by
  intro s w m
  have hwheel : m.action = MotionAction.scroll := rfl
  have hmagnitude : m.hscroll.magnitude = 0x7f800000 := by decide
  have hinfinite : m.hscroll.value? = some ⊥ := by
    refine Single.value?_eq_some_iff.2 ⟨by decide, ?_⟩
    rw [Single.ranked_rank, hmagnitude, Single.size_infinite]
    exact EReal.neg_top
  have hnan : m.vscroll.value? = none := Single.value?_eq_none_iff.2 (by decide)
  obtain ⟨hsent, -, hclamped, -⟩ := scroll_clamped s 1 w m hwheel
  have hout : (⊥ : EReal) ∉ Set.Icc (-1) 1 := by
    intro h
    have hrank := (Single.rank_le_rank_iff Single.value?_minusOne hinfinite).2 h.1
    exact absurd hrank (by decide)
  have hx : m.hscroll.clampUnit = .minusOne := (hclamped _).outside ⊥ hinfinite hout
  have hy : m.vscroll.clampUnit = ⟨0x7f800001⟩ := (hclamped _).nan hnan
  refine ⟨hwheel, hinfinite, hnan, (hsent ⟨3⟩).trans ?_⟩
  rw [hx, hy]

end InputRelay.Session
