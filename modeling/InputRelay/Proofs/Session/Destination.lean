/-
Where input without a display can go. Any id may be added to the focusable set, also one that no input can reach; and the
first display added, or the least one left, gets the focus by itself. So while tracking is on there may be a valid display
in the set and still nowhere to go (`target_starved`). But as long as the focus is asked for valid displays only, a focus
that is on an invalid display is settled (`Registry.Housed`): it got there as a member of the set, or nobody is in it. So
an invalid display keeps valid ones waiting only while it is a member of the set itself (`target_of_valid_members`).
-/
import InputRelay.Proofs.Session.Provenance

namespace InputRelay

namespace Registry

/-- the focus is on a valid display, or settled -/
def Housed (r : Registry) : Prop := r.focused.isValid = true ∨ r.Settled

theorem housed_empty : empty.Housed := Or.inr settled_empty

/-- a change that asks the focus for no invalid display keeps an invalid focus settled -/
theorem Housed.after {r : Registry} (h : r.Housed) {c : FocusCall} (hc : ∀ d, c = .setFocus d → d.isValid = true) :
    (r.after c).Housed := by
  by_cases hasked : ∃ d, c = .setFocus d
  · obtain ⟨d, rfl⟩ := hasked
    rw [after_setFocus]
    exact Or.inl (hc d rfl)
  have hunasked : ∀ d, c ≠ .setFocus d := fun d hd => hasked ⟨d, hd⟩
  by_cases hmoved : (r.after c).focused = r.focused
  · rcases h with hvalid | hsettled
    · exact Or.inl (hmoved ▸ hvalid)
    · exact Or.inr (hsettled.after hunasked)
  · exact Or.inr (settled_of_moved hunasked hmoved)

/-- asking the focus for the display that has it changes nothing -/
theorem after_setFocus_focused (r : Registry) : r.after (.setFocus r.focused) = r := by
  rw [after_setFocus]

theorem target_of_isValid {r : Registry} (hon : r.tracking = true) (h : r.focused.isValid = true) :
    r.snapshot.target = some r.focused :=
  Snapshot.target_eq_some_iff.2 ⟨hon, h, rfl⟩

theorem target_of_not_isValid {r : Registry} (h : r.focused.isValid = false) : r.snapshot.target = none := by
  simp [Snapshot.target, snapshot, h]

/-- a housed focus with other members in the set reaches no display just if it is on an invalid member -/
theorem Housed.target_eq_none_iff {r : Registry} (h : r.Housed) (hon : r.tracking = true) (hmember : r.focusable ≠ []) :
    r.snapshot.target = none ↔ r.focused ∈ r.focusable ∧ r.focused.isValid = false := by
  constructor
  · intro hnone
    have hinvalid : r.focused.isValid = false := by
      cases hvalid : r.focused.isValid with
      | false => rfl
      | true =>
        rw [target_of_isValid hon hvalid] at hnone
        cases hnone
    have hsettled : r.Settled := h.resolve_left (by simp [hinvalid])
    exact ⟨hsettled.resolve_right fun hempty => hmember hempty.1, hinvalid⟩
  · rintro ⟨-, hinvalid⟩
    exact target_of_not_isValid hinvalid

end Registry

namespace Session

variable {μ : Type}

/-- a call that asks the focus for valid displays only, if for any -/
def Call.AsksValid (c : Call) : Prop := ∀ d, c.AsksFocus d → d.isValid = true

theorem housed_invariant : Invariant (μ := μ) Call.AsksValid fun w => w.registry.Housed where
  note _ h := h
  told h := h
  unlogged h := h
  replace _ h := h
  close h := h
  send h := h
  focus hc h := h.after (by
    rintro d rfl
    exact hc d rfl)
  update _ h := Registry.Housed.after h nofun
  take {w r p} hr hp ht h := by
    rw [World.enter_registry]
    rcases Router.focusAsked_of_takesFocus hp ht with hasked | hsame
    · refine h.after ?_
      rintro d ⟨⟩
      exact hr _ hasked
    · have hfocused : p.display = w.registry.focused := hsame
      rw [hfocused, Registry.after_setFocus_focused]
      exact h
  pumped hslot _ _ := hslot _ trivial

/-- **Invalid displays in the set, and nothing else, keep valid ones waiting.** Take any run of calls from a registry in
which nothing has happened yet. Displays of any ids may be added and removed, and the focus may be asked for any valid
display, from outside or by listeners, and tracking be switched on and off. At every moment at which tracking is on and some
valid display is in the set, input without a display goes to the focused one, unless that is itself an invalid member of
the set. So it has somewhere to go whenever all members are valid, whatever has been added and removed before. -/
theorem target_of_valid_members (s : Surroundings μ) (depth : Nat) (cs : List Call) (w : World μ)
    (hnew : w.registry = .empty) (hcs : ∀ c ∈ cs, c.AsksValid) (hs : ∀ l d, (s.callback l d).Only Call.AsksValid) :
    ∀ v, Visits s depth (.calls cs) w v → v.registry.tracking = true →
      (∃ d ∈ v.registry.focusable, d.isValid = true) →
      (v.registry.snapshot.target = some v.registry.focused ∨
        v.registry.focused ∈ v.registry.focusable ∧ v.registry.focused.isValid = false) ∧
      ((∀ d ∈ v.registry.focusable, d.isValid = true) → ∃ d, v.registry.snapshot.target = some d) := by
  intro v hv hon hvalid
  have hbegin : w.registry.Housed := hnew ▸ Registry.housed_empty
  have hhoused : v.registry.Housed := housed_invariant.visits hs hv ⟨hcs, hbegin⟩
  have hmember : v.registry.focusable ≠ [] := by
    obtain ⟨d, hd, -⟩ := hvalid
    exact List.ne_nil_of_mem hd
  have hnone := hhoused.target_eq_none_iff hon hmember
  refine ⟨?_, fun hall => ?_⟩
  · by_cases hfocus : v.registry.focused.isValid = true
    · exact Or.inl (Registry.target_of_isValid hon hfocus)
    · have hinvalid := Bool.eq_false_iff.2 hfocus
      exact Or.inr (hnone.1 (Registry.target_of_not_isValid hinvalid))
  · cases htarget : v.registry.snapshot.target with
    | some d => exact ⟨d, rfl⟩
    | none =>
      obtain ⟨hin, hinvalid⟩ := hnone.1 htarget
      rw [hall _ hin] at hinvalid
      cases hinvalid

/-- an invalid display is added first and gets the focus when tracking goes on; a listener that hears of it takes it out of
the set, and input goes to the valid display that is left -/
theorem target_of_valid_members_left :
    let s : Surroundings Unit :=
      ⟨fun _ => 0, fun _ d => if d = ⟨-5⟩ then .call (.focus (.removeDisplay d)) fun _ => .done else .done⟩
    let cs : List Call := [.focus (.addListener ⟨"panel"⟩), .focus (.addDisplay ⟨-5⟩), .focus (.addDisplay ⟨3⟩),
      .focus (.setTracking true)]
    let w : World Unit := .bare .closed ()
    let v := run s 2 cs w
    w.registry = .empty ∧ (∀ c ∈ cs, c.AsksValid) ∧ (∀ l d, (s.callback l d).Only Call.AsksValid) ∧
      v.registry.tracking = true ∧ v.registry.focusable = [⟨3⟩] ∧ ∃ d, v.registry.snapshot.target = some d := by
  intro s cs w v
  have hnew : w.registry = .empty := rfl
  have hcs : ∀ c ∈ cs, c.AsksValid := by simp [cs, Call.AsksValid, Call.AsksFocus]
  have hs : ∀ l d, (s.callback l d).Only Call.AsksValid := by
    intro l d
    by_cases hd : d = ⟨-5⟩
    · simp only [s, if_pos hd]
      exact ⟨nofun, fun _ => trivial⟩
    · simp only [s, if_neg hd]
      exact trivial
  have hon : v.registry.tracking = true := by decide +kernel
  have hset : v.registry.focusable = [⟨3⟩] := by decide +kernel
  have hall : ∀ d ∈ v.registry.focusable, d.isValid = true := by
    rw [hset]
    decide
  have hvalid : ∃ d ∈ v.registry.focusable, d.isValid = true := by
    rw [hset]
    decide
  have hmoment := target_of_valid_members s 2 cs w hnew hcs hs v (visits_run s 2 cs w) hon hvalid
  exact ⟨hnew, hcs, hs, hon, hset, hmoment.2 hall⟩

/-- with an invalid display added first there may be a valid one in the set, and still nowhere to go -/
theorem target_starved :
    let s : Surroundings Unit := ⟨fun _ => 0, fun _ _ => .done⟩
    let cs : List Call := [.focus (.setTracking true), .focus (.addDisplay ⟨-5⟩), .focus (.addDisplay ⟨3⟩)]
    let w : World Unit := .bare .closed ()
    let r := (run s 0 cs w).registry
    w.registry = .empty ∧ (∀ c ∈ cs, c.AsksValid) ∧ r.tracking = true ∧
      (∃ d ∈ r.focusable, d.isValid = true) ∧ r.snapshot.target = none := by
  intro s cs w r
  have hcs : ∀ c ∈ cs, c.AsksValid := by simp [cs, Call.AsksValid, Call.AsksFocus]
  exact ⟨rfl, hcs, by decide +kernel, ⟨⟨3⟩, by decide +kernel, by decide⟩, by decide +kernel⟩

end Session

end InputRelay
