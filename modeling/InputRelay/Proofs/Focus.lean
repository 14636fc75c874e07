/-
What each change makes of the registry, as one equation per change (`Registry.after_setFocus` and so on), and when the
focus is settled: on a display of the focusable set, or on none with the set empty. A change that is no request for the
focus keeps it settled (`Registry.Settled.after`), and settles it if it moves it at all (`Registry.settled_of_moved`).
-/
import Mathlib.Tactic
import InputRelay.Focus

namespace InputRelay

theorem Display.mem_insert {d e : Display} {ds : List Display} : e ∈ Display.insert d ds ↔ e = d ∨ e ∈ ds := by
  induction ds with
  | nil => simp [Display.insert]
  | cons f rest ih =>
    unfold Display.insert
    split_ifs with hlt hgt
    · simp
    · simp only [List.mem_cons, ih]
      tauto
    · have hid : d.id = f.id := Int32.le_antisymm (Int32.not_lt.1 hgt) (Int32.not_lt.1 hlt)
      have heq : d = f := by
        cases d
        cases f
        exact congrArg Display.mk hid
      simp [heq]

theorem Display.mem_remove {d e : Display} {ds : List Display} : e ∈ Display.remove d ds ↔ e ∈ ds ∧ e ≠ d := by
  simp [Display.remove]

/-- input without a display goes to the focused one while that is tracked and valid, and else nowhere -/
theorem Snapshot.target_eq_some_iff {focus : Snapshot} {d : Display} :
    focus.target = some d ↔ focus.tracking = true ∧ focus.focused.isValid = true ∧ d = focus.focused := by
  simp only [Snapshot.target, Bool.and_eq_true, Option.ite_none_right_eq_some, Option.some.injEq, and_assoc,
    eq_comm (a := d)]

namespace Registry

/-! ## The changes, one by one -/

theorem moveFocus_fst (r : Registry) (d : Display) : (r.moveFocus d).1 = { r with focused := d } := by
  by_cases h : d = r.focused
  · simp [moveFocus, h]
  · simp [moveFocus, h]

theorem after_setFocus (r : Registry) (d : Display) : r.after (.setFocus d) = { r with focused := d } :=
  r.moveFocus_fst d

theorem after_addDisplay (r : Registry) (d : Display) :
    r.after (.addDisplay d) =
      { r with
        focused := if r.focusable = [] then d else r.focused
        focusable := Display.insert d r.focusable } := by
  simp only [after, apply, addDisplay, List.isEmpty_iff]
  split_ifs
  · rw [moveFocus_fst]
  · rfl

theorem after_removeDisplay (r : Registry) (d : Display) :
    r.after (.removeDisplay d) =
      { r with
        focused := if d = r.focused then successor (Display.remove d r.focusable) else r.focused
        focusable := Display.remove d r.focusable } := by
  simp only [after, apply, removeDisplay]
  split_ifs
  · rw [moveFocus_fst]
  · rfl

theorem after_setTracking (r : Registry) (on : Bool) : r.after (.setTracking on) = { r with tracking := on } := by
  by_cases h : on = r.tracking
  · simp [after, apply, setTracking, h]
  · simp [after, apply, setTracking, h]

theorem after_addListener (r : Registry) (l : Listener) :
    r.after (.addListener l) = { r with listeners := r.listeners ++ [l] } := rfl

theorem after_removeListener (r : Registry) (l : Listener) :
    r.after (.removeListener l) = { r with listeners := r.listeners.filter (· ≠ l) } := rfl

/-- only a change of tracking changes tracking -/
theorem tracking_after (r : Registry) {c : FocusCall} (hc : ∀ on, c ≠ .setTracking on) :
    (r.after c).tracking = r.tracking := by
  cases c with
  | addDisplay d => rw [after_addDisplay]
  | removeDisplay d => rw [after_removeDisplay]
  | setFocus d => rw [after_setFocus]
  | setTracking on => exact absurd rfl (hc on)
  | addListener l | removeListener l => rfl

/-- tracking and focus never change together, and the listeners with neither -/
theorem changes_one (r : Registry) (c : FocusCall) :
    (r.after c).focused = r.focused ∧ (r.after c).tracking = r.tracking ∨
      (r.after c).tracking = r.tracking ∧ (r.after c).listeners = r.listeners ∨
      (r.after c).focused = r.focused ∧ (r.after c).listeners = r.listeners := by
  cases c with
  | addListener l | removeListener l => exact Or.inl ⟨rfl, rfl⟩
  | addDisplay d => rw [after_addDisplay]; exact Or.inr (Or.inl ⟨rfl, rfl⟩)
  | removeDisplay d => rw [after_removeDisplay]; exact Or.inr (Or.inl ⟨rfl, rfl⟩)
  | setFocus d => rw [after_setFocus]; exact Or.inr (Or.inl ⟨rfl, rfl⟩)
  | setTracking on => rw [after_setTracking]; exact Or.inr (Or.inr ⟨rfl, rfl⟩)

/-! ## A settled focus -/

/-- the focus is on a display of the set, or on none while the set is empty -/
def Settled (r : Registry) : Prop := r.focused ∈ r.focusable ∨ r.focusable = [] ∧ r.focused = .invalid

instance (r : Registry) : Decidable r.Settled :=
  inferInstanceAs (Decidable (r.focused ∈ r.focusable ∨ r.focusable = [] ∧ r.focused = .invalid))

theorem settled_empty : empty.Settled := Or.inr ⟨rfl, rfl⟩

/-- whoever takes over from a focused display that goes is left in the set, unless nobody is -/
theorem settled_successor (r : Registry) (ds : List Display) (h : r.focusable = ds) (hf : r.focused = successor ds) :
    r.Settled := by
  subst h
  cases hds : r.focusable with
  | nil => exact Or.inr ⟨hds, by rw [hf, hds]; rfl⟩
  | cons d rest => exact Or.inl (by rw [hf, hds]; exact List.mem_cons_self)

/-- a removed display does not have the focus, unless it stands for none -/
theorem focused_after_removeDisplay_ne (r : Registry) {d : Display} (hd : d ≠ .invalid) :
    (r.after (.removeDisplay d)).focused ≠ d := by
  rw [after_removeDisplay]
  change (if d = r.focused then successor (Display.remove d r.focusable) else r.focused) ≠ d
  split_ifs with h
  · cases hds : Display.remove d r.focusable with
    | nil => exact hd.symm
    | cons e rest =>
      have he : e ∈ Display.remove d r.focusable := by rw [hds]; exact List.mem_cons_self
      exact (Display.mem_remove.1 he).2
  · exact fun hf => h hf.symm

theorem settled_addDisplay {r : Registry} (d : Display) (h : r.focusable = [] ∨ r.focused ∈ r.focusable) :
    (r.after (.addDisplay d)).Settled := by
  rw [after_addDisplay]
  refine Or.inl (Display.mem_insert.2 ?_)
  by_cases hempty : r.focusable = []
  · exact Or.inl (if_pos hempty)
  · refine Or.inr ?_
    change (if r.focusable = [] then d else r.focused) ∈ r.focusable
    rw [if_neg hempty]
    exact h.resolve_left hempty

theorem settled_removeDisplay {r : Registry} (d : Display) (h : d = r.focused ∨ r.Settled) :
    (r.after (.removeDisplay d)).Settled := by
  rw [after_removeDisplay]
  by_cases hd : d = r.focused
  · exact settled_successor _ _ rfl (if_pos hd)
  · unfold Settled
    simp only [if_neg hd]
    rcases h.resolve_left hd with h | ⟨hempty, hnone⟩
    · exact Or.inl (Display.mem_remove.2 ⟨h, Ne.symm hd⟩)
    · exact Or.inr ⟨by simp [hempty, Display.remove], hnone⟩

/-- a change that moves the focus, and is no request for it, settles it -/
theorem settled_of_moved {r : Registry} {c : FocusCall} (hc : ∀ d, c ≠ .setFocus d)
    (hmoved : (r.after c).focused ≠ r.focused) : (r.after c).Settled := by
  cases c with
  | setFocus d => exact absurd rfl (hc d)
  | addDisplay d =>
    by_cases hempty : r.focusable = []
    · exact settled_addDisplay d (Or.inl hempty)
    · rw [after_addDisplay] at hmoved
      exact absurd (if_neg hempty) hmoved
  | removeDisplay d =>
    by_cases hd : d = r.focused
    · exact settled_removeDisplay d (Or.inl hd)
    · rw [after_removeDisplay] at hmoved
      exact absurd (if_neg hd) hmoved
  | setTracking on =>
    rw [after_setTracking] at hmoved
    exact absurd rfl hmoved
  | addListener l | removeListener l => exact absurd rfl hmoved

/-- a settled focus stays so under every change that is no request for it -/
theorem Settled.after {r : Registry} (h : r.Settled) {c : FocusCall} (hc : ∀ d, c ≠ .setFocus d) :
    (r.after c).Settled := by
  cases c with
  | setFocus d => exact absurd rfl (hc d)
  | addDisplay d => exact settled_addDisplay d (h.symm.imp_left And.left)
  | removeDisplay d => exact settled_removeDisplay d (Or.inr h)
  | setTracking on =>
    rw [after_setTracking]
    exact h
  | addListener l | removeListener l => exact h

end Registry

end InputRelay
