/-
From injecting to draining. A start opens an empty channel (`start_running`). While it is in effect every request injected
is accepted and waits at the end of its channel (`inject_running`), and once it is stopped whoever holds the receiver
drains just what waits, in order (`drain_fed`).
-/
import InputRelay.Capture

namespace InputRelay.Capture.Source

theorem receiver?_eq_some {s : Source} {slot : Nat} {c : Channel} :
    s.receiver? slot = some c ↔ s.channels[slot]? = some c ∧ c.held = true := by
  unfold receiver?
  cases s.channels[slot]? with
  | none => simp
  | some c' =>
    constructor
    · intro h
      rcases Option.ite_none_right_eq_some.1 h with ⟨hc, heq⟩
      cases heq
      exact ⟨rfl, hc⟩
    · rintro ⟨h, hc⟩
      cases h
      exact if_pos hc

/-- a new channel is found under the next slot, and the others where they were -/
theorem receiver?_channels_snoc (s : Source) (c : Channel) (running : Option Nat) (slot' : Nat) :
    (⟨s.channels ++ [c], running⟩ : Source).receiver? slot' =
      if slot' = s.channels.length then if c.held then some c else none else s.receiver? slot' := by
  unfold receiver?
  by_cases hslot : slot' = s.channels.length
  · simp [hslot]
  · rcases Nat.lt_or_gt_of_ne hslot with hlt | hgt
    · simp [hslot, List.getElem?_append_left hlt]
    · have hle := Nat.le_of_lt hgt
      rw [if_neg hslot, List.getElem?_eq_none hle, List.getElem?_eq_none]
      rw [List.length_append]
      exact hgt

/-- a change to one channel is seen under its slot, and nowhere else -/
theorem receiver?_setChannel_eq {s : Source} {slot : Nat} {c : Channel} (h : s.receiver? slot = some c) (c' : Channel) (slot' : Nat) :
    (s.setChannel slot c').receiver? slot' =
      if slot' = slot then if c'.held then some c' else none else s.receiver? slot' := by
  obtain ⟨hget, -⟩ := receiver?_eq_some.1 h
  obtain ⟨hlt, -⟩ := List.getElem?_eq_some_iff.1 hget
  unfold receiver? setChannel
  by_cases hslot : slot' = slot
  · subst hslot
    simp [hlt]
  · simp [List.getElem?_set_ne (Ne.symm hslot), hslot]

/-- a channel whose receiver is held can be replaced by another such -/
theorem receiver?_setChannel {s : Source} {slot : Nat} {c : Channel} (h : s.receiver? slot = some c) (c' : Channel)
    (hc' : c'.held = true) : (s.setChannel slot c').receiver? slot = some c' := by
  rw [receiver?_setChannel_eq h, if_pos rfl, if_pos hc']

/-- the channel of a new start is empty, and its receiver is held -/
theorem start_running {s started : Source} {slot : Nat} (h : s.start = .ok (slot, started)) :
    started.running = some slot ∧ started.receiver? slot = some ⟨[], true⟩ := by
  unfold start at h
  cases hr : s.running with
  | some slot' =>
    rw [hr] at h
    cases h
  | none =>
    rw [hr] at h
    cases h
    exact ⟨rfl, (receiver?_channels_snoc s ⟨[], true⟩ _ _).trans (if_pos rfl)⟩

/-- while its receiver is held, the channel of the start in effect takes every request -/
theorem inject_running {s : Source} {slot : Nat} {c : Channel} (hrun : s.running = some slot)
    (h : s.receiver? slot = some c) (r : Request) :
    s.inject r = .ok (s.setChannel slot { c with waiting := c.waiting ++ [r] }) := by
  simp only [inject, hrun, h]

/-- requests injected one after the other wait in order -/
theorem injects_running {s fed : Source} {slot : Nat} {c : Channel} {rs : List Request} (hrun : s.running = some slot)
    (h : s.receiver? slot = some c) (hfed : rs.foldlM inject s = .ok fed) :
    fed.running = some slot ∧ fed.receiver? slot = some { c with waiting := c.waiting ++ rs } := by
  induction rs generalizing s c with
  | nil =>
    cases hfed
    rw [List.append_nil]
    exact ⟨hrun, h⟩
  | cons r rs ih =>
    rw [List.foldlM_cons, inject_running hrun h] at hfed
    have hset := receiver?_setChannel h { c with waiting := c.waiting ++ [r] } (receiver?_eq_some.1 h).2
    obtain ⟨hrun', hrec⟩ := ih (s := s.setChannel slot _) hrun hset hfed
    refine ⟨hrun', hrec.trans ?_⟩
    rw [List.append_assoc, List.singleton_append]

/-- draining takes all that waits, and lets go of the receiver -/
theorem drain_of_receiver? {s : Source} {slot : Nat} {c : Channel} (h : s.receiver? slot = some c) :
    s.drain slot = some (c.waiting, (s.dropReceiver slot).2) := by
  unfold drain dropReceiver
  rw [h]

/-- what is injected until the stop is drained, all of it and in order -/
theorem drain_fed {s fed : Source} {slot : Nat} {rs : List Request} (hrun : s.running = some slot)
    (hempty : s.receiver? slot = some ⟨[], true⟩) (hfed : rs.foldlM inject s = .ok fed) :
    fed.stop.running ≠ some slot ∧ fed.stop.drain slot = some (rs, (fed.stop.dropReceiver slot).2) := by
  obtain ⟨-, hrec⟩ := injects_running hrun hempty hfed
  have hstopped : fed.stop.receiver? slot = some ⟨rs, true⟩ := hrec
  exact ⟨by simp [stop], drain_of_receiver? hstopped⟩

end InputRelay.Capture.Source
