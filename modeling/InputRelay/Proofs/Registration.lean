/-
Who is registered to hear of the focus. A listener that registers twice has two registrations, told apart by the calls
that made them. `mem_registrations` and `registrations_sorted` say which are in force after a run of calls, and in which
order; `registrations_listeners` that the registry keeps just the listeners of these.
-/
import Mathlib.Tactic
import InputRelay.Proofs.Focus

namespace InputRelay

/-- one registration of a listener, by the number of the call that made it -/
structure Registration where
  listener : Listener
  number : Nat
deriving DecidableEq, Repr

/-- the registrations in force once a numbered call is made -/
def Registration.update (gs : List Registration) : FocusCall × Nat → List Registration
  | (.addListener l, n) => gs ++ [⟨l, n⟩]
  | (.removeListener l, _) => gs.filter (·.listener ≠ l)
  | _ => gs

/-- the registrations in force after calls made one after the other, oldest first -/
def registrations (cs : List FocusCall) : List Registration := cs.zipIdx.foldl Registration.update []

theorem registrations_snoc (cs : List FocusCall) (c : FocusCall) :
    registrations (cs ++ [c]) = Registration.update (registrations cs) (c, cs.length) := by
  simp [registrations, List.zipIdx_append]

theorem mem_update {gs : List Registration} {c : FocusCall} {n : Nat} {g : Registration} :
    g ∈ Registration.update gs (c, n) ↔
      g ∈ gs ∧ c ≠ .removeListener g.listener ∨ c = .addListener g.listener ∧ g.number = n := by
  cases c with
  | addListener l =>
    simp only [Registration.update, List.mem_append, List.mem_singleton, FocusCall.addListener.injEq]
    constructor
    · rintro (h | rfl)
      · exact Or.inl ⟨h, nofun⟩
      · exact Or.inr ⟨rfl, rfl⟩
    · rintro (⟨h, -⟩ | ⟨rfl, rfl⟩)
      · exact Or.inl h
      · exact Or.inr rfl
  | removeListener l =>
    simp only [Registration.update, List.mem_filter, decide_eq_true_eq, ne_eq, FocusCall.removeListener.injEq]
    exact ⟨fun h => Or.inl ⟨h.1, fun hl => h.2 hl.symm⟩,
      fun h => h.elim (fun h => ⟨h.1, fun hl => h.2 hl.symm⟩) (fun h => nomatch h.1)⟩
  | addDisplay | removeDisplay | setFocus | setTracking =>
    exact ⟨fun h => Or.inl ⟨h, nofun⟩, fun h => h.elim And.left fun h => nomatch h.1⟩

theorem number_lt {cs : List FocusCall} {g : Registration} (h : g ∈ registrations cs) : g.number < cs.length := by
  induction cs using List.reverseRecOn with
  | nil => cases h
  | append_singleton cs c ih =>
    rw [registrations_snoc, mem_update] at h
    rw [List.length_append, List.length_singleton]
    rcases h with ⟨h, -⟩ | ⟨-, h⟩
    · exact Nat.lt_succ_of_lt (ih h)
    · omega

/-- a registration is in force once it is made, until its listener is removed -/
theorem mem_registrations {cs : List FocusCall} {g : Registration} :
    g ∈ registrations cs ↔
      cs[g.number]? = some (.addListener g.listener) ∧ .removeListener g.listener ∉ cs.drop (g.number + 1) := by
  induction cs using List.reverseRecOn with
  | nil => simp [registrations]
  | append_singleton cs c ih =>
    rw [registrations_snoc, mem_update]
    rcases Nat.lt_trichotomy g.number cs.length with hlt | heq | hgt
    · rw [ih, List.getElem?_append_left hlt, List.drop_append_of_le_length hlt]
      simp [hlt.ne, and_assoc, eq_comm]
    · have hout : g ∉ registrations cs := fun h => (number_lt h).ne heq
      simp [hout, heq]
    · have hout : g ∉ registrations cs := fun h => (number_lt h).not_gt hgt
      have hnone : (cs ++ [c])[g.number]? = none := List.getElem?_eq_none (by simpa using hgt)
      simp [hout, hnone, hgt.ne']

/-- registrations stand in the order in which they are made -/
theorem registrations_sorted (cs : List FocusCall) : (registrations cs).Pairwise (·.number < ·.number) := by
  induction cs using List.reverseRecOn with
  | nil => exact .nil
  | append_singleton cs c ih =>
    rw [registrations_snoc]
    cases c with
    | addListener l =>
      refine List.pairwise_append.2 ⟨ih, List.pairwise_singleton _ _, fun g hg g' hg' => ?_⟩
      cases List.mem_singleton.1 hg'
      exact number_lt hg
    | removeListener l => exact ih.filter _
    | addDisplay | removeDisplay | setFocus | setTracking => exact ih

theorem registrations_nodup (cs : List FocusCall) : (registrations cs).Nodup :=
  (registrations_sorted cs).imp fun h heq => by rw [heq] at h; exact Nat.lt_irrefl _ h

/-- the registry keeps the listeners of the registrations in force -/
theorem registrations_listeners (cs : List FocusCall) :
    (registrations cs).map (·.listener) = (cs.foldl Registry.after .empty).listeners := by
  induction cs using List.reverseRecOn with
  | nil => rfl
  | append_singleton cs c ih =>
    rw [registrations_snoc, List.foldl_append]
    change _ = ((cs.foldl Registry.after .empty).after c).listeners
    cases c with
    | addListener l =>
      rw [Registry.after_addListener, ← ih]
      simp [Registration.update]
    | removeListener l =>
      rw [Registry.after_removeListener, ← ih, List.filter_map]
      rfl
    | addDisplay d => rw [Registry.after_addDisplay]; exact ih
    | removeDisplay d => rw [Registry.after_removeDisplay]; exact ih
    | setFocus d => rw [Registry.after_setFocus]; exact ih
    | setTracking on => rw [Registry.after_setTracking]; exact ih

end InputRelay
