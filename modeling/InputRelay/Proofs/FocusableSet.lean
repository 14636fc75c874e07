/-
The focusable set over a run of changes. It is kept as a list that ascends strictly (`Display.Ascending`), so that its head
is its least display and adding what is there leaves it alone. Each change keeps it so (`Registry.ascending_after`) and
does to its members what it says (`Registry.mem_focusable_after`). By induction over the changes it then holds just those
displays of which the last change that names them is an addition (`Registry.mem_focusable_iff_lastOn`).
-/
import InputRelay.Proofs.Focus

namespace InputRelay

namespace Display

/-! ## Ascending lists -/

theorem lt_trans {d e f : Display} (h : d < e) (h' : e < f) : d < f := Int32.lt_trans h h'

theorem not_lt_of_lt {d e : Display} (h : d < e) : ¬ e < d := Int32.lt_asymm h

theorem lt_irrefl (d : Display) : ¬ d < d := Int32.lt_irrefl

/-- displays in strictly ascending order, so that none stands there twice -/
def Ascending (ds : List Display) : Prop := ds.Pairwise (· < ·)

theorem Ascending.insert {ds : List Display} (h : Ascending ds) (d : Display) : Ascending (Display.insert d ds) := by
  induction ds with
  | nil => exact List.pairwise_singleton _ d
  | cons e rest ih =>
    obtain ⟨hhead, hrest⟩ := List.pairwise_cons.1 h
    unfold Display.insert
    split_ifs with hlt hgt
    · refine List.pairwise_cons.2 ⟨?_, h⟩
      intro f hf
      rcases List.mem_cons.1 hf with rfl | hf
      · exact hlt
      · exact lt_trans hlt (hhead f hf)
    · refine List.pairwise_cons.2 ⟨?_, ih hrest⟩
      intro f hf
      rcases mem_insert.1 hf with rfl | hf
      · exact hgt
      · exact hhead f hf
    · exact h

theorem Ascending.remove {ds : List Display} (h : Ascending ds) (d : Display) : Ascending (Display.remove d ds) :=
  h.filter _

/-- adding a display that is there changes nothing -/
theorem Ascending.insert_of_mem {ds : List Display} (h : Ascending ds) {d : Display} (hd : d ∈ ds) :
    Display.insert d ds = ds := by
  induction ds with
  | nil => cases hd
  | cons e rest ih =>
    obtain ⟨hhead, hrest⟩ := List.pairwise_cons.1 h
    rcases List.mem_cons.1 hd with rfl | hd
    · simp [Display.insert, lt_irrefl]
    · have hlt : e < d := hhead d hd
      simp [Display.insert, not_lt_of_lt hlt, hlt, ih hrest hd]

theorem remove_of_not_mem {ds : List Display} {d : Display} (hd : d ∉ ds) : Display.remove d ds = ds := by
  refine List.filter_eq_self.2 ?_
  intro e he
  simp only [decide_eq_true_eq]
  rintro rfl
  exact hd he

/-- the one of some displays with the least id -/
def Leads (d : Display) (ds : List Display) : Prop := d ∈ ds ∧ ∀ e ∈ ds, e ≠ d → d < e

theorem Ascending.head_leads {d : Display} {rest : List Display} (h : Ascending (d :: rest)) :
    d.Leads (d :: rest) := by
  refine ⟨List.mem_cons_self, ?_⟩
  intro e he hne
  rcases List.mem_cons.1 he with rfl | he
  · exact absurd rfl hne
  · exact (List.pairwise_cons.1 h).1 e he

end Display

/-- the last of some changes that puts a display into the focusable set or takes it out -/
def lastOn (d : Display) (cs : List FocusCall) : Option FocusCall :=
  (cs.filter fun c => c = .addDisplay d ∨ c = .removeDisplay d).getLast?

theorem lastOn_snoc (d : Display) (cs : List FocusCall) (c : FocusCall) :
    lastOn d (cs ++ [c]) = if c = .addDisplay d ∨ c = .removeDisplay d then some c else lastOn d cs := by
  unfold lastOn
  rw [List.filter_append]
  by_cases hc : c = .addDisplay d ∨ c = .removeDisplay d
  · rw [if_pos hc, List.filter_cons_of_pos (by simpa using hc), List.filter_nil, List.getLast?_concat]
  · rw [if_neg hc, List.filter_cons_of_neg (by simpa using hc), List.filter_nil, List.append_nil]

namespace Registry

/-! ## The set, change by change -/

theorem focusable_after (r : Registry) (c : FocusCall) :
    (r.after c).focusable =
      match c with
      | .addDisplay d => Display.insert d r.focusable
      | .removeDisplay d => Display.remove d r.focusable
      | _ => r.focusable := by
  cases c with
  | addDisplay d => rw [after_addDisplay]
  | removeDisplay d => rw [after_removeDisplay]
  | setFocus d => rw [after_setFocus]
  | setTracking on => rw [after_setTracking]
  | addListener l | removeListener l => rfl

theorem ascending_after {r : Registry} (h : Display.Ascending r.focusable) (c : FocusCall) :
    Display.Ascending (r.after c).focusable := by
  rw [focusable_after]
  cases c with
  | addDisplay d => exact h.insert d
  | removeDisplay d => exact h.remove d
  | setFocus | setTracking | addListener | removeListener => exact h

theorem mem_focusable_after (r : Registry) (c : FocusCall) (d : Display) :
    d ∈ (r.after c).focusable ↔ c = .addDisplay d ∨ d ∈ r.focusable ∧ c ≠ .removeDisplay d := by
  rw [focusable_after]
  cases c with
  | addDisplay e => simp [Display.mem_insert, eq_comm]
  | removeDisplay e => simp [Display.mem_remove, eq_comm]
  | setFocus | setTracking | addListener | removeListener => simp

/-- whatever changes are made, the set stays ascending -/
theorem ascending_changes {r : Registry} (h : Display.Ascending r.focusable) (cs : List FocusCall) :
    Display.Ascending (cs.foldl after r).focusable := by
  induction cs generalizing r with
  | nil => exact h
  | cons c cs ih => exact ih (ascending_after h c)

/-- the set holds the displays that were added last -/
theorem mem_focusable_iff_lastOn (cs : List FocusCall) (d : Display) :
    d ∈ (cs.foldl after empty).focusable ↔ lastOn d cs = some (.addDisplay d) := by
  induction cs using List.reverseRecOn with
  | nil => simp [empty, lastOn]
  | append_singleton cs c ih =>
    rw [List.foldl_append, List.foldl_cons, List.foldl_nil, mem_focusable_after, ih, lastOn_snoc]
    by_cases hadd : c = .addDisplay d
    · simp [hadd]
    · by_cases hremove : c = .removeDisplay d
      · simp [hremove]
      · simp [hadd, hremove]

/-! ## Who takes over -/

/-- the display that takes over is the least one left, or none if nobody is left -/
theorem successor_cases {ds : List Display} (h : Display.Ascending ds) :
    (successor ds).Leads ds ∨ ds = [] ∧ successor ds = .invalid := by
  cases ds with
  | nil => exact Or.inr ⟨rfl, rfl⟩
  | cons d rest => exact Or.inl h.head_leads

/-- adding a display that is in the set changes nothing -/
theorem after_addDisplay_of_mem {r : Registry} (h : Display.Ascending r.focusable) {d : Display}
    (hd : d ∈ r.focusable) : r.after (.addDisplay d) = r := by
  rw [after_addDisplay, h.insert_of_mem hd, if_neg (List.ne_nil_of_mem hd)]

/-- removing a display that is not in the set, and does not have the focus, changes nothing -/
theorem after_removeDisplay_of_not_mem {r : Registry} {d : Display} (hd : d ∉ r.focusable) (hfocus : r.focused ≠ d) :
    r.after (.removeDisplay d) = r := by
  rw [after_removeDisplay, Display.remove_of_not_mem hd, if_neg hfocus.symm]

end Registry

end InputRelay
