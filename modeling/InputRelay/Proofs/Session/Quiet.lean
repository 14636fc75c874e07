/-
Listeners that make no calls of their own. Such a listener is told of a display, looks at the session, keeps something in
mind and is done, and that is all that happens (`tell_quiet`). So a change to the registry is made, its audience is told,
and the session is otherwise as it was (`change_quiet`).
-/
import InputRelay.Proofs.Session.Nesting
import InputRelay.Proofs.Session.Sending

namespace InputRelay.Session

variable {μ : Type}

/-! ## Tellings -/

/-- who is told of what in a stretch of the log, in order -/
def tellingsIn (es : List Entry) : List (Listener × Display) :=
  es.filterMap fun
    | .told l d .. => some (l, d)
    | _ => none

theorem tellingsIn_append (es es' : List Entry) : tellingsIn (es ++ es') = tellingsIn es ++ tellingsIn es' :=
  List.filterMap_append

/-- what is logged of a round whose listeners make no calls -/
def roundEntries (seen : Snapshot) (policy : Policy) (d : Display) (ls : List Listener) : List Entry :=
  (ls.map fun l => [.told l d seen policy, .finished l]).flatten

/-- what is logged of a change whose listeners make no calls -/
def changeEntries (policy : Policy) (c : FocusCall) (before : Registry) : List Entry :=
  let after := before.after c
  .entered c before :: (roundEntries after.snapshot policy after.focused (before.audience after) ++ [.left])

theorem tellingsIn_roundEntries (seen : Snapshot) (policy : Policy) (d : Display) (ls : List Listener) :
    tellingsIn (roundEntries seen policy d ls) = ls.map fun l => (l, d) := by
  induction ls with
  | nil => rfl
  | cons l ls ih => exact congrArg (List.cons (l, d)) ih

theorem tellingsIn_changeEntries (policy : Policy) (c : FocusCall) (r : Registry) :
    tellingsIn (changeEntries policy c r) = (r.audience (r.after c)).map fun l => (l, (r.after c).focused) := by
  change tellingsIn (roundEntries _ _ _ _ ++ [.left]) = _
  rw [tellingsIn_append, tellingsIn_roundEntries]
  exact List.append_nil _

/-! ## Programs without calls -/

/-- a program without calls leaves all as it was, but for what its listener keeps in mind -/
theorem Callback.run_silent (perform : Call → World μ → World μ × Answer) {program : Callback μ}
    (h : program.Only fun _ => False) (w : World μ) : ∃ memory, program.run perform w = { w with memory } := by
  induction program generalizing w with
  | done => exact ⟨w.memory, rfl⟩
  | look next ih => exact ih _ (h _) w
  | keep memory next ih => exact ih h { w with memory }
  | call c next ih => exact h.1.elim

variable {s : Surroundings μ}

/-- a listener without calls is told, and nothing else happens -/
theorem tell_quiet (hs : ∀ l d, (s.callback l d).Only fun _ => False) (depth : Nat) (l : Listener) (d : Display)
    (w : World μ) : ∃ memory, tell s depth l d w =
      { w with memory, log := w.log ++ [.told l d w.registry.snapshot w.policy, .finished l] } := by
  cases depth with
  | zero => exact ⟨w.memory, by simp [tell, World.tell, World.record]⟩
  | succ depth =>
    obtain ⟨memory, hrun⟩ := Callback.run_silent (answer s.clock (tell s depth)) (hs l d) (w.tell l d)
    refine ⟨memory, ?_⟩
    rw [tell, hrun]
    simp [World.tell, World.record]

theorem round_quiet (hs : ∀ l d, (s.callback l d).Only fun _ => False) (depth : Nat) (d : Display) (ls : List Listener)
    (w : World μ) : ∃ memory, ls.foldl (fun w l => tell s depth l d w) w =
      { w with memory, log := w.log ++ roundEntries w.registry.snapshot w.policy d ls } := by
  induction ls generalizing w with
  | nil => exact ⟨w.memory, by rw [List.foldl_nil, roundEntries, List.map_nil, List.flatten_nil, List.append_nil]⟩
  | cons l ls ih =>
    obtain ⟨memory, htell⟩ := tell_quiet hs depth l d w
    obtain ⟨memory', hrest⟩ := ih (tell s depth l d w)
    refine ⟨memory', ?_⟩
    rw [List.foldl_cons, hrest, htell, List.append_assoc]
    rfl

/-- a change is made, its audience is told, and nothing else happens -/
theorem change_quiet (hs : ∀ l d, (s.callback l d).Only fun _ => False) (depth : Nat) (c : FocusCall) (w : World μ) :
    ∃ memory, change (tell s depth) c w =
      { w with registry := w.registry.after c, memory, log := w.log ++ changeEntries w.policy c w.registry } := by
  obtain ⟨memory, hround⟩ := round_quiet hs depth (w.registry.after c).focused
    (w.registry.audience (w.registry.after c)) (w.enter c)
  refine ⟨memory, ?_⟩
  rw [change_eq, deliver_apply, hround, World.record, World.enter_log]
  simp only [changeEntries, List.append_assoc, List.cons_append, List.nil_append]
  rfl

end InputRelay.Session
