/-
Which displays may take the focus by themselves, and which one does. The log recounts the changes that made the registry
(`recounts_invariant`), so at every moment of a session the focusable set ascends, and holds just the displays that were
added last (`focusable_of_visits`). What a change then makes of the focus is read off the set: whoever is added to an empty
set gets it, and whoever loses it by going hands it to the least display that is left. A change that leaves the registry as
it was is told to nobody and leaves the whole session as it was (`perform_focus_vain`).
-/
import InputRelay.Proofs.FocusableSet
import InputRelay.Proofs.Session.Provenance
import InputRelay.Proofs.Session.Quiet

namespace InputRelay.Session

variable {μ : Type} {s : Surroundings μ} {depth : Nat} {cs : List Call} {w v : World μ}

/-- at every moment the focusable set ascends, and holds the displays of which the last change that names them, of those
entered so far, is an addition -/
theorem focusable_of_visits (hnew : w.registry = .empty) (hv : Visits s depth (.calls cs) w v) :
    ∃ past, v.log = w.log ++ past ∧ v.registry = (callsIn past).foldl Registry.after .empty ∧
      Display.Ascending v.registry.focusable ∧
      ∀ d, d ∈ v.registry.focusable ↔ lastOn d (callsIn past) = some (.addDisplay d) := by
  have hbegin : Recounts w w := ⟨[], by simp, rfl, .nil _⟩
  obtain ⟨past, hlog, hreg, -⟩ := (recounts_invariant w).visits
    (fun l d => (s.callback l d).only_true) hv ⟨fun _ _ => trivial, hbegin⟩
  rw [hnew] at hreg
  have hreg : v.registry = (callsIn past).foldl Registry.after .empty := hreg
  refine ⟨past, hlog, hreg, ?_, ?_⟩
  · have hempty : Display.Ascending Registry.empty.focusable := List.Pairwise.nil
    rw [hreg]
    exact Registry.ascending_changes hempty _
  · intro d
    rw [hreg]
    exact Registry.mem_focusable_iff_lastOn _ d

/-- a change that leaves the registry as it was is made and left at once -/
theorem perform_focus_vain (s : Surroundings μ) (depth : Nat) (v : World μ) {c : FocusCall}
    (h : v.registry.after c = v.registry) :
    (perform s depth (.focus c) v).1 = { v with log := v.log ++ [.entered c v.registry, .left] } := by
  have haudience : v.registry.audience (v.registry.after c) = [] := by
    rw [h]
    refine if_neg ?_
    rintro ⟨hon, hoff | hmoved⟩
    · rw [hon] at hoff
      cases hoff
    · exact hmoved rfl
  change change (tell s depth) c v = _
  rw [change_eq, deliver_apply, haudience, List.foldl_nil]
  simp [World.record, World.enter, h]

/-- a display that has the focus and goes hands it to the least one left, or to none; and nobody else's going moves it -/
theorem focused_after_removeDisplay {r : Registry} (h : Display.Ascending r.focusable) (d : Display) :
    let left := r.after (.removeDisplay d)
    (r.focused = d → left.focused.Leads left.focusable ∨ left.focusable = [] ∧ left.focused = .invalid) ∧
      (r.focused ≠ d → left.focused = r.focused) := by
  intro left
  have hleft : left = _ := r.after_removeDisplay d
  constructor
  · intro hd
    have hfocused : left.focused = Registry.successor left.focusable := by
      rw [hleft]
      exact if_pos hd.symm
    rw [hfocused]
    exact Registry.successor_cases (Registry.ascending_after h _)
  · intro hd
    rw [hleft]
    exact if_neg hd.symm

/-- **The focusable set, and who takes over.** Take any run of calls from a registry in which nothing has happened yet, with
displays of any ids and with any listeners making any calls of their own. At every moment of it:
- the focusable set ascends strictly, and holds just the displays of which the last change that names them is an addition;
- taking out a display takes out no other. If it has the focus, be it in the set or not, the least display left gets the
  focus, or none if nobody is left; so it does not keep the focus while others are left. If it does not have the focus,
  that stays where it is;
- adding a display gives it the focus if the set is empty, and otherwise leaves the focus where it is;
- adding a display that is there, or taking out one that is neither there nor focused, changes nothing and tells nobody.
So the registry stands as soon as a change is made, and also when the call returns, as long as listeners make no calls. -/
theorem focus_handed_over (s : Surroundings μ) (depth : Nat) (cs : List Call) (w : World μ)
    (hnew : w.registry = .empty) (v : World μ) (hv : Visits s depth (.calls cs) w v) :
    (∃ past, v.log = w.log ++ past ∧ v.registry = (callsIn past).foldl Registry.after .empty ∧
      Display.Ascending v.view.focusable ∧
      ∀ d, d ∈ v.view.focusable ↔ lastOn d (callsIn past) = some (.addDisplay d)) ∧
    (∀ d,
      let left := (v.enter (.removeDisplay d)).registry
      (∀ e, e ∈ left.focusable ↔ e ∈ v.registry.focusable ∧ e ≠ d) ∧
      (v.registry.focused = d → left.focused.Leads left.focusable ∨ left.focusable = [] ∧ left.focused = .invalid) ∧
      (v.registry.focused = d → left.focusable ≠ [] → left.focused ≠ d) ∧
      (v.registry.focused ≠ d → left.focused = v.registry.focused)) ∧
    (∀ d,
      let added := (v.enter (.addDisplay d)).registry
      (v.registry.focusable = [] → added.focused = d) ∧
      (v.registry.focusable ≠ [] → added.focused = v.registry.focused)) ∧
    (∀ d c, c = .addDisplay d ∧ d ∈ v.registry.focusable ∨
        c = .removeDisplay d ∧ d ∉ v.registry.focusable ∧ v.registry.focused ≠ d →
      (perform s depth (.focus c) v).1 = { v with log := v.log ++ [.entered c v.registry, .left] }) ∧
    ((∀ l d, (s.callback l d).Only fun _ => False) →
      ∀ c, (perform s depth (.focus c) v).1.registry = (v.enter c).registry) := by
  obtain ⟨past, hlog, hreg, hascending, hmember⟩ := focusable_of_visits hnew hv
  refine ⟨⟨past, hlog, hreg, hascending, hmember⟩, fun d => ?_, fun d => ?_, fun d c hc => ?_, fun hs c => ?_⟩
  · intro left
    have hleft : left.focusable = Display.remove d v.registry.focusable := Registry.focusable_after _ _
    obtain ⟨hgoes, hstays⟩ := focused_after_removeDisplay hascending d
    refine ⟨fun e => ?_, hgoes, fun hd hothers => ?_, hstays⟩
    · rw [hleft]
      exact Display.mem_remove
    · have hleads : left.focused.Leads left.focusable := (hgoes hd).resolve_right fun hnone => hothers hnone.1
      have hin : left.focused ∈ Display.remove d v.registry.focusable := hleft ▸ hleads.1
      exact (Display.mem_remove.1 hin).2
  · intro added
    have hadded : added = _ := v.registry.after_addDisplay d
    rw [hadded]
    exact ⟨fun hempty => if_pos hempty, fun hothers => if_neg hothers⟩
  · apply perform_focus_vain
    rcases hc with ⟨rfl, hin⟩ | ⟨rfl, hout, hunfocused⟩
    · exact Registry.after_addDisplay_of_mem hascending hin
    · exact Registry.after_removeDisplay_of_not_mem hout hunfocused
  · obtain ⟨memory, hchange⟩ := change_quiet hs depth c v
    change (change (tell s depth) c v).registry = v.registry.after c
    rw [hchange]

/-- display 9 gets the focus by a back key, without having been added; when it is taken out all the same, display 2 takes
over, which was added after display 7 -/
theorem focus_handed_over_outsider :
    let s : Surroundings Unit := ⟨fun _ => 0, fun _ _ => .done⟩
    let cs : List Call := [.focus (.addDisplay ⟨4⟩), .focus (.removeDisplay ⟨4⟩), .focus (.addDisplay ⟨7⟩),
      .focus (.addDisplay ⟨2⟩), .dispatch (.back ⟨9⟩)]
    let w : World Unit := .bare .closed ()
    let v := run s 1 cs w
    let left := (perform s 1 (.focus (.removeDisplay ⟨9⟩)) v).1.registry
    w.registry = .empty ∧ Visits s 1 (.calls cs) w v ∧ v.registry.focused = ⟨9⟩ ∧ ⟨9⟩ ∉ v.registry.focusable ∧
      left.focusable = [⟨2⟩, ⟨7⟩] ∧ left.focused.Leads left.focusable ∧ left.focused ≠ ⟨9⟩ := by
  intro s cs w v left
  have hv : Visits s 1 (.calls cs) w v := visits_run s 1 cs w
  obtain ⟨-, hremove, -, -, hreturn⟩ := focus_handed_over s 1 cs w rfl v hv
  obtain ⟨-, hgoes, hother, -⟩ := hremove ⟨9⟩
  have hfocused : v.registry.focused = ⟨9⟩ := by decide +kernel
  have hleft : left = (v.enter (.removeDisplay ⟨9⟩)).registry := hreturn (fun _ _ => trivial) _
  have hset : left.focusable = [⟨2⟩, ⟨7⟩] := by decide +kernel
  have hothers : left.focusable ≠ [] := by simp [hset]
  rw [← hleft] at hgoes hother
  refine ⟨rfl, hv, hfocused, by decide +kernel, hset, ?_, hother hfocused hothers⟩
  exact (hgoes hfocused).resolve_right fun hnone => hothers hnone.1

end InputRelay.Session
