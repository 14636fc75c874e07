/-
What a stretch of a session hands to its sink. The log only grows, so a stretch has a part of it to itself (`logged`), and
the messages in that part are all that the sink is given: as long as someone takes the frames, the sink is what sending
these messages makes of it (`supplies_perform`). `handed` lists them call by call, without the times of sending; that does
not depend on the clock (`handed_flatten` and `Matches.undatedIn_logged` put the two together).
-/
import InputRelay.Proofs.Session.Clocks

namespace InputRelay.Session

open Wire (Event)

variable {μ : Type}

/-- the messages that entries hand to the sink -/
def sentIn (es : List Entry) : List Event :=
  es.filterMap fun
    | .sent e .. => some e
    | _ => none

/-- the messages, without a time where it is that of sending -/
def undatedIn (es : List Entry) : List Event := sentIn (outlines es)

theorem sentIn_append (es es' : List Entry) : sentIn (es ++ es') = sentIn es ++ sentIn es' := List.filterMap_append

theorem undatedIn_append (es es' : List Entry) : undatedIn (es ++ es') = undatedIn es ++ undatedIn es' := by
  rw [undatedIn, outlines_append, sentIn_append]
  rfl

/-- what a stretch logs -/
def logged (w w' : World μ) : List Entry := w'.log.drop w.log.length

theorem logged_of_append {w w' : World μ} {es : List Entry} (h : w'.log = w.log ++ es) : logged w w' = es := by
  rw [logged, h, List.drop_left]

/-! ## The sink along a stretch -/

/-- a stretch logs all that it hands to the sink, and frames are taken to its end only if they are all along -/
def Supplies (w w' : World μ) : Prop :=
  ∃ es, w'.log = w.log ++ es ∧
    (w'.sink.connected = true → w.sink.connected = true ∧ w'.sink = w.sink.sendAll (sentIn es))

theorem Supplies.trans {u v w : World μ} (h : Supplies u v) (h' : Supplies v w) : Supplies u w := by
  obtain ⟨es, hlog, hsink⟩ := h
  obtain ⟨es', hlog', hsink'⟩ := h'
  refine ⟨es ++ es', by rw [hlog', hlog, List.append_assoc], fun hw => ?_⟩
  obtain ⟨hv, hs'⟩ := hsink' hw
  obtain ⟨hu, hs⟩ := hsink hv
  exact ⟨hu, by rw [hs', hs, sentIn_append, FrameSink.sendAll_append]⟩

theorem Supplies.log {w w' : World μ} (h : Supplies w w') : w'.log = w.log ++ logged w w' := by
  obtain ⟨es, hlog, -⟩ := h
  rw [logged_of_append hlog, hlog]

theorem Supplies.sink {w w' : World μ} (h : Supplies w w') (hw : w'.sink.connected = true) :
    w'.sink = w.sink.sendAll (sentIn (logged w w')) := by
  obtain ⟨es, hlog, hsink⟩ := h
  rw [logged_of_append hlog]
  exact (hsink hw).2

/-- one message is logged once, behind what is reported of it -/
theorem supplies_send (display : Display) (now : Int64) (w : World μ) (d : Router.Draft) :
    Supplies w (World.send display now w d) := by
  refine ⟨_, World.send_log display now w d, fun hc => ⟨?_, ?_⟩⟩
  · change (w.sink.send _).2.connected = true at hc
    rwa [FrameSink.send_connected] at hc
  · have hnotices : ∀ ns : List Notice, sentIn (ns.map .noticed) = [] := by
      intro ns
      induction ns with
      | nil => rfl
      | cons n ns ih => exact ih
    rw [sentIn_append, hnotices]
    rfl

theorem stepwise_supplies : Stepwise (Supplies (μ := μ)) where
  refl w := ⟨[], by simp, fun h => ⟨h, rfl⟩⟩
  trans := Supplies.trans
  record w e he := by
    refine ⟨[e], rfl, fun h => ⟨h, ?_⟩⟩
    cases e with
    | sent => cases he
    | _ => rfl
  unlogged w _ _ _ _ _ := ⟨[], by simp, fun h => ⟨h, rfl⟩⟩
  close w := ⟨[], by simp, fun h => by cases h⟩
  send := supplies_send

theorem keeps_supplies : Keeps (Supplies (μ := μ)) fun _ _ => Supplies := stepwise_supplies.keeps

/-- one call, with all that its listeners do -/
theorem supplies_perform (s : Surroundings μ) (depth : Nat) (c : Call) (w : World μ) :
    Supplies w (perform s depth c w).1 :=
  keeps_supplies.perform s depth c w

/-! ## Call by call -/

/-- what each of some calls hands to the sink when they are made one after the other -/
def handed (s : Surroundings μ) (depth : Nat) : List Call → World μ → List (List Event)
  | [], _ => []
  | c :: cs, w =>
    undatedIn (logged w (perform s depth c w).1) :: handed s depth cs (perform s depth c w).1

/-- together the calls hand over what the whole run does -/
theorem handed_flatten (s : Surroundings μ) (depth : Nat) (cs : List Call) (w : World μ) :
    (handed s depth cs w).flatten = undatedIn (logged w (run s depth cs w)) := by
  induction cs generalizing w with
  | nil =>
    have hnone : logged w w = [] := logged_of_append w.log.append_nil.symm
    rw [run, List.foldl_nil, hnone]
    rfl
  | cons c cs ih =>
    have hc := (supplies_perform s depth c w).log
    have hcs := (keeps_supplies.run s depth cs (perform s depth c w).1).log
    have hall : (run s depth (c :: cs) w).log = w.log ++ (logged w (perform s depth c w).1 ++
        logged (perform s depth c w).1 (run s depth cs (perform s depth c w).1)) := by
      rw [← List.append_assoc, ← hc]
      exact hcs
    rw [handed, List.flatten_cons, ih, logged_of_append hall, undatedIn_append]

/-- matching stretches hand over the same, but for the times of sending -/
theorem Matches.undatedIn_logged {w₁ w₂ w₁' w₂' : World μ} (h : Matches w₁ w₂) (h' : Matches w₁' w₂')
    (h₁ : Supplies w₁ w₁') (h₂ : Supplies w₂ w₂') : undatedIn (logged w₁ w₁') = undatedIn (logged w₂ w₂') := by
  have hlog := h'.log
  rw [h₁.log, h₂.log, outlines_append, outlines_append, h.log] at hlog
  exact congrArg sentIn (List.append_cancel_left hlog)

end InputRelay.Session
