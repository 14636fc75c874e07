/-
Two runs of a session that differ in the clock and in whether someone still takes the frames. Neither can be told from
inside: two worlds match (`Matches`) if they agree on all that a call or a listener can see, and on the log but for the
times stamped on sending and for what became of the frames. Every call keeps worlds matching and gets the same answer in
both (`Matches.perform`), whatever the listeners do and to any depth, so runs do too (`Matches.run`).
-/
import InputRelay.Proofs.Session.InStep
import InputRelay.Proofs.Sink

namespace InputRelay

open Wire (Event)

/-- an event but for its time -/
def Wire.Event.undated : Event → Event
  | home d => .home d
  | input m => .input { m with time := 0 }

/-- without the time of sending, a message is the same at all times -/
theorem Router.Draft.event_undated (d : Router.Draft) (display : Display) (now : Int64) :
    (if d.stampedOnSending then (d.event display now).undated else d.event display now) = d.event display 0 := by
  rcases d with _ | ⟨device, _ | _, body⟩ <;> rfl

namespace Session

variable {μ : Type}

/-! ## Outlines of the log -/

/-- an entry but for the time of sending and for what became of the frame -/
def Entry.outline : Entry → Option Entry
  | sent e stamped _ issued => some (.sent (if stamped then e.undated else e) stamped .closed issued)
  | noticed (.closed ..) => none
  | e => some e

def outlines (es : List Entry) : List Entry := es.filterMap Entry.outline

theorem outlines_append (es es' : List Entry) : outlines (es ++ es') = outlines es ++ outlines es' :=
  List.filterMap_append

/-- what is logged of a message, in outline, does not depend on the clock or on the taker of frames -/
theorem outlines_send (display : Display) (now : Int64) (w : World μ) (d : Router.Draft) :
    outlines (World.send display now w d).log =
      outlines w.log ++ [.sent (d.event display 0) d.stampedOnSending .closed (w.sink.issued + 1)] := by
  rw [World.send_log, outlines_append, ← d.event_undated display now, FrameSink.issued, FrameSink.send_sequence,
    FrameSink.send_eq]
  by_cases hc : w.sink.connected = true
  · rw [if_pos hc]
    rfl
  · rw [if_neg hc]
    rfl

/-! ## Matching worlds -/

/-- the worlds agree but for the clock's doing and for the frames -/
structure Matches (w w' : World μ) : Prop where
  registry : w.registry = w'.registry
  policy : w.policy = w'.policy
  source : w.source = w'.source
  sequence : w.sink.sequence = w'.sink.sequence
  reads : w.reads = w'.reads
  memory : w.memory = w'.memory
  log : outlines w.log = outlines w'.log

namespace Matches

variable {w w' : World μ}

theorem refl (w : World μ) : Matches w w := ⟨rfl, rfl, rfl, rfl, rfl, rfl, rfl⟩

theorem issued (h : Matches w w') : w.sink.issued = w'.sink.issued := congrArg Sequence.issued h.sequence

/-- a listener sees the same in both -/
theorem view (h : Matches w w') : w.view = w'.view := by
  simp only [World.view, h.registry, h.policy, h.issued, h.memory]

theorem record (h : Matches w w') (e : Entry) : Matches (w.record e) (w'.record e) :=
  { h with log := by rw [World.record_log, World.record_log, outlines_append, outlines_append, h.log] }

theorem enter (h : Matches w w') (c : FocusCall) : Matches (w.enter c) (w'.enter c) := by
  have hr := h.record (.entered c w.registry)
  refine { hr with registry := ?_, log := ?_ }
  · rw [World.enter_registry, World.enter_registry, h.registry]
  · rw [World.enter_log, World.enter_log, ← h.registry]
    exact hr.log

/-- the messages differ in the time of sending at most -/
theorem send (h : Matches w w') (display : Display) (now now' : Int64) (d : Router.Draft) :
    Matches (World.send display now w d) (World.send display now' w' d) where
  registry := h.registry
  policy := h.policy
  source := h.source
  sequence := by
    change (w.sink.send _).2.sequence = (w'.sink.send _).2.sequence
    rw [FrameSink.send_sequence, FrameSink.send_sequence, h.issued]
  reads := h.reads
  memory := h.memory
  log := by rw [outlines_send, outlines_send, h.log, h.issued]

/-- whatever is done in both keeps worlds matching -/
theorem inStep : InStep (Matches (μ := μ)) where
  registry h := h.registry
  policy h := h.policy
  source h := h.source
  view := view
  record e h := h.record e
  enter c h := h.enter c
  withPolicy _ h := { h with policy := rfl }
  withSource _ h := { h with source := rfl }
  keep _ h := { h with memory := rfl }
  read h := { h with reads := congrArg (· + 1) h.reads }
  close h := { h with }
  send display now now' d h := h.send display now now' d

/-! ## Runs in step -/

variable (clock clock' : Nat → Int64)
variable (callback : Listener → Display → Callback μ)

/-- one call keeps worlds matching, and is answered alike -/
theorem perform (depth : Nat) (h : Matches w w') (c : Call) :
    Matches (Session.perform ⟨clock, callback⟩ depth c w).1 (Session.perform ⟨clock', callback⟩ depth c w').1 ∧
      (Session.perform ⟨clock, callback⟩ depth c w).2 = (Session.perform ⟨clock', callback⟩ depth c w').2 :=
  inStep.perform (inStep.alongside clock clock' callback) depth h c

/-- calls one after the other keep worlds matching -/
theorem run (depth : Nat) (h : Matches w w') (cs : List Call) :
    Matches (Session.run ⟨clock, callback⟩ depth cs w) (Session.run ⟨clock', callback⟩ depth cs w') := by
  induction cs generalizing w w' with
  | nil => exact h
  | cons c cs ih => exact ih (h.perform clock clock' callback depth c).1

end Matches

end Session

end InputRelay
