/-
How messages are numbered. Two things happen to a sink: it is given an event, or the taker of its frames goes away. Over
any history of both:
- every event given takes the next number, from zero on and around after 2^64, whether its frame is taken or not
  (`useAll_issued`);
- the frames queued are those of the events given while someone took them, each under its own number
  (`useAll_queued`, `framesFrom_encode`).
So a number is never burnt, and a number comes back only after 2^64 events (`numbers_gap_free`).
-/
import InputRelay.Proofs.Sink

namespace InputRelay

open Wire (Event encode framesFrom)

/-- what happens to a sink -/
inductive SinkUse where
  | send (e : Event)
  | close
deriving DecidableEq, Repr

/-- the events that a sink is given -/
def sentBy (us : List SinkUse) : List Event :=
  us.filterMap fun
    | .send e => some e
    | .close => none

/-- the events that a sink is given before the taker of its frames goes away -/
def takenOf (us : List SinkUse) : List Event := sentBy (us.takeWhile (· ≠ .close))

/-- the frames of some events are what framing makes of each, under its own number -/
theorem framesFrom_encode (number : UInt64) (es : List Event) :
    (framesFrom number es).map .ok = es.mapIdx fun k e => encode e (number + UInt64.ofNat k) := by
  induction es generalizing number with
  | nil => rfl
  | cons e es ih =>
    have h0 : number + UInt64.ofNat 0 = number := UInt64.add_zero number
    rw [framesFrom, List.map_cons, ih, List.mapIdx_cons, h0, Wire.encode_eq]
    simp only [Wire.succ_add_ofNat]

namespace FrameSink

def use (s : FrameSink) : SinkUse → FrameSink
  | .send e => (s.send e).2
  | .close => s.close

def useAll (s : FrameSink) (us : List SinkUse) : FrameSink := us.foldl use s

theorem useAll_snoc (s : FrameSink) (us : List SinkUse) (u : SinkUse) :
    s.useAll (us ++ [u]) = (s.useAll us).use u := by
  simp only [useAll, List.foldl_append, List.foldl_cons, List.foldl_nil]

/-- every event takes one number, and nothing else does -/
theorem useAll_issued (s : FrameSink) (us : List SinkUse) :
    (s.useAll us).issued = s.issued + UInt64.ofNat (sentBy us).length := by
  induction us generalizing s with
  | nil => exact (UInt64.add_zero s.issued).symm
  | cons u us ih =>
    cases u with
    | close => exact ih s.close
    | send e =>
      calc ((s.send e).2.useAll us).issued
          = (s.send e).2.issued + UInt64.ofNat (sentBy us).length := ih _
        _ = s.issued + UInt64.ofNat ((sentBy us).length + 1) := by rw [send_issued, Wire.succ_add_ofNat]

/-- frames are taken until their taker goes away, and never again -/
theorem useAll_connected (s : FrameSink) (us : List SinkUse) :
    (s.useAll us).connected = true ↔ s.connected = true ∧ .close ∉ us := by
  induction us generalizing s with
  | nil => simp [useAll]
  | cons u us ih =>
    refine (ih (s.use u)).trans ?_
    cases u with
    | close => simp [use, close]
    | send e => simp [use]

/-- without a taker nothing is queued -/
theorem useAll_closed {s : FrameSink} (h : s.connected = false) (us : List SinkUse) :
    (s.useAll us).queued = s.queued := by
  induction us generalizing s with
  | nil => rfl
  | cons u us ih =>
    cases u with
    | close => exact ih rfl
    | send e =>
      have hsame : (s.send e).2.queued = s.queued := by rw [send_eq, if_neg (by simp [h])]
      exact (ih ((send_connected s e).trans h)).trans hsame

/-- what is queued are the frames of the events given while someone took them -/
theorem useAll_queued {s : FrameSink} (h : s.connected = true) (us : List SinkUse) :
    (s.useAll us).queued = s.queued ++ framesFrom s.issued (takenOf us) := by
  induction us generalizing s with
  | nil => exact (List.append_nil _).symm
  | cons u us ih =>
    cases u with
    | close => exact (useAll_closed rfl us).trans (List.append_nil _).symm
    | send e =>
      have hus := ih (s := (s.send e).2) (by rw [send_connected, h])
      rw [send_issued, send_queued e h, List.append_assoc] at hus
      exact hus

/-! ## Main result -/

/-- **Numbering without gaps.** Take any history of a new sink, and one more event. The number of events given so far,
modulo 2^64, is the number of frames issued and the number that the next event takes. Framing the event under that number
succeeds. Its frame is queued at the end if someone still takes frames, and otherwise nothing is; either way its number is
spent. What is queued are the frames of the events given before the taker went away, in order and one for each, the k-th
framed under number k. And no other event gets the same number until 2^64 have been given. -/
theorem numbers_gap_free (us : List SinkUse) (e : Event) :
    let s := new.useAll us
    let count := (sentBy us).length
    s.issued.toNat = count % UInt64.size ∧
    s.sequence.next.1.toNat = count % UInt64.size ∧
    (∃ frame, encode e (UInt64.ofNat count) = .ok frame ∧
      if .close ∈ us then (s.send e).1 = .closed ∧ (s.send e).2.queued = s.queued
      else (s.send e).1 = .queued frame ∧ (s.send e).2.queued = s.queued ++ [frame]) ∧
    (s.send e).2.issued.toNat = (count + 1) % UInt64.size ∧
    s.queued.map .ok = (takenOf us).mapIdx (fun k e => encode e (UInt64.ofNat k)) ∧
    ∀ vs, (sentBy vs).length + 1 < UInt64.size →
      (new.useAll (us ++ .send e :: vs)).sequence.next.1 ≠ s.sequence.next.1 := by
  intro s count
  have hcount : ∀ us, (new.useAll us).issued = UInt64.ofNat (sentBy us).length := fun us =>
    (useAll_issued new us).trans (UInt64.zero_add _)
  have hissued : s.issued = UInt64.ofNat count := hcount us
  have hnat : ∀ n, (UInt64.ofNat n).toNat = n % UInt64.size := fun n => UInt64.toNat_ofNat'
  have hconnected : s.connected = true ↔ .close ∉ us := by simp [s, useAll_connected, new]
  have hnumber : s.issued.toNat = count % UInt64.size := by rw [hissued, hnat]
  refine ⟨hnumber, hnumber, ⟨_, Wire.encode_eq e _, ?_⟩, ?_, ?_, fun vs hvs heq => ?_⟩
  · rw [send_eq, hissued]
    split_ifs with hclose hopen hopen
    · exact absurd hclose (hconnected.1 hopen)
    · exact ⟨rfl, rfl⟩
    · exact ⟨rfl, rfl⟩
    · exact absurd (hconnected.2 hclose) hopen
  · have hsent : sentBy (us ++ [.send e]) = sentBy us ++ [e] := List.filterMap_append
    have hnext := hcount (us ++ [.send e])
    rw [useAll_snoc, hsent, List.length_append] at hnext
    exact (congrArg UInt64.toNat hnext).trans (hnat _)
  · have hqueued : s.queued = framesFrom 0 (takenOf us) := (useAll_queued rfl us).trans (List.nil_append _)
    rw [hqueued, framesFrom_encode]
    simp only [UInt64.zero_add]
  · have hlater : (sentBy (us ++ .send e :: vs)).length = count + ((sentBy vs).length + 1) := by
      have hsplit : sentBy (us ++ .send e :: vs) = sentBy us ++ e :: sentBy vs := List.filterMap_append
      rw [hsplit, List.length_append, List.length_cons]
    have hsame : UInt64.ofNat (count + ((sentBy vs).length + 1)) = UInt64.ofNat count := by
      rw [← hlater, ← hcount, ← hissued]
      exact heq
    have hmod := congrArg UInt64.toNat hsame
    rw [hnat, hnat] at hmod
    simp only [UInt64.size] at hmod hvs
    omega

/-- the taker goes away between the first event and the second: one frame is queued, and the next two events take the
numbers 2 and 3 all the same -/
theorem numbers_gap_free_dropped :
    let us : List SinkUse := [.send (.home ⟨1⟩), .close, .send (.home ⟨2⟩)]
    let s := new.useAll us
    (sentBy [.send (.home ⟨4⟩)]).length + 1 < UInt64.size ∧
    s.issued.toNat = 2 ∧ s.queued = [Wire.Event.frame (.home ⟨1⟩) 0] ∧ (s.send (.home ⟨3⟩)).1 = .closed ∧
    (s.send (.home ⟨3⟩)).2.issued.toNat = 3 ∧
    (new.useAll (us ++ [.send (.home ⟨3⟩), .send (.home ⟨4⟩)])).sequence.next.1 ≠ s.sequence.next.1 := by
  intro us s
  have hfew : (sentBy [.send (.home ⟨4⟩)]).length + 1 < UInt64.size := by decide
  obtain ⟨hissued, -, ⟨frame, -, hclosed⟩, hnext, hqueued, hfresh⟩ := numbers_gap_free us (.home ⟨3⟩)
  rw [if_pos (by decide)] at hclosed
  have hone : s.queued.map .ok = [(.ok (Wire.Event.frame (.home ⟨1⟩) 0) : Except Wire.FrameError (List UInt8))] := by
    rw [hqueued]
    exact congrArg (· :: []) (Wire.encode_eq _ _)
  have hqueue : s.queued = [Wire.Event.frame (.home ⟨1⟩) 0] :=
    List.map_injective_iff.2 (fun _ _ h => Except.ok.inj h) hone
  exact ⟨hfew, hissued, hqueue, hclosed.1, hnext, hfresh [.send (.home ⟨4⟩)] hfew⟩

end FrameSink

end InputRelay
