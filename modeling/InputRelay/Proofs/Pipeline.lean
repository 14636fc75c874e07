/-
From captured input to the wire. Requests are injected between a start and a stop, pumped through the router into a new
sink, and the frames written to a peer that takes them. Each stage has its lemma: the pump makes the calls that the
requests are (`pump_fed`), the sink queues the frames of what it is handed, and the writer puts them on the connection,
where they are read back (`written_read`). `pump_reaches_wire` puts the stages together: no request is lost, repeated or
out of order on its way, whatever it makes the router and the listeners do.
-/
import InputRelay.Proofs.Capture
import InputRelay.Proofs.Session.Sending
import InputRelay.Proofs.Writer

namespace InputRelay.Session

open Wire (Event framesFrom Stream.read Stream.itemsFrom)

variable {μ : Type}

/-- pumping what was injected makes one call for each request, in order -/
theorem pump_fed (s : Surroundings μ) (depth : Nat) (w : World μ) {fed : Capture.Source} {slot : Nat}
    {requests : List Request} (hrun : w.source.running = some slot)
    (hempty : w.source.receiver? slot = some ⟨[], true⟩)
    (hfed : requests.foldlM Capture.Source.inject w.source = .ok fed) :
    perform s depth (.pump slot) { w with source := fed.stop } =
      (run s depth (requests.map .dispatch) { w with source := (fed.stop.dropReceiver slot).2 },
        .routed requests.length) := by
  obtain ⟨hstopped, hdrain⟩ := Capture.Source.drain_fed hrun hempty hfed
  exact perform_pump s depth hstopped hdrain

/-- what a willing peer is written of the frames of some events is read back as these events, and nothing else -/
theorem written_read {peer : Writer.Peer} (h : peer.Willing) (number : UInt64) (es : List Event) :
    let out := Writer.serve peer (framesFrom number es) [] .start
    out.fault = none ∧ out.progress.taken = (framesFrom number es).flatten ∧
      Stream.read out.progress.taken = ⟨Stream.itemsFrom 0 number es, none⟩ := by
  intro out
  have hever : Writer.everQueued (framesFrom number es) [] = framesFrom number es := by
    cases framesFrom number es <;> rfl
  obtain ⟨hfault, htaken⟩ := Writer.serve_willing h (framesFrom number es) [] .start
  rw [hever] at htaken
  have hwritten : out.progress.taken = (framesFrom number es).flatten := htaken
  exact ⟨hfault, hwritten, by rw [hwritten, Wire.Stream.read_frames]⟩

/-- **From capture to the wire.** In any state of a session with nothing sent yet, with any listeners, let requests be
injected into a running source, in whose channel nothing waits, and the source stopped. Pumping them counts them all. The
messages it hands to the sink are, but for the times of sending, those of the same requests dispatched directly, one after
the other, from the same state and under any clock. The taker of the frames, who is still there (`hopen`), then becomes a
writer. A peer that never fails and takes at least one byte of each write gets bytes that are read to the last one as
exactly these messages, in order, the k-th under number k. -/
theorem pump_reaches_wire (s : Surroundings μ) (clock : Nat → Int64) (depth : Nat) (w : World μ)
    {fed : Capture.Source} {slot : Nat} {requests : List Request} {peer : Writer.Peer} (hsink : w.sink = .new)
    (hrun : w.source.running = some slot) (hempty : w.source.receiver? slot = some ⟨[], true⟩)
    (hfed : requests.foldlM Capture.Source.inject w.source = .ok fed)
    (hopen : (perform s depth (.pump slot) { w with source := fed.stop }).1.sink.connected = true)
    (hpeer : peer.Willing) :
    let pumped := perform s depth (.pump slot) { w with source := fed.stop }
    let direct := { w with source := (fed.stop.dropReceiver slot).2 }
    let out := Writer.serve peer pumped.1.sink.queued [] .start
    let reading := Stream.read out.progress.taken
    pumped.2 = .routed requests.length ∧
      undatedIn (logged w pumped.1) =
        (handed ⟨clock, s.callback⟩ depth (requests.map .dispatch) direct).flatten ∧
      out.fault = none ∧ reading.stop = none ∧
      reading.items.map (fun i => (i.number, i.event)) =
        (sentIn (logged w pumped.1)).mapIdx (fun k e => (UInt64.ofNat k, e)) ∧
      (reading.items.map (·.size)).sum = out.progress.taken.length := by
  intro pumped direct out reading
  have hpump : pumped = (run s depth (requests.map .dispatch) direct, .routed requests.length) :=
    pump_fed s depth w hrun hempty hfed
  have hsupplies : Supplies direct pumped.1 := by
    rw [hpump]
    exact keeps_supplies.run s depth _ direct
  have hqueue : pumped.1.sink.queued = framesFrom 0 (sentIn (logged w pumped.1)) := by
    have hsent : pumped.1.sink = w.sink.sendAll (sentIn (logged w pumped.1)) := hsupplies.sink hopen
    rw [hsent, hsink]
    exact FrameSink.sendAll_queued _ rfl
  refine ⟨by rw [hpump], ?_, ?_⟩
  · have hmatch : Matches pumped.1 (run ⟨clock, s.callback⟩ depth (requests.map .dispatch) direct) := by
      rw [hpump]
      exact (Matches.refl direct).run s.clock clock s.callback depth _
    rw [handed_flatten]
    exact (Matches.refl direct).undatedIn_logged hmatch hsupplies (keeps_supplies.run _ depth _ direct)
  · obtain ⟨hfault, htaken, hread⟩ := written_read hpeer 0 (sentIn (logged w pumped.1))
    rw [← hqueue] at hfault hread
    have hreading : reading = ⟨Stream.itemsFrom 0 0 (sentIn (logged w pumped.1)), none⟩ := hread
    refine ⟨hfault, by rw [hreading], ?_, ?_⟩
    · rw [hreading, Wire.Stream.itemsFrom_map]
      simp only [UInt64.zero_add]
    · rw [hreading, Wire.Stream.itemsFrom_size, ← htaken, ← hqueue]

/-- a key for the focus, a touch elsewhere, of which a listener makes a call of its own, and a button for the new focus -/
theorem pump_reaches_wire_three :
    let s : Surroundings Unit := ⟨fun n => 100 + Int64.ofNat n, fun _ d => .call (.dispatch (.home d)) fun _ => .done⟩
    let w : World Unit :=
      run s 0 [.start, .focus (.addDisplay ⟨2⟩), .focus (.addListener ⟨"panel"⟩)] (.new ⟨false, false, true, true⟩ ())
    let requests : List Request := [.event .keyboard (.key ⟨0, 30, 7⟩) none,
      .event .touchscreen (.motion (.touch 0 8 [⟨1, .zero, .zero, .zero⟩])) (some ⟨5⟩),
      .event .mouse (.motion (.press MotionAction.buttonPress 1 9)) none]
    let fed : Capture.Source := ⟨[⟨requests, true⟩], some 0⟩
    let pumped := perform s 2 (.pump 0) { w with source := fed.stop }
    let out := Writer.serve (Writer.scripted (some 3) none none) pumped.1.sink.queued [] .start
    pumped.2 = .routed 3 ∧ out.fault = none ∧ (Stream.read out.progress.taken).stop = none ∧
      (Stream.read out.progress.taken).items.map (fun i => (i.number, i.event)) =
        [(0, .input ⟨⟨2⟩, .keyboard, 7, .key 0 30⟩), (1, .home ⟨5⟩),
          (2, .input ⟨⟨5⟩, .touchscreen, 8, .touch 1 0 .zero .zero .zero⟩),
          (3, .input ⟨⟨5⟩, .mouse, 103, .mouseButton MotionAction.buttonPress 1⟩)] := by
  intro s w requests fed pumped out
  have hopen : pumped.1.sink.connected = true := by decide +kernel +revert
  have hsent : sentIn (logged w pumped.1) = [.input ⟨⟨2⟩, .keyboard, 7, .key 0 30⟩, .home ⟨5⟩,
      .input ⟨⟨5⟩, .touchscreen, 8, .touch 1 0 .zero .zero .zero⟩,
      .input ⟨⟨5⟩, .mouse, 103, .mouseButton MotionAction.buttonPress 1⟩] := by
    decide +kernel +revert
  have hstart : Capture.Source.new.start = .ok (0, w.source) := rfl
  obtain ⟨hrun, hempty⟩ := Capture.Source.start_running hstart
  have hfed : requests.foldlM Capture.Source.inject w.source = .ok fed := rfl
  have hpeer : (Writer.scripted (some 3) none none).Willing := Writer.scripted_willing (by decide)
  obtain ⟨hcount, -, hfault, hstop, hitems, -⟩ := pump_reaches_wire s (fun _ => 0) 2 w rfl hrun hempty hfed hopen hpeer
  rw [hsent] at hitems
  exact ⟨hcount, hfault, hstop, hitems⟩

end InputRelay.Session
