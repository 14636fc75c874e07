/-
A writer whose connection may fail. The peer is any peer: it answers each call as it likes. `Ending peer due fault p` says
how a writer that has so much to write can end: it is done with all of it; or a flush fails, and all of it is written; or a
write fails, and some front part of it is written. Every call before went well (`Smooth`), so the writer ends at the first
call that fails and nowhere else (`Ending.isLast_of_failsAt`). `serve_ending`: that is how every run ends, with what was
queued until then as the bytes due.

`transmit_broken` puts it together with the frames of events: whatever reached the peer is read as the first events that
were sent, each under its own number, and a frame that was cut is found out and never read as an event.
-/
import InputRelay.Proofs.Sink
import InputRelay.Proofs.Wire.Cuts
import InputRelay.Proofs.Writer

namespace InputRelay.Writer

open Wire (Event framesFrom Stream.read)
open Wire.Stream (itemsFrom wholeWithin)

/-! ## Calls that fail -/

def Step.isWrite : Step → Bool
  | wrote _ => true
  | writeFailed => true
  | _ => false

def Step.isFlush : Step → Bool
  | flushed => true
  | flushFailed => true
  | _ => false

theorem Step.not_both (c : Step) : ¬ (c.isWrite = true ∧ c.isFlush = true) := by
  rintro ⟨hwrite, hflush⟩
  cases c with
  | wrote count => cases hflush
  | writeFailed => cases hflush
  | flushed => cases hwrite
  | flushFailed => cases hwrite

/-- a call that fails: it is refused, or it is a write of which nothing is taken -/
def Step.fails : Step → Bool
  | wrote count => count == 0
  | writeFailed => true
  | flushed => false
  | flushFailed => true

/-- one call to the other end, counted from zero among its kind -/
inductive Place where
  | write (n : Nat)
  | flush (n : Nat)

namespace Place

def index : Place → Nat
  | write n => n
  | flush n => n

/-- the calls that are counted with it -/
def counts : Place → Step → Bool
  | write _ => Step.isWrite
  | flush _ => Step.isFlush

/-- the call is among those made -/
def Made (place : Place) (calls : List Step) : Prop := place.index < calls.countP place.counts

/-- the call is the one that is made after some others -/
def IsNext (place : Place) (calls : List Step) (next : Step) : Prop :=
  place.counts next = true ∧ calls.countP place.counts = place.index

/-- the call is the last of those made -/
def IsLast (place : Place) (calls : List Step) : Prop :=
  ∃ before last, calls = before ++ [last] ∧ place.IsNext before last

theorem made_snoc {place : Place} {calls : List Step} {c : Step} (h : place.Made (calls ++ [c])) :
    place.Made calls ∨ place.IsNext calls c := by
  rw [Made, List.countP_append, List.countP_singleton] at h
  split_ifs at h with hc
  · rcases Nat.lt_succ_iff_lt_or_eq.1 h with h | h
    · exact Or.inl h
    · exact Or.inr ⟨hc, h.symm⟩
  · exact Or.inl h

/-- no call is counted twice -/
theorem isNext_unique {place place' : Place} {calls : List Step} {c : Step} (h : place.IsNext calls c)
    (h' : place'.IsNext calls c) : place = place' := by
  obtain ⟨hc, hn⟩ := h
  obtain ⟨hc', hn'⟩ := h'
  cases place with
  | write n =>
    cases place' with
    | write n' => exact congrArg write (hn.symm.trans hn')
    | flush n' => exact absurd ⟨hc, hc'⟩ c.not_both
  | flush n =>
    cases place' with
    | write n' => exact absurd ⟨hc', hc⟩ c.not_both
    | flush n' => exact congrArg flush (hn.symm.trans hn')

end Place

/-- what goes wrong at a call, if anything; a write offers so many bytes -/
def Peer.fault? (peer : Peer) (offered : Nat) : Place → Option Fault
  | .write n =>
    match peer.write n offered with
    | .error text => some (.refused text)
    | .ok count => if count = 0 then some .nothingTaken else none
  | .flush n =>
    match peer.flush n with
    | .error text => some (.refused text)
    | .ok () => none

/-- the call fails, however much it offers -/
def Peer.FailsAt (peer : Peer) (place : Place) (fault : Fault) : Prop :=
  ∀ offered, peer.fault? offered place = some fault

/-! ## Progress without failure -/

/-- all calls so far went well, and they are all that was called for -/
structure Smooth (peer : Peer) (p : Progress) : Prop where
  writes : p.trace.countP Step.isWrite = p.writes
  flushes : p.trace.countP Step.isFlush = p.flushes
  well : ∀ place : Place, place.Made p.trace → ∃ offered, peer.fault? offered place = none
  sound : ∀ c ∈ p.trace, c.fails = false

theorem smooth_start (peer : Peer) : Smooth peer .start where
  writes := rfl
  flushes := rfl
  well := by
    intro place hmade
    exact absurd hmade (Nat.not_lt_zero _)
  sound := nofun

/-- one more call goes well -/
theorem Smooth.snoc {peer : Peer} {p q : Progress} (h : Smooth peer p) (offered : Nat) {c : Step}
    (htrace : q.trace = p.trace ++ [c]) (hwrites : q.writes = p.writes + if c.isWrite then 1 else 0)
    (hflushes : q.flushes = p.flushes + if c.isFlush then 1 else 0) (hc : c.fails = false)
    (hwell : ∀ place : Place, place.IsNext p.trace c → peer.fault? offered place = none) : Smooth peer q where
  writes := by rw [htrace, List.countP_append, List.countP_singleton, h.writes, hwrites]
  flushes := by rw [htrace, List.countP_append, List.countP_singleton, h.flushes, hflushes]
  well := by
    intro place hmade
    rw [htrace] at hmade
    rcases Place.made_snoc hmade with hmade | hnext
    · exact h.well place hmade
    · exact ⟨offered, hwell place hnext⟩
  sound := by
    intro c' hc'
    rw [htrace] at hc'
    rcases List.mem_append.1 hc' with hc' | hc'
    · exact h.sound c' hc'
    · rwa [List.mem_singleton.1 hc']

theorem Smooth.wrote {peer : Peer} {p : Progress} (h : Smooth peer p) {offered count n : Nat} (bs : List UInt8)
    (hw : peer.write p.writes offered = .ok count) (hcount : count ≠ 0) (hn : n ≠ 0) : Smooth peer (p.wrote [n] bs) := by
  refine h.snoc offered rfl rfl rfl (by simpa [Step.fails] using hn) ?_
  intro place hnext
  cases place with
  | write m =>
    have hm : p.writes = m := h.writes.symm.trans hnext.2
    rw [← hm]
    simp only [Peer.fault?, hw, if_neg hcount]
  | flush m => cases hnext.1

theorem Smooth.flushed {peer : Peer} {p : Progress} (h : Smooth peer p) (hf : peer.flush p.flushes = .ok ()) :
    Smooth peer p.flushed := by
  refine h.snoc 0 rfl rfl rfl rfl ?_
  intro place hnext
  cases place with
  | write m => cases hnext.1
  | flush m =>
    have hm : p.flushes = m := h.flushes.symm.trans hnext.2
    rw [← hm]
    simp only [Peer.fault?, hf]

/-! ## How a run ends -/

/-- how a writer ends that has so many bytes to write: with all of them written, or at the first call that fails -/
inductive Ending (peer : Peer) (due : List UInt8) : Option Fault → Progress → Prop
  | done {p : Progress} (smooth : Smooth peer p) (all : p.taken = due) : Ending peer due none p
  | broken {p q : Progress} {place : Place} {last : Step} {offered : Nat} {fault : Fault} (smooth : Smooth peer p)
      (trace : q.trace = p.trace ++ [last]) (next : place.IsNext p.trace last) (fails : last.fails = true)
      (part : q.taken <+: due) (all : last = .flushFailed → q.taken = due)
      (h : peer.fault? offered place = some fault) : Ending peer due (some fault) q

/-- some bytes are written whole, or the writer ends in the middle of them -/
theorem writeAll_ending {peer : Peer} (bs more : List UInt8) {p : Progress} (hp : Smooth peer p) :
    (∃ q, writeAll peer bs p = (q, none) ∧ Smooth peer q ∧ q.taken = p.taken ++ bs) ∨
      ∃ q fault, writeAll peer bs p = (q, some fault) ∧ Ending peer (p.taken ++ (bs ++ more)) (some fault) q := by
  induction bs, p using writeAll.induct peer with
  | case1 p => exact Or.inl ⟨p, by rw [writeAll, if_pos rfl], hp, (List.append_nil _).symm⟩
  | case2 bs p hbs text hw =>
    have hfault : peer.fault? bs.length (.write p.writes) = some (.refused text) := by simp only [Peer.fault?, hw]
    have hnext : (Place.write p.writes).IsNext p.trace .writeFailed := ⟨rfl, hp.writes⟩
    have hstep : writeAll peer bs p =
        ({ p with writes := p.writes + 1, trace := p.trace ++ [.writeFailed] }, some (.refused text)) := by
      rw [writeAll, if_neg hbs, hw]
    have hwrite : Step.writeFailed ≠ .flushFailed := by decide
    exact Or.inr ⟨_, _, hstep, .broken hp rfl hnext rfl (List.prefix_append _ _) (absurd · hwrite) hfault⟩
  | case3 bs p hbs offered hw count hcount =>
    have hlength : 0 < bs.length := List.length_pos_iff.2 hbs
    obtain rfl : offered = 0 := by omega
    have hfault : peer.fault? bs.length (.write p.writes) = some .nothingTaken := by simp only [Peer.fault?, hw, if_true]
    have hstep : writeAll peer bs p = (p.wrote [0] [], some .nothingTaken) := by
      rw [writeAll, if_neg hbs, hw]
      simp [Progress.wrote]
    have hnext : (Place.write p.writes).IsNext p.trace (.wrote 0) := ⟨rfl, hp.writes⟩
    have hpart : (p.wrote [0] []).taken <+: p.taken ++ (bs ++ more) := by
      rw [Progress.wrote, List.append_nil]
      exact List.prefix_append _ _
    have hwrite : Step.wrote 0 ≠ .flushFailed := by decide
    exact Or.inr ⟨_, _, hstep, .broken hp rfl hnext rfl hpart (absurd · hwrite) hfault⟩
  | case4 bs p hbs offered hw count p' hcount ih =>
    have hstep : writeAll peer bs p = writeAll peer (bs.drop count) p' := by
      rw [writeAll, if_neg hbs, hw]
      simp only [count, p', if_neg hcount]
    have htaken : ∀ rest, p'.taken ++ (bs.drop count ++ rest) = p.taken ++ (bs ++ rest) := by
      intro rest
      simp only [p', List.append_assoc]
      rw [← List.append_assoc (bs.take count), List.take_append_drop]
    have hp' : Smooth peer p' := hp.wrote (bs.take count) hw (by omega) hcount
    rw [hstep, ← htaken]
    rcases ih hp' with ⟨q, hq, hsmooth, hall⟩ | hend
    · have hsum := htaken []
      rw [List.append_nil, List.append_nil] at hsum
      exact Or.inl ⟨q, hq, hsmooth, hall.trans hsum⟩
    · exact Or.inr hend

theorem Smooth.written {peer : Peer} {p q : Progress} (hp : Smooth peer p) {bs : List UInt8}
    (hw : writeAll peer bs p = (q, none)) : Smooth peer q ∧ q.taken = p.taken ++ bs := by
  rcases writeAll_ending bs [] hp with ⟨q', hq', hsmooth, hall⟩ | ⟨q', fault, hq', -⟩
  · cases hq'.symm.trans hw
    exact ⟨hsmooth, hall⟩
  · cases hq'.symm.trans hw

theorem Smooth.cut {peer : Peer} {p q : Progress} (hp : Smooth peer p) {bs : List UInt8} {fault : Fault}
    (hw : writeAll peer bs p = (q, some fault)) (more : List UInt8) :
    Ending peer (p.taken ++ (bs ++ more)) (some fault) q := by
  rcases writeAll_ending bs more hp with ⟨q', hq', -⟩ | ⟨q', fault', hq', hend⟩
  · cases hq'.symm.trans hw
  · cases hq'.symm.trans hw
    exact hend

/-- a flush goes well, or the writer ends there with all of it written -/
theorem Smooth.flush_ending {peer : Peer} {p q : Progress} (hp : Smooth peer p) {fault : Option Fault}
    (hf : flush peer p = (q, fault)) : Ending peer p.taken fault q := by
  unfold flush at hf
  cases hanswer : peer.flush p.flushes with
  | ok u =>
    rw [hanswer] at hf
    cases hf
    exact .done (hp.flushed hanswer) rfl
  | error text =>
    have hfault : peer.fault? 0 (.flush p.flushes) = some (.refused text) := by simp only [Peer.fault?, hanswer]
    have hnext : (Place.flush p.flushes).IsNext p.trace .flushFailed := ⟨rfl, hp.flushes⟩
    rw [hanswer] at hf
    cases hf
    exact .broken hp rfl hnext rfl (List.prefix_refl _) (fun _ => rfl) hfault

namespace Ending

variable {peer : Peer} {due : List UInt8} {fault : Option Fault} {p : Progress}

theorem smooth (h : Ending peer due none p) : Smooth peer p ∧ p.taken = due := by
  cases h with
  | done smooth all => exact ⟨smooth, all⟩

/-- what is taken is a front part of what is due -/
theorem taken_prefix (h : Ending peer due fault p) : p.taken <+: due := by
  cases h with
  | done _ all => exact all ▸ List.prefix_refl _
  | broken _ _ _ _ part => exact part

/-- a writer that stops short makes no call after the one that fails -/
theorem trace_eq {reason : Fault} (h : Ending peer due (some reason) p) :
    ∃ calls last, p.trace = calls ++ [last] ∧ last.fails = true ∧ ∀ c ∈ calls, c.fails = false := by
  cases h with
  | broken smooth trace _ fails => exact ⟨_, _, trace, fails, smooth.sound⟩

/-- when a flush fails, all that is due is taken -/
theorem taken_of_flushFailed (h : Ending peer due fault p) (hlast : p.trace.getLast? = some .flushFailed) :
    p.taken = due := by
  cases h with
  | done _ all => exact all
  | broken _ trace _ _ _ all =>
    rw [trace, List.getLast?_concat] at hlast
    exact all (Option.some.inj hlast)

/-- a writer that makes a call at which the peer fails ends there, for that reason -/
theorem isLast_of_failsAt (h : Ending peer due fault p) {place : Place} {reason : Fault}
    (hfails : peer.FailsAt place reason) (hmade : place.Made p.trace) :
    fault = some reason ∧ place.IsLast p.trace := by
  have hnot : ∀ {q : Progress}, Smooth peer q → ¬ place.Made q.trace := by
    intro q hq hmade
    obtain ⟨offered, hwell⟩ := hq.well place hmade
    rw [hfails offered] at hwell
    cases hwell
  cases h with
  | done smooth => exact absurd hmade (hnot smooth)
  | @broken q _ place' last offered fault smooth trace next _ _ _ h =>
    rw [trace] at hmade ⊢
    have hnext := (Place.made_snoc hmade).resolve_left (hnot smooth)
    obtain rfl := Place.isNext_unique next hnext
    rw [hfails offered] at h
    exact ⟨h.symm, q.trace, last, rfl, hnext⟩

end Ending

/-- every run ends so: what is due is all that was queued, at the start and in the batches that came -/
theorem serve_ending {peer : Peer} (queue : List (List UInt8)) (batches : List (List (List UInt8))) {p : Progress}
    (hp : Smooth peer p) :
    ∃ came, batches = came ++ (serve peer queue batches p).pending ∧
      Ending peer (p.taken ++ (queue ++ came.flatten).flatten) (serve peer queue batches p).fault
        (serve peer queue batches p).progress := by
  induction queue, batches, p using serve.induct peer with
  | case1 batches p q fault hf =>
    rw [serve_idle hf]
    exact ⟨[], rfl, by simpa using hp.flush_ending hf⟩
  | case2 batches p frame rest q fault hw =>
    rw [serve_cut hw]
    exact ⟨[], rfl, by simpa using hp.cut hw rest.flatten⟩
  | case3 batches p frame rest q hw hrest ih =>
    obtain ⟨hq, htaken⟩ := hp.written hw
    obtain ⟨came, hcame, hend⟩ := ih hq
    rw [htaken, List.append_assoc] at hend
    rw [serve_next hw hrest]
    exact ⟨came, hcame, hend⟩
  | case4 batches p frame rest q hw hrest q' fault hf =>
    obtain rfl : rest = [] := Classical.not_not.1 hrest
    obtain ⟨hq, htaken⟩ := hp.written hw
    have hend := hq.flush_ending hf
    rw [htaken] at hend
    rw [serve_unflushed hw hf]
    exact ⟨[], rfl, by simpa using hend⟩
  | case5 p frame rest q hw hrest q' hf ih =>
    obtain rfl : rest = [] := Classical.not_not.1 hrest
    obtain ⟨hq, htaken⟩ := hp.written hw
    obtain ⟨hq', htaken'⟩ := (hq.flush_ending hf).smooth
    obtain ⟨came, hcame, hend⟩ := ih hq'
    rw [htaken', htaken, List.append_assoc] at hend
    rw [serve_last hw hf]
    exact ⟨came, hcame, hend⟩
  | case6 p frame rest q hw hrest q' hf batch later ih =>
    obtain rfl : rest = [] := Classical.not_not.1 hrest
    obtain ⟨hq, htaken⟩ := hp.written hw
    obtain ⟨hq', htaken'⟩ := (hq.flush_ending hf).smooth
    obtain ⟨came, hcame, hend⟩ := ih hq'
    rw [htaken', htaken, List.append_assoc] at hend
    rw [serve_last hw hf]
    exact ⟨batch :: came, congrArg (batch :: ·) hcame, hend⟩

/-! ## Events in, bytes out -/

/-- the batches of frames are what the sink queues for the batches of events -/
theorem queued_frameBatches {sink : FrameSink} (h : sink.connected = true) (later : List (List Event)) (k : Nat) :
    sink.queued ++ ((frameBatches sink later).take k).flatten = (sink.sendAll (later.take k).flatten).queued := by
  induction later generalizing sink k with
  | nil => simp [frameBatches, FrameSink.sendAll]
  | cons batch later ih =>
    cases k with
    | zero => simp [FrameSink.sendAll]
    | succ k =>
      have hafter : (sink.sendAll batch).connected = true := (sink.sendAll_connected batch).trans h
      have hbatch : sink.queued ++ (sink.sendAll batch).queued.drop sink.queued.length = (sink.sendAll batch).queued := by
        rw [FrameSink.sendAll_queued batch h, List.drop_left]
      rw [frameBatches, List.take_succ_cons, List.flatten_cons, ← List.append_assoc, hbatch, ih hafter k,
        List.take_succ_cons, List.flatten_cons, FrameSink.sendAll_append]

theorem length_frameBatches (sink : FrameSink) (later : List (List Event)) :
    (frameBatches sink later).length = later.length := by
  induction later generalizing sink with
  | nil => rfl
  | cons batch later ih => exact congrArg (· + 1) (ih _)

/-- a transmission ends like a run that has to write the frames of all events that were sent until then -/
theorem transmit_ending (peer : Peer) (events : List Event) (later : List (List Event)) :
    let t := transmit peer events later
    t.sink.queued = framesFrom 0 (events ++ (later.take (later.length - t.outcome.pending.length)).flatten) ∧
      Ending peer t.sink.queued.flatten t.outcome.fault t.outcome.progress := by
  intro t
  obtain ⟨came, hcame, hend⟩ := serve_ending (FrameSink.new.sendAll events).queued
    (frameBatches (FrameSink.new.sendAll events) later) (smooth_start peer)
  have houtcome : serve peer (FrameSink.new.sendAll events).queued (frameBatches (FrameSink.new.sendAll events) later)
      .start = t.outcome := rfl
  rw [houtcome] at hcame hend
  have hopen : (FrameSink.new.sendAll events).connected = true := FrameSink.sendAll_connected _ events
  have htake : came = (frameBatches (FrameSink.new.sendAll events) later).take
      (later.length - t.outcome.pending.length) := by
    have hlength := congrArg List.length hcame
    rw [length_frameBatches, List.length_append] at hlength
    rw [hcame, List.take_append_of_le_length (by omega), List.take_of_length_le (by omega)]
  have hqueued : (FrameSink.new.sendAll events).queued ++ came.flatten = t.sink.queued := by
    rw [htake]
    exact queued_frameBatches hopen later _
  refine ⟨?_, ?_⟩
  · have hsent : t.sink = FrameSink.new.sendAll
        (events ++ (later.take (later.length - t.outcome.pending.length)).flatten) := (FrameSink.sendAll_append _ _ _).symm
    rw [hsent, FrameSink.sendAll_queued _ rfl]
    rfl
  · rw [hqueued] at hend
    exact hend

/-! ## Main result -/

/-- **A failed connection never corrupts the stream.** Send any events through a new sink, at the start and in batches at
the flushes, to any peer. If the peer fails at some call, be it a write that is refused or of which nothing is taken, or a
flush, and the writer makes that call, then it ends there for that reason. However it stops short, it made no call after
the one that failed; the peer took a front part of all frames queued until then, and all of them if it was a flush that
failed. A reader of what the peer took gets the first events that were sent, as many as have their frames in it whole,
numbered from zero. If the cut is at the end of a frame that is all; if not, the reader finds at the start of the cut frame
that its header or its payload is not all there. -/
theorem transmit_broken (peer : Peer) (events : List Event) (later : List (List Event)) :
    let t := transmit peer events later
    let calls := t.outcome.progress.trace
    let taken := t.outcome.progress.taken
    let sent := events ++ (later.take (later.length - t.outcome.pending.length)).flatten
    let whole := wholeWithin t.sink.queued taken.length
    let size := (t.sink.queued.take whole).flatten.length
    t.sink.queued = framesFrom 0 sent ∧
    (∀ place fault, peer.FailsAt place fault → place.Made calls → t.outcome.fault = some fault ∧ place.IsLast calls) ∧
    ∀ fault, t.outcome.fault = some fault →
      (∃ before last, calls = before ++ [last] ∧ last.fails = true ∧ ∀ c ∈ before, c.fails = false) ∧
      taken <+: t.sink.queued.flatten ∧
      (calls.getLast? = some .flushFailed → taken = t.sink.queued.flatten) ∧
      (Stream.read taken).items.map (fun i => (i.number, i.event)) =
        (sent.take whole).mapIdx (fun k e => (UInt64.ofNat k, e)) ∧
      (taken.length = size → (Stream.read taken).stop = none) ∧
      (taken.length ≠ size → ∃ e, sent[whole]? = some e ∧
        (Stream.read taken).stop = some (size, e.cutFault (taken.length - size))) := by
  intro t calls taken sent whole size
  have hqueued : t.sink.queued = framesFrom 0 sent := (transmit_ending peer events later).1
  have hend : Ending peer t.sink.queued.flatten t.outcome.fault t.outcome.progress := (transmit_ending peer events later).2
  refine ⟨hqueued, fun place fault hfails hmade => hend.isLast_of_failsAt hfails hmade, fun fault hfault => ?_⟩
  have hprefix : taken <+: t.sink.queued.flatten := hend.taken_prefix
  have hframes : taken <+: (framesFrom 0 sent).flatten := hqueued ▸ hprefix
  obtain ⟨stop, hread, hnone, hsome⟩ := Wire.Stream.readFrom_cut 0 0 sent hframes
  rw [← hqueued] at hread hnone hsome
  have hreading : Stream.read taken = ⟨itemsFrom 0 0 (sent.take whole), stop⟩ := hread
  rw [hreading]
  refine ⟨?_, hprefix, hend.taken_of_flushFailed, ?_, hnone, ?_⟩
  · rw [hfault] at hend
    exact hend.trace_eq
  · rw [Wire.Stream.itemsFrom_map]
    simp only [UInt64.zero_add]
  · intro hcut
    obtain ⟨e, he, hstop⟩ := hsome hcut
    rw [Nat.zero_add] at hstop
    exact ⟨e, he, hstop⟩

/-- a peer that takes nine bytes at a time goes away in the middle of the second frame, with a third one queued: the reader
gets the first event, and the nine bytes of the second frame are no header -/
theorem transmit_broken_midframe :
    let t := transmit (scripted (some 9) (some 5) none) [.home ⟨1⟩] [[.home ⟨2⟩, .home ⟨3⟩]]
    (scripted (some 9) (some 5) none).FailsAt (.write 4) (.refused "peer went away") ∧
      (Place.write 4).Made t.outcome.progress.trace ∧ t.outcome.fault = some (.refused "peer went away") ∧
      (Place.write 4).IsLast t.outcome.progress.trace ∧ t.outcome.progress.taken <+: t.sink.queued.flatten ∧
      (Stream.read t.outcome.progress.taken).items.map (fun i => (i.number, i.event)) = [(0, .home ⟨1⟩)] ∧
      (Stream.read t.outcome.progress.taken).stop = some (20, .insufficientData 16 9) := by
  intro t
  have htrace : t.outcome.progress.trace = [.wrote 9, .wrote 9, .wrote 2, .flushed, .wrote 9, .writeFailed] := by cbv
  have hpending : t.outcome.pending = [] := by cbv
  have hlength : t.outcome.progress.taken.length = 29 := by cbv
  have hwhole : wholeWithin t.sink.queued 29 = 1 := by cbv
  have hsize : (t.sink.queued.take 1).flatten.length = 20 := by cbv
  have hfails : (scripted (some 9) (some 5) none).FailsAt (.write 4) (.refused "peer went away") := fun offered => rfl
  have hmade : (Place.write 4).Made t.outcome.progress.trace := by
    rw [Place.Made, htrace]
    decide
  obtain ⟨-, hends, hstops⟩ := transmit_broken (scripted (some 9) (some 5) none) [.home ⟨1⟩] [[.home ⟨2⟩, .home ⟨3⟩]]
  obtain ⟨hfault, hlast⟩ := hends _ _ hfails hmade
  obtain ⟨-, hprefix, -, hitems, -, hstop⟩ := hstops _ hfault
  rw [hlength, hwhole, hsize, hpending] at hstop
  obtain ⟨e, he, hstop⟩ := hstop (by decide)
  cases he
  rw [hlength, hwhole] at hitems
  exact ⟨hfails, hmade, hfault, hlast, hprefix, hitems, hstop⟩

end InputRelay.Writer
