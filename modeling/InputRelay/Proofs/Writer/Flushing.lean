/-
What a writer calls for, and when it flushes. `Flow queue batches calls` says how the calls to the other end go while some
frames are queued and more come at the flushes:
- each frame is written in pieces of its own, so no write has bytes of two frames;
- behind the last piece of a frame comes a flush if nothing else is queued then, and none if something is;
- when nothing is queued and nothing more can come there is one more flush, and that is all.
With a willing peer the writer's calls flow like this (`serve_flow`), so what it wrote is flushed whenever it has nothing
left to write: when it is done, and also when it only waits for more (`Waits`, `unflushed_of_waits`). `serve_flushed` is
all of it, for a writer that is new or has waited any number of times.
-/
import InputRelay.Proofs.Writer

namespace InputRelay.Writer

/-! ## Calls -/

/-- the calls for queued frames, and for the batches that come in at the flushes -/
inductive Flow : List (List UInt8) → List (List (List UInt8)) → List Step → Prop
  | done (batches : List (List (List UInt8))) : Flow [] batches [.flushed]
  | next {frame : List UInt8} {rest : List (List UInt8)} {batches : List (List (List UInt8))} {counts : List Nat}
      {calls : List Step} (hpieces : Pieces frame counts) (hrest : rest ≠ []) (h : Flow rest batches calls) :
      Flow (frame :: rest) batches (counts.map .wrote ++ calls)
  | last {frame : List UInt8} {batches : List (List (List UInt8))} {counts : List Nat} {calls : List Step}
      (hpieces : Pieces frame counts) (h : Flow (nextBatch batches).1 (nextBatch batches).2 calls) :
      Flow [frame] batches (counts.map .wrote ++ .flushed :: calls)

/-- how many bytes were written since the last flush -/
def unflushed (calls : List Step) : Nat :=
  calls.foldl
    (fun n c =>
      match c with
      | .wrote count => n + count
      | .flushed => 0
      | _ => n) 0

theorem unflushed_snoc_flushed (calls : List Step) : unflushed (calls ++ [.flushed]) = 0 := by
  simp only [unflushed, List.foldl_append, List.foldl_cons, List.foldl_nil]

/-- before its last flush, which is its last call, a flow has flushed all it wrote -/
theorem Flow.snoc {queue : List (List UInt8)} {batches : List (List (List UInt8))} {calls : List Step}
    (h : Flow queue batches calls) {before : List Step} (hbefore : unflushed before = 0) :
    ∃ front, calls = front ++ [.flushed] ∧ unflushed (before ++ front) = 0 := by
  -- a frame with others behind it leaves something unflushed, so the statement is for any calls before when frames follow
  suffices hany : ∃ front, calls = front ++ [.flushed] ∧
      ∀ before, (queue = [] → unflushed before = 0) → unflushed (before ++ front) = 0 by
    obtain ⟨front, hcalls, hfront⟩ := hany
    exact ⟨front, hcalls, hfront before fun _ => hbefore⟩
  clear hbefore
  induction h with
  | done batches => exact ⟨[], rfl, fun before h => by rw [List.append_nil]; exact h rfl⟩
  | @next frame rest batches counts calls hpieces hrest _ ih =>
    obtain ⟨front, rfl, hfront⟩ := ih
    refine ⟨counts.map .wrote ++ front, (List.append_assoc _ _ _).symm, fun before _ => ?_⟩
    rw [← List.append_assoc]
    exact hfront _ fun hnil => absurd hnil hrest
  | @last frame batches counts calls hpieces _ ih =>
    obtain ⟨front, rfl, hfront⟩ := ih
    refine ⟨counts.map .wrote ++ .flushed :: front, by simp, fun before _ => ?_⟩
    have hsplit : before ++ (counts.map .wrote ++ .flushed :: front) =
        before ++ counts.map .wrote ++ [.flushed] ++ front := by simp
    rw [hsplit]
    exact hfront _ fun _ => unflushed_snoc_flushed _

/-! ## Runs -/

/-- with a willing peer the calls flow -/
theorem serve_flow {peer : Peer} (h : peer.Willing) (queue : List (List UInt8)) (batches : List (List (List UInt8)))
    (p : Progress) :
    ∃ calls, (serve peer queue batches p).progress.trace = p.trace ++ calls ∧ Flow queue batches calls := by
  induction queue, batches, p using serve_induction h with
  | idle batches p =>
    rw [serve_nil h]
    exact ⟨[.flushed], rfl, .done batches⟩
  | next hpieces hr hs ih =>
    obtain ⟨calls, htrace, hflow⟩ := ih
    refine ⟨_, ?_, .next hpieces hr hflow⟩
    rw [hs, htrace]
    simp [Progress.wrote]
  | last hpieces hs ih =>
    obtain ⟨calls, htrace, hflow⟩ := ih
    refine ⟨_, ?_, .last hpieces hflow⟩
    rw [hs, htrace]
    simp [Progress.flushed, Progress.wrote]

/-! ## Waiting -/

theorem flushed_trace (p : Progress) : p.flushed.trace = p.trace ++ [.flushed] := rfl

/-- where a writer can stand that has nothing to write and waits for more: it is new, or it went on from such a place
and came to where it would flush once more and be done, but that more can come -/
inductive Waits (peer : Peer) : Progress → Prop
  | start : Waits peer .start
  | again {p q : Progress} (queue : List (List UInt8)) (batches : List (List (List UInt8))) (h : Waits peer p)
      (hq : (serve peer queue batches p).progress = q.flushed) : Waits peer q

/-- going on from where all is flushed, a writer comes to flush once more only where all is flushed again -/
theorem unflushed_of_flushed {peer : Peer} (h : peer.Willing) {p q : Progress} {queue : List (List UInt8)}
    {batches : List (List (List UInt8))} (hp : unflushed p.trace = 0)
    (hq : (serve peer queue batches p).progress = q.flushed) : unflushed q.trace = 0 := by
  obtain ⟨calls, htrace, hflow⟩ := serve_flow h queue batches p
  obtain ⟨front, rfl, hfront⟩ := hflow.snoc hp
  rw [hq, flushed_trace, ← List.append_assoc] at htrace
  rw [List.append_cancel_right htrace]
  exact hfront

theorem unflushed_of_waits {peer : Peer} (h : peer.Willing) {p : Progress} (hp : Waits peer p) :
    unflushed p.trace = 0 := by
  induction hp with
  | start => rfl
  | again queue batches _ hq ih => exact unflushed_of_flushed h ih hq

/-- a run with a willing peer ends with a flush -/
theorem serve_ends_flushed {peer : Peer} (h : peer.Willing) (queue : List (List UInt8))
    (batches : List (List (List UInt8))) (p : Progress) :
    ∃ q : Progress, (serve peer queue batches p).progress = q.flushed := by
  induction queue, batches, p using serve_induction h with
  | idle batches p => exact ⟨p, by rw [serve_nil h]⟩
  | next _ _ hs ih =>
    rw [hs]
    exact ih
  | last _ hs ih =>
    rw [hs]
    exact ih

/-! ## Main result -/

/-- **Output and flushing.** Take a peer that never fails and takes at least one byte of each write, a writer that is new
or waits for a frame, any frames queued for it, and any batches of frames that come in while it flushes, up to the end of
it all. The writer ends well. What the peer takes are all frames ever queued, in order. The calls flow: no write spans two
frames, a flush stands behind a frame exactly if nothing else is queued then, and there is one more at the end. All that
was written is flushed where the writer began to wait, when it is done, and where it would wait again if more could come. -/
theorem serve_flushed {peer : Peer} (h : peer.Willing) {p : Progress} (hp : Waits peer p) (queue : List (List UInt8))
    (batches : List (List (List UInt8))) :
    let out := serve peer queue batches p
    out.fault = none ∧
    out.progress.taken = p.taken ++ (everQueued queue batches).flatten ∧
    (∃ calls, out.progress.trace = p.trace ++ calls ∧ Flow queue batches calls) ∧
    unflushed p.trace = 0 ∧ unflushed out.progress.trace = 0 ∧
    ∃ q, Waits peer q ∧ out.progress = q.flushed ∧ unflushed q.trace = 0 := by
  intro out
  obtain ⟨hfault, htaken⟩ := serve_willing h queue batches p
  obtain ⟨q, hq⟩ := serve_ends_flushed h queue batches p
  have hbefore : unflushed p.trace = 0 := unflushed_of_waits h hp
  have hafter : unflushed out.progress.trace = 0 := by
    rw [show out.progress = q.flushed from hq, flushed_trace]
    exact unflushed_snoc_flushed q.trace
  exact ⟨hfault, htaken, serve_flow h queue batches p, hbefore, hafter, q, .again queue batches hp hq, hq,
    unflushed_of_flushed h hbefore hq⟩

/-- three frames for a peer that takes three bytes at a time, one of them while the writer flushes, and another frame
after it has waited -/
theorem serve_flushed_twice :
    let peer := scripted (some 3) none none
    peer.Willing ∧ ∃ q, Waits peer q ∧ q.taken = [1, 2, 3, 4, 5, 6, 7] ∧ unflushed q.trace = 0 ∧
      let out := serve peer [[8, 9]] [] q
      out.fault = none ∧ out.progress.taken = [1, 2, 3, 4, 5, 6, 7, 8, 9] ∧ unflushed out.progress.trace = 0 := by
  intro peer
  have hpeer : peer.Willing := scripted_willing (by decide)
  obtain ⟨-, htaken, -, -, -, q, hwaits, hq, hflushed⟩ :=
    serve_flushed hpeer .start [[1, 2, 3, 4], [5]] [[[6, 7]]]
  have hsofar : q.taken = [1, 2, 3, 4, 5, 6, 7] := by
    rw [hq] at htaken
    exact htaken
  obtain ⟨hfault, hmore, -, -, hdone, -⟩ := serve_flushed hpeer hwaits [[8, 9]] []
  rw [hsofar] at hmore
  exact ⟨hpeer, q, hwaits, hsofar, hflushed, hfault, hmore, hdone⟩

end InputRelay.Writer
