/-
The writer step by step, and with a willing peer, one that never fails and takes at least one byte of whatever it is
offered. One equation for each thing the writer does says how it goes on (`serve_idle` to `serve_last`). With a willing
peer only two of them count: each frame is written in some pieces that make it up (`writeAll_willing`), and then it is
flushed or not. So what is to hold of a run with such a peer is shown frame by frame (`serve_induction`); that all frames
ever queued are taken, in order and nothing else, is the first thing shown so (`serve_willing`).
-/
import Mathlib.Tactic
import InputRelay.Writer

namespace InputRelay.Writer

/-- a peer that never fails and takes at least one byte of each write -/
structure Peer.Willing (peer : Peer) : Prop where
  takes : ∀ n offered, 0 < offered → ∃ count, peer.write n offered = .ok count ∧ 0 < count
  flushes : ∀ n, peer.flush n = .ok ()

/-- a scripted peer that does not fail is willing, unless it takes nothing at a time -/
theorem scripted_willing {chunk : Option Nat} (h : chunk ≠ some 0) : (scripted chunk none none).Willing where
  takes n offered ho := by
    cases chunk with
    | none => exact ⟨offered, rfl, ho⟩
    | some c =>
      have hc : c ≠ 0 := fun hz => h (congrArg some hz)
      exact ⟨min c offered, rfl, by omega⟩
  flushes n := rfl

/-- progress after writes of some sizes, which took some bytes -/
def Progress.wrote (p : Progress) (counts : List Nat) (bs : List UInt8) : Progress :=
  { p with writes := p.writes + counts.length, taken := p.taken ++ bs, trace := p.trace ++ counts.map .wrote }

/-- progress after a flush -/
def Progress.flushed (p : Progress) : Progress :=
  { p with flushes := p.flushes + 1, trace := p.trace ++ [.flushed] }

theorem flush_willing {peer : Peer} (h : peer.Willing) (p : Progress) : flush peer p = (p.flushed, none) := by
  unfold flush
  rw [h.flushes]
  rfl

/-- sizes that some bytes are written in -/
structure Pieces (bs : List UInt8) (counts : List Nat) : Prop where
  pos : ∀ n ∈ counts, 0 < n
  sum : counts.sum = bs.length

/-- bytes are taken whole, in pieces of at least one byte -/
theorem writeAll_willing {peer : Peer} (h : peer.Willing) (bs : List UInt8) (p : Progress) :
    ∃ counts, writeAll peer bs p = (p.wrote counts bs, none) ∧ Pieces bs counts := by
  induction hl : bs.length using Nat.strong_induction_on generalizing bs p with
  | _ size ih =>
    rw [writeAll]
    by_cases hbs : bs = []
    · subst hbs
      exact ⟨[], by simp [Progress.wrote], by simp, rfl⟩
    have hpos : 0 < bs.length := List.length_pos_iff.2 hbs
    obtain ⟨offered, hw, ho⟩ := h.takes p.writes bs.length hpos
    have hcount : min offered bs.length ≠ 0 := by omega
    obtain ⟨counts, hrest, hall, hsum⟩ := ih (bs.drop (min offered bs.length)).length
      (by rw [List.length_drop]; omega) (bs.drop (min offered bs.length)) (p.wrote [min offered bs.length]
        (bs.take (min offered bs.length))) rfl
    refine ⟨min offered bs.length :: counts, ?_, ?_, ?_⟩
    · rw [if_neg hbs, hw]
      simp only [hcount, if_false]
      refine (hrest.trans ?_)
      simp [Progress.wrote, Nat.add_assoc, Nat.add_comm 1]
    · intro n hn
      rcases List.mem_cons.1 hn with rfl | hn
      · omega
      · exact hall n hn
    · rw [List.sum_cons, hsum, List.length_drop]
      omega

/-- the frames ever queued: a batch comes in whenever the queue has run dry, and an empty one is the last -/
def everQueued : List (List UInt8) → List (List (List UInt8)) → List (List UInt8)
  | [], _ => []
  | queue, [] => queue
  | queue, batch :: later => queue ++ everQueued batch later

/-- what comes next once a frame is written and nothing else is queued -/
def nextBatch : List (List (List UInt8)) → List (List UInt8) × List (List (List UInt8))
  | [] => ([], [])
  | batch :: later => (batch, later)

theorem everQueued_cons (frame : List UInt8) (rest : List (List UInt8)) (batches : List (List (List UInt8))) :
    everQueued (frame :: rest) batches = frame ::
      if rest = [] then everQueued (nextBatch batches).1 (nextBatch batches).2 else everQueued rest batches := by
  cases rest <;> cases batches <;> rfl

/-! ## Step by step -/

theorem serve_idle {peer : Peer} {p q : Progress} {fault : Option Fault} (hf : flush peer p = (q, fault))
    (batches : List (List (List UInt8))) : serve peer [] batches p = ⟨q, fault, batches⟩ := by
  rw [serve, hf]

theorem serve_cut {peer : Peer} {p q : Progress} {frame : List UInt8} {fault : Fault}
    (hw : writeAll peer frame p = (q, some fault)) (rest : List (List UInt8)) (batches : List (List (List UInt8))) :
    serve peer (frame :: rest) batches p = ⟨q, some fault, batches⟩ := by
  rw [serve, hw]

/-- a frame with others behind it is only written -/
theorem serve_next {peer : Peer} {p q : Progress} {frame : List UInt8} {rest : List (List UInt8)}
    (hw : writeAll peer frame p = (q, none)) (hr : rest ≠ []) (batches : List (List (List UInt8))) :
    serve peer (frame :: rest) batches p = serve peer rest batches q := by
  rw [serve, hw]
  exact if_pos hr

theorem serve_unflushed {peer : Peer} {p q q' : Progress} {frame : List UInt8} {fault : Fault}
    (hw : writeAll peer frame p = (q, none)) (hf : flush peer q = (q', some fault))
    (batches : List (List (List UInt8))) : serve peer [frame] batches p = ⟨q', some fault, batches⟩ := by
  rw [serve, hw]
  simp only [ne_eq, not_true_eq_false, if_false, hf]

/-- the last frame is written and flushed, and then there is what came in at the flush -/
theorem serve_last {peer : Peer} {p q q' : Progress} {frame : List UInt8} (hw : writeAll peer frame p = (q, none))
    (hf : flush peer q = (q', none)) (batches : List (List (List UInt8))) :
    serve peer [frame] batches p = serve peer (nextBatch batches).1 (nextBatch batches).2 q' := by
  conv_lhs => rw [serve, hw]
  simp only [ne_eq, not_true_eq_false, if_false, hf]
  cases batches <;> rfl

/-! ## Willing peers -/

theorem serve_nil {peer : Peer} (h : peer.Willing) (batches : List (List (List UInt8))) (p : Progress) :
    serve peer [] batches p = ⟨p.flushed, none, batches⟩ :=
  serve_idle (flush_willing h p) batches

/-- one frame: it is written in pieces, and flushed if nothing else is queued -/
theorem serve_cons {peer : Peer} (h : peer.Willing) (frame : List UInt8) (rest : List (List UInt8))
    (batches : List (List (List UInt8))) (p : Progress) :
    ∃ counts, Pieces frame counts ∧
      serve peer (frame :: rest) batches p =
        if rest = [] then serve peer (nextBatch batches).1 (nextBatch batches).2 (p.wrote counts frame).flushed
        else serve peer rest batches (p.wrote counts frame) := by
  obtain ⟨counts, hw, hpieces⟩ := writeAll_willing h frame p
  refine ⟨counts, hpieces, ?_⟩
  split_ifs with hr
  · subst hr
    exact serve_last hw (flush_willing h _) batches
  · exact serve_next hw hr batches

/-- induction along a run: over the frames that are queued, and over the batches that come in when none is -/
theorem serve_induction {peer : Peer} (h : peer.Willing)
    {motive : List (List UInt8) → List (List (List UInt8)) → Progress → Prop}
    (idle : ∀ batches p, motive [] batches p)
    (next : ∀ {frame rest batches p counts}, Pieces frame counts → rest ≠ [] →
      serve peer (frame :: rest) batches p = serve peer rest batches (p.wrote counts frame) →
      motive rest batches (p.wrote counts frame) → motive (frame :: rest) batches p)
    (last : ∀ {frame batches p counts}, Pieces frame counts →
      serve peer [frame] batches p =
        serve peer (nextBatch batches).1 (nextBatch batches).2 (p.wrote counts frame).flushed →
      motive (nextBatch batches).1 (nextBatch batches).2 (p.wrote counts frame).flushed → motive [frame] batches p)
    (queue : List (List UInt8)) (batches : List (List (List UInt8))) (p : Progress) : motive queue batches p := by
  induction hb : batches.length using Nat.strong_induction_on generalizing queue batches p with
  | _ size ihb =>
    induction queue generalizing p with
    | nil => exact idle batches p
    | cons frame rest ihq =>
      obtain ⟨counts, hpieces, hs⟩ := serve_cons h frame rest batches p
      by_cases hr : rest = []
      · subst hr
        refine last hpieces (hs.trans (if_pos rfl)) ?_
        cases batches with
        | nil => exact idle [] _
        | cons batch later => exact ihb later.length (by simp at hb; omega) batch later _ rfl
      · exact next hpieces hr (hs.trans (if_neg hr)) (ihq _)

/-- a willing peer takes all frames ever queued, in order -/
theorem serve_willing {peer : Peer} (h : peer.Willing) (queue : List (List UInt8))
    (batches : List (List (List UInt8))) (p : Progress) :
    (serve peer queue batches p).fault = none ∧
      (serve peer queue batches p).progress.taken = p.taken ++ (everQueued queue batches).flatten := by
  induction queue, batches, p using serve_induction h with
  | idle batches p =>
    rw [serve_nil h]
    simp [Progress.flushed, everQueued]
  | @next frame rest batches p counts _ hr hs ih =>
    obtain ⟨hf, ht⟩ := ih
    rw [hs, everQueued_cons, if_neg hr]
    exact ⟨hf, ht.trans (by simp [Progress.wrote])⟩
  | @last frame batches p counts _ hs ih =>
    obtain ⟨hf, ht⟩ := ih
    rw [hs, everQueued_cons, if_pos rfl]
    exact ⟨hf, ht.trans (by simp [Progress.flushed, Progress.wrote])⟩

end InputRelay.Writer
