/-
A source over any number of restarts. It does what its history makes it do: `Agrees h s` says that the state `s` is the one
that the history `h` makes. Every operation keeps that (`Agrees.ask`) and gets the answer it is due (`Agrees.ask_due`), so
every run from a new source gives a lawful history (`transcript_lawful`), and all that is said of losses, duplicates,
disconnections and refusals follows from that.
-/
import InputRelay.Proofs.Capture
import InputRelay.Proofs.Capture.History
import InputRelay.Session.Run

namespace InputRelay.Capture

open Session (Answer Call Surroundings World perform)

variable {μ : Type}

/-! ## Asking a source -/

/-- the call of a session that asks it -/
def Operation.call : Operation → Call
  | start => .start
  | stop => .stop
  | inject r => .inject r
  | receive slot => .receive slot
  | dropReceiver slot => .dropReceiver slot

/-- what a source answers, and what becomes of it -/
def Source.ask (s : Source) : Operation → Answer × Source
  | .start =>
    match s.start with
    | .ok (slot, started) => (.started slot, started)
    | .error e => (.refused e, s)
  | .stop => (.done, s.stop)
  | .inject r =>
    match s.inject r with
    | .ok fed => (.queued, fed)
    | .error e => (.refused e, s)
  | .receive slot => (.received (s.receive slot).1, (s.receive slot).2)
  | .dropReceiver slot => (.dropped (s.dropReceiver slot).1, (s.dropReceiver slot).2)

/-- asking the source of a session changes nothing but the source -/
theorem perform_call (s : Surroundings μ) (depth : Nat) (o : Operation) (w : World μ) :
    perform s depth o.call w = ({ w with source := (w.source.ask o).2 }, (w.source.ask o).1) := by
  cases o with
  | start =>
    simp only [perform, Operation.call, Session.answer, Source.ask]
    cases w.source.start <;> rfl
  | inject r =>
    simp only [perform, Operation.call, Session.answer, Source.ask]
    cases w.source.inject r <;> rfl
  | stop | receive slot | dropReceiver slot => rfl

/-- a refusal leaves the source as it is -/
theorem Source.ask_refused {s : Source} {o : Operation} {e : SourceError} (h : (s.ask o).1 = .refused e) :
    (s.ask o).2 = s := by
  cases o with
  | start =>
    unfold ask at h ⊢
    cases hs : s.start with
    | ok started =>
      rw [hs] at h
      cases h
    | error e => rfl
  | inject r =>
    simp only [ask] at h ⊢
    cases hs : s.inject r with
    | ok fed =>
      rw [hs] at h
      cases h
    | error e => rfl
  | stop | receive slot | dropReceiver slot => cases h

/-- operations asked of a session one after the other, each with its answer -/
def transcript (s : Surroundings μ) (depth : Nat) : List Operation → World μ → History
  | [], _ => []
  | o :: os, w => (o, (perform s depth o.call w).2) :: transcript s depth os (perform s depth o.call w).1

/-! ## A source does what its history makes it do -/

/-- the state of a source is the one that the history makes -/
structure Agrees (h : History) (s : Source) : Prop where
  slots : s.channels.length = starts h
  running : ∀ slot, s.running = some slot ↔ InEffect slot h
  receivers : ∀ slot, s.receiver? slot = if Held slot h then some ⟨outstanding slot h, true⟩ else none

namespace Agrees

variable {h : History} {s : Source}

theorem new : Agrees [] .new where
  slots := rfl
  running slot := by simp [Source.new, InEffect]
  receivers slot := by simp [Source.new, Source.receiver?, Held]

theorem held (agrees : Agrees h s) {slot : Nat} (hheld : Held slot h) :
    s.receiver? slot = some ⟨outstanding slot h, true⟩ :=
  (agrees.receivers slot).trans (if_pos hheld)

theorem not_held (agrees : Agrees h s) {slot : Nat} (hno : ¬ Held slot h) : s.receiver? slot = none :=
  (agrees.receivers slot).trans (if_neg hno)

theorem not_running (agrees : Agrees h s) (lawful : Lawful h) :
    s.running = none ↔ ¬ ∃ slot < starts h, InEffect slot h := by
  rw [Option.eq_none_iff_forall_ne_some]
  simp only [ne_eq, agrees.running, not_exists, not_and]
  exact ⟨fun hno slot _ => hno slot, fun hno slot hin => hno slot ((lawful.started slot).1 hin.1) hin⟩

/-- every answer is the one that is due -/
theorem ask_due (agrees : Agrees h s) (lawful : Lawful h) (o : Operation) : (s.ask o).1 = due h o := by
  cases o with
  | start =>
    unfold Source.ask Source.start due
    cases hrun : s.running with
    | none => rw [if_neg ((agrees.not_running lawful).1 hrun), agrees.slots]
    | some slot =>
      have hin := (agrees.running slot).1 hrun
      rw [if_pos ⟨slot, (lawful.started slot).1 hin.1, hin⟩]
  | stop => rfl
  | inject r =>
    simp only [Source.ask, Source.inject, due]
    cases hrun : s.running with
    | none =>
      have hno : ¬ ∃ slot < starts h, InEffect slot h ∧ Held slot h := by
        rintro ⟨slot, hlt, hin, -⟩
        exact (agrees.not_running lawful).1 hrun ⟨slot, hlt, hin⟩
      rw [if_neg hno]
    | some slot =>
      have hin := (agrees.running slot).1 hrun
      by_cases hheld : Held slot h
      · simp only [agrees.held hheld]
        rw [if_pos ⟨slot, (lawful.started slot).1 hin.1, hin, hheld⟩]
      · have hno : ¬ ∃ slot < starts h, InEffect slot h ∧ Held slot h := by
          rintro ⟨slot', -, hin', hheld'⟩
          rw [lawful.inEffect_unique hin' hin] at hheld'
          exact hheld hheld'
        simp only [agrees.not_held hheld]
        rw [if_neg hno]
  | receive slot =>
    simp only [Source.ask, Source.receive, due]
    by_cases hheld : Held slot h
    · simp only [agrees.held hheld, if_pos hheld, next]
      cases outstanding slot h with
      | nil => simp only [agrees.running]
      | cons r rest => rfl
    · simp only [agrees.not_held hheld, if_neg hheld]
  | dropReceiver slot =>
    simp only [Source.ask, Source.dropReceiver, due]
    by_cases hheld : Held slot h
    · simp only [agrees.held hheld, hheld, decide_true]
    · simp only [agrees.not_held hheld, hheld, decide_false]

/-- an operation of which its history makes nothing leaves a source in agreement as it is -/
theorem idle (agrees : Agrees h s) (lawful : Lawful h) {x : Operation × Answer} (hidle : isIdle x = true) :
    Agrees (h ++ [x]) s := by
  obtain ⟨hstart, hstop, haccepts, htakes, hdrop⟩ := of_isIdle hidle
  refine ⟨?_, fun slot => ?_, fun slot => ?_⟩
  · rw [starts_snoc, hstart, agrees.slots]
    rfl
  · rw [inEffect_snoc_of_ne hstart hstop, agrees.running]
  · rw [agrees.receivers, lawful.outstanding_snoc, haccepts, htakes]
    simp [held_snoc hstart, hdrop slot]

theorem started (agrees : Agrees h s) (lawful : Lawful h) (hno : ¬ ∃ slot < starts h, InEffect slot h) :
    Agrees (h ++ [(.start, .started (starts h))]) ⟨s.channels ++ [⟨[], true⟩], some s.channels.length⟩ := by
  have hnot : ∀ slot, ¬ InEffect slot h := fun slot hin => hno ⟨slot, (lawful.started slot).1 hin.1, hin⟩
  refine ⟨?_, fun slot => ?_, fun slot => ?_⟩
  · rw [starts_snoc, List.length_append, agrees.slots]
    rfl
  · rw [inEffect_snoc, agrees.slots]
    constructor
    · intro heq
      cases heq
      exact Or.inr ⟨lawful.not_started, rfl⟩
    · rintro (⟨hin, -⟩ | ⟨-, heq⟩)
      · exact absurd hin (hnot slot)
      · rw [(Answer.started.inj (Prod.mk.inj heq).2)]
  · rw [Source.receiver?_channels_snoc s, agrees.slots, agrees.receivers, lawful.outstanding_snoc, if_neg (hnot slot)]
    by_cases hslot : slot = starts h
    · subst hslot
      have hheld : Held (starts h) (h ++ [(.start, .started (starts h))]) := by
        refine ⟨by simp, fun hdrop => lawful.not_started (lawful.dropped ?_)⟩
        simpa using hdrop
      have hnone : outstanding (starts h) h = [] := by
        rw [outstanding, accepted_eq_nil lawful.not_started, List.drop_nil]
      simp [hheld, hnone]
    · have hheld : Held slot (h ++ [(.start, .started (starts h))]) ↔ Held slot h := by
        simp [Held, hslot]
      simp [hslot, hheld, takes]

theorem stopped (agrees : Agrees h s) (lawful : Lawful h) : Agrees (h ++ [(.stop, .done)]) s.stop := by
  refine ⟨?_, fun slot => ?_, fun slot => ?_⟩
  · rw [starts_snoc]
    exact agrees.slots
  · rw [inEffect_snoc]
    simp [Source.stop]
  · have hheld : Held slot (h ++ [(.stop, .done)]) ↔ Held slot h := by
      simp [held_snoc (h := h) (x := (.stop, .done)) rfl]
    rw [lawful.outstanding_snoc]
    simp only [hheld, accepts, takes, ite_self, List.append_nil, List.length_nil, List.drop_zero]
    exact agrees.receivers slot

/-- an operation that changes one channel, whose receiver is held before -/
theorem changed (agrees : Agrees h s) {x : Operation × Answer} (hstart : isStart x = false) (hstop : x.1 ≠ .stop)
    {slot : Nat} (hheld : Held slot h) {c : Channel}
    (hdrop : (.dropReceiver slot, .dropped true) ≠ x ↔ c.held = true)
    (hwaiting : c.held = true → c.waiting = outstanding slot (h ++ [x]))
    (hothers : ∀ k ≠ slot, (.dropReceiver k, .dropped true) ≠ x ∧ outstanding k (h ++ [x]) = outstanding k h) :
    Agrees (h ++ [x]) (s.setChannel slot c) := by
  refine ⟨?_, fun k => ?_, fun k => ?_⟩
  · rw [starts_snoc, hstart, Source.setChannel, List.length_set, agrees.slots]
    rfl
  · rw [inEffect_snoc_of_ne hstart hstop]
    exact agrees.running k
  · rw [Source.receiver?_setChannel_eq (agrees.held hheld)]
    by_cases hk : k = slot
    · subst hk
      simp only [if_true, held_snoc hstart, hheld, hdrop, true_and]
      split
      · next hc => rw [← hwaiting hc, ← hc]
      · rfl
    · obtain ⟨hkeep, hsame⟩ := hothers k hk
      simp only [hk, if_false, held_snoc hstart, hkeep, not_false_eq_true, and_true, hsame, ne_eq]
      exact agrees.receivers k

theorem injected (agrees : Agrees h s) (lawful : Lawful h) {slot : Nat} (hin : InEffect slot h) (hheld : Held slot h)
    (r : Request) :
    Agrees (h ++ [(.inject r, .queued)]) (s.setChannel slot ⟨outstanding slot h ++ [r], true⟩) := by
  refine agrees.changed rfl (by simp) hheld (by simp) (fun _ => ?_) fun k hk => ⟨by simp, ?_⟩
  · rw [lawful.outstanding_snoc, if_pos hin]
    rfl
  · have hout : ¬ InEffect k h := fun hk' => hk (lawful.inEffect_unique hk' hin)
    rw [lawful.outstanding_snoc, if_neg hout, List.append_nil]
    rfl

theorem received (agrees : Agrees h s) (lawful : Lawful h) {slot : Nat} (hheld : Held slot h) {r : Request}
    {rest : List Request} (hout : outstanding slot h = r :: rest) :
    Agrees (h ++ [(.receive slot, .received (.request r))]) (s.setChannel slot ⟨rest, true⟩) := by
  refine agrees.changed rfl (by simp) hheld (by simp) (fun _ => ?_) fun k hk => ⟨by simp, ?_⟩
  · rw [lawful.outstanding_snoc, hout]
    simp [accepts, takes]
  · rw [lawful.outstanding_snoc]
    simp [accepts, takes, Ne.symm hk]

theorem dropped (agrees : Agrees h s) (lawful : Lawful h) {slot : Nat} (hheld : Held slot h) :
    Agrees (h ++ [(.dropReceiver slot, .dropped true)]) (s.setChannel slot ⟨[], false⟩) := by
  refine agrees.changed rfl (by simp) hheld (by simp) (by simp) fun k hk => ⟨by simp [hk], ?_⟩
  rw [lawful.outstanding_snoc]
  simp [accepts, takes]

/-- every operation leaves the source as the history makes it -/
theorem ask (agrees : Agrees h s) (lawful : Lawful h) (o : Operation) :
    Agrees (h ++ [(o, due h o)]) (s.ask o).2 := by
  cases o with
  | start =>
    by_cases hin : ∃ slot < starts h, InEffect slot h
    · have hrefused : (s.ask .start).1 = .refused .alreadyStarted := by
        rw [agrees.ask_due lawful, due, if_pos hin]
      rw [Source.ask_refused hrefused, due, if_pos hin]
      exact agrees.idle lawful rfl
    · have hask : (s.ask .start).2 = ⟨s.channels ++ [⟨[], true⟩], some s.channels.length⟩ := by
        simp only [Source.ask, Source.start, (agrees.not_running lawful).2 hin]
      rw [hask, due, if_neg hin]
      exact agrees.started lawful hin
  | stop => exact agrees.stopped lawful
  | inject r =>
    by_cases hin : ∃ slot < starts h, InEffect slot h ∧ Held slot h
    · obtain ⟨slot, -, hslot, hheld⟩ := id hin
      have hask : (s.ask (.inject r)).2 = s.setChannel slot ⟨outstanding slot h ++ [r], true⟩ := by
        simp only [Source.ask, Source.inject_running ((agrees.running slot).2 hslot) (agrees.held hheld)]
      rw [hask, due, if_pos hin]
      exact agrees.injected lawful hslot hheld r
    · have hrefused : (s.ask (.inject r)).1 = .refused .notRunning := by
        rw [agrees.ask_due lawful, due, if_neg hin]
      rw [Source.ask_refused hrefused, due, if_neg hin]
      exact agrees.idle lawful rfl
  | receive slot =>
    by_cases hheld : Held slot h
    · cases hout : outstanding slot h with
      | cons r rest =>
        have hask : (s.ask (.receive slot)).2 = s.setChannel slot ⟨rest, true⟩ := by
          simp only [Source.ask, Source.receive, agrees.held hheld, hout]
        rw [hask, due, if_pos hheld, next, hout]
        exact agrees.received lawful hheld hout
      | nil =>
        have hask : (s.ask (.receive slot)).2 = s := by
          simp only [Source.ask, Source.receive, agrees.held hheld, hout]
        rw [hask, due, if_pos hheld, next, hout]
        refine agrees.idle lawful ?_
        by_cases hin : InEffect slot h
        · simp only [if_pos hin, isIdle]
        · simp only [if_neg hin, isIdle]
    · have hask : (s.ask (.receive slot)).2 = s := by
        simp only [Source.ask, Source.receive, agrees.not_held hheld]
      rw [hask, due, if_neg hheld]
      exact agrees.idle lawful rfl
  | dropReceiver slot =>
    by_cases hheld : Held slot h
    · have hask : (s.ask (.dropReceiver slot)).2 = s.setChannel slot ⟨[], false⟩ := by
        simp only [Source.ask, Source.dropReceiver, agrees.held hheld]
      rw [hask, due, decide_eq_true hheld]
      exact agrees.dropped lawful hheld
    · have hask : (s.ask (.dropReceiver slot)).2 = s := by
        simp only [Source.ask, Source.dropReceiver, agrees.not_held hheld]
      rw [hask, due, decide_eq_false hheld]
      exact agrees.idle lawful rfl

end Agrees

/-! ## Runs -/

/-- a run from a state that agrees with a lawful history makes a longer one -/
theorem transcript_agrees (s : Surroundings μ) (depth : Nat) (ops : List Operation) {w : World μ} {h : History}
    (lawful : Lawful h) (agrees : Agrees h w.source) : Lawful (h ++ transcript s depth ops w) := by
  induction ops generalizing w h with
  | nil =>
    rw [transcript, List.append_nil]
    exact lawful
  | cons o ops ih =>
    have hdue : (perform s depth o.call w).2 = due h o := by
      rw [perform_call]
      exact agrees.ask_due lawful o
    have hagrees : Agrees (h ++ [(o, due h o)]) (perform s depth o.call w).1.source := by
      rw [perform_call]
      exact agrees.ask lawful o
    rw [transcript, hdue, List.append_cons]
    exact ih (lawful.ask o) hagrees

/-- every run of a new source gives a lawful history -/
theorem transcript_lawful (s : Surroundings μ) (depth : Nat) (ops : List Operation) {w : World μ}
    (hnew : w.source = .new) : Lawful (transcript s depth ops w) :=
  transcript_agrees s depth ops .nil (hnew ▸ .new)

/-! ## Main result -/

/-- **Restarts keep requests.** Take any run of a new source: starts, stops, requests, looks into receivers and dropped
receivers in any order. What is taken from the receiver of a start is at all times the beginning of what the start has
accepted, and all of it once the receiver reports that it is disconnected. The starts together have accepted just what was
accepted, each request once. A receiver reports that it is disconnected only when its start has been stopped and all is
taken. A request is refused if no start is in effect, or if its receiver is gone; a start is refused if one is in effect,
whether its receiver is gone or not; and whoever is refused leaves the session as it was. All in all, every answer is the
one that is due by the history. -/
theorem restarts_keep_requests (s : Surroundings μ) (depth : Nat) (ops : List Operation) {w : World μ}
    (hnew : w.source = .new) :
    let h := transcript s depth ops w
    (∀ slot, taken slot h <+: accepted slot h ∧
      ((.receive slot, .received .disconnected) ∈ h → taken slot h = accepted slot h)) ∧
    (List.range (starts h)).flatMap (accepted · h) = h.flatMap accepts ∧
    (∀ before slot after, h = before ++ (.receive slot, .received .disconnected) :: after →
      taken slot before = accepted slot before ∧
      (.start, .started slot) ∈ before ∧ ∃ x ∈ since slot before, x.1 = .stop) ∧
    (∀ before r a after, h = before ++ (.inject r, a) :: after →
      (a = .queued ∨ a = .refused .notRunning) ∧
      (a = .refused .notRunning ↔ (¬ ∃ slot, InEffect slot before) ∨
        ∃ slot, InEffect slot before ∧ (.dropReceiver slot, .dropped true) ∈ before)) ∧
    (∀ before a after, h = before ++ (.start, a) :: after →
      (a = .started (starts before) ∨ a = .refused .alreadyStarted) ∧
      (a = .refused .alreadyStarted ↔ ∃ slot, InEffect slot before)) ∧
    (∀ (u : World μ) (o : Operation) (e : SourceError),
      (perform s depth o.call u).2 = .refused e → (perform s depth o.call u).1 = u) ∧
    ∀ before o a after, h = before ++ (o, a) :: after → a = due before o := by
  intro h
  have lawful : Lawful h := transcript_lawful s depth ops hnew
  refine ⟨fun slot => ⟨lawful.taken_isPrefix slot, fun hdisc => (lawful.disconnected hdisc).2.1⟩, lawful.accepted_once,
    fun before slot after hsplit => ?disconnected, fun before r a after hsplit => ?inject,
    fun before a after hsplit => ?start, fun u o e hrefused => ?refused, fun before o a after hsplit => ?due⟩
  case disconnected =>
    rw [hsplit] at lawful
    obtain ⟨hbefore, hanswer⟩ := lawful.split
    obtain ⟨-, hheld, hnext⟩ := due_disconnected.1 (Prod.ext rfl hanswer.symm)
    obtain ⟨hall, hout⟩ := hbefore.drained hnext
    refine ⟨hall, hheld.1, ?_⟩
    by_contra hno
    exact hout ⟨hheld.1, fun x hx hstop => hno ⟨x, hx, hstop⟩⟩
  case inject =>
    rw [hsplit] at lawful
    obtain ⟨hbefore, hanswer⟩ := lawful.split
    rw [show a = due before (.inject r) from hanswer]
    exact ⟨ite_eq_or_eq _ _ _, hbefore.due_inject r⟩
  case start =>
    rw [hsplit] at lawful
    obtain ⟨hbefore, hanswer⟩ := lawful.split
    rw [show a = due before .start from hanswer]
    exact ⟨(ite_eq_or_eq _ _ _).symm, hbefore.due_start⟩
  case refused =>
    rw [perform_call] at hrefused ⊢
    rw [Source.ask_refused hrefused]
  case due =>
    rw [hsplit] at lawful
    exact lawful.split.2

/-- what a stopped start still held is taken after the next start, and each receiver gives what its own start accepted -/
theorem restarts_keep_requests_apart :
    let s : Surroundings Unit := ⟨fun _ => 0, fun _ _ => .done⟩
    let w : World Unit := .bare .closed ()
    let back : Request := .back ⟨1⟩
    let home : Request := .home ⟨1⟩
    let ops : List Operation := [.inject home, .start, .start, .inject back, .inject home, .receive 0, .stop,
      .start, .inject back, .receive 0, .receive 0, .receive 1, .dropReceiver 1, .inject home]
    let h := transcript s 0 ops w
    w.source = .new ∧
    h.map (·.2) = [.refused .notRunning, .started 0, .refused .alreadyStarted, .queued, .queued,
      .received (.request back), .done, .started 1, .queued, .received (.request home), .received .disconnected,
      .received (.request back), .dropped true, .refused .notRunning] ∧
    taken 0 h = [back, home] ∧ taken 0 h = accepted 0 h ∧ taken 1 h <+: accepted 1 h ∧
    accepted 0 h ++ accepted 1 h = [back, home, back] := by
  intro s w back home ops h
  have hnew : w.source = .new := rfl
  obtain ⟨hearly, honce, -⟩ := restarts_keep_requests s 0 ops hnew
  refine ⟨hnew, by decide +kernel, by decide +kernel, (hearly 0).2 (by decide +kernel), (hearly 1).1, ?_⟩
  have hstarts : starts h = 2 := by decide +kernel
  have hall : h.flatMap accepts = [back, home, back] := by decide +kernel
  rw [show transcript s 0 ops w = h from rfl, hstarts, hall] at honce
  simpa [List.range_succ] using honce

end InputRelay.Capture
