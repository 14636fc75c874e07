/-
Histories of a source: what it was asked, each time with its answer. From the history alone one reads which start is in
effect, whose receivers are held, what each start has accepted and what has been taken from it; and by that, what the
source must answer next (`due`). A history is lawful if every answer in it is the one that was due.

Lawful histories lose and mix nothing, over any number of restarts. At most one start is in effect, the last
(`last_of_inEffect`). What was taken from a start is the beginning of what it accepted (`taken_isPrefix`), and all of it
once its receiver has reported that it is disconnected (`disconnected`). Every request accepted is accepted by just one
start (`accepted_once`).
-/
import Mathlib.Data.List.TakeWhile
import Mathlib.Tactic
import InputRelay.Session.World

namespace InputRelay.Capture

open Session (Answer)

/-! ## Operations -/

/-- what can be asked of a source -/
inductive Operation where
  | start
  | stop
  | inject (r : Request)
  | receive (slot : Nat)
  | dropReceiver (slot : Nat)
deriving DecidableEq, Repr

/-! ## Histories -/

/-- what a source was asked and what it answered, oldest first -/
abbrev History := List (Operation × Answer)

/-- a start that succeeds -/
def isStart : Operation × Answer → Bool
  | (.start, .started _) => true
  | _ => false

/-- how many starts have succeeded -/
def starts (h : History) : Nat := h.countP isStart

/-- what happened since a start succeeded, with the start itself -/
def since (slot : Nat) (h : History) : History := h.dropWhile (· ≠ (.start, .started slot))

/-- a start is in effect: it has succeeded, and has not been followed by a stop -/
def InEffect (slot : Nat) (h : History) : Prop :=
  (.start, .started slot) ∈ h ∧ ∀ x ∈ since slot h, x.1 ≠ .stop

instance (slot : Nat) (h : History) : Decidable (InEffect slot h) :=
  inferInstanceAs (Decidable (_ ∧ _))

/-- the request that an operation gets accepted -/
def accepts : Operation × Answer → List Request
  | (.inject r, .queued) => [r]
  | _ => []

/-- the requests accepted between a start and the next stop -/
def accepted (slot : Nat) (h : History) : List Request :=
  ((since slot h).takeWhile (·.1 ≠ .stop)).flatMap accepts

/-- the request that an operation takes out of the channel of a start -/
def takes (slot : Nat) : Operation × Answer → List Request
  | (.receive slot', .received (.request r)) => if slot' = slot then [r] else []
  | _ => []

/-- the requests taken out of the channel of a start -/
def taken (slot : Nat) (h : History) : List Request := h.flatMap (takes slot)

/-- the receiver of a start is held: it has been handed out and not been dropped -/
def Held (slot : Nat) (h : History) : Prop :=
  (.start, .started slot) ∈ h ∧ (.dropReceiver slot, .dropped true) ∉ h

instance (slot : Nat) (h : History) : Decidable (Held slot h) :=
  inferInstanceAs (Decidable (_ ∧ _))

/-- an entry of which a history makes nothing -/
def isIdle : Operation × Answer → Bool
  | (.start, .refused _) => true
  | (.inject _, .refused _) => true
  | (.receive _, .received .empty) => true
  | (.receive _, .received .disconnected) => true
  | (.receive _, .received .noReceiver) => true
  | (.dropReceiver _, .dropped false) => true
  | _ => false

/-- the requests that a start has accepted and that were not taken yet -/
def outstanding (slot : Nat) (h : History) : List Request := (accepted slot h).drop (taken slot h).length

/-- what a held receiver gives next -/
def next (slot : Nat) (h : History) : Reception :=
  match outstanding slot h with
  | r :: _ => .request r
  | [] => if InEffect slot h then .empty else .disconnected

/-- the answer that an operation is due after a history -/
def due (h : History) : Operation → Answer
  | .start => if ∃ slot < starts h, InEffect slot h then .refused .alreadyStarted else .started (starts h)
  | .stop => .done
  | .inject _ => if ∃ slot < starts h, InEffect slot h ∧ Held slot h then .queued else .refused .notRunning
  | .receive slot => .received (if Held slot h then next slot h else .noReceiver)
  | .dropReceiver slot => .dropped (decide (Held slot h))

/-- every answer is the one that was due -/
inductive Lawful : History → Prop where
  | nil : Lawful []
  | ask {h : History} (lawful : Lawful h) (o : Operation) : Lawful (h ++ [(o, due h o)])

/-! ## One more entry -/

section Snoc

variable {slot : Nat} {h : History} {x y : Operation × Answer}

theorem mem_snoc : y ∈ h ++ [x] ↔ y ∈ h ∨ y = x := by
  simp

theorem starts_snoc : starts (h ++ [x]) = starts h + if isStart x then 1 else 0 := by
  simp [starts, List.countP_append, List.countP_singleton]

theorem taken_snoc : taken slot (h ++ [x]) = taken slot h ++ takes slot x := by
  simp [taken]

theorem since_eq_nil : since slot h = [] ↔ (.start, .started slot) ∉ h := by
  simp only [since, List.dropWhile_eq_nil_iff, decide_eq_true_eq, ne_eq]
  exact ⟨fun hall hmem => hall _ hmem rfl, fun hno x hx heq => hno (heq ▸ hx)⟩

theorem since_snoc_of_mem (hmem : (.start, .started slot) ∈ h) : since slot (h ++ [x]) = since slot h ++ [x] := by
  have hne : since slot h ≠ [] := fun hnil => since_eq_nil.1 hnil hmem
  unfold since at hne ⊢
  rw [List.dropWhile_append, if_neg (by simpa using hne)]

theorem since_snoc_of_not_mem (hno : (.start, .started slot) ∉ h) :
    since slot (h ++ [x]) = if x = (.start, .started slot) then [x] else [] := by
  have hnil := since_eq_nil.2 hno
  unfold since at hnil ⊢
  rw [List.dropWhile_append, hnil, List.isEmpty_nil, if_pos rfl, List.dropWhile_cons]
  by_cases hx : x = (.start, .started slot)
  · simp [hx]
  · simp [hx]

theorem inEffect_snoc :
    InEffect slot (h ++ [x]) ↔
      InEffect slot h ∧ x.1 ≠ .stop ∨ (.start, .started slot) ∉ h ∧ x = (.start, .started slot) := by
  unfold InEffect
  by_cases hmem : (.start, .started slot) ∈ h
  · simp only [mem_snoc, since_snoc_of_mem hmem, hmem, true_or, true_and, not_true, false_and, or_false]
    exact ⟨fun hall => ⟨fun y hy => hall y (Or.inl hy), hall x (Or.inr rfl)⟩,
      fun ⟨hall, hx⟩ y hy => hy.elim (hall y) fun heq => heq ▸ hx⟩
  · by_cases hx : x = (.start, .started slot)
    · subst hx
      simp [since_snoc_of_not_mem hmem, hmem]
    · simp [since_snoc_of_not_mem hmem, hmem, hx, Ne.symm hx]

/-- a start accepts a request if it is in effect -/
theorem accepted_snoc :
    accepted slot (h ++ [x]) = accepted slot h ++ if InEffect slot h then accepts x else [] := by
  unfold accepted
  by_cases hmem : (.start, .started slot) ∈ h
  · rw [since_snoc_of_mem hmem, List.takeWhile_append]
    by_cases hall : ∀ y ∈ since slot h, y.1 ≠ .stop
    · -- no stop yet: the entry belongs to the start, unless it is a stop, and that accepts nothing
      have hin : InEffect slot h := ⟨hmem, hall⟩
      have htake : (since slot h).takeWhile (·.1 ≠ .stop) = since slot h :=
        List.takeWhile_eq_self_iff.2 fun y hy => decide_eq_true (hall y hy)
      rw [if_pos hin, htake, if_pos rfl, List.flatMap_append]
      congr 1
      by_cases hx : x.1 = .stop
      · obtain ⟨o, a⟩ := x
        cases hx
        rfl
      · simp [hx]
    · -- the stop has cut off all that comes later
      have hout : ¬ InEffect slot h := fun hin => hall hin.2
      have hshort : ((since slot h).takeWhile (·.1 ≠ .stop)).length ≠ (since slot h).length := fun hlen =>
        hall fun y hy => of_decide_eq_true (List.takeWhile_eq_self_iff.1
          ((List.takeWhile_prefix _).eq_of_length hlen) y hy)
      rw [if_neg hout, if_neg hshort, List.append_nil]
  · have hout : ¬ InEffect slot h := fun hin => hmem hin.1
    rw [since_snoc_of_not_mem hmem, since_eq_nil.2 hmem, if_neg hout]
    split
    · next hx =>
      subst hx
      rfl
    · rfl

theorem started_ne (hstart : isStart x = false) : (.start, .started slot) ≠ x := fun heq => by
  rw [← heq] at hstart
  cases hstart

theorem held_snoc (hstart : isStart x = false) :
    Held slot (h ++ [x]) ↔ Held slot h ∧ (.dropReceiver slot, .dropped true) ≠ x := by
  simp [Held, started_ne hstart, and_assoc]

theorem inEffect_snoc_of_ne (hstart : isStart x = false) (hstop : x.1 ≠ .stop) :
    InEffect slot (h ++ [x]) ↔ InEffect slot h := by
  simp [inEffect_snoc, hstop, (started_ne hstart).symm]

theorem of_isIdle (hidle : isIdle x = true) :
    isStart x = false ∧ x.1 ≠ .stop ∧ accepts x = [] ∧ (∀ slot, takes slot x = []) ∧
      ∀ slot, (.dropReceiver slot, .dropped true) ≠ x := by
  unfold isIdle at hidle
  split at hidle <;> simp_all [isStart, accepts, takes]

/-- a start that has not succeeded has accepted nothing -/
theorem accepted_eq_nil (hno : (.start, .started slot) ∉ h) : accepted slot h = [] := by
  rw [accepted, since_eq_nil.2 hno]
  rfl

end Snoc

/-! ## What the answers due can be -/

section Due

variable {h : History} {o : Operation} {slot : Nat} {r : Request}

theorem due_started :
    (o, due h o) = (.start, .started slot) ↔ o = .start ∧ slot = starts h ∧ ¬ ∃ k < starts h, InEffect k h := by
  cases o with
  | start =>
    by_cases hin : ∃ k < starts h, InEffect k h
    · simp [due, hin]
    · simp [due, hin, eq_comm]
  | stop | inject r | receive k | dropReceiver k => simp

theorem isStart_due : isStart (o, due h o) = true ↔ (o, due h o) = (.start, .started (starts h)) := by
  cases o with
  | start =>
    by_cases hin : ∃ k < starts h, InEffect k h
    · simp [due, hin, isStart]
    · simp [due, hin, isStart]
  | stop | inject r | receive k | dropReceiver k => simp [isStart]

theorem due_start_refused : due h .start = .refused .alreadyStarted ↔ ∃ slot < starts h, InEffect slot h := by
  unfold due
  split <;> simp_all

theorem due_inject_refused :
    due h (.inject r) = .refused .notRunning ↔ ¬ ∃ slot < starts h, InEffect slot h ∧ Held slot h := by
  unfold due
  split <;> simp_all

theorem due_dropped : (o, due h o) = (.dropReceiver slot, .dropped true) ↔ o = .dropReceiver slot ∧ Held slot h := by
  cases o with
  | dropReceiver k => simp +contextual [due]
  | start | stop | inject r | receive k => simp

theorem due_disconnected : (o, due h o) = (.receive slot, .received .disconnected) ↔
    o = .receive slot ∧ Held slot h ∧ next slot h = .disconnected := by
  cases o with
  | receive k =>
    simp only [due, Prod.mk.injEq, Operation.receive.injEq, Answer.received.injEq]
    constructor
    · rintro ⟨rfl, hd⟩
      split at hd
      · next hheld => exact ⟨rfl, hheld, hd⟩
      · cases hd
    · rintro ⟨rfl, hheld, hd⟩
      exact ⟨rfl, (if_pos hheld).trans hd⟩
  | start | stop | inject r | dropReceiver k => simp

/-- a request is accepted only by a start in effect whose receiver is held -/
theorem accepts_due (hr : accepts (o, due h o) ≠ []) :
    ∃ slot < starts h, InEffect slot h ∧ Held slot h := by
  cases o with
  | inject r =>
    by_contra hno
    simp [accepts, due, hno] at hr
  | start | stop | receive k | dropReceiver k => simp [accepts] at hr

/-- what is taken was outstanding, and the first to be -/
theorem takes_due : takes slot (o, due h o) = [] ∨
    ∃ r rest, takes slot (o, due h o) = [r] ∧ outstanding slot h = r :: rest := by
  cases o with
  | receive k =>
    by_cases hk : k = slot
    · subst hk
      by_cases hheld : Held k h
      · cases hout : outstanding k h with
        | nil =>
          left
          simp only [due, if_pos hheld, next, hout]
          split <;> rfl
        | cons r rest =>
          right
          refine ⟨r, rest, ?_, rfl⟩
          simp [due, if_pos hheld, next, hout, takes]
      · left
        simp only [due, if_neg hheld, takes]
    · left
      simp only [takes]
      split
      · next heq =>
        cases (Prod.mk.inj heq).1
        exact if_neg hk
      · rfl
  | start | stop | inject r | dropReceiver k => exact Or.inl rfl

end Due

/-! ## Lawful histories -/

namespace Lawful

variable {h : History} {slot : Nat}

/-- the last answer was due, and all before it were -/
theorem last {x : Operation × Answer} (lawful : Lawful (h ++ [x])) : Lawful h ∧ x.2 = due h x.1 := by
  generalize hl : h ++ [x] = l at lawful
  cases lawful with
  | nil => exact absurd hl (by simp)
  | ask lawful o =>
    obtain ⟨rfl, heq⟩ := List.append_inj' hl rfl
    cases heq
    exact ⟨lawful, rfl⟩

/-- any answer was due by what came before it -/
theorem split {before after : History} {x : Operation × Answer} (lawful : Lawful (before ++ x :: after)) :
    Lawful before ∧ x.2 = due before x.1 := by
  induction after using List.reverseRecOn with
  | nil => exact lawful.last
  | append_singleton after y ih =>
    rw [← List.cons_append, ← List.append_assoc] at lawful
    exact ih lawful.last.1

/-- the starts that have succeeded are numbered from zero -/
theorem started (lawful : Lawful h) : ∀ slot, (.start, .started slot) ∈ h ↔ slot < starts h := by
  induction lawful with
  | nil => simp [starts]
  | @ask h lawful o ih =>
    intro slot
    rw [mem_snoc, ih, starts_snoc]
    by_cases hstart : isStart (o, due h o) = true
    · rw [if_pos hstart, isStart_due.1 hstart]
      simp only [Prod.mk.injEq, Answer.started.injEq, true_and]
      omega
    · have hother : (.start, .started slot) ≠ (o, due h o) := fun heq => hstart (heq ▸ rfl : isStart _ = true)
      rw [if_neg hstart, Nat.add_zero, or_iff_left hother]

/-- a receiver is dropped only after it was handed out -/
theorem dropped (lawful : Lawful h) (hdrop : (.dropReceiver slot, .dropped true) ∈ h) : (.start, .started slot) ∈ h := by
  induction lawful with
  | nil => cases hdrop
  | ask lawful o ih =>
    rw [mem_snoc] at hdrop ⊢
    rcases hdrop with hdrop | heq
    · exact Or.inl (ih hdrop)
    · exact Or.inl (due_dropped.1 heq.symm).2.1

/-- a start in effect is the last that succeeded -/
theorem last_of_inEffect (lawful : Lawful h) (hin : InEffect slot h) : slot + 1 = starts h := by
  induction lawful with
  | nil => cases hin.1
  | @ask h lawful o ih =>
    rw [starts_snoc]
    rcases inEffect_snoc.1 hin with ⟨hin, -⟩ | ⟨-, heq⟩
    · -- while a start is in effect no other succeeds
      have hno : ¬ isStart (o, due h o) = true := fun hstart =>
        (due_started.1 (isStart_due.1 hstart)).2.2 ⟨slot, (lawful.started slot).1 hin.1, hin⟩
      rw [if_neg hno]
      exact ih hin
    · rw [heq, (due_started.1 heq).2.1]
      rfl

theorem inEffect_unique (lawful : Lawful h) {slot' : Nat} (hin : InEffect slot h) (hin' : InEffect slot' h) :
    slot = slot' :=
  Nat.succ.inj ((lawful.last_of_inEffect hin).trans (lawful.last_of_inEffect hin').symm)

/-- the number of the next start is new -/
theorem not_started (lawful : Lawful h) : (.start, .started (starts h)) ∉ h := fun hmem =>
  lt_irrefl _ ((lawful.started _).1 hmem)

/-- the requests that were taken from a start are the first that it accepted -/
theorem taken_isPrefix (lawful : Lawful h) (slot : Nat) : taken slot h <+: accepted slot h := by
  induction lawful with
  | nil => exact List.prefix_rfl
  | @ask h lawful o ih =>
    rw [taken_snoc, accepted_snoc]
    refine List.IsPrefix.trans ?_ (List.prefix_append _ _)
    rcases takes_due with hnone | ⟨r, rest, htakes, hout⟩
    · rwa [hnone, List.append_nil]
    · obtain ⟨waiting, hwait⟩ := ih
      rw [outstanding, ← hwait, List.drop_left] at hout
      rw [htakes, ← hwait, hout]
      exact ⟨rest, by simp⟩

/-- what was taken from a start and what is outstanding are together what it has accepted -/
theorem taken_append (lawful : Lawful h) (slot : Nat) : taken slot h ++ outstanding slot h = accepted slot h := by
  obtain ⟨waiting, hwait⟩ := lawful.taken_isPrefix slot
  rw [outstanding, ← hwait, List.drop_left]

theorem outstanding_snoc (lawful : Lawful h) (slot : Nat) (x : Operation × Answer) :
    outstanding slot (h ++ [x]) =
      (outstanding slot h ++ if InEffect slot h then accepts x else []).drop (takes slot x).length := by
  conv_lhs => rw [outstanding, accepted_snoc, taken_snoc, ← lawful.taken_append slot, List.append_assoc,
    List.length_append, List.drop_length_add_append]

/-- a receiver that gives nothing, and will not, has given all that its start accepted -/
theorem drained (lawful : Lawful h) (hnext : next slot h = .disconnected) :
    taken slot h = accepted slot h ∧ ¬ InEffect slot h := by
  unfold next at hnext
  split at hnext
  · cases hnext
  · next hout =>
    have hall := lawful.taken_append slot
    rw [hout, List.append_nil] at hall
    refine ⟨hall, fun hin => ?_⟩
    rw [if_pos hin] at hnext
    cases hnext

/-- a start is refused if one is in effect -/
theorem due_start (lawful : Lawful h) : due h .start = .refused .alreadyStarted ↔ ∃ slot, InEffect slot h := by
  rw [due_start_refused]
  exact ⟨fun ⟨slot, _, hin⟩ => ⟨slot, hin⟩, fun ⟨slot, hin⟩ => ⟨slot, (lawful.started slot).1 hin.1, hin⟩⟩

/-- a request is refused if no start is in effect or its receiver is gone -/
theorem due_inject (lawful : Lawful h) (r : Request) : due h (.inject r) = .refused .notRunning ↔
    (¬ ∃ slot, InEffect slot h) ∨ ∃ slot, InEffect slot h ∧ (.dropReceiver slot, .dropped true) ∈ h := by
  rw [due_inject_refused]
  constructor
  · intro hno
    by_cases hin : ∃ slot, InEffect slot h
    · obtain ⟨slot, hslot⟩ := hin
      refine Or.inr ⟨slot, hslot, ?_⟩
      by_contra hkept
      exact hno ⟨slot, (lawful.started slot).1 hslot.1, hslot, hslot.1, hkept⟩
    · exact Or.inl hin
  · rintro (hnone | ⟨slot, hslot, hdrop⟩) ⟨slot', -, hslot', hheld⟩
    · exact hnone ⟨slot', hslot'⟩
    · cases lawful.inEffect_unique hslot hslot'
      exact hheld.2 hdrop

/-- once a receiver has reported its disconnection, everything has been taken from it, and nothing more is accepted -/
theorem disconnected (lawful : Lawful h) (hdisc : (.receive slot, .received .disconnected) ∈ h) :
    (.start, .started slot) ∈ h ∧ taken slot h = accepted slot h ∧ ¬ InEffect slot h := by
  induction lawful with
  | nil => cases hdisc
  | @ask h lawful o ih =>
    have hbefore : (.start, .started slot) ∈ h ∧ taken slot h = accepted slot h ∧ ¬ InEffect slot h := by
      rcases mem_snoc.1 hdisc with hdisc | heq
      · exact ih hdisc
      · obtain ⟨-, hheld, hnext⟩ := due_disconnected.1 heq.symm
        exact ⟨hheld.1, lawful.drained hnext⟩
    obtain ⟨hstarted, hall, hout⟩ := hbefore
    refine ⟨mem_snoc.2 (Or.inl hstarted), ?_, fun hin => ?_⟩
    · have hnone : outstanding slot h = [] := by rw [outstanding, hall, List.drop_length]
      rw [taken_snoc, accepted_snoc, if_neg hout, List.append_nil]
      rcases takes_due with htakes | ⟨r, rest, -, hsome⟩
      · rw [htakes, List.append_nil, hall]
      · rw [hnone] at hsome
        cases hsome
    · rcases inEffect_snoc.1 hin with ⟨hin, -⟩ | ⟨hno, -⟩
      · exact hout hin
      · exact hno hstarted

/-- every request accepted is accepted by one start, and only once -/
theorem accepted_once (lawful : Lawful h) :
    (List.range (starts h)).flatMap (accepted · h) = h.flatMap accepts := by
  induction lawful with
  | nil => rfl
  | @ask h lawful o ih =>
    by_cases hstart : isStart (o, due h o) = true
    · -- a new start has accepted nothing, and the others accept nothing from it
      have hx := isStart_due.1 hstart
      have hsame : ∀ k, accepted k (h ++ [(o, due h o)]) = accepted k h := fun k => by
        rw [accepted_snoc, hx]
        simp [accepts]
      simp only [starts_snoc, if_pos hstart, List.range_succ, List.flatMap_append, List.flatMap_singleton, hsame, ih,
        accepted_eq_nil lawful.not_started]
      simp [hx, accepts]
    · rw [starts_snoc, if_neg hstart, Nat.add_zero, List.flatMap_append, List.flatMap_singleton]
      by_cases haccepts : accepts (o, due h o) = []
      · simp [accepted_snoc, haccepts, ih]
      · -- only the last start can be in effect
        obtain ⟨slot, hlt, hin, -⟩ := accepts_due haccepts
        have hothers : ∀ k ∈ List.range slot, accepted k (h ++ [(o, due h o)]) = accepted k h := fun k hk => by
          have hout : ¬ InEffect k h := fun hk' => (List.mem_range.1 hk).ne (lawful.inEffect_unique hk' hin)
          rw [accepted_snoc, if_neg hout, List.append_nil]
        rw [← lawful.last_of_inEffect hin, List.range_succ, List.flatMap_append, List.flatMap_singleton] at ih ⊢
        rw [List.flatMap_congr hothers, accepted_snoc, if_pos hin, ← List.append_assoc, ih]

end Lawful

end InputRelay.Capture
