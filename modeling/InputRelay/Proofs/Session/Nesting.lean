/-
How calls to the registry nest. A listener that is told of the focus may make calls of its own, which start rounds of
their own, to any depth. The log has all of it in order, and `Course r work es r'` says how a well-nested stretch `es` of
the log reads, when it starts from registry `r`, gets some work done, and ends with registry `r'`:
- a call is entered, finds the registry as it stands, and changes it by its own transition and nothing else;
- its round follows: those to be told, as the registry right after the transition has them, each once and in order;
- what a listener does is a well-nested stretch between the moment it is told and the moment it is done;
- the call is left when its round is over.
`run_nested`: every run of calls to the registry, with any listeners and to any depth, logs such a course. So the registry
goes through the transitions of all calls, outer and nested, in the order they are entered (`Course.registry_truthful`), and
each call has its round, fixed by the state it made (`Course.round_of_entered`).
-/
import InputRelay.Proofs.Session.Stretch

namespace InputRelay

/-! ## The round of a transition -/

/-- who is told after a transition: all listeners if the focus is tracked and moved or was not tracked before, else none -/
def Registry.audience (before after : Registry) : List Listener :=
  if after.tracking = true ∧ (before.tracking = false ∨ before.focused ≠ after.focused) then after.listeners else []

/-- the round that a change calls for, read off the states before and after it -/
theorem Registry.round_apply (r : Registry) (c : FocusCall) :
    (r.apply c).2 = none ∧ r.audience (r.after c) = [] ∨
      (r.apply c).2 = some ⟨(r.after c).focused, r.audience (r.after c)⟩ := by
  have hmove : ∀ (r₀ : Registry) (d : Display), r₀.focused = r.focused → r₀.tracking = r.tracking →
      (r₀.moveFocus d).2 = none ∧ r.audience (r₀.moveFocus d).1 = [] ∨
        (r₀.moveFocus d).2 = some ⟨(r₀.moveFocus d).1.focused, r.audience (r₀.moveFocus d).1⟩ := by
    intro r₀ d hf ht
    by_cases hd : d = r₀.focused
    · simp [moveFocus, audience, hd, hf, ht]
    · have hne : r.focused ≠ d := fun h => hd (hf ▸ h.symm)
      cases hr : r.tracking <;> simp [moveFocus, audience, hd, ht, hr, hne, round]
  cases c with
  | setFocus d => exact hmove r d rfl rfl
  | addDisplay d =>
    simp only [after, apply, Registry.addDisplay]
    split_ifs
    · exact hmove _ d rfl rfl
    · simp [audience]
  | removeDisplay d =>
    simp only [after, apply, Registry.removeDisplay]
    split_ifs
    · exact hmove _ _ rfl rfl
    · simp [audience]
  | setTracking on => cases on <;> cases hr : r.tracking <;> simp [after, apply, setTracking, audience, round, hr]
  | addListener l | removeListener l => simp [after, apply, audience]

namespace Session

variable {μ : Type}

/-- delivering the round of a change tells its audience of the display that has the focus then -/
theorem deliver_apply (tell : Tell μ) (r : Registry) (c : FocusCall) (w : World μ) :
    deliver tell (r.apply c).2 w =
      (r.audience (r.after c)).foldl (fun w l => tell l (r.after c).focused w) w := by
  rcases r.round_apply c with ⟨hn, ha⟩ | hs
  · rw [hn, ha]; rfl
  · rw [hs]; rfl

/-! ## Courses -/

/-- what a stretch of the log gets done: calls made one after the other, or listeners told of a display -/
inductive Work where
  | calls (cs : List FocusCall)
  | tell (d : Display) (ls : List Listener)

/-- an entry that neither begins nor ends anything -/
def Entry.isPlain : Entry → Bool
  | entered .. => false
  | left => false
  | told .. => false
  | finished _ => false
  | _ => true

/-- a well-nested stretch of the log, between two states of the registry -/
inductive Course : Registry → Work → List Entry → Registry → Prop
  | idle (r : Registry) : Course r (.calls []) [] r
  | plain {r r' : Registry} {cs : List FocusCall} {e : Entry} {es : List Entry} (he : e.isPlain = true)
      (h : Course r (.calls cs) es r') : Course r (.calls cs) (e :: es) r'
  | call {r r₁ r₂ : Registry} {c : FocusCall} {cs : List FocusCall} {body rest : List Entry}
      (round : Course (r.after c) (.tell (r.after c).focused (r.audience (r.after c))) body r₁)
      (h : Course r₁ (.calls cs) rest r₂) :
      Course r (.calls (c :: cs)) (.entered c r :: (body ++ .left :: rest)) r₂
  | told (r : Registry) (d : Display) : Course r (.tell d []) [] r
  | tell {r r₁ r₂ : Registry} {d : Display} {l : Listener} {ls : List Listener} {p : Policy} {cs : List FocusCall}
      {body rest : List Entry} (inner : Course r (.calls cs) body r₁) (h : Course r₁ (.tell d ls) rest r₂) :
      Course r (.tell d (l :: ls)) (.told l d r.snapshot p :: (body ++ .finished l :: rest)) r₂

namespace Course

/-- stretches of calls one after the other -/
theorem append {r r₁ r₂ : Registry} {cs cs' : List FocusCall} {es es' : List Entry} (h : Course r (.calls cs) es r₁)
    (h' : Course r₁ (.calls cs') es' r₂) : Course r (.calls (cs ++ cs')) (es ++ es') r₂ := by
  generalize hw : Work.calls cs = work at h
  induction h generalizing cs with
  | idle r => cases hw; exact h'
  | plain he _ ih => cases hw; exact .plain he (ih h' rfl)
  | @call r r₁ r₂ c cs₀ body rest round _ _ ih =>
    cases hw
    rw [List.cons_append, List.cons_append, List.append_assoc, List.cons_append]
    exact .call round (ih h' rfl)
  | told => cases hw
  | tell => cases hw

theorem of_plain (r : Registry) {es : List Entry} (h : ∀ e ∈ es, e.isPlain = true) : Course r (.calls []) es r := by
  induction es with
  | nil => exact .idle r
  | cons e es ih => exact .plain (h e List.mem_cons_self) (ih fun e' he' => h e' (List.mem_cons_of_mem e he'))

end Course

/-! ## States along a course -/

/-- the calls that are entered in a stretch of the log, outer and nested, in order -/
def callsIn (es : List Entry) : List FocusCall :=
  es.filterMap fun
    | .entered c _ => some c
    | _ => none

/-- the registry after the transitions of all calls of a stretch, one after the other -/
def replay (r : Registry) (es : List Entry) : Registry := (callsIn es).foldl Registry.after r

theorem replay_append (r : Registry) (es es' : List Entry) : replay r (es ++ es') = replay (replay r es) es' := by
  simp only [replay, callsIn, List.filterMap_append, List.foldl_append]

theorem replay_entered (r before : Registry) (c : FocusCall) (es : List Entry) :
    replay r (.entered c before :: es) = replay (r.after c) es := rfl

theorem replay_cons (r : Registry) {e : Entry} (es : List Entry) (he : ∀ c before, e ≠ .entered c before) :
    replay r (e :: es) = replay r es := by
  cases e with
  | entered c before => exact absurd rfl (he c before)
  | _ => rfl

/-- what an entry says of the registry is so -/
def Entry.Sees (r : Registry) : Entry → Prop
  | entered _ before => before = r
  | told _ _ seen _ => seen = r.snapshot
  | _ => True

/-- every entry of a stretch finds the registry as the calls before it leave it -/
def Truthful (r : Registry) (es : List Entry) : Prop :=
  ∀ pre e post, es = pre ++ e :: post → e.Sees (replay r pre)

theorem Truthful.nil (r : Registry) : Truthful r [] := by
  intro pre e post h
  simp at h

theorem Truthful.append {r : Registry} {es es' : List Entry} (h : Truthful r es) (h' : Truthful (replay r es) es') :
    Truthful r (es ++ es') := by
  intro pre e post heq
  rcases List.append_eq_append_iff.1 heq with ⟨q, rfl, hq⟩ | ⟨q, rfl, hq⟩
  · rw [replay_append]
    exact h' q e post hq
  · cases q with
    | nil =>
      rw [List.append_nil] at h'
      exact h' [] e post hq.symm
    | cons x q =>
      obtain ⟨rfl, -⟩ := List.cons.inj hq
      exact h pre e q rfl

theorem Truthful.cons {r : Registry} {e : Entry} {es : List Entry} (he : e.Sees r) (h : Truthful (replay r [e]) es) :
    Truthful r (e :: es) := by
  have hone : Truthful r [e] := by
    intro pre e' post heq
    cases pre with
    | nil => cases heq; exact he
    | cons x pre => simp at heq
  exact hone.append h

namespace Course

/-- along a course the registry goes through the transitions of its calls, and every entry finds it there -/
theorem registry_truthful {r r' : Registry} {work : Work} {es : List Entry} (h : Course r work es r') :
    r' = replay r es ∧ Truthful r es := by
  induction h with
  | idle r => exact ⟨rfl, .nil r⟩
  | @plain r r' cs e es he _ ih =>
    have hreplay : ∀ es, replay r (e :: es) = replay r es := fun es => replay_cons r es (by rintro c b rfl; cases he)
    obtain ⟨rfl, ht⟩ := ih
    refine ⟨(hreplay es).symm, .cons (by cases e <;> first | exact trivial | cases he) ?_⟩
    rw [hreplay]
    exact ht
  | @call r r₁ r₂ c cs body rest _ _ ihround ih =>
    obtain ⟨rfl, hbody⟩ := ihround
    obtain ⟨rfl, hrest⟩ := ih
    refine ⟨?_, .cons rfl (hbody.append (.cons trivial hrest))⟩
    rw [replay_entered, replay_append]
    rfl
  | told r d => exact ⟨rfl, .nil r⟩
  | @tell r r₁ r₂ d l ls p cs body rest _ _ ihinner ih =>
    obtain ⟨rfl, hbody⟩ := ihinner
    obtain ⟨rfl, hrest⟩ := ih
    refine ⟨?_, .cons rfl (hbody.append (.cons trivial hrest))⟩
    rw [replay_cons _ _ (by rintro c b ⟨⟩), replay_append]
    rfl

end Course

/-! ## Every call has its round -/

/-- what stands behind an entry is the round of a call, and then the call is left -/
def RoundFollows (before : Registry) (c : FocusCall) (post : List Entry) : Prop :=
  ∃ body rest r₁, post = body ++ .left :: rest ∧
    Course (before.after c) (.tell (before.after c).focused (before.audience (before.after c))) body r₁

theorem RoundFollows.append {before : Registry} {c : FocusCall} {post : List Entry} (h : RoundFollows before c post)
    (more : List Entry) : RoundFollows before c (post ++ more) := by
  obtain ⟨body, rest, r₁, rfl, hc⟩ := h
  exact ⟨body, rest ++ more, r₁, by simp, hc⟩

/-- an entry on one side of another: what stands behind it goes up to the other, or it comes after -/
theorem split_around {x y : Entry} {a b pre post : List Entry} (hne : x ≠ y) (h : a ++ x :: b = pre ++ y :: post) :
    (∃ q, a = pre ++ y :: q ∧ post = q ++ x :: b) ∨ ∃ q, b = q ++ y :: post ∧ pre = a ++ x :: q := by
  rcases List.append_eq_append_iff.1 h with ⟨q, rfl, hq⟩ | ⟨q, rfl, hq⟩
  · cases q with
    | nil => exact absurd (List.cons.inj hq).1 hne
    | cons z q =>
      obtain ⟨rfl, hb⟩ := List.cons.inj hq
      exact Or.inr ⟨q, hb, rfl⟩
  · cases q with
    | nil => exact absurd (List.cons.inj hq).1.symm hne
    | cons z q =>
      obtain ⟨rfl, rfl⟩ := List.cons.inj hq
      exact Or.inl ⟨q, rfl, rfl⟩

namespace Course

/-- the round of a call, however deep the call stands in a course -/
theorem round_of_entered {r r' : Registry} {work : Work} {es : List Entry} (h : Course r work es r') :
    ∀ {pre c before post}, es = pre ++ .entered c before :: post → RoundFollows before c post := by
  induction h with
  | idle r | told r d => intro pre c before post h; simp at h
  | plain he _ ih =>
    intro pre c before post h
    cases pre with
    | nil => cases h; cases he
    | cons x pre => exact ih (List.cons.inj h).2
  | @call r r₁ r₂ c₀ cs body rest round _ ihround ih =>
    intro pre c before post h
    cases pre with
    | nil =>
      obtain ⟨hc, rfl⟩ := List.cons.inj h
      cases hc
      exact ⟨body, rest, r₁, rfl, round⟩
    | cons x pre =>
      rcases split_around (by simp) (List.cons.inj h).2 with ⟨q, hbody, rfl⟩ | ⟨q, hrest, -⟩
      · exact (ihround hbody).append _
      · exact ih hrest
  | @tell r r₁ r₂ d l ls p cs body rest _ _ ihinner ih =>
    intro pre c before post h
    cases pre with
    | nil => cases (List.cons.inj h).1
    | cons x pre =>
      rcases split_around (by simp) (List.cons.inj h).2 with ⟨q, hbody, rfl⟩ | ⟨q, hrest, -⟩
      · exact (ihinner hbody).append _
      · exact ih hrest

end Course

/-! ## Sessions log courses -/

/-- what a stretch logs is the course of some calls -/
def Nests (w w' : World μ) : Prop :=
  ∃ cs es, w'.log = w.log ++ es ∧ Course w.registry (.calls cs) es w'.registry

/-- what is logged while a listener is told goes in front of the rest of its round -/
def Tells (l : Listener) (d : Display) (w w' : World μ) : Prop :=
  ∃ es, w'.log = w.log ++ es ∧ ∀ {ls rest r₂}, Course w'.registry (.tell d ls) rest r₂ →
    Course w.registry (.tell d (l :: ls)) (es ++ rest) r₂

/-- listeners told one after the other make a round -/
theorem course_of_tells {tell : Tell μ} (h : ∀ l d w, Tells l d w (tell l d w)) (d : Display) (ls : List Listener)
    (w : World μ) :
    ∃ es, (ls.foldl (fun w l => tell l d w) w).log = w.log ++ es ∧
      Course w.registry (.tell d ls) es (ls.foldl (fun w l => tell l d w) w).registry := by
  induction ls generalizing w with
  | nil => exact ⟨[], by simp, .told _ _⟩
  | cons l ls ih =>
    obtain ⟨es, hlog, hc⟩ := h l d w
    obtain ⟨es', hlog', hc'⟩ := ih (tell l d w)
    exact ⟨es ++ es', by rw [List.foldl_cons, hlog', hlog, List.append_assoc], hc hc'⟩

/-- one change logs the course of one call -/
theorem course_of_change {tell : Tell μ} (h : ∀ l d w, Tells l d w (tell l d w)) (c : FocusCall) (w : World μ) :
    ∃ es, (change tell c w).log = w.log ++ es ∧ Course w.registry (.calls [c]) es (change tell c w).registry := by
  obtain ⟨body, hlog, hc⟩ := course_of_tells h (w.registry.after c).focused (w.registry.audience (w.registry.after c))
    (w.enter c)
  rw [change_eq, deliver_apply]
  refine ⟨.entered c w.registry :: (body ++ [.left]), ?_, .call hc (.idle _)⟩
  simp [hlog]

theorem Nests.trans {u v w : World μ} (h : Nests u v) (h' : Nests v w) : Nests u w := by
  obtain ⟨cs, es, hlog, hc⟩ := h
  obtain ⟨cs', es', hlog', hc'⟩ := h'
  exact ⟨cs ++ cs', es ++ es', by rw [hlog', hlog, List.append_assoc], hc.append hc'⟩

theorem keeps_nests : Keeps (Nests (μ := μ)) Tells where
  refl w := ⟨[], [], by simp, .idle _⟩
  trans := Nests.trans
  remark w e he := ⟨[], [e], rfl, .plain (by cases e <;> first | rfl | cases he) (.idle _)⟩
  unlogged w policy source reads memory := ⟨[], [], by simp, .idle _⟩
  close w := ⟨[], [], by simp, .idle _⟩
  send display now w draft := by
    refine ⟨[], _, World.send_log display now w draft, .of_plain _ fun e he => ?_⟩
    rcases List.mem_append.1 he with he | he
    · obtain ⟨n, -, rfl⟩ := List.mem_map.1 he
      rfl
    · rw [List.mem_singleton.1 he]
      rfl
  change tell h c w := ⟨[c], course_of_change h c w⟩
  told := by
    rintro l d w w' ⟨cs, es, hlog, hc⟩
    refine ⟨.told l d w.registry.snapshot w.policy :: (es ++ [.finished l]), ?_, fun {ls rest r₂} h => ?_⟩
    · simp [hlog]
    · rw [List.cons_append, List.append_assoc]
      exact .tell hc h

theorem course_of_run (s : Surroundings μ) (depth : Nat) (cs : List FocusCall) (w : World μ) :
    ∃ es, (run s depth (cs.map .focus) w).log = w.log ++ es ∧
      Course w.registry (.calls cs) es (run s depth (cs.map .focus) w).registry := by
  induction cs generalizing w with
  | nil => exact ⟨[], by simp [run], .idle _⟩
  | cons c cs ih =>
    obtain ⟨es, hlog, hc⟩ := course_of_change (keeps_nests.tell s depth) c w
    obtain ⟨es', hlog', hc'⟩ := ih (change (tell s depth) c w)
    refine ⟨es ++ es', ?_, hc.append hc'⟩
    rw [← List.append_assoc, ← hlog]
    exact hlog'

/-- **Calls nest, and states do not.** For every run of calls to the registry, with any listeners making any calls of their
own to any depth: every call, outer or nested, finds the registry as the transitions of all calls entered before it make it,
so does every listener that is told, and so it is left at the end. Every call is followed by its round, told of the display
and to the listeners that the registry has right after the call's own transition, each once and in order, and by nothing
else before it is left. All of it is one well-nested course of the given calls. -/
theorem run_nested (s : Surroundings μ) (depth : Nat) (cs : List FocusCall) (w : World μ) :
    ∃ es, (run s depth (cs.map .focus) w).log = w.log ++ es ∧
      (run s depth (cs.map .focus) w).registry = (callsIn es).foldl Registry.after w.registry ∧
      (∀ pre c before post, es = pre ++ .entered c before :: post →
        before = (callsIn pre).foldl Registry.after w.registry ∧ RoundFollows before c post) ∧
      (∀ pre l d seen policy post, es = pre ++ .told l d seen policy :: post →
        seen = ((callsIn pre).foldl Registry.after w.registry).snapshot) ∧
      Course w.registry (.calls cs) es (run s depth (cs.map .focus) w).registry := by
  obtain ⟨es, hlog, hc⟩ := course_of_run s depth cs w
  obtain ⟨hreg, ht⟩ := hc.registry_truthful
  refine ⟨es, hlog, hreg, fun pre c before post h => ⟨?_, hc.round_of_entered h⟩, fun pre l d seen policy post h => ?_, hc⟩
  · exact ht pre _ post h
  · exact ht pre _ post h

end Session

end InputRelay
