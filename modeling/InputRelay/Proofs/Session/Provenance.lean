/-
Where the focus comes from. The focus need not be on a display of the focusable set: a request for the focus is granted to
any display. But at every moment of a session it is settled (`Registry.Settled`), or else the last change that moved it
was a request for just the display that has it (`LastAsked`), and some call of the run asks for that display, be it from
outside or in a listener's program (`Asked`).

The log recounts how the registry came about (`recounts_invariant`), so this is a matter of logs: `settled_or_lastAsked`
is an induction over the changes entered. That nobody else asks is an invariant of calls that do not
(`unasked_invariant`); for the router it rests on `Router.focusAsked_of_takesFocus`.
-/
import InputRelay.Proofs.Focus
import InputRelay.Proofs.Session.Moments
import InputRelay.Proofs.Session.Nesting

namespace InputRelay

/-! ## Requests for the focus -/

/-- the display that a request asks the focus for: the one it names, if it is a touch, back or home -/
def Request.focusAsked : Request → Option Display
  | .event .touchscreen (.motion _) (some d) => some d
  | .event .navigationTouchpad (.motion _) (some d) => some d
  | .back d => some d
  | .home d => some d
  | _ => none

/-- a plan takes the focus for the display that its request asks it for, or leaves it where it is -/
theorem Router.focusAsked_of_takesFocus {focus : Snapshot} {policy : Policy} {r : Request} {p : Router.Plan}
    (hp : Router.plan focus policy r = .send p) (ht : p.takesFocus = true) :
    r.focusAsked = some p.display ∨ p.display = focus.focused := by
  have htarget : ∀ {device e d}, Router.target device e d = .send p →
      p.display = d ∧ (Request.event device e (some d)).focusAsked = some d := by
    intro device e d h
    cases e with
    | key k =>
      cases h
      cases ht
    | motion m =>
      cases device with
      | touchscreen | navigationTouchpad =>
        cases h
        exact ⟨rfl, rfl⟩
      | mouse =>
        cases h
        cases ht
      | keyboard | dpad => cases h
  cases r with
  | back d | home d =>
    cases hp
    exact Or.inl rfl
  | event device e target =>
    cases target with
    | some d =>
      obtain ⟨hd, hasked⟩ := htarget hp
      exact Or.inl (hd ▸ hasked)
    | none =>
      simp only [Router.plan, Router.targetFocused] at hp
      cases hf : focus.target with
      | none =>
        rw [hf] at hp
        cases hp
      | some d =>
        simp only [hf] at hp
        have hd : d = focus.focused := by
          unfold Snapshot.target at hf
          split_ifs at hf
          exact (Option.some.inj hf).symm
        split at hp
        · exact Or.inr ((htarget hp).1.trans hd)
        · cases hp
        · cases hp

namespace Session

variable {μ : Type}

/-- a call that may ask the focus for a display; a pump routes whatever waits, so it may ask for any -/
def Call.AsksFocus (d : Display) : Call → Prop
  | .focus (.setFocus d') => d' = d
  | .dispatch r => r.focusAsked = some d
  | .pump _ => True
  | _ => False

/-- some call of a run, from outside or in a listener's program, asks the focus for a display -/
def Asked (s : Surroundings μ) (cs : List Call) (d : Display) : Prop :=
  (∃ c ∈ cs, c.AsksFocus d) ∨ ∃ l d', ¬ (s.callback l d').Only fun c => ¬ c.AsksFocus d

/-! ## The log recounts the registry -/

/-- what is logged since a world is true, and leads from its registry to that of another -/
def Recounts (w v : World μ) : Prop :=
  ∃ es, v.log = w.log ++ es ∧ v.registry = replay w.registry es ∧ Truthful w.registry es

theorem Recounts.more {w v v' : World μ} {es : List Entry} (h : Recounts w v) (hlog : v'.log = v.log ++ es)
    (hreg : v'.registry = replay v.registry es) (htrue : Truthful v.registry es) : Recounts w v' := by
  obtain ⟨past, hpast, hv, ht⟩ := h
  refine ⟨past ++ es, by rw [hlog, hpast, List.append_assoc], ?_, ?_⟩
  · rw [replay_append, ← hv, hreg]
  · exact ht.append (hv ▸ htrue)

/-- entries that say nothing of the registry recount it as it is -/
theorem replay_silent (r : Registry) {es : List Entry} (h : ∀ e ∈ es, (∀ r, e.Sees r) ∧ ∀ c b, e ≠ .entered c b) :
    replay r es = r ∧ Truthful r es := by
  induction es with
  | nil => exact ⟨rfl, .nil r⟩
  | cons e es ih =>
    obtain ⟨hsees, hne⟩ := h e List.mem_cons_self
    obtain ⟨hreplay, htrue⟩ := ih fun e' he' => h e' (List.mem_cons_of_mem e he')
    exact ⟨by rw [replay_cons r es hne, hreplay], .cons (hsees r) (by rwa [replay_cons r [] hne])⟩

theorem Recounts.silent {w v v' : World μ} {es : List Entry} (h : Recounts w v) (hlog : v'.log = v.log ++ es)
    (hreg : v'.registry = v.registry) (hes : ∀ e ∈ es, (∀ r, e.Sees r) ∧ ∀ c b, e ≠ .entered c b) : Recounts w v' := by
  obtain ⟨hreplay, htrue⟩ := replay_silent v.registry hes
  exact h.more hlog (hreg.trans hreplay.symm) htrue

theorem Recounts.enter {w v : World μ} (h : Recounts w v) (c : FocusCall) : Recounts w (v.enter c) :=
  h.more (v.enter_log c) rfl (.cons rfl (.nil _))

theorem recounts_invariant (w : World μ) : Invariant (fun _ => True) (Recounts w) where
  note {v e} he h := h.silent (v.record_log e) rfl (by
    rintro e' he'
    cases List.mem_singleton.1 he'
    cases e <;> first | exact ⟨fun _ => trivial, nofun⟩ | cases he)
  told {v l d} h := h.more (v.tell_log l d) rfl (.cons rfl (.nil _))
  unlogged h := h
  replace _ h := h
  close h := h
  send {display now v draft} h := h.silent (World.send_log display now v draft) rfl (by
    intro e he
    rcases List.mem_append.1 he with he | he
    · obtain ⟨n, -, rfl⟩ := List.mem_map.1 he
      exact ⟨fun _ => trivial, nofun⟩
    · cases List.mem_singleton.1 he
      exact ⟨fun _ => trivial, nofun⟩)
  focus _ h := h.enter _
  update _ h := Recounts.enter h _
  take _ _ _ h := h.enter _
  pumped _ := trivial

/-! ## The last change of the focus -/

/-- the last change that moved the focus was a request for a display that did not have it -/
def LastAsked (past : List Entry) (d : Display) : Prop :=
  ∃ earlier before later, past = earlier ++ .entered (.setFocus d) before :: later ∧ before.focused ≠ d ∧
    ∀ c r, .entered c r ∈ later → (r.after c).focused = r.focused

theorem LastAsked.snoc {past : List Entry} {d : Display} (h : LastAsked past d) {e : Entry}
    (he : ∀ c r, e = .entered c r → (r.after c).focused = r.focused) : LastAsked (past ++ [e]) d := by
  obtain ⟨earlier, before, later, rfl, hne, hlater⟩ := h
  refine ⟨earlier, before, later ++ [e], by simp, hne, fun c r hmem => ?_⟩
  rcases List.mem_append.1 hmem with hmem | hmem
  · exact hlater c r hmem
  · exact he c r (List.mem_singleton.1 hmem).symm

theorem Truthful.of_append {r : Registry} {es es' : List Entry} (h : Truthful r (es ++ es')) : Truthful r es := by
  intro pre e post heq
  exact h pre e (post ++ es') (by simp [heq])

/-- wherever true changes have brought the focus, it is settled there or was last asked for -/
theorem settled_or_lastAsked {es : List Entry} (h : Truthful .empty es) :
    (replay .empty es).Settled ∨ LastAsked es (replay .empty es).focused := by
  induction es using List.reverseRecOn with
  | nil => exact Or.inl Registry.settled_empty
  | append_singleton es e ih =>
    have ih := ih h.of_append
    have hsees : e.Sees (replay .empty es) := h es e [] rfl
    rw [replay_append]
    generalize replay .empty es = r at ih hsees ⊢
    by_cases hentered : ∃ c before, e = .entered c before
    swap
    · have hne : ∀ c before, e ≠ .entered c before := fun c before he => hentered ⟨c, before, he⟩
      rw [replay_cons r [] hne]
      exact ih.imp_right fun hlast => hlast.snoc fun c r he => absurd he (hne c r)
    obtain ⟨c, before, rfl⟩ := hentered
    cases hsees
    change (r.after c).Settled ∨ LastAsked _ (r.after c).focused
    by_cases hunmoved : (r.after c).focused = r.focused
    · -- what was true of the focus stays true, unless the set lost it; then the focus would have moved
      rw [hunmoved]
      rcases ih with hsettled | hlast
      · by_cases hc : ∃ d, c = .setFocus d
        · obtain ⟨d, rfl⟩ := hc
          rw [Registry.after_setFocus] at hunmoved ⊢
          cases hunmoved
          exact Or.inl hsettled
        · exact Or.inl (hsettled.after fun d hd => hc ⟨d, hd⟩)
      · refine Or.inr (hlast.snoc fun c' r' he => ?_)
        cases he
        exact hunmoved
    · -- whatever moves the focus is a request for where it is now, or settles it
      by_cases hc : ∃ d, c = .setFocus d
      · obtain ⟨d, rfl⟩ := hc
        rw [Registry.after_setFocus] at hunmoved ⊢
        exact Or.inr ⟨es, r, [], rfl, Ne.symm hunmoved, nofun⟩
      · exact Or.inl (Registry.settled_of_moved (fun d hd => hc ⟨d, hd⟩) hunmoved)

/-! ## Nobody else asks -/

/-- since a world, the focus has not been moved by a request for a display -/
def Unasked (d : Display) (w v : World μ) : Prop :=
  ∃ es, v.log = w.log ++ es ∧ ∀ before, .entered (.setFocus d) before ∈ es → before.focused = d

theorem Unasked.more {d : Display} {w v v' : World μ} {es : List Entry} (h : Unasked d w v)
    (hlog : v'.log = v.log ++ es) (hes : ∀ before, .entered (.setFocus d) before ∈ es → before.focused = d) :
    Unasked d w v' := by
  obtain ⟨past, hpast, hasked⟩ := h
  refine ⟨past ++ es, by rw [hlog, hpast, List.append_assoc], fun before hmem => ?_⟩
  rcases List.mem_append.1 hmem with hmem | hmem
  · exact hasked before hmem
  · exact hes before hmem

theorem Unasked.enter {d : Display} {w v : World μ} (h : Unasked d w v) {c : FocusCall}
    (hc : c = .setFocus d → v.registry.focused = d) : Unasked d w (v.enter c) := by
  refine h.more (v.enter_log c) fun before hmem => ?_
  cases List.mem_singleton.1 hmem
  exact hc rfl

theorem unasked_invariant (d : Display) (w : World μ) : Invariant (fun c => ¬ c.AsksFocus d) (Unasked d w) where
  note {v e} he h := h.more (v.record_log e) (by
    intro before hmem
    cases List.mem_singleton.1 hmem
    cases he)
  told {v l d'} h := h.more (v.tell_log l d') (by simp)
  unlogged h := h
  replace _ h := h
  close h := h
  send {display now v draft} h := h.more (World.send_log display now v draft) (by simp)
  focus hc h := h.enter (by rintro rfl; exact absurd rfl hc)
  update _ h := Unasked.enter h nofun
  take hr hp ht h := h.enter (by
    intro hd
    cases hd
    exact ((Router.focusAsked_of_takesFocus hp ht).resolve_left hr).symm)
  pumped hslot := absurd trivial hslot

/-- a display that no call of a run asks the focus for is not given it by request -/
theorem Asked.of_lastAsked {s : Surroundings μ} {depth : Nat} {cs : List Call} {w v : World μ} {past : List Entry}
    {d : Display} (hv : Visits s depth (.calls cs) w v) (hlog : v.log = w.log ++ past) (h : LastAsked past d) :
    Asked s cs d := by
  by_contra hnot
  obtain ⟨hcs, hs⟩ := not_or.1 hnot
  have hcs : ∀ c ∈ cs, ¬ c.AsksFocus d := fun c hc hd => hcs ⟨c, hc, hd⟩
  have hs : ∀ l d', (s.callback l d').Only fun c => ¬ c.AsksFocus d :=
    fun l d' => by_contra fun hl => hs ⟨l, d', hl⟩
  have hbegin : Unasked d w w := ⟨[], by simp, nofun⟩
  obtain ⟨es, hes, hasked⟩ := (unasked_invariant d w).visits hs hv ⟨hcs, hbegin⟩
  obtain rfl : past = es := List.append_cancel_left (hlog.symm.trans hes)
  obtain ⟨earlier, before, later, rfl, hne, -⟩ := h
  exact hne (hasked before (by simp))

/-! ## Main result -/

/-- **Where the focus comes from.** Take any run of calls, with any listeners making any calls of their own, from a
registry in which nothing has happened yet. At every moment of it, in the middle of rounds too, the focus is settled, or
the last change that moved it was a request for just the display that has it, which some call of the run asks for. So
where no call asks for the focus it is always settled. And the moment that a display is removed it does not have the
focus, unless it is the one that stands for none. -/
theorem focus_provenance (s : Surroundings μ) (depth : Nat) (cs : List Call) (w : World μ)
    (hnew : w.registry = .empty) :
    (∀ v, Visits s depth (.calls cs) w v →
      (∃ past, v.log = w.log ++ past ∧ v.registry = (callsIn past).foldl Registry.after .empty ∧
        (v.registry.Settled ∨ Asked s cs v.registry.focused ∧ LastAsked past v.registry.focused)) ∧
      ∀ d, d ≠ .invalid → (v.enter (.removeDisplay d)).registry.focused ≠ d) ∧
    ((∀ d, ¬ Asked s cs d) → ∀ v, Visits s depth (.calls cs) w v → v.registry.Settled) := by
  have hmoment : ∀ v, Visits s depth (.calls cs) w v →
      ∃ past, v.log = w.log ++ past ∧ v.registry = (callsIn past).foldl Registry.after .empty ∧
        (v.registry.Settled ∨ Asked s cs v.registry.focused ∧ LastAsked past v.registry.focused) := by
    intro v hv
    have hbegin : Recounts w w := ⟨[], by simp, rfl, .nil _⟩
    obtain ⟨past, hlog, hreg, htrue⟩ := (recounts_invariant w).visits
      (fun l d => (s.callback l d).only_true) hv ⟨fun _ _ => trivial, hbegin⟩
    rw [hnew] at hreg htrue
    refine ⟨past, hlog, hreg, ?_⟩
    rw [hreg]
    exact (settled_or_lastAsked htrue).imp_right fun h => ⟨.of_lastAsked hv hlog h, h⟩
  refine ⟨fun v hv => ⟨hmoment v hv, fun d hd => v.registry.focused_after_removeDisplay_ne hd⟩, fun hnone v hv => ?_⟩
  obtain ⟨past, -, -, hwhere⟩ := hmoment v hv
  exact hwhere.resolve_right fun h => hnone _ h.1

/-- a listener that hears of the first display added gives the focus to one that was never added -/
theorem focus_provenance_nested :
    let s : Surroundings Unit :=
      ⟨fun _ => 0, fun _ d => if d = ⟨4⟩ then .call (.dispatch (.back ⟨9⟩)) fun _ => .done else .done⟩
    let cs : List Call := [.focus (.addListener ⟨"panel"⟩), .focus (.setTracking true), .focus (.addDisplay ⟨4⟩)]
    let w : World Unit := .bare .closed ()
    let v := run s 2 cs w
    w.registry = .empty ∧ v.registry.focused = ⟨9⟩ ∧ v.registry.focusable = [⟨4⟩] ∧ ¬ v.registry.Settled ∧
      Asked s cs ⟨9⟩ ∧ LastAsked v.log ⟨9⟩ := by
  intro s cs w v
  have hnew : w.registry = .empty := rfl
  have hfocused : v.registry.focused = ⟨9⟩ := by decide +kernel
  have hunsettled : ¬ v.registry.Settled := by decide +kernel
  obtain ⟨⟨past, hlog, -, hwhere⟩, -⟩ := (focus_provenance s 2 cs w hnew).1 v (visits_run s 2 cs w)
  obtain ⟨hasked, hlast⟩ := hwhere.resolve_left hunsettled
  have hpast : v.log = past := hlog
  rw [hfocused] at hasked hlast
  exact ⟨hnew, hfocused, by decide +kernel, hunsettled, hasked, hpast ▸ hlast⟩

end Session

end InputRelay
