/-
Whose turn it is. A round is fixed when its call is entered, while tracking is on, and then its listeners take their turns,
one after the other. A listener may switch tracking off in its turn, and the round goes on all the same: those that come
after it are told of a focus that is no longer tracked (`told_untracked`). That is the only way for it to happen. Whoever is
told has its turn in the round of a call (`InTurn`), and nothing has happened since that call but the turns of those before
it; so if tracking is off by then, one of them had it switched off (`InTurn.switched_off`). Where no listener switches
tracking off, nobody is ever told while it is off (`tellings_tracked`).
-/
import InputRelay.Proofs.Focus
import InputRelay.Proofs.Session.Nesting

namespace InputRelay.Session

variable {μ : Type}

/-! ## Turns -/

/-- a listener has its turn, with what it sees then: some call has been entered whose round was fixed with tracking on, the
round tells it of the display that had the focus, and since that call those before it in the round have had their turns -/
def InTurn (past since : List Entry) (l : Listener) (d : Display) (seen : Snapshot) : Prop :=
  ∃ a c before earlier later r,
    past = a ++ .entered c before :: since ∧ (before.after c).tracking = true ∧ (before.after c).focused = d ∧
    (before.after c).listeners = earlier ++ l :: later ∧ Course (before.after c) (.tell d earlier) since r ∧
    seen = r.snapshot

theorem InTurn.append {past since : List Entry} {l : Listener} {d : Display} {seen : Snapshot}
    (h : InTurn past since l d seen) (es : List Entry) : InTurn (es ++ past) since l d seen := by
  obtain ⟨a, c, before, earlier, later, r, rfl, hrest⟩ := h
  exact ⟨es ++ a, c, before, earlier, later, r, by simp, hrest⟩

/-- a round that somebody is told in was fixed with tracking on, for all listeners -/
theorem audience_eq_cons {before after : Registry} {earlier later : List Listener} {l : Listener}
    (h : before.audience after = earlier ++ l :: later) :
    after.tracking = true ∧ after.listeners = earlier ++ l :: later := by
  unfold Registry.audience at h
  split_ifs at h with hon
  · exact ⟨hon.1, h⟩
  · simp at h

/-- whoever is told in a course has its turn in a round inside it, or in the round that the course is part of -/
theorem Course.inTurn {r r' : Registry} {work : Work} {es : List Entry} (h : Course r work es r') :
    ∀ {past l d seen policy post}, es = past ++ .told l d seen policy :: post →
      (∃ since, InTurn past since l d seen) ∨
        ∃ earlier later r₁, work = .tell d (earlier ++ l :: later) ∧ Course r (.tell d earlier) past r₁ ∧
          seen = r₁.snapshot := by
  induction h with
  | idle r | told r d => intro past l d seen policy post h; simp at h
  | @plain r r' cs e es he _ ih =>
    intro past l d seen policy post h
    cases past with
    | nil => cases h; cases he
    | cons x past =>
      rcases ih (List.cons.inj h).2 with ⟨since, hturn⟩ | ⟨_, _, _, hwork, -⟩
      · exact Or.inl ⟨since, hturn.append [x]⟩
      · cases hwork
  | @call r r₁ r₂ c cs body rest _ _ ihround ih =>
    intro past l d seen policy post h
    cases past with
    | nil => cases (List.cons.inj h).1
    | cons x past =>
      obtain ⟨rfl, htail⟩ := List.cons.inj h
      rcases split_around (by simp) htail with ⟨q, hbody, -⟩ | ⟨q, hrest, rfl⟩
      · rcases ihround hbody with ⟨since, hturn⟩ | ⟨earlier, later, r₃, hwork, hcourse, hseen⟩
        · exact Or.inl ⟨since, hturn.append [_]⟩
        · -- it is this very call's round
          obtain ⟨hd, haudience⟩ := Work.tell.inj hwork
          obtain ⟨hon, hlisteners⟩ := audience_eq_cons haudience
          exact Or.inl ⟨past, [], c, r, earlier, later, r₃, rfl, hon, hd, hlisteners, hd ▸ hcourse, hseen⟩
      · rcases ih hrest with ⟨since, hturn⟩ | ⟨_, _, _, hwork, -⟩
        · refine Or.inl ⟨since, ?_⟩
          have hpast := hturn.append (.entered c r :: (body ++ [.left]))
          simpa using hpast
        · cases hwork
  | @tell r r₁ r₂ d₀ l₀ ls p cs body rest inner _ ihinner ih =>
    intro past l d seen policy post h
    cases past with
    | nil =>
      obtain ⟨htold, -⟩ := List.cons.inj h
      cases htold
      exact Or.inr ⟨[], ls, r, rfl, .told r d₀, rfl⟩
    | cons x past =>
      obtain ⟨rfl, htail⟩ := List.cons.inj h
      rcases split_around (by simp) htail with ⟨q, hbody, -⟩ | ⟨q, hrest, rfl⟩
      · rcases ihinner hbody with ⟨since, hturn⟩ | ⟨_, _, _, hwork, -⟩
        · exact Or.inl ⟨since, hturn.append [_]⟩
        · cases hwork
      · rcases ih hrest with ⟨since, hturn⟩ | ⟨earlier, later, r₃, hwork, hcourse, hseen⟩
        · refine Or.inl ⟨since, ?_⟩
          have hpast := hturn.append (.told l₀ d₀ r.snapshot p :: (body ++ [.finished l₀]))
          simpa using hpast
        · obtain ⟨rfl, rfl⟩ := Work.tell.inj hwork
          exact Or.inr ⟨l₀ :: earlier, later, r₃, rfl, .tell inner hcourse, hseen⟩

/-! ## Switching tracking off -/

/-- tracking stays on through a transition that does not switch it off -/
theorem tracking_after_kept {r : Registry} (hon : r.tracking = true) {c : FocusCall} (hc : c ≠ .setTracking false) :
    (r.after c).tracking = true := by
  by_cases hset : ∃ on, c = .setTracking on
  · obtain ⟨on, rfl⟩ := hset
    rw [Registry.after_setTracking]
    cases on with
    | true => rfl
    | false => exact absurd rfl hc
  · rw [r.tracking_after fun on heq => hset ⟨on, heq⟩]
    exact hon

/-- tracking stays on until it is switched off -/
theorem tracking_replay {r : Registry} (hon : r.tracking = true) {es : List Entry}
    (h : .setTracking false ∉ callsIn es) : (replay r es).tracking = true := by
  have hcalls : ∀ cs : List FocusCall, .setTracking false ∉ cs → ∀ r : Registry, r.tracking = true →
      (cs.foldl Registry.after r).tracking = true := by
    intro cs
    induction cs with
    | nil => exact fun _ _ hr => hr
    | cons c cs ih =>
      intro hcs r hr
      rw [List.mem_cons, not_or] at hcs
      exact ih hcs.2 _ (tracking_after_kept hr fun heq => hcs.1 heq.symm)
  exact hcalls _ h r hon

/-- a listener that is told while tracking is off has its turn after one that had it switched off -/
theorem InTurn.switched_off {past since : List Entry} {l : Listener} {d : Display} {seen : Snapshot}
    (h : InTurn past since l d seen) (hoff : seen.tracking = false) : .setTracking false ∈ callsIn since := by
  obtain ⟨a, c, before, earlier, later, r, -, hon, -, -, hcourse, rfl⟩ := h
  by_contra hnever
  have hstill := tracking_replay hon hnever
  rw [← hcourse.registry_truthful.1] at hstill
  exact Bool.false_ne_true (hoff.symm.trans hstill)

/-! ## Listeners that leave tracking on -/

/-- a call that switches tracking off, itself or by the policy that it puts in place -/
def Call.SwitchesOff : Call → Prop
  | .focus (.setTracking on) => on = false
  | .updatePolicy policy => policy.tracksFocus = false
  | _ => False

/-- everyone told in a stretch of the log sees tracking on -/
def SeenTracked (es : List Entry) : Prop := ∀ l d seen policy, .told l d seen policy ∈ es → seen.tracking = true

theorem SeenTracked.append {es es' : List Entry} (h : SeenTracked es) (h' : SeenTracked es') :
    SeenTracked (es ++ es') := fun l d seen policy hmem =>
  (List.mem_append.1 hmem).elim (h l d seen policy) (h' l d seen policy)

/-- a stretch in which everyone told sees tracking on, and at whose end tracking is on if it was at its beginning -/
def StaysOn (w w' : World μ) : Prop :=
  ∃ es, w'.log = w.log ++ es ∧ SeenTracked es ∧ (w.registry.tracking = true → w'.registry.tracking = true)

namespace StaysOn

theorem trans {u v w : World μ} (h : StaysOn u v) (h' : StaysOn v w) : StaysOn u w := by
  obtain ⟨es, hlog, hseen, hon⟩ := h
  obtain ⟨es', hlog', hseen', hon'⟩ := h'
  exact ⟨es ++ es', by rw [hlog', hlog, List.append_assoc], hseen.append hseen', fun h => hon' (hon h)⟩

theorem on {w w' : World μ} (h : StaysOn w w') (hon : w.registry.tracking = true) : w'.registry.tracking = true := by
  obtain ⟨_, -, -, hstill⟩ := h
  exact hstill hon

theorem unlogged {w w' : World μ} (hlog : w'.log = w.log) (hregistry : w'.registry = w.registry) : StaysOn w w' :=
  ⟨[], by simp [hlog], nofun, fun h => hregistry ▸ h⟩

/-- entries that tell nobody anything -/
theorem untold {w w' : World μ} {es : List Entry} (hlog : w'.log = w.log ++ es) (hregistry : w'.registry = w.registry)
    (h : ∀ l d seen policy, .told l d seen policy ∉ es) : StaysOn w w' :=
  ⟨es, hlog, fun l d seen policy hmem => absurd hmem (h l d seen policy), fun h => hregistry ▸ h⟩

end StaysOn

/-- whatever the call, its round is seen with tracking on, and leaves it on, if its listeners do -/
theorem change_seenTracked {tell : Tell μ} (h : ∀ l d w, w.registry.tracking = true → StaysOn w (tell l d w))
    (c : FocusCall) (w : World μ) :
    ∃ es, (change tell c w).log = w.log ++ es ∧ SeenTracked es ∧
      ((w.registry.after c).tracking = true → (change tell c w).registry.tracking = true) := by
  by_cases hon : (w.registry.after c).tracking = true
  · have hround := change_kept (R := fun u v => u.registry.tracking = true → StaysOn u v)
      (fun w _ => .unlogged rfl rfl) (fun h h' hu => (h hu).trans (h' ((h hu).on hu)))
      (fun w _ => .untold (w.record_log .left) rfl (by simp)) h c w
    obtain ⟨es, hlog, hseen, hstill⟩ := hround hon
    refine ⟨.entered c w.registry :: es, by simp [hlog], ?_, hstill⟩
    intro l d seen policy hmem
    exact hseen l d seen policy (by simpa using hmem)
  · have hnobody : w.registry.audience (w.registry.after c) = [] := if_neg fun h => hon h.1
    rw [change_eq, deliver_apply, hnobody]
    exact ⟨[.entered c w.registry, .left], by simp, by simp [SeenTracked], fun h => absurd h hon⟩

theorem keeps_staysOn : KeepsFor (fun c => ¬ c.SwitchesOff) (StaysOn (μ := μ))
    fun _ _ w w' => w.registry.tracking = true → StaysOn w w' where
  refl _ := .unlogged rfl rfl
  trans := StaysOn.trans
  remark w e he := .untold (w.record_log e) rfl (by
    intro l d seen policy hmem
    cases List.mem_singleton.1 hmem
    cases he)
  unlogged _ _ _ _ := .unlogged rfl rfl
  replace _ _ _ := .unlogged rfl rfl
  close _ := .unlogged rfl rfl
  send display now w draft := .untold (World.send_log display now w draft) rfl (by simp)
  focus tell h c hc w := by
    obtain ⟨es, hlog, hseen, hon⟩ := change_seenTracked h c w
    exact ⟨es, hlog, hseen, fun h => hon (tracking_after_kept h (by rintro rfl; exact hc rfl))⟩
  update tell h policy hp w := by
    obtain ⟨es, hlog, hseen, hon⟩ := change_seenTracked h (.setTracking policy.tracksFocus) { w with policy }
    refine ⟨es, hlog, hseen, fun _ => hon ?_⟩
    rw [Registry.after_setTracking]
    exact Bool.eq_true_of_not_eq_false hp
  take tell h _ p w _ _ _ := by
    obtain ⟨es, hlog, hseen, hon⟩ := change_seenTracked h (.setFocus p.display) w
    refine ⟨es, hlog, hseen, fun h => hon ?_⟩
    rw [Registry.after_setFocus]
    exact h
  pumped _ _ _ := id
  told {l d w w'} h hon := by
    obtain ⟨es, hlog, hseen, hstill⟩ := h
    refine ⟨.told l d w.registry.snapshot w.policy :: (es ++ [.finished l]), by simp [hlog], ?_, fun _ => hstill hon⟩
    intro l' d' seen policy hmem
    rcases List.mem_cons.1 hmem with htold | hmem
    · cases htold
      exact hon
    · exact hseen l' d' seen policy (by simpa using hmem)

/-- a call made from outside may switch tracking off, but then it tells nobody -/
theorem perform_seenTracked {s : Surroundings μ} (hs : ∀ l d, (s.callback l d).Only fun c => ¬ c.SwitchesOff)
    (depth : Nat) (c : Call) (w : World μ) :
    ∃ es, (perform s depth c w).1.log = w.log ++ es ∧ SeenTracked es := by
  have htell := keeps_staysOn.tell hs depth
  by_cases hc : c.SwitchesOff
  · cases c with
    | focus c =>
      obtain ⟨es, hlog, hseen, -⟩ := change_seenTracked htell c w
      exact ⟨es, hlog, hseen⟩
    | updatePolicy policy =>
      obtain ⟨es, hlog, hseen, -⟩ := change_seenTracked htell (.setTracking policy.tracksFocus) { w with policy }
      exact ⟨es, hlog, hseen⟩
    | _ => exact hc.elim
  · obtain ⟨es, hlog, hseen, -⟩ := keeps_staysOn.perform hs depth hc w
    exact ⟨es, hlog, hseen⟩

theorem run_seenTracked {s : Surroundings μ} (hs : ∀ l d, (s.callback l d).Only fun c => ¬ c.SwitchesOff)
    (depth : Nat) (cs : List Call) (w : World μ) :
    ∃ es, (run s depth cs w).log = w.log ++ es ∧ SeenTracked es := by
  induction cs generalizing w with
  | nil => exact ⟨[], by simp [run], nofun⟩
  | cons c cs ih =>
    obtain ⟨es, hlog, hseen⟩ := perform_seenTracked hs depth c w
    obtain ⟨es', hlog', hseen'⟩ := ih (perform s depth c w).1
    refine ⟨es ++ es', ?_, hseen.append hseen'⟩
    rw [← List.append_assoc, ← hlog]
    exact hlog'

/-! ## Main result -/

/-- **Whoever is told with tracking off comes after one that switched it off.** In every run, with any listeners and to any
depth, whoever is told has its turn in the round of a call that was fixed while tracking was on. If it finds tracking off,
then since that call, and so in the turns of those before it in the round, tracking was switched off. Where no listener
ever switches tracking off, be it itself or by a policy, all that are told find it on, whatever is called from outside. -/
theorem tellings_tracked (s : Surroundings μ) (depth : Nat) (cs : List Call) (w : World μ) :
    ∃ es, (run s depth cs w).log = w.log ++ es ∧
      (∀ pre l d seen policy post, es = pre ++ .told l d seen policy :: post →
        ∃ since, InTurn pre since l d seen ∧ (seen.tracking = false → .setTracking false ∈ callsIn since)) ∧
      ((∀ l d, (s.callback l d).Only fun c => ¬ c.SwitchesOff) → SeenTracked es) := by
  obtain ⟨calls, es, hlog, hcourse⟩ := keeps_nests.run s depth cs w
  refine ⟨es, hlog, fun pre l d seen policy post h => ?_, fun hs => ?_⟩
  · rcases hcourse.inTurn h with ⟨since, hturn⟩ | ⟨_, _, _, hwork, -⟩
    · exact ⟨since, hturn, hturn.switched_off⟩
    · cases hwork
  · obtain ⟨es', hlog', hseen⟩ := run_seenTracked hs depth cs w
    rw [hlog] at hlog'
    exact List.append_cancel_left hlog' ▸ hseen

/-- of two listeners the first switches tracking off when it is told, and the second is told all the same -/
theorem told_untracked :
    let off : Callback Unit := .call (.focus (.setTracking false)) fun _ => .done
    let s : Surroundings Unit := ⟨fun _ => 0, fun l _ => if l = ⟨"first"⟩ then off else .done⟩
    let ended := run s 1 [.focus (.addListener ⟨"first"⟩), .focus (.addListener ⟨"second"⟩), .focus (.setTracking true)]
      (World.bare .closed ())
    .told ⟨"second"⟩ .invalid ⟨.invalid, false⟩ .closed ∈ ended.log := by
  decide +kernel

end InputRelay.Session
