/-
Losing the taker of the frames. Whether someone still takes them, and when they were last taken, is nothing that a session
can be told from. Leave out of a run all calls that send the taker away, those from outside (`unclosed`) and those that
listeners make (`Callback.unclosed`): worlds of the two runs follow each other (`Follows`), which says that they agree on
all but the sink's frames and on the gist of their logs. So runs that are the same but for such calls show the same, step by
step (`loss_unnoticed`), whatever their clocks.

The frames are those of the messages handed over while someone took them (`Served`). Both runs hand over the same messages,
so where one of them has lost its taker and the other has not yet, at a moment when the same has happened in both, what the
first has queued in the end begins what the second has.
-/
import InputRelay.Proofs.Session.Moments
import InputRelay.Proofs.Session.Sending

namespace InputRelay.Session

open Wire (Event framesFrom timeless)

variable {μ : Type}

/-! ## Calls that send nobody away -/

/-- the calls but for those that send the taker away -/
def unclosed (cs : List Call) : List Call := cs.filter (· ≠ .closeSink)

theorem unclosed_cons {c : Call} (cs : List Call) (hc : c ≠ .closeSink) : unclosed (c :: cs) = c :: unclosed cs :=
  List.filter_cons_of_pos (by simpa using hc)

/-- a program but for the calls that send the taker away -/
def Callback.unclosed : Callback μ → Callback μ
  | .done => .done
  | .look next => .look fun v => (next v).unclosed
  | .keep memory next => .keep memory next.unclosed
  | .call c next => if c = .closeSink then (next .done).unclosed else .call c fun a => (next a).unclosed

/-- the same listeners, but they send nobody away, under some clock -/
def Surroundings.unclosed (s : Surroundings μ) (clock : Nat → Int64) : Surroundings μ :=
  ⟨clock, fun l d => (s.callback l d).unclosed⟩

/-! ## The gist of a log -/

/-- a log but for the times of sending, for what became of the frames and is reported of it, and for answers to listeners
that say no more than that a call is done -/
def gist (es : List Entry) : List Entry := (outlines es).filter (· ≠ .answered .done)

theorem gist_append (es es' : List Entry) : gist (es ++ es') = gist es ++ gist es' := by
  rw [gist, outlines_append, List.filter_append]
  rfl

/-- the gist has all messages -/
theorem sentIn_gist (es : List Entry) : sentIn (gist es) = undatedIn es := by
  rw [undatedIn, gist, sentIn, sentIn, List.filterMap_filter]
  refine List.filterMap_congr fun e _ => ?_
  by_cases he : e = .answered .done
  · rw [he]
    rfl
  · exact if_pos (by simpa using he)

/-- where the gist of the logs agrees before and after a stretch, it does in between -/
theorem gist_logged {w w' v v' : World μ} (h : gist w.log = gist w'.log) (h' : gist v.log = gist v'.log)
    (hv : v.log = w.log ++ logged w v) (hv' : v'.log = w'.log ++ logged w' v') :
    gist (logged w v) = gist (logged w' v') := by
  rw [hv, hv', gist_append, gist_append, h] at h'
  exact List.append_cancel_left h'

/-! ## Worlds that follow each other -/

/-- the worlds agree but for the clock's doing and for the frames, and on the gist of what happened -/
structure Follows (w w' : World μ) : Prop where
  state : Matches { w with log := [] } { w' with log := [] }
  log : gist w.log = gist w'.log

namespace Follows

variable {w w' : World μ}

theorem refl (w : World μ) : Follows w w := ⟨.refl _, rfl⟩

theorem record (h : Follows w w') (e : Entry) : Follows (w.record e) (w'.record e) :=
  ⟨h.state, by rw [World.record_log, World.record_log, gist_append, gist_append, h.log]⟩

theorem enter (h : Follows w w') (c : FocusCall) : Follows (w.enter c) (w'.enter c) where
  state := { h.state with registry := congrArg (·.after c) h.state.registry }
  log := by
    have hregistry : w.registry = w'.registry := h.state.registry
    rw [World.enter_log, World.enter_log, gist_append, gist_append, h.log, hregistry]

theorem send (h : Follows w w') (display : Display) (now now' : Int64) (d : Router.Draft) :
    Follows (World.send display now w d) (World.send display now' w' d) where
  state := { h.state.send display now now' d with log := rfl }
  log := by
    have hissued : w.sink.issued = w'.sink.issued := h.state.issued
    have hlog := h.log
    unfold gist at hlog ⊢
    rw [outlines_send, outlines_send, List.filter_append, List.filter_append, hlog, hissued]

/-- whatever is done in both keeps worlds following each other -/
theorem inStep : InStep (Follows (μ := μ)) where
  registry h := h.state.registry
  policy h := h.state.policy
  source h := h.state.source
  view h := by
    have hview := h.state.view
    exact hview
  record e h := h.record e
  enter c h := h.enter c
  withPolicy policy h := ⟨Matches.inStep.withPolicy policy h.state, h.log⟩
  withSource source h := ⟨Matches.inStep.withSource source h.state, h.log⟩
  keep memory h := ⟨Matches.inStep.keep memory h.state, h.log⟩
  read h := ⟨Matches.inStep.read h.state, h.log⟩
  close h := ⟨Matches.inStep.close h.state, h.log⟩
  send display now now' d h := h.send display now now' d

/-- so does sending the taker away in one only -/
theorem lost (h : Follows w w') : Follows { w with sink := w.sink.close } w' := ⟨{ h.state with }, h.log⟩

/-- the answer that a call is done is not in the gist -/
theorem done (h : Follows w w') : Follows (w.record (.answered .done)) w' := by
  refine ⟨h.state, ?_⟩
  rw [World.record_log, gist_append, ← h.log]
  exact List.append_nil _

/-- a program does the same as one that leaves out what sends the taker away -/
theorem program {perform perform' : Call → World μ → World μ × Answer}
    (hclose : ∀ w, perform .closeSink w = ({ w with sink := w.sink.close }, .done))
    (hp : ∀ {w w'} c, Follows w w' →
      Follows (perform c w).1 (perform' c w').1 ∧ (perform c w).2 = (perform' c w').2)
    (h : Follows w w') (program : Callback μ) :
    Follows (program.run perform w) (program.unclosed.run perform' w') := by
  induction program generalizing w w' with
  | done => exact h
  | look next ih =>
    simp only [Callback.run, Callback.unclosed]
    rw [inStep.view h]
    exact ih _ h
  | keep memory next ih => exact ih (inStep.keep memory h)
  | call c next ih =>
    by_cases hc : c = .closeSink
    · subst hc
      simp only [Callback.run, Callback.unclosed, hclose, if_pos]
      exact ih .done h.lost.done
    · obtain ⟨hw, ha⟩ := hp c h
      simp only [Callback.run, Callback.unclosed, if_neg hc, ha]
      exact ih _ (hw.record _)

/-- listeners do the same as those that send nobody away -/
theorem alongside (s : Surroundings μ) (clock : Nat → Int64) :
    InStep.Alongside (Follows (μ := μ)) s (s.unclosed clock) := by
  intro l d _ _ ht _ _ h
  exact program (fun _ => rfl) (fun c hw => inStep.answer s.clock clock ht hw c) h (s.callback l d)

end Follows

/-! ## What a run shows -/

/-- what one step of a session shows -/
structure Showing where
  answer : Answer
  registry : Registry
  policy : Policy
  issued : UInt64
  /-- changes, rounds and what listeners see in them, messages, requests and nested answers, in order -/
  happened : List Entry
deriving DecidableEq, Repr

/-- what each of some calls shows, but for those that send the taker away -/
def showings (s : Surroundings μ) (depth : Nat) : List Call → World μ → List Showing
  | [], _ => []
  | c :: cs, w =>
    let v := perform s depth c w
    if c = .closeSink then showings s depth cs v.1
    else ⟨v.2, v.1.registry, v.1.policy, v.1.sink.issued, gist (logged w v.1)⟩ :: showings s depth cs v.1

/-- a run shows the same as one that leaves out what sends the taker away -/
theorem Follows.showings (s : Surroundings μ) (clock : Nat → Int64) (depth : Nat) {w w' : World μ} (h : Follows w w')
    (cs : List Call) :
    Session.showings s depth cs w = Session.showings (s.unclosed clock) depth (unclosed cs) w' := by
  induction cs generalizing w w' with
  | nil => rfl
  | cons c cs ih =>
    by_cases hc : c = .closeSink
    · subst hc
      simp only [Session.showings, if_pos]
      exact ih h.lost
    · obtain ⟨hv, ha⟩ := inStep.perform (alongside s clock) depth h c
      have hgist := gist_logged h.log hv.log (supplies_perform s depth c w).log
        (supplies_perform (s.unclosed clock) depth c w').log
      simp only [unclosed_cons cs hc, Session.showings, if_neg hc, ha, hgist, inStep.registry hv, inStep.policy hv,
        hv.state.issued, ih hv]

theorem Follows.run (s : Surroundings μ) (clock : Nat → Int64) (depth : Nat) {w w' : World μ} (h : Follows w w')
    (cs : List Call) : Follows (Session.run s depth cs w) (Session.run (s.unclosed clock) depth (unclosed cs) w') := by
  induction cs generalizing w w' with
  | nil => exact h
  | cons c cs ih =>
    by_cases hc : c = .closeSink
    · subst hc
      exact ih h.lost
    · rw [unclosed_cons cs hc]
      exact ih (inStep.perform (alongside s clock) depth h c).1

/-! ## Frames -/

/-- the frames that were queued -/
def framesIn (es : List Entry) : List (List UInt8) :=
  es.filterMap fun
    | .sent _ _ (.queued frame) _ => some frame
    | _ => none

/-- the frames that were queued, without a time where it is that of sending -/
def timelessIn (es : List Entry) : List (List UInt8) :=
  es.filterMap fun
    | .sent _ stamped (.queued frame) _ => some (if stamped then timeless frame else frame)
    | _ => none

theorem framesIn_append (es es' : List Entry) : framesIn (es ++ es') = framesIn es ++ framesIn es' :=
  List.filterMap_append

theorem timelessIn_append (es es' : List Entry) : timelessIn (es ++ es') = timelessIn es ++ timelessIn es' :=
  List.filterMap_append

/-- without the time of sending, a message has the same frame at all times -/
theorem timeless_event (d : Router.Draft) (display : Display) (now : Int64) (number : UInt64) :
    (if d.stampedOnSending then timeless ((d.event display now).frame number) else (d.event display now).frame number) =
      (d.event display 0).frame number := by
  rcases d with _ | ⟨device, _ | _, body⟩
  · rfl
  · rfl
  · exact Wire.timeless_frame ⟨display, device, now, body⟩ number

/-- what a stretch that logs some entries does to the sink: it queues the frames of messages as long as they are taken, and
every message takes its number -/
structure Served (w : World μ) (es : List Entry) (w' : World μ) : Prop where
  log : w'.log = w.log ++ es
  queued : w'.sink.queued = w.sink.queued ++ framesIn es
  issued : w'.sink.issued = w.sink.issued + UInt64.ofNat (undatedIn es).length
  begins : timelessIn es <+: framesFrom w.sink.issued (undatedIn es)
  still : w'.sink.connected = true → timelessIn es = framesFrom w.sink.issued (undatedIn es)
  gone : w.sink.connected = false → timelessIn es = [] ∧ w'.sink.connected = false

namespace Served

/-- nothing is sent, and the sink has the same frames and numbers -/
theorem quiet {w w' : World μ} {es : List Entry} (hlog : w'.log = w.log ++ es) (hframes : framesIn es = [])
    (htimeless : timelessIn es = []) (hmessages : undatedIn es = []) (hqueued : w'.sink.queued = w.sink.queued)
    (hissued : w'.sink.issued = w.sink.issued) (hgone : w.sink.connected = false → w'.sink.connected = false) :
    Served w es w' where
  log := hlog
  queued := by rw [hframes, hqueued, List.append_nil]
  issued := by
    rw [hmessages, hissued]
    exact (UInt64.add_zero _).symm
  begins := by rw [htimeless]; exact List.nil_prefix
  still _ := by rw [htimeless, hmessages]; rfl
  gone h := ⟨htimeless, hgone h⟩

theorem append {u v w : World μ} {es es' : List Entry} (h : Served u es v) (h' : Served v es' w) :
    Served u (es ++ es') w := by
  have hnumbers : framesFrom u.sink.issued (undatedIn (es ++ es')) =
      framesFrom u.sink.issued (undatedIn es) ++ framesFrom v.sink.issued (undatedIn es') := by
    rw [undatedIn_append, Wire.framesFrom_append, h.issued]
  have hopen : w.sink.connected = true → v.sink.connected = true := by
    intro hw
    by_contra hv
    rw [(h'.gone (Bool.eq_false_iff.2 hv)).2] at hw
    cases hw
  refine ⟨?_, ?_, ?_, ?_, fun hw => ?_, fun hu => ?_⟩
  · rw [h'.log, h.log, List.append_assoc]
  · rw [h'.queued, h.queued, framesIn_append, List.append_assoc]
  · rw [h'.issued, h.issued, undatedIn_append, List.length_append, UInt64.ofNat_add, UInt64.add_assoc]
  · rw [timelessIn_append, hnumbers]
    by_cases hv : v.sink.connected = true
    · rw [h.still hv]
      exact (List.prefix_append_right_inj _).2 h'.begins
    · rw [(h'.gone (Bool.eq_false_iff.2 hv)).1, List.append_nil]
      exact h.begins.trans (List.prefix_append _ _)
  · rw [timelessIn_append, hnumbers, h.still (hopen hw), h'.still hw]
  · obtain ⟨hes, hv⟩ := h.gone hu
    obtain ⟨hes', hw⟩ := h'.gone hv
    exact ⟨by rw [timelessIn_append, hes, hes', List.append_nil], hw⟩

/-- one message: its frame is queued if someone takes it, and it has its number either way -/
theorem send (display : Display) (now : Int64) (w : World μ) (d : Router.Draft) :
    ∃ es, Served w es (World.send display now w d) := by
  have hmessage : ∀ delivery issued,
      undatedIn [.sent (d.event display now) d.stampedOnSending delivery issued] = [d.event display 0] :=
    fun _ _ => congrArg (· :: []) (d.event_undated display now)
  have hissued : (World.send display now w d).sink.issued = w.sink.issued + UInt64.ofNat [d.event display 0].length :=
    FrameSink.send_issued _ _
  by_cases hc : w.sink.connected = true
  · have hlog : (World.send display now w d).log = w.log ++ [.sent (d.event display now) d.stampedOnSending
        (.queued ((d.event display now).frame w.sink.issued)) (w.sink.issued + 1)] := by
      rw [World.send_log, FrameSink.send_eq, if_pos hc]
      rfl
    have hall : timelessIn [.sent (d.event display now) d.stampedOnSending
        (.queued ((d.event display now).frame w.sink.issued)) (w.sink.issued + 1)] =
        framesFrom w.sink.issued [d.event display 0] :=
      congrArg (· :: []) (timeless_event d display now w.sink.issued)
    refine ⟨_, hlog, FrameSink.send_queued _ hc, ?_, ?_, fun _ => ?_, fun hgone => ?_⟩
    · rw [hmessage, hissued]
    · rw [hmessage, hall]
    · rw [hmessage, hall]
    · rw [hc] at hgone
      cases hgone
  · have hlog : (World.send display now w d).log = w.log ++ [.noticed (.closed (d.event display now).messageType
        (d.event display now).display), .sent (d.event display now) d.stampedOnSending .closed (w.sink.issued + 1)] := by
      rw [World.send_log, FrameSink.send_eq, if_neg hc]
      rfl
    have hsink : (World.send display now w d).sink = ⟨⟨w.sink.issued + 1⟩, w.sink.queued, w.sink.connected⟩ := by
      change (w.sink.send (d.event display now)).2 = _
      rw [FrameSink.send_eq, if_neg hc]
    have hstill : (World.send display now w d).sink.connected = w.sink.connected := by rw [hsink]
    have hone : ∀ delivery issued, undatedIn [.noticed (.closed (d.event display now).messageType
        (d.event display now).display), .sent (d.event display now) d.stampedOnSending delivery issued] =
        [d.event display 0] := hmessage
    refine ⟨_, hlog, ?_, ?_, List.nil_prefix, fun hw => ?_, fun hgone => ⟨rfl, hstill.trans hgone⟩⟩
    · rw [hsink]
      exact (List.append_nil _).symm
    · rw [hone, hissued]
    · exact absurd (hstill.symm.trans hw) hc

theorem logged_eq {w w' : World μ} {es : List Entry} (h : Served w es w') : logged w w' = es := logged_of_append h.log

end Served

theorem stepwise_served : Stepwise fun w w' : World μ => ∃ es, Served w es w' where
  refl w := ⟨[], .quiet (by simp) rfl rfl rfl rfl rfl id⟩
  trans := by
    rintro u v w ⟨es, h⟩ ⟨es', h'⟩
    exact ⟨es ++ es', h.append h'⟩
  record w e he := by
    refine ⟨[e], ?_⟩
    cases e with
    | sent => cases he
    | noticed n => cases n <;> exact .quiet rfl rfl rfl rfl rfl rfl id
    | _ => exact .quiet rfl rfl rfl rfl rfl rfl id
  unlogged w _ _ _ _ _ := ⟨[], .quiet (by simp) rfl rfl rfl rfl rfl id⟩
  close w := ⟨[], .quiet (by simp) rfl rfl rfl rfl rfl fun _ => rfl⟩
  send := Served.send

/-- the frames that a stretch queues, and those that it has queued at a moment -/
theorem served_run (s : Surroundings μ) (depth : Nat) (cs : List Call) (w : World μ) :
    Served w (logged w (run s depth cs w)) (run s depth cs w) := by
  obtain ⟨es, h⟩ := stepwise_served.keeps.run s depth cs w
  rwa [h.logged_eq]

theorem served_visits {s : Surroundings μ} {depth : Nat} {cs : List Call} {w u : World μ}
    (h : Visits s depth (.calls cs) w u) :
    Served w (logged w u) u ∧ Served u (logged u (run s depth cs w)) (run s depth cs w) := by
  obtain ⟨⟨es, hes⟩, es', hes'⟩ := stepwise_served.visits h
  have hend : Activity.outcome s depth (.calls cs) w = run s depth cs w := rfl
  rw [hend] at hes'
  exact ⟨hes.logged_eq ▸ hes, hes'.logged_eq ▸ hes'⟩

/-! ## Main result -/

/-- **Nobody notices the loss.** Take two runs from the same state of a session, of the same calls and with the same
listeners, to any depth, but for the calls that send the taker of the frames away: either run may have these anywhere, from
outside or made by a listener, or have none. The clocks may differ too. Every other step is answered alike in both and
leaves the same registry, policy and number of frames issued, and the same happens during it: changes and rounds, with what
listeners see, requests, answers to calls made by listeners, and messages, but for the times of sending. What each run has
queued are the frames of the messages that found a taker. But for the times of sending, what one of the runs has queued
begins what the other has; and what the first has begins what the second has, if at some moment when the same has happened
in both the taker is gone in the first and still there in the second. -/
theorem loss_unnoticed (s s' : Surroundings μ) (depth : Nat) (cs cs' : List Call) (w : World μ)
    (hcs : unclosed cs = unclosed cs') (hs : ∀ l d, (s.callback l d).unclosed = (s'.callback l d).unclosed) :
    let v := run s depth cs w
    let v' := run s' depth cs' w
    showings s depth cs w = showings s' depth cs' w ∧
      v.sink.queued = w.sink.queued ++ framesIn (logged w v) ∧
      v'.sink.queued = w.sink.queued ++ framesIn (logged w v') ∧
      (timelessIn (logged w v) <+: timelessIn (logged w v') ∨ timelessIn (logged w v') <+: timelessIn (logged w v)) ∧
      ∀ u u', Visits s depth (.calls cs) w u → Visits s' depth (.calls cs') w u' →
        gist (logged w u) = gist (logged w u') → u.sink.connected = false → u'.sink.connected = true →
        timelessIn (logged w v) <+: timelessIn (logged w v') := by
  intro v v'
  -- both runs follow the one that leaves these calls out
  have hsame : s.unclosed s.clock = s'.unclosed s.clock := by
    simp only [Surroundings.unclosed, hs]
  have hfollow := (Follows.refl w).run s s.clock depth cs
  have hfollow' := (Follows.refl w).run s' s.clock depth cs'
  rw [← hsame, ← hcs] at hfollow'
  have hv := served_run s depth cs w
  have hv' := served_run s' depth cs' w
  have hmessages : ∀ {es es'}, gist es = gist es' → undatedIn es = undatedIn es' := by
    intro es es' hgist
    rw [← sentIn_gist, ← sentIn_gist, hgist]
  refine ⟨?_, hv.queued, hv'.queued, ?_, fun u u' hu hu' hgist hgone hthere => ?_⟩
  · rw [(Follows.refl w).showings s s.clock, (Follows.refl w).showings s' s.clock, hsame, hcs]
  · have hbegins := hv.begins
    rw [hmessages (gist_logged rfl (hfollow.log.trans hfollow'.log.symm) hv.log hv'.log)] at hbegins
    exact List.prefix_or_prefix_of_prefix hbegins hv'.begins
  · obtain ⟨hbefore, hafter⟩ := served_visits hu
    obtain ⟨hbefore', hafter'⟩ := served_visits hu'
    have hcut : logged w v = logged w u ++ logged u v := (hbefore.append hafter).logged_eq
    have hcut' : logged w v' = logged w u' ++ logged u' v' := (hbefore'.append hafter').logged_eq
    calc timelessIn (logged w v)
        = timelessIn (logged w u) := by rw [hcut, timelessIn_append, (hafter.gone hgone).1, List.append_nil]
      _ <+: framesFrom w.sink.issued (undatedIn (logged w u)) := hbefore.begins
      _ = timelessIn (logged w u') := by rw [hbefore'.still hthere, hmessages hgist]
      _ <+: timelessIn (logged w v') := by
        rw [hcut', timelessIn_append]
        exact List.prefix_append _ _

/-- a listener sends the taker away in the round of the back key's display, before the key's messages; in the other run that
happens between the calls, after these messages -/
theorem loss_unnoticed_midround :
    let s : Surroundings Unit := ⟨fun _ => 5, fun _ d => if d = ⟨2⟩ then .call .closeSink fun _ => .done else .done⟩
    let s' : Surroundings Unit := ⟨fun n => 9 + .ofNat n, fun _ _ => .done⟩
    let before : List Call := [.focus (.addListener ⟨"panel"⟩), .focus (.setTracking true), .dispatch (.home ⟨1⟩),
      .dispatch (.back ⟨2⟩)]
    let cs := before ++ [.dispatch (.home ⟨3⟩)]
    let cs' := before ++ [.closeSink, .dispatch (.home ⟨3⟩)]
    let w : World Unit := .bare .closed ()
    unclosed cs = unclosed cs' ∧ (∀ l d, (s.callback l d).unclosed = (s'.callback l d).unclosed) ∧
      showings s 1 cs w = showings s' 1 cs' w ∧ (run s 1 cs w).sink.queued.length = 1 ∧
      (run s' 1 cs' w).sink.queued.length = 3 ∧
      timelessIn (logged w (run s 1 cs w)) <+: timelessIn (logged w (run s' 1 cs' w)) := by
  intro s s' before cs cs' w
  have hcs : unclosed cs = unclosed cs' := by decide
  have hs : ∀ l d, (s.callback l d).unclosed = (s'.callback l d).unclosed := by
    intro l d
    by_cases hd : d = ⟨2⟩
    · simp only [s, if_pos hd]
      rfl
    · simp only [s, if_neg hd]
      rfl
  obtain ⟨hshow, -, -, -, hmoment⟩ := loss_unnoticed s s' 1 cs cs' w hcs hs
  refine ⟨hcs, hs, hshow, by decide +kernel, by decide +kernel, ?_⟩
  exact hmoment _ _ (visits_boundary s 1 before _ w) (visits_boundary s' 1 before _ w) (by decide +kernel)
    (by decide +kernel) (by decide +kernel)

end InputRelay.Session
