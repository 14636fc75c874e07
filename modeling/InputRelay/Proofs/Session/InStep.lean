/-
Two runs of a session in step. `InStep R` says that the relation `R` between a world of one run and a world of the other is
kept whenever the same step is made in both, and that worlds with `R` look the same to whoever makes or answers calls. Then
every call keeps `R` and gets the same answer in both runs (`InStep.perform`), whatever their clocks and to any depth, as
long as what the listeners do keeps it (`Alongside`). It does where they have the same programs in both runs
(`InStep.alongside`); where they have not, it is for whoever compares the two to show.
-/
import InputRelay.Proofs.Session.Stretch

namespace InputRelay.Session

variable {μ : Type}

/-- a relation between the worlds of two runs that each step keeps when both make it -/
structure InStep (R : World μ → World μ → Prop) : Prop where
  registry : ∀ {w w'}, R w w' → w.registry = w'.registry
  policy : ∀ {w w'}, R w w' → w.policy = w'.policy
  source : ∀ {w w'}, R w w' → w.source = w'.source
  /-- a listener sees the same in both -/
  view : ∀ {w w'}, R w w' → w.view = w'.view
  record : ∀ {w w'} e, R w w' → R (w.record e) (w'.record e)
  enter : ∀ {w w'} c, R w w' → R (w.enter c) (w'.enter c)
  withPolicy : ∀ {w w'} policy, R w w' → R { w with policy } { w' with policy }
  withSource : ∀ {w w'} source, R w w' → R { w with source } { w' with source }
  keep : ∀ {w w'} memory, R w w' → R { w with memory } { w' with memory }
  read : ∀ {w w'}, R w w' → R { w with reads := w.reads + 1 } { w' with reads := w'.reads + 1 }
  close : ∀ {w w'}, R w w' → R { w with sink := w.sink.close } { w' with sink := w'.sink.close }
  /-- the clocks may differ -/
  send : ∀ {w w'} display now now' draft, R w w' → R (World.send display now w draft) (World.send display now' w' draft)

namespace InStep

variable {R : World μ → World μ → Prop} {w w' : World μ}

theorem tell (I : InStep R) (h : R w w') (l : Listener) (d : Display) : R (w.tell l d) (w'.tell l d) := by
  unfold World.tell
  rw [I.registry h, I.policy h]
  exact I.record _ h

theorem sends (I : InStep R) (h : R w w') (display : Display) (now now' : Int64) (drafts : List Router.Draft) :
    R (drafts.foldl (World.send display now) w) (drafts.foldl (World.send display now') w') := by
  induction drafts generalizing w w' with
  | nil => exact h
  | cons d ds ih => exact ih (I.send display now now' d h)

variable {tell tell' : Tell μ}

theorem change (I : InStep R) (ht : ∀ {w w'} l d, R w w' → R (tell l d w) (tell' l d w')) (h : R w w') (c : FocusCall) :
    R (Session.change tell c w) (Session.change tell' c w') := by
  have hround : ∀ (ls : List Listener) (d : Display) {w w' : World μ}, R w w' →
      R (ls.foldl (fun w l => tell l d w) w) (ls.foldl (fun w l => tell' l d w) w') := by
    intro ls d
    induction ls with
    | nil => exact fun h => h
    | cons l ls ih => exact fun h => ih (ht l d h)
  rw [change_eq, change_eq, ← I.registry h]
  refine I.record .left ?_
  cases (w.registry.apply c).2 with
  | none => exact I.enter c h
  | some round => exact hround round.listeners round.display (I.enter c h)

variable (clock clock' : Nat → Int64)

theorem carryOut (I : InStep R) (ht : ∀ {w w'} l d, R w w' → R (tell l d w) (tell' l d w')) (h : R w w')
    (p : Router.Plan) : R (Session.carryOut clock tell p w) (Session.carryOut clock' tell' p w') := by
  have hfocus : R (if p.takesFocus then Session.change tell (.setFocus p.display) w else w)
      (if p.takesFocus then Session.change tell' (.setFocus p.display) w' else w') := by
    split_ifs
    · exact I.change ht h _
    · exact h
  exact I.sends (I.read hfocus) _ _ _ _

theorem dispatch (I : InStep R) (ht : ∀ {w w'} l d, R w w' → R (tell l d w) (tell' l d w')) (h : R w w') (r : Request) :
    R (Session.dispatch clock tell r w) (Session.dispatch clock' tell' r w') := by
  unfold Session.dispatch
  rw [I.registry h, I.policy h]
  refine I.record _ ?_
  cases Router.plan w'.registry.snapshot w'.policy r with
  | drop => exact h
  | refuse fault => exact I.record _ h
  | send p => exact I.carryOut clock clock' ht h p

theorem dispatches (I : InStep R) (ht : ∀ {w w'} l d, R w w' → R (tell l d w) (tell' l d w')) (h : R w w')
    (rs : List Request) :
    R (rs.foldl (fun w r => Session.dispatch clock tell r w) w)
      (rs.foldl (fun w r => Session.dispatch clock' tell' r w) w') := by
  induction rs generalizing w w' with
  | nil => exact h
  | cons r rs ih => exact ih (I.dispatch clock clock' ht h r)

theorem pump (I : InStep R) (ht : ∀ {w w'} l d, R w w' → R (tell l d w) (tell' l d w')) (h : R w w') (slot : Nat) :
    R (Session.pump clock tell slot w).1 (Session.pump clock' tell' slot w').1 ∧
      (Session.pump clock tell slot w).2 = (Session.pump clock' tell' slot w').2 := by
  unfold Session.pump
  rw [I.source h]
  split_ifs
  · exact ⟨h, rfl⟩
  · cases w'.source.drain slot with
    | none => exact ⟨h, rfl⟩
    | some drained => exact ⟨I.dispatches clock clock' ht (I.withSource drained.2 h) drained.1, rfl⟩

/-- a call keeps the relation, and is answered alike -/
theorem answer (I : InStep R) (ht : ∀ {w w'} l d, R w w' → R (tell l d w) (tell' l d w')) (h : R w w') (c : Call) :
    R (Session.answer clock tell c w).1 (Session.answer clock' tell' c w').1 ∧
      (Session.answer clock tell c w).2 = (Session.answer clock' tell' c w').2 := by
  cases c with
  | focus c => exact ⟨I.change ht h c, rfl⟩
  | replacePolicy policy => exact ⟨I.withPolicy policy h, rfl⟩
  | updatePolicy policy => exact ⟨I.change ht (I.withPolicy policy h) (.setTracking policy.tracksFocus), rfl⟩
  | dispatch r => exact ⟨I.dispatch clock clock' ht h r, rfl⟩
  | start =>
    simp only [Session.answer, I.source h]
    cases w'.source.start with
    | ok started => exact ⟨I.withSource started.2 h, rfl⟩
    | error e => exact ⟨h, rfl⟩
  | stop =>
    simp only [Session.answer, I.source h]
    exact ⟨I.withSource _ h, trivial⟩
  | inject r =>
    simp only [Session.answer, I.source h]
    cases w'.source.inject r with
    | ok source => exact ⟨I.withSource source h, rfl⟩
    | error e => exact ⟨h, rfl⟩
  | receive slot =>
    simp only [Session.answer, I.source h]
    exact ⟨I.withSource _ h, trivial⟩
  | dropReceiver slot =>
    simp only [Session.answer, I.source h]
    exact ⟨I.withSource _ h, trivial⟩
  | pump slot => exact I.pump clock clock' ht h slot
  | closeSink => exact ⟨I.close h, rfl⟩

/-- the same program keeps the relation, if the calls that it makes do -/
theorem program (I : InStep R) {perform perform' : Call → World μ → World μ × Answer}
    (hp : ∀ {w w'} c, R w w' → R (perform c w).1 (perform' c w').1 ∧ (perform c w).2 = (perform' c w').2)
    (h : R w w') (program : Callback μ) : R (program.run perform w) (program.run perform' w') := by
  induction program generalizing w w' with
  | done => exact h
  | look next ih =>
    unfold Callback.run
    rw [I.view h]
    exact ih _ h
  | keep memory next ih => exact ih (I.keep memory h)
  | call c next ih =>
    obtain ⟨hw, ha⟩ := hp c h
    unfold Callback.run
    simp only [ha]
    exact ih _ (I.record _ hw)

/-! ## Listeners -/

/-- what a listener does keeps the relation, if the telling of others in the calls that it makes does -/
def Alongside (R : World μ → World μ → Prop) (s s' : Surroundings μ) : Prop :=
  ∀ (l : Listener) (d : Display) {tell tell' : Tell μ}, (∀ {w w'} l d, R w w' → R (tell l d w) (tell' l d w')) →
    ∀ {w w'}, R w w' →
      R ((s.callback l d).run (Session.answer s.clock tell) w) ((s'.callback l d).run (Session.answer s'.clock tell') w')

/-- the same listeners keep it, under any clocks -/
theorem alongside (I : InStep R) (callback : Listener → Display → Callback μ) :
    Alongside R ⟨clock, callback⟩ ⟨clock', callback⟩ := by
  intro l d _ _ ht _ _ h
  exact I.program (fun c hw => I.answer clock clock' ht hw c) h (callback l d)

variable {s s' : Surroundings μ}

/-- a listener is told in both, with all that it does then -/
theorem told (I : InStep R) (hs : Alongside R s s') (depth : Nat) (l : Listener) (d : Display) (h : R w w') :
    R (Session.tell s depth l d w) (Session.tell s' depth l d w') := by
  induction depth generalizing l d w w' with
  | zero => exact I.record _ (I.tell h l d)
  | succ depth ih => exact I.record (.finished l) (hs l d (fun l d hw => ih l d hw) (I.tell h l d))

/-- one call, with all that its listeners do -/
theorem perform (I : InStep R) (hs : Alongside R s s') (depth : Nat) (h : R w w') (c : Call) :
    R (Session.perform s depth c w).1 (Session.perform s' depth c w').1 ∧
      (Session.perform s depth c w).2 = (Session.perform s' depth c w').2 :=
  I.answer s.clock s'.clock (fun l d hw => I.told hs depth l d hw) h c

end InStep

end InputRelay.Session
