/-
Stretches of a session. A property of every call, to every depth of nesting, is proved once for the steps that calls are
made of: a relation `R` between the worlds before and after a stretch is kept by each kind of step that calls with `P`
make, where `T` relates the worlds before and after one listener is told. There are two ways to cut a call into steps:
- `KeepsCalls P R T` takes the routing of a request as one step, for relations that hold only when the router is done;
- `KeepsFor P R T` takes each message that the router sends as a step.
Either gives the relation for whole calls and whole runs, whatever the listeners do, as long as they too make only calls
with `P` (`Callback.Only`). The induction is on the depth, and inside on a listener's program (`KeepsCalls.tell`).
`Keeps R T` is the case of all calls: there a change of the registry is kept whoever makes it. `Stepwise R` is the case of a
relation that does not even look at changes and tellings.
-/
import Mathlib.Tactic
import InputRelay.Session.Run

namespace InputRelay.Session

variable {μ : Type}

/-- a change to the registry, entered and made -/
def World.enter (w : World μ) (c : FocusCall) : World μ :=
  { w.record (.entered c w.registry) with registry := w.registry.after c }

@[simp] theorem World.record_log (w : World μ) (e : Entry) : (w.record e).log = w.log ++ [e] := rfl

@[simp] theorem World.enter_log (w : World μ) (c : FocusCall) : (w.enter c).log = w.log ++ [.entered c w.registry] := rfl

@[simp] theorem World.enter_registry (w : World μ) (c : FocusCall) : (w.enter c).registry = w.registry.after c := rfl

@[simp] theorem World.tell_log (w : World μ) (l : Listener) (d : Display) :
    (w.tell l d).log = w.log ++ [.told l d w.registry.snapshot w.policy] := rfl

theorem World.send_log (display : Display) (now : Int64) (w : World μ) (d : Router.Draft) :
    (World.send display now w d).log = w.log ++
      ((notices (d.event display now) (w.sink.send (d.event display now)).1).map .noticed ++
        [.sent (d.event display now) d.stampedOnSending (w.sink.send (d.event display now)).1
          (w.sink.send (d.event display now)).2.issued]) := by
  simp [World.send]

theorem change_eq (tell : Tell μ) (c : FocusCall) (w : World μ) :
    change tell c w = (deliver tell (w.registry.apply c).2 (w.enter c)).record .left := rfl

/-- pumping a channel is routing what waits in it, one request after the other -/
theorem perform_pump (s : Surroundings μ) (n : Nat) {slot : Nat} {w : World μ} {rs : List Request} {source : Capture.Source}
    (hstopped : w.source.running ≠ some slot) (hdrain : w.source.drain slot = some (rs, source)) :
    perform s n (.pump slot) w = (run s n (rs.map .dispatch) { w with source }, .routed rs.length) := by
  have hcalls : ∀ w : World μ,
      rs.foldl (fun w r => dispatch s.clock (tell s n) r w) w = run s n (rs.map .dispatch) w := by
    intro w
    rw [run, List.foldl_map]
    rfl
  simp only [perform, answer, pump, if_neg hstopped, hdrain, hcalls]

/-- what the telling of a listener keeps, a whole round keeps -/
theorem change_kept {R : World μ → World μ → Prop} (refl : ∀ w, R w w) (trans : ∀ {u v w}, R u v → R v w → R u w)
    (left : ∀ w, R w (w.record .left)) {tell : Tell μ} (h : ∀ l d w, R w (tell l d w)) (c : FocusCall) (w : World μ) :
    R (w.enter c) (change tell c w) := by
  have hround : ∀ (ls : List Listener) (d : Display) (w : World μ), R w (ls.foldl (fun w l => tell l d w) w) := by
    intro ls d
    induction ls with
    | nil => exact refl
    | cons l ls ih => exact fun w => trans (h l d w) (ih _)
  rw [change_eq]
  refine trans ?_ (left _)
  cases (w.registry.apply c).2 with
  | none => exact refl _
  | some round => exact hround round.listeners round.display _

/-- an entry that says something in passing: it neither begins nor ends anything, and hands nothing to the sink -/
def Entry.isRemark : Entry → Bool
  | dispatched .. => true
  | noticed _ => true
  | answered _ => true
  | _ => false

/-- an entry that hands a message to the sink -/
def Entry.isSent : Entry → Bool
  | sent .. => true
  | _ => false

/-- a program that makes only calls of some kind -/
def Callback.Only (P : Call → Prop) : Callback μ → Prop
  | .done => True
  | .look next => ∀ v, (next v).Only P
  | .keep _ next => next.Only P
  | .call c next => P c ∧ ∀ a, (next a).Only P

theorem Callback.only_true (program : Callback μ) : program.Only fun _ => True := by
  induction program with
  | done => trivial
  | look next ih => exact ih
  | keep memory next ih => exact ih
  | call c next ih => exact ⟨trivial, ih⟩

/-! ## Calls of some kind -/

/-- what steps of calls of some kind keep, the routing of requests apart: `R` over any stretch, `T` over the telling of one
listener -/
structure KeepsSteps (P : Call → Prop) (R : World μ → World μ → Prop)
    (T : Listener → Display → World μ → World μ → Prop) : Prop where
  refl : ∀ w, R w w
  trans : ∀ {u v w}, R u v → R v w → R u w
  /-- what neither the log shows nor the router reads -/
  unlogged : ∀ w source reads memory, R w { w with source, reads, memory }
  replace : ∀ w policy, P (.replacePolicy policy) → R w { w with policy }
  close : ∀ w, R w { w with sink := w.sink.close }
  focus : ∀ (tell : Tell μ), (∀ l d w, T l d w (tell l d w)) → ∀ c, P (.focus c) → ∀ w, R w (change tell c w)
  update : ∀ (tell : Tell μ), (∀ l d w, T l d w (tell l d w)) → ∀ policy, P (.updatePolicy policy) →
    ∀ w, R w (change tell (.setTracking policy.tracksFocus) { w with policy })
  /-- a pump may route anything -/
  pumped : ∀ slot r, P (.pump slot) → P (.dispatch r)
  told : ∀ {l d w w'}, R (w.tell l d) w' → T l d w (w'.record (.finished l))

/-- the routing of a request is one step -/
structure KeepsCalls (P : Call → Prop) (R : World μ → World μ → Prop)
    (T : Listener → Display → World μ → World μ → Prop) : Prop extends KeepsSteps P R T where
  answered : ∀ w a, R w (w.record (.answered a))
  dispatch : ∀ clock (tell : Tell μ), (∀ l d w, T l d w (tell l d w)) → ∀ r, P (.dispatch r) →
    ∀ w, R w (dispatch clock tell r w)

/-- the routing of a request is as many steps as it sends messages, and one that gives a display the focus -/
structure KeepsFor (P : Call → Prop) (R : World μ → World μ → Prop)
    (T : Listener → Display → World μ → World μ → Prop) : Prop extends KeepsSteps P R T where
  remark : ∀ w e, e.isRemark = true → R w (w.record e)
  send : ∀ display now w draft, R w (World.send display now w draft)
  take : ∀ (tell : Tell μ), (∀ l d w, T l d w (tell l d w)) → ∀ r p w, P (.dispatch r) →
    Router.plan w.registry.snapshot w.policy r = .send p → p.takesFocus = true →
    R w (change tell (.setFocus p.display) w)

variable {P : Call → Prop} {R : World μ → World μ → Prop} {T : Listener → Display → World μ → World μ → Prop}

namespace KeepsCalls

theorem dispatches (K : KeepsCalls P R T) {clock : Nat → Int64} {tell : Tell μ} (h : ∀ l d w, T l d w (tell l d w))
    {rs : List Request} (hrs : ∀ r, P (.dispatch r)) (w : World μ) :
    R w (rs.foldl (fun w r => Session.dispatch clock tell r w) w) := by
  induction rs generalizing w with
  | nil => exact K.refl w
  | cons r rs ih => exact K.trans (K.dispatch clock tell h r (hrs r) w) (ih _)

theorem pump (K : KeepsCalls P R T) {clock : Nat → Int64} {tell : Tell μ} (h : ∀ l d w, T l d w (tell l d w)) {slot : Nat}
    (hslot : P (.pump slot)) (w : World μ) : R w (pump clock tell slot w).1 := by
  unfold Session.pump
  split_ifs
  · exact K.refl w
  · cases w.source.drain slot with
    | none => exact K.refl w
    | some drained => exact K.trans (K.unlogged w _ _ _) (K.dispatches h (K.pumped slot · hslot) _)

theorem answer (K : KeepsCalls P R T) {clock : Nat → Int64} {tell : Tell μ} (h : ∀ l d w, T l d w (tell l d w)) {c : Call}
    (hc : P c) (w : World μ) : R w (answer clock tell c w).1 := by
  cases c with
  | focus c => exact K.focus tell h c hc w
  | replacePolicy policy => exact K.replace w policy hc
  | updatePolicy policy => exact K.update tell h policy hc w
  | dispatch r => exact K.dispatch clock tell h r hc w
  | start =>
    simp only [Session.answer]
    cases w.source.start with
    | ok started => exact K.unlogged w _ _ _
    | error e => exact K.refl w
  | stop => exact K.unlogged w _ _ _
  | inject r =>
    simp only [Session.answer]
    cases w.source.inject r with
    | ok source => exact K.unlogged w _ _ _
    | error e => exact K.refl w
  | receive slot => exact K.unlogged w _ _ _
  | dropReceiver slot => exact K.unlogged w _ _ _
  | pump slot => exact K.pump h hc w
  | closeSink => exact K.close w

theorem program (K : KeepsCalls P R T) {perform : Call → World μ → World μ × Answer}
    (h : ∀ c, P c → ∀ w, R w (perform c w).1) {program : Callback μ} (hp : program.Only P) (w : World μ) :
    R w (program.run perform w) := by
  induction program generalizing w with
  | done => exact K.refl w
  | look next ih => exact ih _ (hp _) w
  | keep memory next ih => exact K.trans (K.unlogged w _ _ memory) (ih hp _)
  | call c next ih => exact K.trans (h c hp.1 w) (K.trans (K.answered _ _) (ih _ (hp.2 _) _))

theorem tell (K : KeepsCalls P R T) {s : Surroundings μ} (hs : ∀ l d, (s.callback l d).Only P) (depth : Nat)
    (l : Listener) (d : Display) (w : World μ) : T l d w (tell s depth l d w) := by
  induction depth generalizing l d w with
  | zero => exact K.told (K.refl _)
  | succ depth ih => exact K.told (K.program (fun c hc w => K.answer (fun l d w => ih l d w) hc w) (hs l d) _)

/-- one call, with all that its listeners do -/
theorem perform (K : KeepsCalls P R T) {s : Surroundings μ} (hs : ∀ l d, (s.callback l d).Only P) (depth : Nat) {c : Call}
    (hc : P c) (w : World μ) : R w (perform s depth c w).1 :=
  K.answer (K.tell hs depth) hc w

/-- calls one after the other -/
theorem run (K : KeepsCalls P R T) {s : Surroundings μ} (hs : ∀ l d, (s.callback l d).Only P) (depth : Nat)
    {cs : List Call} (hcs : ∀ c ∈ cs, P c) (w : World μ) : R w (run s depth cs w) := by
  induction cs generalizing w with
  | nil => exact K.refl w
  | cons c cs ih =>
    exact K.trans (K.perform hs depth (hcs c List.mem_cons_self) w) (ih (fun c hc => hcs c (List.mem_cons_of_mem _ hc)) _)

end KeepsCalls

namespace KeepsFor

theorem sends (K : KeepsFor P R T) (display : Display) (now : Int64) (drafts : List Router.Draft) (w : World μ) :
    R w (drafts.foldl (World.send display now) w) := by
  induction drafts generalizing w with
  | nil => exact K.refl w
  | cons d ds ih => exact K.trans (K.send display now w d) (ih _)

theorem carryOut (K : KeepsFor P R T) {clock : Nat → Int64} {tell : Tell μ} (h : ∀ l d w, T l d w (tell l d w))
    {r : Request} {p : Router.Plan} {w : World μ} (hr : P (.dispatch r))
    (hp : Router.plan w.registry.snapshot w.policy r = .send p) : R w (carryOut clock tell p w) := by
  have hfocus : R w (if p.takesFocus then Session.change tell (.setFocus p.display) w else w) := by
    split_ifs with ht
    · exact K.take tell h r p w hr hp ht
    · exact K.refl w
  refine K.trans hfocus (K.trans ?_ (K.sends _ _ _ _))
  exact K.unlogged _ _ _ _

/-- what each message keeps, the routing of a request keeps -/
theorem keepsCalls (K : KeepsFor P R T) : KeepsCalls P R T where
  toKeepsSteps := K.toKeepsSteps
  answered w a := K.remark w _ rfl
  dispatch clock tell h r hr w := by
    refine K.trans ?_ (K.remark _ _ rfl)
    cases hp : Router.plan w.registry.snapshot w.policy r with
    | drop => exact K.refl w
    | refuse fault => exact K.remark w _ rfl
    | send p => exact K.carryOut h hr hp

theorem tell (K : KeepsFor P R T) {s : Surroundings μ} (hs : ∀ l d, (s.callback l d).Only P) (depth : Nat)
    (l : Listener) (d : Display) (w : World μ) : T l d w (tell s depth l d w) :=
  K.keepsCalls.tell hs depth l d w

/-- one call, with all that its listeners do -/
theorem perform (K : KeepsFor P R T) {s : Surroundings μ} (hs : ∀ l d, (s.callback l d).Only P) (depth : Nat) {c : Call}
    (hc : P c) (w : World μ) : R w (perform s depth c w).1 :=
  K.keepsCalls.perform hs depth hc w

/-- calls one after the other -/
theorem run (K : KeepsFor P R T) {s : Surroundings μ} (hs : ∀ l d, (s.callback l d).Only P) (depth : Nat)
    {cs : List Call} (hcs : ∀ c ∈ cs, P c) (w : World μ) : R w (run s depth cs w) :=
  K.keepsCalls.run hs depth hcs w

end KeepsFor

/-! ## All calls -/

/-- what every step of a session keeps: `R` over any stretch, `T` over the telling of one listener -/
structure Keeps (R : World μ → World μ → Prop) (T : Listener → Display → World μ → World μ → Prop) : Prop where
  refl : ∀ w, R w w
  trans : ∀ {u v w}, R u v → R v w → R u w
  remark : ∀ w e, e.isRemark = true → R w (w.record e)
  /-- what the log does not show -/
  unlogged : ∀ w policy source reads memory, R w { w with policy, source, reads, memory }
  close : ∀ w, R w { w with sink := w.sink.close }
  send : ∀ display now w draft, R w (World.send display now w draft)
  change : ∀ (tell : Tell μ), (∀ l d w, T l d w (tell l d w)) → ∀ c w, R w (change tell c w)
  told : ∀ {l d w w'}, R (w.tell l d) w' → T l d w (w'.record (.finished l))

namespace Keeps

/-- what every change keeps is kept whoever makes it -/
theorem keepsFor (K : Keeps R T) : KeepsFor (fun _ => True) R T where
  refl := K.refl
  trans := K.trans
  remark := K.remark
  unlogged w source reads memory := K.unlogged w w.policy source reads memory
  replace w policy _ := K.unlogged w policy w.source w.reads w.memory
  close := K.close
  send := K.send
  focus tell h c _ w := K.change tell h c w
  update tell h policy _ w :=
    K.trans (K.unlogged w policy w.source w.reads w.memory) (K.change tell h (.setTracking policy.tracksFocus) _)
  take tell h _ p w _ _ _ := K.change tell h (.setFocus p.display) w
  pumped _ _ _ := trivial
  told := K.told

theorem tell (K : Keeps R T) (s : Surroundings μ) (depth : Nat) (l : Listener) (d : Display) (w : World μ) :
    T l d w (tell s depth l d w) :=
  K.keepsFor.tell (fun l d => (s.callback l d).only_true) depth l d w

/-- one call, with all that its listeners do -/
theorem perform (K : Keeps R T) (s : Surroundings μ) (depth : Nat) (c : Call) (w : World μ) :
    R w (perform s depth c w).1 :=
  K.keepsFor.perform (fun l d => (s.callback l d).only_true) depth trivial w

/-- calls one after the other -/
theorem run (K : Keeps R T) (s : Surroundings μ) (depth : Nat) (cs : List Call) (w : World μ) :
    R w (run s depth cs w) :=
  K.keepsFor.run (fun l d => (s.callback l d).only_true) depth (fun _ _ => trivial) w

end Keeps

/-! ## The smallest steps -/

/-- a relation that the smallest steps keep, and that cares for no entries but those of messages -/
structure Stepwise (R : World μ → World μ → Prop) : Prop where
  refl : ∀ w, R w w
  trans : ∀ {u v w}, R u v → R v w → R u w
  record : ∀ w e, e.isSent = false → R w (w.record e)
  unlogged : ∀ w registry policy source reads memory, R w { w with registry, policy, source, reads, memory }
  close : ∀ w, R w { w with sink := w.sink.close }
  send : ∀ display now w draft, R w (World.send display now w draft)

namespace Stepwise

theorem enter (K : Stepwise R) (w : World μ) (c : FocusCall) : R w (w.enter c) :=
  K.trans (K.record w (.entered c w.registry) rfl) (K.unlogged _ (w.registry.after c) _ _ _ _)

theorem tell (K : Stepwise R) (w : World μ) (l : Listener) (d : Display) : R w (w.tell l d) :=
  K.record w (.told l d w.registry.snapshot w.policy) rfl

/-- so all steps keep it, also those that change the registry and tell listeners -/
theorem keeps (K : Stepwise R) : Keeps R fun _ _ => R where
  refl := K.refl
  trans := K.trans
  remark w e he := K.record w e (by cases e <;> first | rfl | cases he)
  unlogged w policy source reads memory := K.unlogged w w.registry policy source reads memory
  close := K.close
  send := K.send
  change tell h c w := K.trans (K.enter w c) (change_kept K.refl K.trans (fun w => K.record w .left rfl) h c w)
  told {l d w w'} h := K.trans (K.tell w l d) (K.trans h (K.record w' _ rfl))

theorem round (K : Stepwise R) (s : Surroundings μ) (depth : Nat) (d : Display) (ls : List Listener) (w : World μ) :
    R w (ls.foldl (fun w l => Session.tell s depth l d w) w) := by
  induction ls generalizing w with
  | nil => exact K.refl w
  | cons l ls ih => exact K.trans (K.keeps.tell s depth l d w) (ih _)

theorem program (K : Stepwise R) (s : Surroundings μ) (depth : Nat) (program : Callback μ) (w : World μ) :
    R w (program.run (perform s depth) w) :=
  K.keeps.keepsFor.keepsCalls.program (fun c _ w => K.keeps.perform s depth c w) program.only_true w

end Stepwise

end InputRelay.Session
