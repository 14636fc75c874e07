/-
The moments of a session, also those in the middle of a call. `Visits s depth a w v` says that world `v` is one of those
that activity `a`, begun in world `w`, passes through: a change to the registry at the moment it is made, a listener at
the moment it is told, and the boundaries before, between and after the calls that are made, be it from outside or by a
listener's program. A listener sees the session, and the router reads it, at such moments only. A moment cuts the activity
in two stretches (`Stepwise.visits`).

`Invariant P I` says that the property `I` of worlds is kept by each kind of step that calls with `P` make. It then holds
at all moments of a run of such calls (`Invariant.visits`), as long as the listeners make no others.
-/
import InputRelay.Proofs.Session.Stretch

namespace InputRelay.Session

variable {μ : Type}

/-! ## Moments -/

/-- what can be under way in a session -/
inductive Activity (μ : Type) where
  /-- calls that are yet to be made -/
  | calls (cs : List Call)
  | call (c : Call)
  | change (c : FocusCall)
  /-- a round that is yet to reach some listeners -/
  | round (d : Display) (ls : List Listener)
  /-- what is left of a listener's program -/
  | program (p : Callback μ)

/-- the worlds that an activity passes through, when listeners are followed to a depth -/
inductive Visits (s : Surroundings μ) : Nat → Activity μ → World μ → World μ → Prop
  | boundary {n : Nat} {cs : List Call} {w : World μ} : Visits s n (.calls cs) w w
  | first {n : Nat} {c : Call} {cs : List Call} {w v : World μ} (h : Visits s n (.call c) w v) :
      Visits s n (.calls (c :: cs)) w v
  | rest {n : Nat} {c : Call} {cs : List Call} {w v : World μ} (h : Visits s n (.calls cs) (perform s n c w).1 v) :
      Visits s n (.calls (c :: cs)) w v
  | focus {n : Nat} {c : FocusCall} {w v : World μ} (h : Visits s n (.change c) w v) :
      Visits s n (.call (.focus c)) w v
  | update {n : Nat} {policy : Policy} {w v : World μ}
      (h : Visits s n (.change (.setTracking policy.tracksFocus)) { w with policy } v) :
      Visits s n (.call (.updatePolicy policy)) w v
  | take {n : Nat} {r : Request} {p : Router.Plan} {w v : World μ}
      (hp : Router.plan w.registry.snapshot w.policy r = .send p) (ht : p.takesFocus = true)
      (h : Visits s n (.change (.setFocus p.display)) w v) : Visits s n (.call (.dispatch r)) w v
  | pump {n slot : Nat} {rs : List Request} {source : Capture.Source} {w v : World μ}
      (hstopped : w.source.running ≠ some slot) (hdrain : w.source.drain slot = some (rs, source))
      (h : Visits s n (.calls (rs.map .dispatch)) { w with source } v) : Visits s n (.call (.pump slot)) w v
  | entered {n : Nat} {c : FocusCall} {w : World μ} : Visits s n (.change c) w (w.enter c)
  | round {n : Nat} {c : FocusCall} {r : Round} {w v : World μ} (hr : (w.registry.apply c).2 = some r)
      (h : Visits s n (.round r.display r.listeners) (w.enter c) v) : Visits s n (.change c) w v
  | told {n : Nat} {d : Display} {l : Listener} {ls : List Listener} {w : World μ} :
      Visits s n (.round d (l :: ls)) w (w.tell l d)
  | inside {n : Nat} {d : Display} {l : Listener} {ls : List Listener} {w v : World μ}
      (h : Visits s n (.program (s.callback l d)) (w.tell l d) v) : Visits s (n + 1) (.round d (l :: ls)) w v
  | next {n : Nat} {d : Display} {l : Listener} {ls : List Listener} {w v : World μ}
      (h : Visits s n (.round d ls) (tell s n l d w) v) : Visits s n (.round d (l :: ls)) w v
  | here {n : Nat} {p : Callback μ} {w : World μ} : Visits s n (.program p) w w
  | look {n : Nat} {next : View μ → Callback μ} {w v : World μ} (h : Visits s n (.program (next w.view)) w v) :
      Visits s n (.program (.look next)) w v
  | keep {n : Nat} {memory : μ} {next : Callback μ} {w v : World μ}
      (h : Visits s n (.program next) { w with memory } v) : Visits s n (.program (.keep memory next)) w v
  | nested {n : Nat} {c : Call} {next : Answer → Callback μ} {w v : World μ} (h : Visits s n (.call c) w v) :
      Visits s n (.program (.call c next)) w v
  | answered {n : Nat} {c : Call} {next : Answer → Callback μ} {w v : World μ}
      (h : Visits s n (.program (next (perform s n c w).2)) ((perform s n c w).1.record (.answered (perform s n c w).2)) v) :
      Visits s n (.program (.call c next)) w v

/-- the end of a run is one of its moments -/
theorem visits_run (s : Surroundings μ) (depth : Nat) (cs : List Call) (w : World μ) :
    Visits s depth (.calls cs) w (run s depth cs w) := by
  induction cs generalizing w with
  | nil => exact .boundary
  | cons c cs ih => exact .rest (ih _)

/-- so are the boundaries between its calls -/
theorem visits_boundary (s : Surroundings μ) (depth : Nat) (cs cs' : List Call) (w : World μ) :
    Visits s depth (.calls (cs ++ cs')) w (run s depth cs w) := by
  induction cs generalizing w with
  | nil => exact .boundary
  | cons c cs ih => exact .rest (ih _)

/-- where an activity leads -/
def Activity.outcome (s : Surroundings μ) (n : Nat) : Activity μ → World μ → World μ
  | .calls cs, w => run s n cs w
  | .call c, w => (perform s n c w).1
  | .change c, w => Session.change (tell s n) c w
  | .round d ls, w => ls.foldl (fun w l => tell s n l d w) w
  | .program p, w => p.run (perform s n) w

namespace Stepwise

variable {R : World μ → World μ → Prop}

/-- the smallest steps make up what is left of telling a listener, once it is told -/
theorem after_tell (K : Stepwise R) (s : Surroundings μ) (n : Nat) (l : Listener) (d : Display) (w : World μ) :
    R (w.tell l d) (Session.tell s n l d w) := by
  cases n with
  | zero => exact K.record _ _ rfl
  | succ n => exact K.trans (K.program s n _ _) (K.record _ _ rfl)

/-- a moment cuts an activity in two: what the smallest steps keep is kept up to it, and from it to the end -/
theorem visits (K : Stepwise R) {s : Surroundings μ} {n : Nat} {a : Activity μ} {w v : World μ} (h : Visits s n a w v) :
    R w v ∧ R v (a.outcome s n w) := by
  induction h with
  | boundary => exact ⟨K.refl _, K.keeps.run s _ _ _⟩
  | first _ ih => exact ⟨ih.1, K.trans ih.2 (K.keeps.run s _ _ _)⟩
  | rest _ ih => exact ⟨K.trans (K.keeps.perform s _ _ _) ih.1, ih.2⟩
  | focus _ ih => exact ih
  | update _ ih => exact ⟨K.trans (K.unlogged _ _ _ _ _ _) ih.1, ih.2⟩
  | take hp ht _ ih =>
    -- the messages are sent after the moment
    refine ⟨ih.1, K.trans ih.2 ?_⟩
    simp only [Activity.outcome, perform, answer, dispatch, hp, carryOut, if_pos ht]
    exact K.trans (K.unlogged _ _ _ _ _ _) (K.trans (K.keeps.keepsFor.sends _ _ _ _) (K.record _ _ rfl))
  | pump hstopped hdrain _ ih =>
    refine ⟨K.trans (K.unlogged _ _ _ _ _ _) ih.1, ?_⟩
    rw [Activity.outcome, perform_pump _ _ hstopped hdrain]
    exact ih.2
  | entered => exact ⟨K.enter _ _, change_kept K.refl K.trans (fun w => K.record w .left rfl) (K.keeps.tell _ _) _ _⟩
  | round hr _ ih =>
    refine ⟨K.trans (K.enter _ _) ih.1, ?_⟩
    rw [Activity.outcome, change_eq, hr]
    exact K.trans ih.2 (K.record _ .left rfl)
  | told => exact ⟨K.tell _ _ _, K.trans (K.after_tell _ _ _ _ _) (K.round _ _ _ _ _)⟩
  | inside _ ih => exact ⟨K.trans (K.tell _ _ _) ih.1, K.trans ih.2 (K.trans (K.record _ _ rfl) (K.round _ _ _ _ _))⟩
  | next _ ih => exact ⟨K.trans (K.keeps.tell _ _ _ _ _) ih.1, ih.2⟩
  | here => exact ⟨K.refl _, K.program _ _ _ _⟩
  | look _ ih => exact ih
  | keep _ ih => exact ⟨K.trans (K.unlogged _ _ _ _ _ _) ih.1, ih.2⟩
  | nested _ ih => exact ⟨ih.1, K.trans ih.2 (K.trans (K.record _ _ rfl) (K.program _ _ _ _))⟩
  | answered _ ih => exact ⟨K.trans (K.keeps.perform _ _ _ _) (K.trans (K.record _ _ rfl) ih.1), ih.2⟩

end Stepwise

/-! ## Invariants -/

/-- an entry that only notes down what has happened: it changes nothing, and shows nobody the session -/
def Entry.isNote : Entry → Bool
  | entered .. => false
  | told .. => false
  | sent .. => false
  | _ => true

theorem Entry.isNote_of_isRemark {e : Entry} (h : e.isRemark = true) : e.isNote = true := by
  cases e <;> first | rfl | cases h

/-- a property of worlds that every kind of step keeps, where calls have `P` -/
structure Invariant (P : Call → Prop) (I : World μ → Prop) : Prop where
  note : ∀ {w e}, e.isNote = true → I w → I (w.record e)
  told : ∀ {w l d}, I w → I (w.tell l d)
  unlogged : ∀ {w source reads memory}, I w → I { w with source, reads, memory }
  replace : ∀ {w policy}, P (.replacePolicy policy) → I w → I { w with policy }
  close : ∀ {w}, I w → I { w with sink := w.sink.close }
  send : ∀ {display now w draft}, I w → I (World.send display now w draft)
  focus : ∀ {w c}, P (.focus c) → I w → I (w.enter c)
  update : ∀ {w policy}, P (.updatePolicy policy) → I w →
    I (World.enter { w with policy } (.setTracking policy.tracksFocus))
  /-- the router gives a display the focus -/
  take : ∀ {w r p}, P (.dispatch r) → Router.plan w.registry.snapshot w.policy r = .send p → p.takesFocus = true → I w →
    I (w.enter (.setFocus p.display))
  /-- a pump may route anything -/
  pumped : ∀ {slot r}, P (.pump slot) → P (.dispatch r)

namespace Invariant

variable {P : Call → Prop} {I : World μ → Prop}

theorem deliver (K : Invariant P I) {tell : Tell μ} (h : ∀ l d w, I w → I (tell l d w)) (c : FocusCall) {w : World μ}
    (hw : I (w.enter c)) : I (change tell c w) :=
  change_kept (R := fun u v => I u → I v) (fun _ h => h) (fun h h' hu => h' (h hu)) (fun _ => K.note rfl) h c w hw

/-- an invariant is kept over any stretch -/
theorem keepsFor (K : Invariant P I) : KeepsFor P (fun u v => I u → I v) fun _ _ u v => I u → I v where
  refl _ hw := hw
  trans h h' hw := h' (h hw)
  remark _ _ he := K.note (Entry.isNote_of_isRemark he)
  unlogged _ _ _ _ := K.unlogged
  replace _ _ hp := K.replace hp
  close _ := K.close
  send _ _ _ _ := K.send
  focus _ h c hc _ hw := K.deliver h c (K.focus hc hw)
  update _ h _ hp _ hw := K.deliver h _ (K.update hp hw)
  take _ h _ _ _ hr hp ht hw := K.deliver h _ (K.take hr hp ht hw)
  pumped _ _ := K.pumped
  told h hw := K.note rfl (h (K.told hw))

/-- the invariant holds where an activity begins, and its calls have `P` -/
def Ready (P : Call → Prop) (I : World μ → Prop) (w : World μ) : Activity μ → Prop
  | .calls cs => (∀ c ∈ cs, P c) ∧ I w
  | .call c => P c ∧ I w
  | .change c => I (w.enter c)
  | .round _ _ => I w
  | .program p => p.Only P ∧ I w

/-- an invariant holds at all moments of an activity -/
theorem visits (K : Invariant P I) {s : Surroundings μ} (hs : ∀ l d, (s.callback l d).Only P) {depth : Nat}
    {a : Activity μ} {w v : World μ} (h : Visits s depth a w v) (hw : Ready P I w a) : I v := by
  induction h with
  | boundary => exact hw.2
  | first _ ih => exact ih ⟨hw.1 _ List.mem_cons_self, hw.2⟩
  | rest _ ih =>
    exact ih ⟨fun c hc => hw.1 c (List.mem_cons_of_mem _ hc), K.keepsFor.perform hs _ (hw.1 _ List.mem_cons_self) _ hw.2⟩
  | focus _ ih => exact ih (K.focus hw.1 hw.2)
  | update _ ih => exact ih (K.update hw.1 hw.2)
  | take hp ht _ ih => exact ih (K.take hw.1 hp ht hw.2)
  | pump _ _ _ ih =>
    refine ih ⟨fun c hc => ?_, K.unlogged hw.2⟩
    obtain ⟨r, -, rfl⟩ := List.mem_map.1 hc
    exact K.pumped hw.1
  | entered => exact hw
  | round _ _ ih => exact ih hw
  | told => exact K.told hw
  | inside _ ih => exact ih ⟨hs _ _, K.told hw⟩
  | next _ ih => exact ih (K.keepsFor.tell hs _ _ _ _ hw)
  | here => exact hw.2
  | look _ ih => exact ih ⟨hw.1 _, hw.2⟩
  | keep _ ih => exact ih ⟨hw.1, K.unlogged hw.2⟩
  | nested _ ih => exact ih ⟨hw.1.1, hw.2⟩
  | answered _ ih => exact ih ⟨hw.1.2 _, K.note rfl (K.keepsFor.perform hs _ hw.1.1 _ hw.2)⟩

end Invariant

end InputRelay.Session
