/-
Events for a known display, in a session. A router call logs what its listeners do and then its own block (`Block.entries`),
which holds its messages and its complaint, if any, and tells nobody (`sentIn_entries`, `errorsIn_entries`,
`tellingsIn_entries`). If the listeners make no calls, what comes before the block is at most the change of the focus that a
touch makes (`targeted_log`). So what is sent for an event is what the event says, whatever state the session is in.
-/
import InputRelay.Proofs.Focus
import InputRelay.Proofs.Session.Blocks
import InputRelay.Proofs.Session.Quiet
import InputRelay.Proofs.Translation

namespace InputRelay.Session

open Wire (Event)

variable {μ : Type}

/-! ## What a block shows -/

/-- the errors that are reported in a stretch of the log -/
def errorsIn (es : List Entry) : List Notice :=
  es.filterMap fun
    | .noticed n => if n.level = .error then some n else none
    | _ => none

theorem errorsIn_append (es es' : List Entry) : errorsIn (es ++ es') = errorsIn es ++ errorsIn es' :=
  List.filterMap_append

/-- of a message that is framed, just the message is sent, and no error is reported -/
theorem messageEntries_shows (taken : Bool) (number : UInt64) (e : Event) (stamped : Bool) :
    sentIn (messageEntries taken number e stamped) = [e] ∧ errorsIn (messageEntries taken number e stamped) = [] := by
  cases taken <;> exact ⟨rfl, rfl⟩

theorem draftEntries_shows (taken : Bool) (number : UInt64) (display : Display) (now : Int64)
    (drafts : List Router.Draft) :
    sentIn (draftEntries taken number display now drafts) = drafts.map (Router.Draft.event display now) ∧
      errorsIn (draftEntries taken number display now drafts) = [] := by
  induction drafts generalizing number with
  | nil => exact ⟨rfl, rfl⟩
  | cons d ds ih =>
    obtain ⟨hsent, herrors⟩ := messageEntries_shows taken number (d.event display now) d.stampedOnSending
    obtain ⟨hsents, herrorss⟩ := ih (number + 1)
    rw [draftEntries_cons, sentIn_append, errorsIn_append, hsent, herrors, hsents, herrorss]
    exact ⟨rfl, rfl⟩

namespace Block

theorem sentIn_entries (b : Block) : sentIn b.entries = b.events := by
  rw [entries, sentIn_append, messages, events]
  cases b.decision with
  | send p =>
    rw [(draftEntries_shows _ _ _ _ _).1]
    exact List.append_nil _
  | drop | refuse fault => rfl

theorem errorsIn_entries (b : Block) : errorsIn b.entries = b.decision.fault?.toList.map .refused := by
  rw [entries, errorsIn_append, messages]
  cases b.decision with
  | send p =>
    rw [(draftEntries_shows _ _ _ _ _).2]
    rfl
  | drop | refuse fault => rfl

theorem tellingsIn_entries (b : Block) : tellingsIn b.entries = [] := by
  rw [← b.filter_entries]
  refine List.filterMap_eq_nil_iff.2 fun x hx => ?_
  have hrouting := (List.mem_filter.1 hx).2
  cases x with
  | told => cases hrouting
  | _ => rfl

end Block

/-! ## What comes before it -/

theorem roundEntries_shows (seen : Snapshot) (policy : Policy) (d : Display) (ls : List Listener) :
    sentIn (roundEntries seen policy d ls) = [] ∧ errorsIn (roundEntries seen policy d ls) = [] := by
  induction ls with
  | nil => exact ⟨rfl, rfl⟩
  | cons l ls ih => exact ih

/-- a change sends nothing and complains of nothing -/
theorem changeEntries_shows (policy : Policy) (c : FocusCall) (r : Registry) :
    sentIn (changeEntries policy c r) = [] ∧ errorsIn (changeEntries policy c r) = [] := by
  obtain ⟨hsent, herrors⟩ := roundEntries_shows (r.after c).snapshot policy (r.after c).focused (r.audience (r.after c))
  constructor
  · change sentIn (roundEntries _ _ _ _ ++ [.left]) = []
    rw [sentIn_append, hsent]
    rfl
  · change errorsIn (roundEntries _ _ _ _ ++ [.left]) = []
    rw [errorsIn_append, herrors]
    rfl

/-- what is logged when an event gives its display the focus, if it does so, and listeners make no calls -/
def takingEntries (r : Registry) (policy : Policy) (device : Device) (e : RawEvent) (display : Display) : List Entry :=
  if e.isTouch device then changeEntries policy (.setFocus display) r else []

/-- nothing is sent yet, and all listeners hear of the display that is given the focus, if it is tracked and moves -/
theorem takingEntries_shows (r : Registry) (policy : Policy) (device : Device) (e : RawEvent) (display : Display) :
    sentIn (takingEntries r policy device e display) = [] ∧ errorsIn (takingEntries r policy device e display) = [] ∧
      tellingsIn (takingEntries r policy device e display) =
        if e.isTouch device = true ∧ r.tracking = true ∧ r.focused ≠ display then r.listeners.map fun l => (l, display)
        else [] := by
  unfold takingEntries
  by_cases htouch : e.isTouch device = true
  · obtain ⟨hsent, herrors⟩ := changeEntries_shows policy (.setFocus display) r
    have haudience : r.audience { r with focused := display } =
        if r.tracking = true ∧ r.focused ≠ display then r.listeners else [] := by
      unfold Registry.audience
      cases r.tracking <;> simp
    rw [if_pos htouch, tellingsIn_changeEntries, Registry.after_setFocus, haudience]
    refine ⟨hsent, herrors, ?_⟩
    simp only [htouch, true_and]
    split_ifs <;> rfl
  · rw [if_neg htouch, if_neg fun h => htouch h.1]
    exact ⟨rfl, rfl, rfl⟩

variable {s : Surroundings μ}

/-- what is logged of an event for a display, when listeners make no calls: the focus goes to the display of a touch, and
then comes the block of the call -/
theorem targeted_log (hs : ∀ l d, (s.callback l d).Only fun _ => False) (depth : Nat) (w : World μ) (device : Device)
    (e : RawEvent) (display : Display) :
    let r := Request.event device e (some display)
    let w' := (perform s depth (.dispatch r) w).1
    logged w w' = takingEntries w.registry w.policy device e display ++ (blockOf s.clock r w w).entries ∧
      w'.registry = (if e.isTouch device then { w.registry with focused := display } else w.registry) ∧
      w'.policy = w.policy := by
  intro r w'
  obtain ⟨hlog, -, hregistry, hpolicy⟩ := dispatch_adds s.clock (tell s depth) r w
  suffices hheard : ∃ memory, heard (tell s depth) r w =
      { w with
        registry := if e.isTouch device then { w.registry with focused := display } else w.registry
        memory
        log := w.log ++ takingEntries w.registry w.policy device e display } by
    obtain ⟨memory, hheard⟩ := hheard
    rw [hheard] at hlog hregistry hpolicy
    refine ⟨?_, hregistry, hpolicy⟩
    rw [List.append_assoc] at hlog
    exact logged_of_append hlog
  have hidle : w = { w with log := w.log ++ [] } := by rw [List.append_nil]
  cases e with
  | key k => exact ⟨w.memory, hidle⟩
  | motion m =>
    cases device with
    | touchscreen | navigationTouchpad =>
      obtain ⟨memory, hchange⟩ := change_quiet hs depth (.setFocus display) w
      rw [Registry.after_setFocus] at hchange
      exact ⟨memory, hchange⟩
    | mouse | keyboard | dpad => exact ⟨w.memory, hidle⟩

/-- what is sent for an event for a display is what the event says -/
theorem sent_targeted (hs : ∀ l d, (s.callback l d).Only fun _ => False) (depth : Nat) (w : World μ) (device : Device)
    (e : RawEvent) (display : Display) :
    sentIn (logged w (perform s depth (.dispatch (.event device e (some display))) w).1) =
      (Router.target device e display).events (s.clock w.reads) := by
  rw [(targeted_log hs depth w device e display).1, sentIn_append, (takingEntries_shows _ _ _ _ _).1,
    Block.sentIn_entries]
  rfl

/-- an event for a display is refused just if it is a motion of a device that makes none -/
theorem errors_targeted (hs : ∀ l d, (s.callback l d).Only fun _ => False) (depth : Nat) (w : World μ) (device : Device)
    (e : RawEvent) (display : Display) :
    errorsIn (logged w (perform s depth (.dispatch (.event device e (some display))) w).1) =
      if e.isMisplaced device then [.refused (.motionFrom device)] else [] := by
  have hdecision : (blockOf s.clock (.event device e (some display)) w w).decision = Router.target device e display := rfl
  rw [(targeted_log hs depth w device e display).1, errorsIn_append, (takingEntries_shows _ _ _ _ _).2.1,
    Block.errorsIn_entries, hdecision, Router.fault?_target]
  split_ifs <;> rfl

/-! ## Main result -/

/-- **Targeted events say what they say.** Take any session, with listeners that make no calls, and an event for a display.
- What is sent is the same in every other such session, whatever its policy, focus and listeners; for a motion of the mouse,
  if the clock reads the same. All of it is for the display.
- A key gives one message, with its action, code and time. A touch gives one for each pointer, in order, with the pointer's
  number, place and pressure, bit by bit, the time of the touch and the low byte of its action; the bits above change
  nothing.
- A motion of the mouse gives one message at most, and one just for the six actions of a mouse. It says what the motion
  does, by its whole action, and carries the time of sending.
- A motion of a keyboard or d-pad gives no message but one error; nothing else gives an error.
- A touch gives its display the focus, and then all listeners are told of it, if it is tracked and moves, before anything is
  sent. Nothing else touches the registry or is told, and nothing touches the policy. -/
theorem targeted_translation (s : Surroundings μ) (hs : ∀ l d, (s.callback l d).Only fun _ => False) (depth : Nat)
    (w : World μ) (device : Device) (display : Display) :
    let routed e := (perform s depth (.dispatch (.event device e (some display))) w).1
    let out e := sentIn (logged w (routed e))
    (∀ e {ν : Type} (s' : Surroundings ν) (depth' : Nat) (v : World ν), (∀ l d, (s'.callback l d).Only fun _ => False) →
      e.isMouse device = false ∨ s'.clock v.reads = s.clock w.reads →
      sentIn (logged v (perform s' depth' (.dispatch (.event device e (some display))) v).1) = out e) ∧
    (∀ e, ∀ message ∈ out e, message.display = display) ∧
    (∀ k, out (.key k) = [.input ⟨display, device, k.time, .key k.action k.keyCode⟩]) ∧
    (∀ m, RawEvent.isTouch device (.motion m) = true →
      (∃ low : Int32, low.toInt = m.action.toInt % 256 ∧ out (.motion m) =
        m.pointers.map fun p => .input ⟨display, device, m.time, .touch p.id low p.x p.y p.pressure⟩) ∧
      ∀ action : Int32, action.toInt % 256 = m.action.toInt % 256 → out (.motion { m with action }) = out (.motion m)) ∧
    (∀ m, RawEvent.isMouse device (.motion m) = true →
      (out (.motion m)).length = (if m.action ∈ MotionAction.ofMouse then 1 else 0) ∧
      ∀ message ∈ out (.motion m), ∃ body, m.Says body ∧ message = .input ⟨display, .mouse, s.clock w.reads, body⟩) ∧
    (∀ m, RawEvent.isMisplaced device (.motion m) = true → out (.motion m) = []) ∧
    ∀ e,
      errorsIn (logged w (routed e)) = (if e.isMisplaced device then [.refused (.motionFrom device)] else []) ∧
      (routed e).registry = (if e.isTouch device then { w.registry with focused := display } else w.registry) ∧
      (routed e).policy = w.policy ∧
      ∃ front back, logged w (routed e) = front ++ back ∧ sentIn front = [] ∧ tellingsIn back = [] ∧
        tellingsIn front =
          if e.isTouch device = true ∧ w.registry.tracking = true ∧ w.registry.focused ≠ display then
            w.registry.listeners.map fun l => (l, display)
          else [] := by
  intro routed out
  have hout : ∀ e, out e = (Router.target device e display).events (s.clock w.reads) := fun e =>
    sent_targeted hs depth w device e display
  refine ⟨fun e ν s' depth' v hs' hsame => ?_, fun e message hmem => ?_, fun k => hout _, fun m htouch => ?_,
    fun m hmouse => ?_, fun m hmisplaced => ?_, fun e => ?_⟩
  · rw [sent_targeted hs', hout]
    rcases hsame with hsame | hclock
    · exact Router.events_of_not_isMouse hsame display _ _
    · rw [hclock]
  · rw [hout] at hmem
    change message ∈ (Router.plan w.registry.snapshot w.policy (.event device e (some display))).events _ at hmem
    exact (Option.some.inj (Router.destination_of_mem hmem)).symm
  · have hpointers := fun m' h => (hout (.motion m')).trans (Router.events_of_isTouch h display (s.clock w.reads))
    refine ⟨⟨m.maskedAction, m.maskedAction_toInt, hpointers m htouch⟩, fun action hlow => ?_⟩
    rw [hpointers m htouch, hpointers { m with action } htouch, Motion.maskedAction_congr hlow]
  · obtain rfl : device = .mouse := by simpa [RawEvent.isMouse] using hmouse
    rw [hout]
    exact ⟨Router.length_mouseEvents m display _, fun message => Router.says_of_mem⟩
  · rw [hout]
    cases device with
    | keyboard | dpad => rfl
    | touchscreen | navigationTouchpad | mouse => cases hmisplaced
  · obtain ⟨hlog, hregistry, hpolicy⟩ := targeted_log hs depth w device e display
    obtain ⟨hsent, -, htold⟩ := takingEntries_shows w.registry w.policy device e display
    exact ⟨errors_targeted hs depth w device e display, hregistry, hpolicy, _, _, hlog, hsent,
      Block.tellingsIn_entries _, htold⟩

/-- two fingers on a touchpad, one of them just put down, on a display that counts as none: the focus leaves display 3 for
it, a panel hears of that and counts, and then both messages are sent -/
theorem targeted_translation_touch :
    let s : Surroundings Nat := ⟨fun _ => 0, fun _ _ => .look fun v => .keep (v.memory + 1) .done⟩
    let w : World Nat := { World.bare .closed 0 with registry := ⟨⟨3⟩, true, [⟨3⟩], [⟨"panel"⟩]⟩ }
    let m : Motion := .touch 0x105 7 [⟨0, .one, .zero, .one⟩, ⟨1, ⟨0x7fc00001⟩, .minusOne, .zero⟩]
    let w' := (perform s 2 (.dispatch (.event .navigationTouchpad (.motion m) (some ⟨-4⟩))) w).1
    (∀ l d, (s.callback l d).Only fun _ => False) ∧
    sentIn (logged w w') = [.input ⟨⟨-4⟩, .navigationTouchpad, 7, .touch 0 5 .one .zero .one⟩,
      .input ⟨⟨-4⟩, .navigationTouchpad, 7, .touch 1 5 ⟨0x7fc00001⟩ .minusOne .zero⟩] ∧
    w'.registry.focused = ⟨-4⟩ ∧ tellingsIn (logged w w') = [(⟨"panel"⟩, ⟨-4⟩)] := by
  intro s w m w'
  have hs : ∀ l d, (s.callback l d).Only fun _ => False := fun _ _ _ => trivial
  obtain ⟨-, -, -, htouch, -, -, hsession⟩ := targeted_translation s hs 2 w .navigationTouchpad ⟨-4⟩
  obtain ⟨⟨low, hlow, hsent⟩, -⟩ := htouch m rfl
  obtain ⟨-, hregistry, -, front, back, hlog, -, hback, hfront⟩ := hsession (.motion m)
  have hfive : low = 5 := Int32.toInt_inj.1 (hlow.trans (by decide))
  refine ⟨hs, ?_, congrArg Registry.focused hregistry, ?_⟩
  · rw [hfive] at hsent
    exact hsent
  · have htold : tellingsIn (logged w w') = tellingsIn front ++ tellingsIn back :=
      (congrArg tellingsIn hlog).trans (tellingsIn_append front back)
    rw [htold, hback, hfront]
    rfl

end InputRelay.Session
