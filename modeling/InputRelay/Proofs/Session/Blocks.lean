/-
What one router call sends stands in one piece. A touch, a back or a home gives its display the focus before its messages
are sent, and listeners that hear of it may call the router themselves, to any depth. `Blocks p es bs q` says that a
stretch `es` of the log is made of the blocks `bs`, when the router stands at `p` before it and at `q` after it:
- a router call settles what it sends by the focus and the policy that it meets when it begins;
- whatever its listeners do comes first, with the whole blocks of all router calls that they make;
- then come its own messages, one right after the other and under consecutive numbers, and that ends the call (`Block`);
- nothing else hands anything to the sink.
`dispatch_one_block`: every run logs such a stretch. Left out what else happens, it is one block after the other, one for
each router call in the order in which the calls end (`Blocks.concat`).
-/
import InputRelay.Proofs.Routing
import InputRelay.Proofs.Session.Stretch
import InputRelay.Proofs.Sink

namespace InputRelay

open Wire (Event)

namespace Session

variable {μ : Type}

/-! ## Blocks -/

/-- what one router call sends: what it was asked, the focus and the policy that it met, and when its messages are sent,
from which number on, and whether someone takes the frames -/
structure Block where
  request : Request
  focus : Snapshot
  policy : Policy
  now : Int64
  taken : Bool
  number : UInt64

/-- what is logged of one message: what is reported of it, and that it is sent under a number -/
def messageEntries (taken : Bool) (number : UInt64) (e : Event) (stampedOnSending : Bool) : List Entry :=
  let delivery := if taken then .queued (e.frame number) else .closed
  (notices e delivery).map .noticed ++ [.sent e stampedOnSending delivery (number + 1)]

/-- what is logged of messages one right after the other: the k-th one is sent under the k-th number, from the first on -/
def draftEntries (taken : Bool) (number : UInt64) (display : Display) (now : Int64) (drafts : List Router.Draft) :
    List Entry :=
  (drafts.mapIdx fun k d =>
    messageEntries taken (number + UInt64.ofNat k) (d.event display now) d.stampedOnSending).flatten

namespace Block

/-- settled when the call began -/
def decision (b : Block) : Router.Decision := Router.plan b.focus b.policy b.request

def events (b : Block) : List Event := b.decision.events b.now

/-- the number that comes after the block -/
def next (b : Block) : UInt64 := b.number + UInt64.ofNat b.events.length

def messages (b : Block) : List Entry :=
  match b.decision with
  | .send p => draftEntries b.taken b.number p.display b.now p.drafts
  | .drop => []
  | .refuse fault => [.noticed (.refused fault)]

/-- what is logged of the block: its messages, and the end of the call -/
def entries (b : Block) : List Entry := b.messages ++ [.dispatched b.request b.focus b.policy]

end Block

/-- what the router and the numbering go by -/
structure Standing where
  registry : Registry
  policy : Policy
  issued : UInt64

def World.standing (w : World μ) : Standing := ⟨w.registry, w.policy, w.sink.issued⟩

/-- an entry that the router makes -/
def Entry.isRouting : Entry → Bool
  | sent .. => true
  | dispatched .. => true
  | noticed _ => true
  | _ => false

/-- an entry that neither the router makes nor a change to the registry -/
def Entry.isAside : Entry → Bool
  | left => true
  | told .. => true
  | finished _ => true
  | answered _ => true
  | _ => false

/-- a stretch of the log that is made of whole blocks, those of nested calls first, between two standings -/
inductive Blocks : Standing → List Entry → List Block → Standing → Prop
  | idle (p : Standing) : Blocks p [] [] p
  /-- the log does not show when a policy is put in place -/
  | policy {p q : Standing} {es : List Entry} {bs : List Block} (policy : Policy)
      (h : Blocks { p with policy } es bs q) : Blocks p es bs q
  | enter {p q : Standing} {c : FocusCall} {es : List Entry} {bs : List Block}
      (h : Blocks { p with registry := p.registry.after c } es bs q) : Blocks p (.entered c p.registry :: es) bs q
  | aside {p q : Standing} {e : Entry} {es : List Entry} {bs : List Block} (he : e.isAside = true)
      (h : Blocks p es bs q) : Blocks p (e :: es) bs q
  /-- a router call that begins at `p` and sends its messages at `p'`, when its listeners are done -/
  | call {p p' q : Standing} {b : Block} {inner es : List Entry} {bs bs' : List Block}
      (focus : b.focus = p.registry.snapshot) (policy : b.policy = p.policy) (nested : Blocks p inner bs p')
      (number : b.number = p'.issued) (h : Blocks { p' with issued := b.next } es bs' q) :
      Blocks p (inner ++ (b.entries ++ es)) (bs ++ b :: bs') q

/-- each block takes its numbers from where the one before ends -/
def Chained : UInt64 → List Block → UInt64 → Prop
  | number, [], after => number = after
  | number, b :: bs, after => b.number = number ∧ Chained b.next bs after

theorem Chained.append {l m n : UInt64} {bs bs' : List Block} (h : Chained l bs m) (h' : Chained m bs' n) :
    Chained l (bs ++ bs') n := by
  induction bs generalizing l with
  | nil =>
    obtain rfl : l = m := h
    exact h'
  | cons b bs ih => exact ⟨h.1, ih h.2⟩

theorem isRouting_of_mem_messageEntries {taken : Bool} {number : UInt64} {e : Event} {stamped : Bool} {x : Entry}
    (h : x ∈ messageEntries taken number e stamped) : x.isRouting = true := by
  rcases List.mem_append.1 h with h | h
  · obtain ⟨n, -, rfl⟩ := List.mem_map.1 h
    rfl
  · rw [List.mem_singleton.1 h]
    rfl

namespace Block

theorem isRouting_of_mem_messages {b : Block} {x : Entry} (h : x ∈ b.messages) : x.isRouting = true := by
  unfold messages at h
  split at h
  · obtain ⟨block, hblock, hx⟩ := List.mem_flatten.1 h
    obtain ⟨k, hk, rfl⟩ := List.mem_mapIdx.1 hblock
    exact isRouting_of_mem_messageEntries hx
  · cases h
  · rw [List.mem_singleton.1 h]
    rfl

/-- a block is all of the router's making -/
theorem filter_entries (b : Block) : b.entries.filter Entry.isRouting = b.entries := by
  refine List.filter_eq_self.2 fun x hx => ?_
  rcases List.mem_append.1 hx with hx | hx
  · exact isRouting_of_mem_messages hx
  · rw [List.mem_singleton.1 hx]
    rfl

end Block

namespace Blocks

theorem append {p q r : Standing} {es es' : List Entry} {bs bs' : List Block} (h : Blocks p es bs q)
    (h' : Blocks q es' bs' r) : Blocks p (es ++ es') (bs ++ bs') r := by
  induction h with
  | idle p => exact h'
  | policy policy _ ih => exact .policy policy (ih h')
  | enter _ ih => exact .enter (ih h')
  | aside he _ ih => exact .aside he (ih h')
  | call hfocus hpolicy hnested hnumber _ _ ih =>
    rw [List.append_assoc, List.append_assoc, List.append_assoc]
    exact .call hfocus hpolicy hnested hnumber (ih h')

/-- left out what else happens, a stretch is one block after the other -/
theorem concat {p q : Standing} {es : List Entry} {bs : List Block} (h : Blocks p es bs q) :
    es.filter Entry.isRouting = (bs.map Block.entries).flatten := by
  induction h with
  | idle p => rfl
  | policy policy _ ih => exact ih
  | enter _ ih => exact ih
  | @aside p q e es bs he _ ih =>
    have hnot : e.isRouting = false := by cases e <;> first | rfl | cases he
    rw [List.filter_cons, hnot]
    exact ih
  | @call p p' q b inner es bs bs' _ _ _ _ _ ihnested ih =>
    rw [List.filter_append, List.filter_append, b.filter_entries, ihnested, ih, List.map_append, List.flatten_append]
    rfl

/-- the numbers of the blocks follow on from each other -/
theorem chained {p q : Standing} {es : List Entry} {bs : List Block} (h : Blocks p es bs q) :
    Chained p.issued bs q.issued := by
  induction h with
  | idle p => rfl
  | policy policy _ ih => exact ih
  | enter _ ih => exact ih
  | aside _ _ ih => exact ih
  | call _ _ _ hnumber _ ihnested ih => exact ihnested.append ⟨hnumber, ih⟩

end Blocks

/-! ## Sessions log blocks -/

theorem send_entries (display : Display) (now : Int64) (w : World μ) (d : Router.Draft) :
    (World.send display now w d).log =
      w.log ++ messageEntries w.sink.connected w.sink.issued (d.event display now) d.stampedOnSending := by
  rw [World.send_log, FrameSink.send_issued, FrameSink.send_eq, messageEntries]
  split_ifs <;> rfl

theorem draftEntries_cons (taken : Bool) (number : UInt64) (display : Display) (now : Int64) (d : Router.Draft)
    (drafts : List Router.Draft) :
    draftEntries taken number display now (d :: drafts) =
      messageEntries taken number (d.event display now) d.stampedOnSending ++
        draftEntries taken (number + 1) display now drafts := by
  have hzero : number + UInt64.ofNat 0 = number := UInt64.add_zero number
  simp only [draftEntries, List.mapIdx_cons, List.flatten_cons, hzero, Wire.succ_add_ofNat]

/-- what is logged of messages sent one after the other -/
theorem sends_log (display : Display) (now : Int64) (drafts : List Router.Draft) (w : World μ) :
    (drafts.foldl (World.send display now) w).log =
      w.log ++ draftEntries w.sink.connected w.sink.issued display now drafts := by
  induction drafts generalizing w with
  | nil => exact (List.append_nil _).symm
  | cons d ds ih =>
    have hconnected : (World.send display now w d).sink.connected = w.sink.connected := FrameSink.send_connected _ _
    have hissued : (World.send display now w d).sink.issued = w.sink.issued + 1 := FrameSink.send_issued _ _
    rw [List.foldl_cons, ih, send_entries, hconnected, hissued, draftEntries_cons, List.append_assoc]

/-- sending messages uses the sink, and leaves the focus and the policy alone -/
theorem sends_standing (display : Display) (now : Int64) (drafts : List Router.Draft) (w : World μ) :
    let w' := drafts.foldl (World.send display now) w
    w'.sink = w.sink.sendAll (drafts.map (Router.Draft.event display now)) ∧ w'.registry = w.registry ∧
      w'.policy = w.policy := by
  induction drafts generalizing w with
  | nil => exact ⟨rfl, rfl, rfl⟩
  | cons d ds ih => exact ih (World.send display now w d)

/-- the session when the listeners of a router call are done, just before its messages are sent -/
def heard (tell : Tell μ) (r : Request) (w : World μ) : World μ :=
  match Router.plan w.registry.snapshot w.policy r with
  | .send p => if p.takesFocus then change tell (.setFocus p.display) w else w
  | .drop => w
  | .refuse _ => w

/-- the block of a router call that is made in one world and sends its messages in another -/
def blockOf (clock : Nat → Int64) (r : Request) (w u : World μ) : Block :=
  ⟨r, w.registry.snapshot, w.policy, clock u.reads, u.sink.connected, u.sink.issued⟩

/-- a router call adds its block to what its listeners do, and nothing else -/
theorem dispatch_adds (clock : Nat → Int64) (tell : Tell μ) (r : Request) (w : World μ) :
    let u := heard tell r w
    let b := blockOf clock r w u
    let w' := dispatch clock tell r w
    w'.log = u.log ++ b.entries ∧ w'.sink = u.sink.sendAll b.events ∧ w'.registry = u.registry ∧
      w'.policy = u.policy := by
  intro u b w'
  cases hp : Router.plan w.registry.snapshot w.policy r with
  | drop =>
    have hb : b.decision = .drop := hp
    have hu : u = w := by simp only [u, heard, hp]
    have hw : w' = w.record (.dispatched r w.registry.snapshot w.policy) := by simp only [w', dispatch, hp]
    rw [hu, hw, Block.entries, Block.messages, Block.events, hb]
    exact ⟨rfl, rfl, rfl, rfl⟩
  | refuse fault =>
    have hb : b.decision = .refuse fault := hp
    have hu : u = w := by simp only [u, heard, hp]
    have hw : w' = (w.record (.noticed (.refused fault))).record (.dispatched r w.registry.snapshot w.policy) := by
      simp only [w', dispatch, hp]
    rw [hu, hw, Block.entries, Block.messages, Block.events, hb]
    exact ⟨List.append_assoc _ _ _, rfl, rfl, rfl⟩
  | send p =>
    have hb : b.decision = .send p := hp
    have hu : u = if p.takesFocus then change tell (.setFocus p.display) w else w := by simp only [u, heard, hp]
    have hw : w' = (p.drafts.foldl (World.send p.display (clock u.reads)) { u with reads := u.reads + 1 }).record
        (.dispatched r w.registry.snapshot w.policy) := by
      simp only [w', dispatch, hp, carryOut, ← hu]
    obtain ⟨hsink, hregistry, hpolicy⟩ :=
      sends_standing p.display (clock u.reads) p.drafts { u with reads := u.reads + 1 }
    rw [hw, Block.entries, Block.messages, Block.events, hb]
    refine ⟨?_, hsink, hregistry, hpolicy⟩
    rw [World.record_log, sends_log, List.append_assoc]
    rfl

/-- what a stretch logs is made of whole blocks -/
def Blocked (w w' : World μ) : Prop :=
  ∃ es bs, w'.log = w.log ++ es ∧ Blocks w.standing es bs w'.standing

namespace Blocked

theorem trans {u v w : World μ} (h : Blocked u v) (h' : Blocked v w) : Blocked u w := by
  obtain ⟨es, bs, hlog, hblocks⟩ := h
  obtain ⟨es', bs', hlog', hblocks'⟩ := h'
  exact ⟨es ++ es', bs ++ bs', by rw [hlog', hlog, List.append_assoc], hblocks.append hblocks'⟩

/-- a stretch that logs nothing, and at most puts a policy in place -/
theorem unlogged {w w' : World μ} (hlog : w'.log = w.log) (hregistry : w'.registry = w.registry)
    (hissued : w'.sink.issued = w.sink.issued) : Blocked w w' := by
  refine ⟨[], [], by rw [hlog, List.append_nil], .policy w'.policy ?_⟩
  have hsame : { w.standing with policy := w'.policy } = w'.standing := by
    simp only [World.standing, hregistry, hissued]
  rw [hsame]
  exact .idle _

theorem aside (w : World μ) {e : Entry} (he : e.isAside = true) : Blocked w (w.record e) :=
  ⟨[e], [], rfl, .aside he (.idle _)⟩

theorem enter (w : World μ) (c : FocusCall) : Blocked w (w.enter c) :=
  ⟨[.entered c w.registry], [], rfl, .enter (.idle _)⟩

/-- a change to the registry, with its whole round -/
theorem change {tell : Tell μ} (h : ∀ l d w, Blocked w (tell l d w)) (c : FocusCall) (w : World μ) :
    Blocked w (Session.change tell c w) :=
  (enter w c).trans (change_kept (fun _ => unlogged rfl rfl rfl) trans (fun w => aside w rfl) h c w)

theorem heard {tell : Tell μ} (h : ∀ l d w, Blocked w (tell l d w)) (r : Request) (w : World μ) :
    Blocked w (heard tell r w) := by
  unfold Session.heard
  split
  · split_ifs
    · exact change h _ w
    · exact unlogged rfl rfl rfl
  · exact unlogged rfl rfl rfl
  · exact unlogged rfl rfl rfl

/-- a router call adds its block to those of its listeners' calls -/
theorem dispatch_blocks (clock : Nat → Int64) {tell : Tell μ} (h : ∀ l d w, Blocked w (tell l d w)) (r : Request)
    (w : World μ) :
    let u := Session.heard tell r w
    let b := blockOf clock r w u
    let w' := Session.dispatch clock tell r w
    ∃ inner bs, u.log = w.log ++ inner ∧ Blocks w.standing inner bs u.standing ∧
      w'.log = w.log ++ (inner ++ b.entries) ∧ Blocks w.standing (inner ++ b.entries) (bs ++ [b]) w'.standing := by
  intro u b w'
  obtain ⟨inner, bs, hinner, hnested⟩ := heard h r w
  obtain ⟨hlog, hsink, hregistry, hpolicy⟩ := dispatch_adds clock tell r w
  have hissued : w'.sink.issued = b.next := (congrArg FrameSink.issued hsink).trans (FrameSink.sendAll_issued _ _)
  have hstanding : { u.standing with issued := b.next } = w'.standing := by
    simp only [World.standing, ← hissued, w', u, hregistry, hpolicy]
  have hlast : Blocks { u.standing with issued := b.next } [] [] w'.standing := hstanding ▸ .idle _
  have hall := Blocks.call (b := b) rfl rfl hnested rfl hlast
  rw [List.append_nil] at hall
  refine ⟨inner, bs, hinner, hnested, ?_, hall⟩
  rw [hlog, hinner, List.append_assoc]

theorem dispatch (clock : Nat → Int64) {tell : Tell μ} (h : ∀ l d w, Blocked w (tell l d w)) (r : Request)
    (w : World μ) : Blocked w (dispatch clock tell r w) := by
  obtain ⟨inner, bs, -, -, hlog, hblocks⟩ := dispatch_blocks clock h r w
  exact ⟨_, _, hlog, hblocks⟩

end Blocked

theorem keeps_blocks : KeepsCalls (fun _ => True) (Blocked (μ := μ)) fun _ _ => Blocked where
  refl _ := .unlogged rfl rfl rfl
  trans := Blocked.trans
  unlogged _ _ _ _ := .unlogged rfl rfl rfl
  replace _ _ _ := .unlogged rfl rfl rfl
  close _ := .unlogged rfl rfl rfl
  focus _ h c _ w := .change h c w
  update _ h policy _ w := by
    have hpolicy : Blocked w { w with policy } := .unlogged rfl rfl rfl
    exact hpolicy.trans (.change h _ _)
  pumped _ _ _ := trivial
  told {l d w w'} h := .trans (.aside w rfl) (h.trans (.aside w' rfl))
  answered w _ := .aside w rfl
  dispatch clock _ h r _ w := .dispatch clock h r w

/-! ## Main result -/

/-- **One router call, one block.** Take any session, with any listeners making any calls of their own, router calls among
them, to any depth. A router call settles what it sends by the focus and the policy that it meets. Its listeners come
first, and what they log is made of whole blocks. Then it hands its own messages to the sink, one right after the other and
under consecutive numbers, whatever its listeners did to the focus: all for the display that the request was for when the
call began, the pointers of a touch in order, back down before up. So the log of any run of calls is made of whole blocks.
Left out what else happens, it is one block after the other, and each takes its numbers from where the one before ends. -/
theorem dispatch_one_block (s : Surroundings μ) (depth : Nat) (w : World μ) :
    (∀ r,
      let u := heard (tell s depth) r w
      let b := blockOf s.clock r w u
      let w' := (perform s depth (.dispatch r) w).1
      ∃ inner bs, u.log = w.log ++ inner ∧ Blocks w.standing inner bs u.standing ∧
        w'.log = w.log ++ (inner ++ b.entries) ∧ Blocks w.standing (inner ++ b.entries) (bs ++ [b]) w'.standing ∧
        w'.sink = u.sink.sendAll b.events ∧
        (∀ e ∈ b.events, r.destination w.registry.snapshot = some e.display) ∧ r.Orders b.events) ∧
    ∀ cs,
      let w' := run s depth cs w
      ∃ es bs, w'.log = w.log ++ es ∧ Blocks w.standing es bs w'.standing ∧
        es.filter Entry.isRouting = (bs.map Block.entries).flatten ∧ Chained w.sink.issued bs w'.sink.issued ∧
        ∀ b ∈ bs, (∀ e ∈ b.events, b.request.destination b.focus = some e.display) ∧ b.request.Orders b.events := by
  have hcallbacks : ∀ l d, (s.callback l d).Only fun _ => True := fun l d => (s.callback l d).only_true
  refine ⟨fun r => ?_, fun cs => ?_⟩
  · intro u b w'
    obtain ⟨inner, bs, hinner, hnested, hlog, hblocks⟩ :=
      Blocked.dispatch_blocks s.clock (keeps_blocks.tell hcallbacks depth) r w
    have hsink : w'.sink = u.sink.sendAll b.events := (dispatch_adds s.clock (tell s depth) r w).2.1
    exact ⟨inner, bs, hinner, hnested, hlog, hblocks, hsink, fun e => Router.destination_of_mem,
      Router.orders_plan _ _ _ _⟩
  · obtain ⟨es, bs, hlog, hblocks⟩ := keeps_blocks.run hcallbacks depth (fun c (_ : c ∈ cs) => trivial) w
    exact ⟨es, bs, hlog, hblocks, hblocks.concat, hblocks.chained, fun b _ =>
      ⟨fun e => Router.destination_of_mem, Router.orders_plan _ _ _ _⟩⟩

/-- the focus goes to display 1 for a touch of two fingers, and a panel that hears of it goes home on display 2: its message
is number 0, and the touch follows as numbers 1 and 2, for display 1 still -/
theorem dispatch_one_block_nested :
    let s : Surroundings Unit :=
      ⟨fun _ => 0, fun _ d => if d = ⟨1⟩ then .call (.dispatch (.home ⟨2⟩)) fun _ => .done else .done⟩
    let w : World Unit := { World.bare .closed () with registry := ⟨.invalid, true, [], [⟨"panel"⟩]⟩ }
    let m : Motion := .touch 2 5 [⟨0, .zero, .zero, .zero⟩, ⟨1, .zero, .zero, .zero⟩]
    let r : Request := .event .touchscreen (.motion m) (some ⟨1⟩)
    let u := heard (tell s 2) r w
    let b := blockOf s.clock r w u
    let w' := (perform s 2 (.dispatch r) w).1
    u.registry.focused = ⟨2⟩ ∧ b.number = 1 ∧ (∃ inner, w'.log = inner ++ b.entries) ∧ w'.sink.issued = 3 ∧
      (∀ e ∈ b.events, e.display = ⟨1⟩) ∧
      b.events.map Wire.Event.body? = [some (.touch 0 2 .zero .zero .zero), some (.touch 1 2 .zero .zero .zero)] := by
  intro s w m r u b w'
  obtain ⟨inner, bs, -, -, hlog, -, hsink, hdisplay, horders⟩ := (dispatch_one_block s 2 w).1 r
  have hnumber : b.number = 1 := by decide +kernel
  have hissued : w'.sink.issued = 3 := by
    rw [congrArg FrameSink.issued hsink, FrameSink.sendAll_issued]
    decide +kernel
  refine ⟨by decide +kernel, hnumber, ⟨inner, hlog⟩, hissued, fun e he => (Option.some.inj (hdisplay e he)).symm, ?_⟩
  have htouches := horders.resolve_right fun hnone => nomatch hnone.1
  exact htouches.trans (by decide +kernel)

end Session

end InputRelay
