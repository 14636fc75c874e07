/-
What listeners are told. Each registration has an inbox of its own: a round goes to the registrations in force, in their
order (`received`). For listeners that make no calls of their own, what a registration receives in one call is settled by
the states before and after the call (`received_eq`): the focused display if the focus moved while tracked, or tracking
went on, and else nothing.

Two things about whole histories follow by induction on the calls. As long as tracking stays on, the last display that a
registration in force has received is the focused one, so it never receives a display twice in a row (`inbox_tracked`).
And a registration that has received nothing since tracking went on was made after that, with the focus resting ever since
(`since_tracking`).
-/
import InputRelay.Proofs.Registration
import InputRelay.Proofs.Session.Quiet

namespace InputRelay

/-! ## Which changes are told -/

/-- a change that listeners are told of: it moves the focus while tracked, or switches tracking on -/
def Registry.Rings (before after : Registry) : Prop :=
  before.tracking = true ∧ before.focused ≠ after.focused ∨ before.tracking = false ∧ after.tracking = true

instance (before after : Registry) : Decidable (before.Rings after) :=
  inferInstanceAs (Decidable (before.tracking = true ∧ before.focused ≠ after.focused ∨
    before.tracking = false ∧ after.tracking = true))

namespace Registry

theorem Rings.listeners {r : Registry} {c : FocusCall} (h : r.Rings (r.after c)) :
    (r.after c).listeners = r.listeners := by
  rcases r.changes_one c with ⟨hf, ht⟩ | ⟨-, hl⟩ | ⟨-, hl⟩
  · rcases h with ⟨-, hne⟩ | ⟨hoff, hon⟩
    · exact absurd hf.symm hne
    · rw [ht, hoff] at hon
      cases hon
  · exact hl
  · exact hl

theorem Rings.tracking {r : Registry} {c : FocusCall} (h : r.Rings (r.after c)) : (r.after c).tracking = true := by
  rcases h with ⟨hon, hne⟩ | ⟨-, hon⟩
  · rcases r.changes_one c with ⟨hf, -⟩ | ⟨ht, -⟩ | ⟨hf, -⟩
    · exact absurd hf.symm hne
    · exact ht.trans hon
    · exact absurd hf.symm hne
  · exact hon

/-- the audience of a change are the listeners from before, if they are told of it -/
theorem audience_after (r : Registry) (c : FocusCall) :
    r.audience (r.after c) = if r.Rings (r.after c) then r.listeners else [] := by
  unfold audience
  by_cases h : r.Rings (r.after c)
  · rw [if_pos h, if_pos ⟨h.tracking, h.symm.imp And.left And.right⟩, h.listeners]
  · rw [if_neg h, if_neg]
    rintro ⟨hon, hoff | hne⟩
    · exact h (Or.inr ⟨hoff, hon⟩)
    · cases hr : r.tracking with
      | false => exact h (Or.inr ⟨hr, hon⟩)
      | true => exact h (Or.inl ⟨hr, hne⟩)

end Registry

namespace Session

variable {μ : Type}

/-! ## Inboxes -/

variable (s : Surroundings μ) (depth : Nat) (w : World μ)

/-- a session after calls to its registry -/
def afterCalls (cs : List FocusCall) : World μ := run s depth (cs.map .focus) w

/-- who is told of what in a call made after others -/
def tellings (past : List FocusCall) (c : FocusCall) : List (Listener × Display) :=
  tellingsIn (logged (afterCalls s depth w past) (afterCalls s depth w (past ++ [c])))

/-- what a registration receives in a call: the tellings go to the registrations in force, in their order -/
def received (g : Registration) (past : List FocusCall) (c : FocusCall) : List Display :=
  ((registrations past).zip (tellings s depth w past c)).filterMap fun (g', _, d) => if g' = g then some d else none

/-- what a registration receives in calls made after others -/
def inbox (g : Registration) : List FocusCall → List FocusCall → List Display
  | _, [] => []
  | past, c :: later => received s depth w g past c ++ inbox g (past ++ [c]) later

theorem inbox_snoc (g : Registration) (past later : List FocusCall) (c : FocusCall) :
    inbox s depth w g past (later ++ [c]) = inbox s depth w g past later ++ received s depth w g (past ++ later) c := by
  induction later generalizing past with
  | nil => simp [inbox]
  | cons c' later ih =>
    have hpast : past ++ [c'] ++ later = past ++ c' :: later := by simp
    rw [List.cons_append, inbox, inbox, ih, hpast, List.append_assoc]

theorem afterCalls_snoc_eq (cs : List FocusCall) (c : FocusCall) :
    afterCalls s depth w (cs ++ [c]) = change (tell s depth) c (afterCalls s depth w cs) := by
  simp only [afterCalls, run, List.map_append, List.foldl_append]
  rfl

variable {s w}

section Silent

variable (hs : ∀ l d, (s.callback l d).Only fun _ => False)

include hs

theorem afterCalls_snoc (cs : List FocusCall) (c : FocusCall) :
    (afterCalls s depth w (cs ++ [c])).registry = (afterCalls s depth w cs).registry.after c := by
  obtain ⟨memory, hchange⟩ := change_quiet hs depth c (afterCalls s depth w cs)
  rw [afterCalls_snoc_eq, hchange]

theorem afterCalls_registry (cs : List FocusCall) :
    (afterCalls s depth w cs).registry = cs.foldl Registry.after w.registry := by
  induction cs using List.reverseRecOn with
  | nil => rfl
  | append_singleton cs c ih =>
    rw [afterCalls_snoc depth hs, ih, List.foldl_append]
    rfl

variable (hnew : w.registry = .empty)

include hnew

/-- a round tells the registrations in force when the call is made, each once and in order -/
theorem tellings_eq (past : List FocusCall) (c : FocusCall) :
    tellings s depth w past c =
      if (afterCalls s depth w past).registry.Rings (afterCalls s depth w (past ++ [c])).registry then
        (registrations past).map fun g => (g.listener, (afterCalls s depth w (past ++ [c])).registry.focused)
      else [] := by
  have hlisteners : (afterCalls s depth w past).registry.listeners = (registrations past).map (·.listener) := by
    rw [registrations_listeners, afterCalls_registry depth hs, hnew]
  obtain ⟨memory, hchange⟩ := change_quiet hs depth c (afterCalls s depth w past)
  rw [tellings, afterCalls_snoc depth hs, afterCalls_snoc_eq, logged_of_append (congrArg World.log hchange),
    tellingsIn_changeEntries, Registry.audience_after, hlisteners]
  split_ifs
  · rw [List.map_map]
    rfl
  · rfl

/-- what a registration receives in a call, by the states before and after it -/
theorem received_eq (g : Registration) (past : List FocusCall) (c : FocusCall) :
    received s depth w g past c =
      if g ∈ registrations past ∧
          (afterCalls s depth w past).registry.Rings (afterCalls s depth w (past ++ [c])).registry then
        [(afterCalls s depth w (past ++ [c])).registry.focused]
      else [] := by
  have hown : ∀ (gs : List Registration) (d : Display), gs.Nodup →
      ((gs.zip (gs.map fun g => (g.listener, d))).filterMap fun (g', _, d) => if g' = g then some d else none) =
        if g ∈ gs then [d] else [] := by
    intro gs d hgs
    induction gs with
    | nil => rfl
    | cons g' gs ih =>
      obtain ⟨hout, hgs⟩ := List.nodup_cons.1 hgs
      rw [List.map_cons, List.zip_cons_cons, List.filterMap_cons, ih hgs]
      by_cases h : g' = g
      · subst h
        simp [hout]
      · simp [h, Ne.symm h]
  rw [received, tellings_eq depth hs hnew]
  by_cases hrings : (afterCalls s depth w past).registry.Rings (afterCalls s depth w (past ++ [c])).registry
  · simp only [hrings, and_true]
    exact hown _ _ (registrations_nodup past)
  · simp [hrings]

theorem mem_of_received {g : Registration} {past : List FocusCall} {c : FocusCall}
    (h : received s depth w g past c ≠ []) : g ∈ registrations past := by
  by_contra hg
  rw [received_eq depth hs hnew, if_neg fun h => hg h.1] at h
  exact h rfl

/-- what is received is received after registering -/
theorem number_lt_of_inbox {g : Registration} {past later : List FocusCall} (h : inbox s depth w g past later ≠ []) :
    g.number < (past ++ later).length := by
  induction later using List.reverseRecOn with
  | nil => exact absurd rfl h
  | append_singleton later c ih =>
    rw [← List.append_assoc, List.length_append, List.length_singleton]
    rw [inbox_snoc] at h
    by_cases hearlier : inbox s depth w g past later = []
    · rw [hearlier, List.nil_append] at h
      exact Nat.lt_succ_of_lt (number_lt (mem_of_received depth hs hnew h))
    · exact Nat.lt_succ_of_lt (ih hearlier)

end Silent

/-! ## Periods of tracking -/

variable (s w)

/-- tracking is on after each of some calls, made after others -/
def Tracked (past later : List FocusCall) : Prop :=
  ∀ part, part <+: later → part ≠ [] → (afterCalls s depth w (past ++ part)).registry.tracking = true

variable {s w} {depth}

theorem Tracked.nil (past : List FocusCall) : Tracked s depth w past [] :=
  fun _ hpart hne => absurd (List.prefix_nil.1 hpart) hne

theorem Tracked.on {past later : List FocusCall} (h : Tracked s depth w past later) (hne : later ≠ []) :
    (afterCalls s depth w (past ++ later)).registry.tracking = true :=
  h later (List.prefix_refl _) hne

theorem Tracked.init {past later : List FocusCall} {c : FocusCall} (h : Tracked s depth w past (later ++ [c])) :
    Tracked s depth w past later :=
  fun part hpart => h part (hpart.trans (List.prefix_append _ _))

theorem Tracked.snoc {past later : List FocusCall} {c : FocusCall} (h : Tracked s depth w past later)
    (hon : (afterCalls s depth w (past ++ (later ++ [c]))).registry.tracking = true) :
    Tracked s depth w past (later ++ [c]) := by
  intro part hpart hne
  rcases List.prefix_concat_iff.1 hpart with rfl | hpart
  · exact hon
  · exact h part hpart hne

/-- while tracking stays on, the focus moves only in calls that listeners are told of -/
theorem focused_of_not_rings {before after : Registry} (hon : before.tracking = true) (h : ¬ before.Rings after) :
    after.focused = before.focused := by
  by_contra hne
  exact h (Or.inl ⟨hon, Ne.symm hne⟩)

section Silent

variable (hs : ∀ l d, (s.callback l d).Only fun _ => False) (hnew : w.registry = .empty)

include hs hnew

/-- while tracking stays on, a registration never receives a display twice in a row, and as long as it is in force the last
one is the focused one -/
theorem inbox_tracked {g : Registration} {past later : List FocusCall} (h : Tracked s depth w past later) :
    (inbox s depth w g past later).IsChain (· ≠ ·) ∧
      (g ∈ registrations (past ++ later) → ∀ d ∈ (inbox s depth w g past later).getLast?,
        d = (afterCalls s depth w (past ++ later)).registry.focused) := by
  induction later using List.reverseRecOn with
  | nil => exact ⟨.nil, nofun⟩
  | append_singleton later c ih =>
    obtain ⟨hchain, hlast⟩ := ih h.init
    have hon : inbox s depth w g past later ≠ [] → (afterCalls s depth w (past ++ later)).registry.tracking = true :=
      fun hne => h.init.on fun hnil => hne (by rw [hnil]; rfl)
    rw [inbox_snoc, received_eq depth hs hnew, ← List.append_assoc]
    by_cases htold : g ∈ registrations (past ++ later) ∧ (afterCalls s depth w (past ++ later)).registry.Rings
        (afterCalls s depth w (past ++ later ++ [c])).registry
    · obtain ⟨hg, hrings⟩ := htold
      rw [if_pos ⟨hg, hrings⟩]
      refine ⟨List.isChain_append.2 ⟨hchain, .singleton _, fun x hx y hy => ?_⟩, fun _ d hd => ?_⟩
      · -- the last display received was the focused one, and the focus has moved
        have htracked := hon fun hnil => by rw [hnil] at hx; cases hx
        have hmoved := hrings.resolve_right fun hoff => by rw [htracked] at hoff; cases hoff.1
        cases Option.mem_some_iff.1 hy
        rw [hlast hg x hx]
        exact hmoved.2
      · simpa using hd.symm
    · rw [if_neg htold, List.append_nil]
      refine ⟨hchain, fun hg d hd => ?_⟩
      have hne : inbox s depth w g past later ≠ [] := fun hnil => by rw [hnil] at hd; cases hd
      have hearlier : g ∈ registrations (past ++ later) := by
        rw [registrations_snoc, mem_update] at hg
        refine (hg.resolve_right fun hnow => ?_).1
        have := number_lt_of_inbox depth hs hnew hne
        omega
      rw [focused_of_not_rings (hon hne) fun hrings => htold ⟨hearlier, hrings⟩]
      exact hlast hearlier d hd

/-- since calls made before, a registration has received the focus as it is; or nothing, being newer and having seen the
focus nowhere else -/
def UpToDate (s : Surroundings μ) (depth : Nat) (w : World μ) (past later : List FocusCall) (g : Registration) : Prop :=
  (inbox s depth w g past later).getLast? = some (afterCalls s depth w (past ++ later)).registry.focused ∨
    inbox s depth w g past later = [] ∧ past.length < g.number ∧
      ∀ m, g.number < m → m ≤ (past ++ later).length →
        (afterCalls s depth w ((past ++ later).take m)).registry.focused =
          (afterCalls s depth w (past ++ later)).registry.focused

/-- being told of a change brings a registration up to date -/
theorem upToDate_of_rings (past later : List FocusCall) {c : FocusCall} {g : Registration}
    (hg : g ∈ registrations (past ++ later))
    (hrings : (afterCalls s depth w (past ++ later)).registry.Rings
      (afterCalls s depth w (past ++ later ++ [c])).registry) : UpToDate s depth w past (later ++ [c]) g := by
  refine Or.inl ?_
  rw [inbox_snoc, received_eq depth hs hnew, if_pos ⟨hg, hrings⟩, ← List.append_assoc, List.getLast?_concat]

/-- while tracking stays on, registrations stay up to date, and new ones are so from the start -/
theorem UpToDate.snoc {past later : List FocusCall} {c : FocusCall} (hne : later ≠ [])
    (hon : (afterCalls s depth w (past ++ later)).registry.tracking = true)
    (h : ∀ g ∈ registrations (past ++ later), UpToDate s depth w past later g) {g : Registration}
    (hg : g ∈ registrations (past ++ (later ++ [c]))) : UpToDate s depth w past (later ++ [c]) g := by
  rw [← List.append_assoc, registrations_snoc, mem_update] at hg
  rcases hg with ⟨hg, -⟩ | ⟨-, hnumber⟩
  · by_cases hrings : (afterCalls s depth w (past ++ later)).registry.Rings
        (afterCalls s depth w (past ++ later ++ [c])).registry
    · exact upToDate_of_rings hs hnew past later hg hrings
    · -- nobody is told, so the focus rests and the inbox is as it was
      have hrests := focused_of_not_rings hon hrings
      unfold UpToDate
      rw [inbox_snoc, received_eq depth hs hnew, if_neg fun h => hrings h.2, List.append_nil, ← List.append_assoc,
        hrests]
      refine (h g hg).imp_right fun ⟨hnone, hnewer, hsince⟩ => ⟨hnone, hnewer, fun m hm hlen => ?_⟩
      rw [List.length_append, List.length_singleton] at hlen
      rcases Nat.lt_or_ge (past ++ later).length m with hlast | hearlier
      · rw [List.take_of_length_le (by rw [List.length_append, List.length_singleton]; exact hlast), hrests]
      · rw [List.take_append_of_le_length hearlier]
        exact hsince m hm hearlier
  · -- made by this very call, so it has received nothing, and no call has come since
    have hout : g ∉ registrations (past ++ later) := fun hin => by
      have := number_lt hin
      omega
    have hnone : inbox s depth w g past later = [] := by
      by_contra hsome
      have := number_lt_of_inbox depth hs hnew hsome
      omega
    refine Or.inr ⟨?_, ?_, fun m hm hlen => ?_⟩
    · rw [inbox_snoc, received_eq depth hs hnew, if_neg fun h => hout h.1, hnone]
      rfl
    · have := List.length_pos_iff.2 hne
      rw [hnumber, List.length_append]
      omega
    · rw [List.take_of_length_le]
      rw [← List.append_assoc, List.length_append, List.length_singleton]
      omega

/-- tracking that is on has been switched on, and every registration is up to date since -/
theorem since_tracking {cs : List FocusCall} (h : (afterCalls s depth w cs).registry.tracking = true) :
    ∃ past later, cs = past ++ later ∧ (afterCalls s depth w past).registry.tracking = false ∧
      Tracked s depth w past later ∧ ∀ g ∈ registrations cs, UpToDate s depth w past later g := by
  induction cs using List.reverseRecOn with
  | nil =>
    have hoff : (afterCalls s depth w []).registry = .empty := hnew
    rw [hoff] at h
    cases h
  | append_singleton cs c ih =>
    by_cases hon : (afterCalls s depth w cs).registry.tracking = true
    · obtain ⟨past, later, rfl, hoff, htracked, hall⟩ := ih hon
      have hne : later ≠ [] := by
        rintro rfl
        rw [List.append_nil, hoff] at hon
        cases hon
      rw [List.append_assoc] at h ⊢
      exact ⟨past, later ++ [c], rfl, hoff, htracked.snoc h, fun g hg => UpToDate.snoc hs hnew hne hon hall hg⟩
    · have hoff := Bool.eq_false_iff.2 hon
      have hrings : (afterCalls s depth w cs).registry.Rings (afterCalls s depth w (cs ++ [c])).registry :=
        Or.inr ⟨hoff, h⟩
      refine ⟨cs, [c], rfl, hoff, (Tracked.nil cs).snoc h, fun g hg => ?_⟩
      -- the call that switches tracking on registers nobody
      have hearlier : g ∈ registrations cs := by
        rw [registrations_snoc, mem_update] at hg
        refine (hg.resolve_right fun hnow => ?_).1
        rw [afterCalls_snoc depth hs, hnow.1] at hrings
        simpa [Registry.after_addListener] using hrings.listeners
      have hnil : cs ++ [] = cs := List.append_nil cs
      exact upToDate_of_rings hs hnew cs [] (by rwa [hnil]) (by rwa [hnil])

end Silent

/-! ## Main result -/

/-- **Listeners track the focus exactly.** Take any run of calls to a registry in which nothing has happened yet, with
listeners that make no calls of their own. The registry keeps the registrations in force, in the order in which they were
made: those whose listener has not been removed since. It tells all of them or none. A registration receives nothing in a
call that leaves tracking off. It receives just the display that then has the focus in a call that moves the focus while
it is tracked or switches tracking on, if it is in force, and nothing in any other call. As long as tracking stays on it
never receives a display twice in a row. And while tracking is on, since it was last switched on, each registration in
force has received the focused display last; or nothing, but then it was made after the switch, and the focus has not
moved since. -/
theorem listeners_track_focus (s : Surroundings μ) (depth : Nat) (w : World μ)
    (hs : ∀ l d, (s.callback l d).Only fun _ => False) (hnew : w.registry = .empty) :
    let registry := fun cs => (afterCalls s depth w cs).registry
    (∀ cs, (registry cs).listeners = (registrations cs).map (·.listener) ∧
      (registrations cs).Pairwise (·.number < ·.number) ∧
      ∀ g, g ∈ registrations cs ↔
        cs[g.number]? = some (.addListener g.listener) ∧ .removeListener g.listener ∉ cs.drop (g.number + 1)) ∧
    (∀ cs c, tellings s depth w cs c = [] ∨
      (tellings s depth w cs c).map Prod.fst = (registrations cs).map (·.listener)) ∧
    (∀ g cs c, (registry (cs ++ [c])).tracking = false → received s depth w g cs c = []) ∧
    (∀ g cs c, received s depth w g cs c =
      if g ∈ registrations cs ∧
          ((registry cs).tracking = true ∧ (registry cs).focused ≠ (registry (cs ++ [c])).focused ∨
            (registry cs).tracking = false ∧ (registry (cs ++ [c])).tracking = true) then
        [(registry (cs ++ [c])).focused]
      else []) ∧
    (∀ g past later, (∀ part, part <+: later → part ≠ [] → (registry (past ++ part)).tracking = true) →
      (inbox s depth w g past later).IsChain (· ≠ ·)) ∧
    ∀ cs, (registry cs).tracking = true →
      ∃ past later, cs = past ++ later ∧ (registry past).tracking = false ∧
        (∀ part, part <+: later → part ≠ [] → (registry (past ++ part)).tracking = true) ∧
        ∀ g ∈ registrations cs,
          (inbox s depth w g past later).getLast? = some (registry cs).focused ∨
            inbox s depth w g past later = [] ∧ past.length < g.number ∧
              ∀ m, g.number < m → m ≤ cs.length → (registry (cs.take m)).focused = (registry cs).focused := by
  intro registry
  refine ⟨fun cs => ⟨?_, registrations_sorted cs, fun _ => mem_registrations⟩, fun cs c => ?_, fun g cs c hoff => ?_,
    fun g cs c => received_eq depth hs hnew g cs c, fun g past later h => (inbox_tracked hs hnew h).1, fun cs hon => ?_⟩
  · rw [registrations_listeners, ← hnew]
    exact congrArg Registry.listeners (afterCalls_registry depth hs cs)
  · rw [tellings_eq depth hs hnew]
    split_ifs
    · exact Or.inr (by rw [List.map_map]; rfl)
    · exact Or.inl rfl
  · rw [received_eq depth hs hnew, if_neg]
    rintro ⟨-, hrings⟩
    rw [afterCalls_snoc depth hs] at hrings
    have hon := hrings.tracking
    rw [← afterCalls_snoc depth hs] at hon
    exact Bool.false_ne_true (hoff.symm.trans hon)
  · obtain ⟨past, later, rfl, hoff, htracked, hall⟩ := since_tracking hs hnew hon
    exact ⟨past, later, rfl, hoff, htracked, hall⟩

/-- both registrations of one listener are told, and a newer one only of what comes after it -/
theorem listeners_track_focus_twice :
    let s : Surroundings Unit := ⟨fun _ => 0, fun _ _ => .done⟩
    let w : World Unit := .bare .closed ()
    let panel : Listener := ⟨"panel"⟩
    let cs : List FocusCall :=
      [.addListener panel, .addListener panel, .setFocus ⟨3⟩, .setTracking true, .addListener ⟨"status"⟩]
    (∀ l d, (s.callback l d).Only fun _ => False) ∧ w.registry = .empty ∧
    received s 1 w ⟨panel, 0⟩ cs (.setFocus ⟨5⟩) = [⟨5⟩] ∧ received s 1 w ⟨panel, 1⟩ cs (.setFocus ⟨5⟩) = [⟨5⟩] ∧
    received s 1 w ⟨panel, 0⟩ cs (.setFocus ⟨3⟩) = [] ∧
    inbox s 1 w ⟨panel, 1⟩ [] (cs ++ [.setFocus ⟨5⟩]) = [⟨3⟩, ⟨5⟩] ∧
    inbox s 1 w ⟨⟨"status"⟩, 4⟩ [] (cs ++ [.setFocus ⟨5⟩]) = [⟨5⟩] := by
  intro s w panel cs
  have hs : ∀ l d, (s.callback l d).Only fun _ => False := fun _ _ => trivial
  have hnew : w.registry = .empty := rfl
  obtain ⟨-, -, -, hreceived, -⟩ := listeners_track_focus s 1 w hs hnew
  refine ⟨hs, hnew, ?_, ?_, ?_, by decide +kernel, by decide +kernel⟩
  · exact (hreceived ⟨panel, 0⟩ cs (.setFocus ⟨5⟩)).trans (if_pos (by decide +kernel))
  · exact (hreceived ⟨panel, 1⟩ cs (.setFocus ⟨5⟩)).trans (if_pos (by decide +kernel))
  · exact (hreceived ⟨panel, 0⟩ cs (.setFocus ⟨3⟩)).trans (if_neg (by decide +kernel))

end Session

end InputRelay
