/-
What the router sends for a request. Whatever a plan sends is for the display that the request is for (`plan_display`,
`destination_of_mem`), and in the order that belongs to the request (`orders_plan`): a touch pointer by pointer, back down
before up. A plan is made from the focus and the policy of one moment, so this holds however long it takes to carry it out.
-/
import Mathlib.Tactic
import InputRelay.Router

namespace InputRelay

open Wire (Body Event)

/-! ## Requests and their messages -/

def Wire.Event.body? : Event → Option Body
  | home _ => none
  | input m => some m.body

/-- what a touch says, pointer by pointer -/
def Motion.touches (m : Motion) : List Body := m.pointers.map fun p => .touch p.id m.maskedAction p.x p.y p.pressure

namespace Request

/-- the display that a request is for, as the focus stands -/
def destination (focus : Snapshot) : Request → Option Display
  | .event _ _ (some d) => some d
  | .event _ _ none => focus.target
  | .back d => some d
  | .home d => some d

/-- messages are what a request sends, in its order: the pointers of a touch as the frame has them, back down before up;
of other requests there is one message at most, and of a touch without a display there may be none -/
def Orders : Request → List Event → Prop
  | .event .touchscreen (.motion m) target, es | .event .navigationTouchpad (.motion m) target, es =>
    es.map Event.body? = m.touches.map some ∨ target = none ∧ es = []
  | .back _, es =>
    es.map Event.body? = [some (.key KeyAction.down KeyCode.back), some (.key KeyAction.up KeyCode.back)]
  | .home d, es => es = [.home d]
  | _, es => es.length ≤ 1

end Request

/-! ## Plans -/

namespace Router

/-- the messages to send at a time of sending -/
def Decision.events (now : Int64) : Decision → List Event
  | .send p => p.events now
  | .drop => []
  | .refuse _ => []

theorem Draft.display_event (d : Draft) (display : Display) (now : Int64) : (d.event display now).display = display := by
  rcases d with _ | ⟨device, _ | _, body⟩ <;> rfl

theorem target_display {device : Device} {e : RawEvent} {d : Display} {p : Plan} (h : target device e d = .send p) :
    p.display = d := by
  cases e with
  | key k =>
    cases h
    rfl
  | motion m =>
    cases device <;> cases h <;> rfl

/-- an event without a display goes where the focus is, or nowhere -/
theorem targetFocused_or (focus : Snapshot) (policy : Policy) (device : Device) (e : RawEvent) :
    (∃ d, focus.target = some d ∧ targetFocused focus policy device e = target device e d) ∨
      ∀ p, targetFocused focus policy device e ≠ .send p := by
  unfold targetFocused
  cases focus.target with
  | none => exact Or.inr nofun
  | some d =>
    cases hallowed : policy.allows device with
    | none => exact Or.inr nofun
    | some allowed =>
      cases allowed with
      | false => exact Or.inr nofun
      | true => exact Or.inl ⟨d, rfl, rfl⟩

/-- a plan is for the display that its request is for -/
theorem plan_display {focus : Snapshot} {policy : Policy} {r : Request} {p : Plan} (h : plan focus policy r = .send p) :
    r.destination focus = some p.display := by
  cases r with
  | back d | home d =>
    cases h
    rfl
  | event device e display =>
    cases display with
    | some d => exact congrArg some (target_display h).symm
    | none =>
      rcases targetFocused_or focus policy device e with ⟨d, hfocus, hd⟩ | hnone
      · have hp : target device e d = .send p := hd.symm.trans h
        rw [target_display hp]
        exact hfocus
      · exact absurd h (hnone p)

theorem destination_of_mem {focus : Snapshot} {policy : Policy} {r : Request} {now : Int64} {e : Event}
    (h : e ∈ (plan focus policy r).events now) : r.destination focus = some e.display := by
  cases hp : plan focus policy r with
  | drop | refuse fault =>
    rw [hp] at h
    cases h
  | send p =>
    rw [hp] at h
    obtain ⟨d, -, rfl⟩ := List.mem_map.1 h
    rw [Draft.display_event]
    exact plan_display hp

theorem orders_target (device : Device) (e : RawEvent) (d : Display) (now : Int64) (display : Option Display) :
    (Request.event device e display).Orders ((target device e d).events now) := by
  cases e with
  | key k => cases device <;> exact Nat.le_refl 1
  | motion m =>
    cases device with
    | touchscreen | navigationTouchpad =>
      refine Or.inl ?_
      simp only [target, Decision.events, Plan.events, Motion.touches, List.map_map]
      rfl
    | mouse =>
      change (((mouseBody? m).toList.map _).map _).length ≤ 1
      rw [List.length_map, List.length_map]
      exact Option.length_toList_le
    | keyboard | dpad => exact Nat.zero_le 1

/-- what is sent for a request is in the order that belongs to it -/
theorem orders_plan (focus : Snapshot) (policy : Policy) (r : Request) (now : Int64) :
    r.Orders ((plan focus policy r).events now) := by
  cases r with
  | back d | home d => rfl
  | event device e display =>
    cases display with
    | some d => exact orders_target device e d now (some d)
    | none =>
      rcases targetFocused_or focus policy device e with ⟨d, -, hd⟩ | hnone
      · have hsame : plan focus policy (.event device e none) = target device e d := hd
        rw [hsame]
        exact orders_target device e d now none
      · have hempty : (plan focus policy (.event device e none)).events now = [] := by
          cases h : plan focus policy (.event device e none) with
          | send p => exact absurd h (hnone p)
          | drop | refuse fault => rfl
        rw [hempty]
        cases device <;> cases e <;> first | exact Or.inr ⟨rfl, rfl⟩ | exact Nat.zero_le 1

end Router

end InputRelay
