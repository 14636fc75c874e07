/-
What the messages for an event on a known display say. Device, event and display settle them, and for a motion of the mouse
the time of sending too; no policy and no focus has a say (`Router.target` reads neither):
- of an action, a touch says the low byte (`MotionAction.toInt_and_mask`), so the bits above it change nothing;
- the mouse goes by the whole action: six of them say something (`Motion.Says`, `Router.mouseBody?_eq_some_iff`);
- only a touch takes the focus (`RawEvent.isTouch`), and only a motion of keyboard or d-pad is refused
  (`RawEvent.isMisplaced`).
-/
import InputRelay.Proofs.Routing

namespace InputRelay

open Wire (Body Event)

/-! ## Actions -/

namespace MotionAction

/-- the actions of a mouse that are sent on -/
def ofMouse : List Int32 := [buttonPress, buttonRelease, hoverEnter, hoverExit, hoverMove, scroll]

/-- the mask leaves the low byte -/
theorem toInt_and_mask (action : Int32) : (action &&& mask).toInt = action.toInt % 256 := by
  have hlow : (action &&& mask).toBitVec.toNat = action.toBitVec.toNat % 256 := by
    rw [Int32.toBitVec_and, BitVec.toNat_and]
    exact Nat.and_two_pow_sub_one_eq_mod _ 8
  have hbound := action.toBitVec.isLt
  have hwhole := BitVec.toInt_eq_toNat_cond action.toBitVec
  have hmasked := BitVec.toInt_eq_toNat_cond (action &&& mask).toBitVec
  rw [hlow] at hmasked
  change (action &&& mask).toBitVec.toInt = action.toBitVec.toInt % 256
  rw [hwhole, hmasked]
  split_ifs <;> omega

end MotionAction

namespace Motion

theorem maskedAction_toInt (m : Motion) : m.maskedAction.toInt = m.action.toInt % 256 :=
  MotionAction.toInt_and_mask m.action

/-- actions with the same low byte are the same once masked -/
theorem maskedAction_congr {m m' : Motion} (h : m'.action.toInt % 256 = m.action.toInt % 256) :
    m'.maskedAction = m.maskedAction := by
  apply Int32.toInt_inj.1
  rw [maskedAction_toInt, maskedAction_toInt, h]

/-- what a motion of the mouse says, by its whole action -/
inductive Says (m : Motion) : Body → Prop
  | button (h : m.action = MotionAction.buttonPress ∨ m.action = MotionAction.buttonRelease) :
      m.Says (.mouseButton m.action m.button)
  | hover (h : m.action = MotionAction.hoverEnter ∨ m.action = MotionAction.hoverExit ∨
      m.action = MotionAction.hoverMove) : m.Says (.mouseRelative m.x m.y)
  | wheel (h : m.action = MotionAction.scroll) : m.Says (.mouseScroll m.hscroll.clampUnit m.vscroll.clampUnit)

end Motion

/-! ## Kinds of events -/

namespace RawEvent

/-- a motion of a device that is touched -/
def isTouch (device : Device) : RawEvent → Bool
  | key _ => false
  | motion _ => device = .touchscreen || device = .navigationTouchpad

/-- a motion of the mouse -/
def isMouse (device : Device) : RawEvent → Bool
  | key _ => false
  | motion _ => device = .mouse

/-- a motion of a device that makes none -/
def isMisplaced (device : Device) : RawEvent → Bool
  | key _ => false
  | motion _ => device = .keyboard || device = .dpad

end RawEvent

/-! ## Decisions -/

namespace Router

theorem mouseBody?_eq_some_iff {m : Motion} {body : Body} : mouseBody? m = some body ↔ m.Says body := by
  unfold mouseBody?
  constructor
  · intro h
    split_ifs at h with hbutton hhover hwheel
    all_goals cases h
    · exact .button hbutton
    · exact .hover hhover
    · exact .wheel hwheel
  · intro h
    cases h with
    | button h => rw [if_pos h]
    | hover h =>
      have hbutton : ¬ (m.action = MotionAction.buttonPress ∨ m.action = MotionAction.buttonRelease) := by
        rcases h with h | h | h <;> rw [h] <;> decide
      rw [if_neg hbutton, if_pos h]
    | wheel h =>
      rw [h, if_neg (by decide), if_neg (by decide), if_pos rfl]
      rfl

/-- just six actions of the mouse say something -/
theorem mouseBody?_isSome_iff {m : Motion} : (mouseBody? m).isSome = true ↔ m.action ∈ MotionAction.ofMouse := by
  simp only [mouseBody?, MotionAction.ofMouse, List.mem_cons, List.not_mem_nil, or_false]
  split_ifs <;> simp only [Option.isSome_some, Option.isSome_none, true_iff, Bool.false_eq_true, false_iff] <;> tauto

/-- a motion of the mouse gives one message at most, and one for these six actions -/
theorem length_mouseEvents (m : Motion) (display : Display) (now : Int64) :
    ((target .mouse (.motion m) display).events now).length = if m.action ∈ MotionAction.ofMouse then 1 else 0 := by
  change (((mouseBody? m).toList.map _).map _).length = _
  rw [List.length_map, List.length_map, Option.length_toList]
  simp only [mouseBody?_isSome_iff]

/-- a message of the mouse says what its motion does, and when it is sent -/
theorem says_of_mem {m : Motion} {display : Display} {now : Int64} {message : Event}
    (h : message ∈ (target .mouse (.motion m) display).events now) :
    ∃ body, m.Says body ∧ message = .input ⟨display, .mouse, now, body⟩ := by
  obtain ⟨draft, hdraft, rfl⟩ := List.mem_map.1 h
  obtain ⟨body, hbody, rfl⟩ := List.mem_map.1 hdraft
  exact ⟨body, mouseBody?_eq_some_iff.1 (Option.mem_toList.1 hbody), rfl⟩

/-- a touch gives one message for each pointer -/
theorem events_of_isTouch {device : Device} {m : Motion} (h : RawEvent.isTouch device (.motion m) = true)
    (display : Display) (now : Int64) : (target device (.motion m) display).events now =
      m.pointers.map fun p => .input ⟨display, device, m.time, .touch p.id m.maskedAction p.x p.y p.pressure⟩ := by
  cases device with
  | touchscreen | navigationTouchpad => exact List.map_map
  | mouse | keyboard | dpad => cases h

/-- only messages of the mouse carry the time of sending -/
theorem events_of_not_isMouse {device : Device} {e : RawEvent} (h : e.isMouse device = false) (display : Display)
    (now now' : Int64) : (target device e display).events now = (target device e display).events now' := by
  cases e with
  | key k => rfl
  | motion m =>
    cases device with
    | touchscreen | navigationTouchpad => rw [events_of_isTouch rfl, events_of_isTouch rfl]
    | mouse => cases h
    | keyboard | dpad => rfl

/-- a decision to refuse, and the fault that it is for -/
def Decision.fault? : Decision → Option Fault
  | .refuse fault => some fault
  | _ => none

theorem fault?_target (device : Device) (e : RawEvent) (display : Display) :
    (target device e display).fault? = if e.isMisplaced device then some (.motionFrom device) else none := by
  cases e with
  | key k => rfl
  | motion m => cases device <;> rfl

end Router

end InputRelay
