/-
The settings item by item. There are seven items, each with a table and a key of its own (`Item.ext`), and settings give a
value for each (`Settings.spelled`). A default can come in three ways: with its field, with its section, or with the settings
as a whole. All three agree, so a section that is not there reads like one without entries (`sectionOf_eq`), and what is read
for each item is the value that stands at its place or else the default, the other items left aside
(`Settings.ofTable?_eq_some_iff`).
-/
import InputRelay.Config.Settings
import Mathlib

namespace InputRelay.Config

open Toml (Table Value)

/-! ## Items -/

/-- one value among the settings -/
inductive Item where
  | logLevel
  | host
  | port
  | dpad
  | navigationTouchpad
  | keyboard
  | mouse
deriving DecidableEq, Repr

namespace Item

/-- the table that an item stands in -/
def table : Item → String
  | logLevel => "client"
  | host | port => "network"
  | dpad | navigationTouchpad | keyboard | mouse => "input"

/-- the key that an item stands under -/
def key : Item → String
  | logLevel => "log_level"
  | host => "host_address"
  | port => "port"
  | dpad => "dpad_enabled"
  | navigationTouchpad => "nav_touchpad_enabled"
  | keyboard => "external_keyboard_enabled"
  | mouse => "external_mouse_enabled"

theorem ext {i j : Item} (htable : i.table = j.table) (hkey : i.key = j.key) : i = j := by
  cases i <;> cases j <;> first | rfl | simp [key] at hkey

/-- whether an item takes a value: its type, and for the port its bounds -/
def Takes : Item → Value → Prop
  | logLevel, v | host, v => ∃ s, v = .string s
  | port, v => ∃ n : Int, 0 ≤ n ∧ n ≤ 65535 ∧ v = .integer n
  | dpad, v | navigationTouchpad, v | keyboard, v | mouse, v => ∃ b, v = .boolean b

end Item

/-- what settings give for an item, as a document would -/
def Settings.spelled (s : Settings) : Item → Value
  | .logLevel => .string s.client.logLevel
  | .host => .string s.network.host
  | .port => .integer s.network.port.toNat
  | .dpad => .boolean s.input.dpad
  | .navigationTouchpad => .boolean s.input.navigationTouchpad
  | .keyboard => .boolean s.input.keyboard
  | .mouse => .boolean s.input.mouse

theorem Settings.takes_spelled (s : Settings) (i : Item) : i.Takes (s.spelled i) := by
  cases i with
  | port =>
    have hlt := s.network.port.toNat_lt
    exact ⟨s.network.port.toNat, by omega, by omega, rfl⟩
  | _ => exact ⟨_, rfl⟩

theorem toNat_ofNat_port {n : Int} (hlow : 0 ≤ n) (hhigh : n ≤ 65535) : ((UInt16.ofNat n.toNat).toNat : Int) = n := by
  have hlt : n.toNat < UInt16.size := by
    simp only [UInt16.size]
    omega
  rw [UInt16.toNat_ofNat_of_lt' hlt]
  omega

/-- values that the items take make settings -/
theorem Settings.exists_spelled {w : Item → Value} (h : ∀ i : Item, i.Takes (w i)) :
    ∃ s : Settings, ∀ i, s.spelled i = w i := by
  obtain ⟨logLevel, hlogLevel⟩ := h .logLevel
  obtain ⟨host, hhost⟩ := h .host
  obtain ⟨port, hlow, hhigh, hport⟩ := h .port
  obtain ⟨dpad, hdpad⟩ := h .dpad
  obtain ⟨touchpad, htouchpad⟩ := h .navigationTouchpad
  obtain ⟨keyboard, hkeyboard⟩ := h .keyboard
  obtain ⟨mouse, hmouse⟩ := h .mouse
  refine ⟨⟨⟨logLevel⟩, ⟨host, .ofNat port.toNat⟩, ⟨dpad, touchpad, keyboard, mouse⟩⟩, ?_⟩
  intro i
  cases i with
  | port => exact (congrArg Value.integer (toNat_ofNat_port hlow hhigh)).trans hport.symm
  | _ => simp_all [Settings.spelled]

/-! ## Reading an item -/

theorem string?_eq_some_iff {v : Value} {a : String} : string? v = some a ↔ .string a = v := by
  cases v <;> simp [string?, eq_comm]

theorem boolean?_eq_some_iff {v : Value} {a : Bool} : boolean? v = some a ↔ .boolean a = v := by
  cases v <;> simp [boolean?, eq_comm]

theorem port?_eq_some_iff {v : Value} {a : UInt16} : port? v = some a ↔ .integer a.toNat = v := by
  have hlt := a.toNat_lt
  cases v with
  | integer n =>
    simp only [port?, Option.ite_none_right_eq_some, Option.some.injEq, Value.integer.injEq]
    constructor
    · rintro ⟨⟨hlow, hhigh⟩, rfl⟩
      exact toNat_ofNat_port hlow (by omega)
    · rintro rfl
      exact ⟨⟨by omega, by omega⟩, by simp⟩
  | _ => simp [port?]

/-- a field is the value at its place, or else its default -/
theorem field_eq_some_iff {α : Type} {read : Value → Option α} {spell : α → Value}
    (hread : ∀ {v a}, read v = some a ↔ spell a = v) {default a : α} {fields : Fields} {place : Nat} {name : String} :
    field read default fields place name = some a ↔ spell a = (fields place name).getD (spell default) := by
  have hdefault : default = a ↔ spell a = spell default := by
    rw [← hread, hread.2 rfl, Option.some.injEq]
  unfold field
  cases fields place name with
  | none => simp [hdefault]
  | some v => simp [hread]

theorem Client.ofFields_eq_some_iff {fields : Fields} {c : Client} :
    Client.ofFields fields = some c ↔
      field string? Client.default.logLevel fields 0 "log_level" = some c.logLevel := by
  obtain ⟨logLevel⟩ := c
  simp [Client.ofFields, Option.bind_eq_some_iff]

theorem Network.ofFields_eq_some_iff {fields : Fields} {n : Network} :
    Network.ofFields fields = some n ↔
      field string? Network.default.host fields 0 "host_address" = some n.host ∧
      field port? Network.default.port fields 1 "port" = some n.port := by
  obtain ⟨host, port⟩ := n
  simp [Network.ofFields, Option.bind_eq_some_iff]

theorem policyOfFields_eq_some_iff {fields : Fields} {p : Policy} :
    policyOfFields fields = some p ↔
      field boolean? Policy.closed.dpad fields 0 "dpad_enabled" = some p.dpad ∧
      field boolean? Policy.closed.navigationTouchpad fields 1 "nav_touchpad_enabled" = some p.navigationTouchpad ∧
      field boolean? Policy.closed.keyboard fields 2 "external_keyboard_enabled" = some p.keyboard ∧
      field boolean? Policy.closed.mouse fields 3 "external_mouse_enabled" = some p.mouse := by
  obtain ⟨dpad, touchpad, keyboard, mouse⟩ := p
  -- what is read stays a variable here, without a case for each of its two values
  simp [policyOfFields, Option.bind_eq_some_iff, -Bool.exists_bool]

/-! ## Reading a table -/

/-- what stands under a key in a table inside a table -/
def found (t : Table) (name key : String) : Option Value :=
  match t.lookup name with
  | some (.table es) => es.lookup key
  | _ => none

/-- the defaults of the fields make the default of their section, so a section that is not there is an empty one -/
theorem sectionOf_eq {α : Type} {read : Fields → Option α} {default : α} {t : Table} {name : String}
    (hdefault : read (fun _ _ => none) = some default) (htable : ∀ v, t.lookup name = some v → ∃ es, v = .table es) :
    sectionOf read default t name = read fun _ key => found t name key := by
  unfold sectionOf found Toml.Table.get?
  cases hname : t.lookup name with
  | none => exact hdefault.symm
  | some v =>
    obtain ⟨es, rfl⟩ := htable v hname
    rfl

/-- each item is what the document has at its place, or else its default among the default settings -/
theorem Settings.ofTable?_eq_some_iff {t : Table}
    (htables : ∀ (i : Item) v, t.lookup i.table = some v → ∃ es, v = .table es) {s : Settings} :
    Settings.ofTable? t = some s ↔ ∀ i : Item, s.spelled i = (found t i.table i.key).getD (Settings.default.spelled i) := by
  have hclient : sectionOf Client.ofFields .default t "client" = Client.ofFields fun _ key => found t "client" key :=
    sectionOf_eq rfl (htables .logLevel)
  have hnetwork : sectionOf Network.ofFields .default t "network" = Network.ofFields fun _ key => found t "network" key :=
    sectionOf_eq rfl (htables .host)
  have hinput : sectionOf policyOfFields .closed t "input" = policyOfFields fun _ key => found t "input" key :=
    sectionOf_eq rfl (htables .dpad)
  have hsections : Settings.ofTable? t = some s ↔
      (Client.ofFields fun _ key => found t "client" key) = some s.client ∧
      (Network.ofFields fun _ key => found t "network" key) = some s.network ∧
      (policyOfFields fun _ key => found t "input" key) = some s.input := by
    unfold Settings.ofTable?
    rw [hclient, hnetwork, hinput]
    obtain ⟨c, n, p⟩ := s
    simp [Option.bind_eq_some_iff]
  rw [hsections, Client.ofFields_eq_some_iff, Network.ofFields_eq_some_iff, policyOfFields_eq_some_iff]
  simp only [field_eq_some_iff string?_eq_some_iff, field_eq_some_iff port?_eq_some_iff,
    field_eq_some_iff boolean?_eq_some_iff]
  constructor
  · rintro ⟨hlogLevel, ⟨hhost, hport⟩, hdpad, htouchpad, hkeyboard, hmouse⟩ i
    cases i <;> assumption
  · intro h
    exact ⟨h .logLevel, ⟨h .host, h .port⟩, h .dpad, h .navigationTouchpad, h .keyboard, h .mouse⟩

end InputRelay.Config
