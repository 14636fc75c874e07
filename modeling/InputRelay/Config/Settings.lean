/-
The settings of the program and how they are read from a TOML document. There are three sections, each with a default
for every field. A section is a table whose entries name its fields; it may also be an array, whose items are its fields
in order, or a date, which has none. Fields that a section lacks keep their defaults and entries that name no field do
not count, but a field with a value of the wrong type spoils the whole document.
-/
import InputRelay.Net.Address
import InputRelay.Policy
import InputRelay.Toml.Value

namespace InputRelay.Config

open Toml (Table Value)

/-- how the program itself behaves -/
structure Client where
  logLevel : String
deriving DecidableEq, Repr

/-- where the remote device listens -/
structure Network where
  host : String
  port : UInt16
deriving DecidableEq, Repr

/-- all settings -/
structure Settings where
  client : Client
  network : Network
  input : Policy
deriving DecidableEq, Repr

def Client.default : Client := ⟨"info"⟩

def Network.default : Network := ⟨"127.0.0.1", 24810⟩

def Settings.default : Settings := ⟨.default, .default, .closed⟩

/-- where to connect to; the host must be an address, for names are not looked up -/
def Network.endpoint? (n : Network) : Option Net.Endpoint :=
  (Net.Address.parse? n.host).map fun address => ⟨address, n.port⟩

/-! ## Reading -/

/-- how a section gives its fields, by place and name -/
abbrev Fields := Nat → String → Option Value

/-- the fields of a value that stands for a section -/
def fields? : Value → Option Fields
  | .table t => some fun _ name => t.lookup name
  | .array items => some fun place _ => items[place]?
  | .datetime _ => some fun _ _ => none
  | _ => none

def string? : Value → Option String
  | .string s => some s
  | _ => none

def boolean? : Value → Option Bool
  | .boolean b => some b
  | _ => none

def port? : Value → Option UInt16
  | .integer n => if 0 ≤ n ∧ n < 0x10000 then some (.ofNat n.toNat) else none
  | _ => none

/-- one field, or its default -/
def field {α : Type} (read : Value → Option α) (default : α) (fields : Fields) (place : Nat) (name : String) :
    Option α :=
  match fields place name with
  | none => some default
  | some v => read v

def Client.ofFields (fields : Fields) : Option Client := do
  return ⟨← field string? Client.default.logLevel fields 0 "log_level"⟩

def Network.ofFields (fields : Fields) : Option Network := do
  return ⟨← field string? Network.default.host fields 0 "host_address",
    ← field port? Network.default.port fields 1 "port"⟩

/-- which devices may send input to the focused display -/
def policyOfFields (fields : Fields) : Option Policy := do
  return ⟨← field boolean? Policy.closed.dpad fields 0 "dpad_enabled",
    ← field boolean? Policy.closed.navigationTouchpad fields 1 "nav_touchpad_enabled",
    ← field boolean? Policy.closed.keyboard fields 2 "external_keyboard_enabled",
    ← field boolean? Policy.closed.mouse fields 3 "external_mouse_enabled"⟩

/-- one section of a document, or its default -/
def sectionOf {α : Type} (read : Fields → Option α) (default : α) (t : Table) (name : String) : Option α :=
  match t.get? name with
  | none => some default
  | some v => (fields? v).bind read

/-- the settings that a document gives, unless a value in it is wrong -/
def Settings.ofTable? (t : Table) : Option Settings := do
  return ⟨← sectionOf Client.ofFields .default t "client", ← sectionOf Network.ofFields .default t "network",
    ← sectionOf policyOfFields .closed t "input"⟩

end InputRelay.Config
