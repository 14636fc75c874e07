/-
Tables that name each of their entries once. In such a table looking a key up finds its one entry
(`Keyed.lookup_eq_some_iff`), wherever that stands. TOML lets no document give a key twice, in any of its tables
(`Value.Distinct`); that a parser holds to it is `Parser.KeysOnce`, all that is asked of one.
-/
import InputRelay.Toml.Value
import Mathlib

namespace InputRelay.Toml

variable {α β : Type} {P : α → Prop}

/-! ## Entries with distinct names -/

/-- each name stands there once, and what stands under it is as `P` says -/
structure Keyed (P : α → Prop) (es : List (String × α)) : Prop where
  names : (es.map Prod.fst).Nodup
  entries : ∀ e ∈ es, P e.2

namespace Keyed

theorem nil : Keyed P [] := ⟨List.nodup_nil, by simp⟩

theorem cons_iff {name : String} {a : α} {es : List (String × α)} :
    Keyed P ((name, a) :: es) ↔ name ∉ es.map Prod.fst ∧ P a ∧ Keyed P es := by
  constructor
  · rintro ⟨hnames, hentries⟩
    obtain ⟨hname, hrest⟩ := List.nodup_cons.1 hnames
    obtain ⟨ha, hes⟩ := List.forall_mem_cons.1 hentries
    exact ⟨hname, ha, hrest, hes⟩
  · rintro ⟨hname, ha, hrest, hes⟩
    exact ⟨List.nodup_cons.2 ⟨hname, hrest⟩, List.forall_mem_cons.2 ⟨ha, hes⟩⟩

variable {es : List (String × α)}

/-- looking a name up is finding its entry -/
theorem lookup_eq_some_iff (h : Keyed P es) {name : String} {a : α} : es.lookup name = some a ↔ (name, a) ∈ es := by
  induction es with
  | nil => simp
  | cons e rest ih =>
    obtain ⟨first, b⟩ := e
    obtain ⟨hfirst, -, hrest⟩ := cons_iff.1 h
    rw [List.lookup_cons]
    by_cases hname : name = first
    · subst hname
      have hnot : (name, a) ∉ rest := fun hmem => hfirst (List.mem_map_of_mem hmem)
      simp [hnot, eq_comm]
    · have hbeq : (name == first) = false := beq_false_of_ne hname
      simp [hbeq, hname, ih hrest]

theorem of_lookup (h : Keyed P es) {name : String} {a : α} (ha : es.lookup name = some a) : P a :=
  h.entries _ (h.lookup_eq_some_iff.1 ha)

theorem not_mem_names (h : Keyed P es) {name : String} (hnone : es.lookup name = none) : name ∉ es.map Prod.fst := by
  intro hmem
  obtain ⟨⟨_, a⟩, ha, rfl⟩ := List.mem_map.1 hmem
  rw [h.lookup_eq_some_iff.2 ha] at hnone
  cases hnone

/-- each entry can be replaced under its own name -/
theorem map (h : Keyed P es) {Q : β → Prop} {f : String × α → String × β} (hname : ∀ e, (f e).1 = e.1)
    (hf : ∀ e ∈ es, P e.2 → Q (f e).2) : Keyed Q (es.map f) where
  names := by
    have hnames : Prod.fst ∘ f = Prod.fst := funext hname
    rw [List.map_map, hnames]
    exact h.names
  entries := by
    intro _ hmem
    obtain ⟨e, he, rfl⟩ := List.mem_map.1 hmem
    exact hf e he (h.entries e he)

end Keyed

/-! ## Documents -/

/-- no table in a value gives a key twice -/
inductive Value.Distinct : Value → Prop where
  | string (s : String) : Distinct (.string s)
  | integer (n : Int) : Distinct (.integer n)
  | float (text : String) : Distinct (.float text)
  | boolean (b : Bool) : Distinct (.boolean b)
  | datetime (text : String) : Distinct (.datetime text)
  | array {vs : List Value} (items : ∀ v ∈ vs, Distinct v) : Distinct (.array vs)
  | table {es : Table} (names : (es.map Prod.fst).Nodup) (entries : ∀ e ∈ es, Distinct e.2) : Distinct (.table es)

theorem Value.distinct_table_iff {t : Table} : (Value.table t).Distinct ↔ Keyed Value.Distinct t := by
  constructor
  · rintro (_ | _ | _ | _ | _ | _ | ⟨names, entries⟩)
    exact ⟨names, entries⟩
  · rintro ⟨names, entries⟩
    exact .table names entries

/-- whatever document it reads, a parser gives no key twice -/
def Parser.KeysOnce (parse : Parser) : Prop := ∀ text t, parse text = some t → Keyed Value.Distinct t

end InputRelay.Toml
