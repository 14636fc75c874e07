/-
The parser gives no key twice. While a document is read a table gets a new entry only under a name that it does not have, and
an entry that is there is only put in place of itself; so at every depth the tables of a finished document name each of their
entries once (`keysOnce_parse?`).

The proof follows the parser. What a scan yields is told by `Scan.Yields`, which each way of combining scans keeps; with that
it goes up from one value over the lines to the document, and over the lines by induction.
-/
import InputRelay.Proofs.Toml.Keyed
import InputRelay.Proofs.Toml.Scan
import InputRelay.Toml.Document

namespace InputRelay.Toml

variable {α β : Type} {P : α → Prop} {Q : β → Prop}

/-! ## Tables being read -/

/-- so far no table under a name gives a key twice -/
inductive Node.Distinct : Node → Prop where
  | value {v : Value} (h : v.Distinct) : Distinct (.value v)
  | table {origin : Origin} {es : List (String × Node)} (names : (es.map Prod.fst).Nodup)
      (entries : ∀ e ∈ es, Distinct e.2) : Distinct (.table origin es)
  | tables {items : List (Origin × List (String × Node))} (names : ∀ i ∈ items, (i.2.map Prod.fst).Nodup)
      (entries : ∀ i ∈ items, ∀ e ∈ i.2, Distinct e.2) : Distinct (.tables items)

theorem Node.distinct_table_iff {origin : Origin} {es : List (String × Node)} :
    (Node.table origin es).Distinct ↔ Keyed Node.Distinct es := by
  constructor
  · rintro (_ | ⟨names, entries⟩ | _)
    exact ⟨names, entries⟩
  · rintro ⟨names, entries⟩
    exact .table names entries

theorem Node.distinct_tables_iff {items : List (Origin × List (String × Node))} :
    (Node.tables items).Distinct ↔ ∀ i ∈ items, Keyed Node.Distinct i.2 := by
  constructor
  · rintro (_ | _ | ⟨names, entries⟩) i hi
    exact ⟨names i hi, entries i hi⟩
  · intro h
    exact .tables (fun i hi => (h i hi).names) (fun i hi => (h i hi).entries)

/-! ## Changing a table -/

namespace Entries

/-- no key is given twice so far -/
abbrev Distinct (es : Entries) : Prop := Keyed Node.Distinct es

variable {es es' : Entries}

theorem Distinct.add (h : es.Distinct) {name : String} {node : Node} (hname : es.lookup name = none)
    (hnode : node.Distinct) : (es.add name node).Distinct where
  names := by
    have hnames : (es.add name node).map Prod.fst = (es.map Prod.fst).concat name := by simp [Entries.add]
    rw [hnames]
    exact h.names.concat (h.not_mem_names hname)
  entries := by
    intro e he
    rcases List.mem_append.1 he with he | he
    · exact h.entries e he
    · obtain rfl := List.mem_singleton.1 he
      exact hnode

theorem Distinct.replace (h : es.Distinct) (name : String) {node : Node} (hnode : node.Distinct) :
    (es.replace name node).Distinct := by
  refine h.map ?_ ?_
  · intro e
    split_ifs with he
    · exact he.symm
    · rfl
  · intro e _ hkept
    split_ifs
    · exact hnode
    · exact hkept

/-- one more table at the end of an array -/
theorem distinct_tables_append {items : List (Origin × Entries)} (h : ∀ i ∈ items, Distinct i.2) (origin : Origin)
    {inner : Entries} (hinner : inner.Distinct) : (Node.tables (items ++ [(origin, inner)])).Distinct := by
  refine Node.distinct_tables_iff.2 ?_
  intro i hi
  rcases List.mem_append.1 hi with hi | hi
  · exact h i hi
  · obtain rfl := List.mem_singleton.1 hi
    exact hinner

theorem Distinct.of_table (h : es.Distinct) {name : String} {origin : Origin} {inner : Entries}
    (hname : es.lookup name = some (.table origin inner)) : inner.Distinct :=
  Node.distinct_table_iff.1 (h.of_lookup hname)

theorem Distinct.of_tables (h : es.Distinct) {name : String} {items : List (Origin × Entries)}
    (hname : es.lookup name = some (.tables items)) : ∀ i ∈ items, Distinct i.2 :=
  Node.distinct_tables_iff.1 (h.of_lookup hname)

/-- one name of a path leads from a table to one inside it, and a change of that changes the first -/
inductive Through (es : Entries) (name : String) : Entries → Entries → Entries → Prop where
  | new (hname : es.lookup name = none) (origin : Origin) (inner : Entries) :
    Through es name [] inner (es.add name (.table origin inner))
  | table {origin : Origin} {before : Entries} (hname : es.lookup name = some (.table origin before)) (inner : Entries) :
    Through es name before inner (es.replace name (.table origin inner))
  | last {items : List (Origin × Entries)} (hname : es.lookup name = some (.tables items)) {origin : Origin}
      {before : Entries} (hlast : items.getLast? = some (origin, before)) (inner : Entries) :
    Through es name before inner (es.replace name (.tables (items.dropLast ++ [(origin, inner)])))

theorem Through.distinct {name : String} {before inner : Entries} (hthrough : Through es name before inner es')
    (h : es.Distinct) : before.Distinct ∧ (inner.Distinct → es'.Distinct) := by
  cases hthrough with
  | new hname origin inner => exact ⟨.nil, fun hinner => h.add hname (Node.distinct_table_iff.2 hinner)⟩
  | table hname inner =>
    exact ⟨h.of_table hname, fun hinner => h.replace name (Node.distinct_table_iff.2 hinner)⟩
  | @last items hname origin before hlast inner =>
    have hall := h.of_tables hname
    have hothers : ∀ i ∈ items.dropLast, Distinct i.2 := fun i hi => hall i (List.mem_of_mem_dropLast hi)
    refine ⟨hall _ (List.mem_of_getLast? hlast), ?_⟩
    intro hinner
    exact h.replace name (distinct_tables_append hothers origin hinner)

theorem through_of_insert {dotted : Bool} {name step : String} {v : Value} {path : List String} {origin : Origin}
    (hes : insert dotted name v (step :: path) origin es = some es') :
    ∃ origin' before inner, insert dotted name v path origin' before = some inner ∧ Through es step before inner es' := by
  unfold insert at hes
  split at hes
  · rename_i hnone
    obtain ⟨inner, hinner, rfl⟩ := Option.map_eq_some_iff.1 hes
    exact ⟨_, _, _, hinner, .new hnone _ _⟩
  · cases hes
  · cases hes
  · rename_i hstep
    obtain ⟨inner, hinner, rfl⟩ := Option.map_eq_some_iff.1 hes
    exact ⟨_, _, _, hinner, .table hstep _⟩
  · rename_i hstep
    split at hes
    · cases hes
    · rename_i hlast
      obtain ⟨inner, hinner, rfl⟩ := Option.map_eq_some_iff.1 hes
      exact ⟨_, _, _, hinner, .last hstep hlast _⟩

theorem through_of_changeAt {change : Origin → Entries → Option Entries} {step : String} {path : List String}
    {origin : Origin} (hes : changeAt change (step :: path) origin es = some es') :
    ∃ origin' before inner, changeAt change path origin' before = some inner ∧ Through es step before inner es' := by
  unfold changeAt at hes
  split at hes
  · rename_i hnone
    obtain ⟨inner, hinner, rfl⟩ := Option.map_eq_some_iff.1 hes
    exact ⟨_, _, _, hinner, .new hnone _ _⟩
  · cases hes
  · rename_i hstep
    obtain ⟨inner, hinner, rfl⟩ := Option.map_eq_some_iff.1 hes
    exact ⟨_, _, _, hinner, .table hstep _⟩
  · rename_i hstep
    split at hes
    · cases hes
    · rename_i hlast
      obtain ⟨inner, hinner, rfl⟩ := Option.map_eq_some_iff.1 hes
      exact ⟨_, _, _, hinner, .last hstep hlast _⟩

/-- a new value goes under a name that its table does not have -/
theorem Distinct.insert {dotted : Bool} {name : String} {v : Value} (hv : v.Distinct) {path : List String}
    {origin : Origin} (h : es.Distinct) (hes : Entries.insert dotted name v path origin es = some es') :
    es'.Distinct := by
  induction path generalizing origin es es' with
  | nil =>
    simp only [Entries.insert, Option.ite_none_right_eq_some, Option.some.injEq, Option.isNone_iff_eq_none] at hes
    obtain ⟨⟨-, hnone⟩, rfl⟩ := hes
    exact h.add hnone (.value hv)
  | cons step path ih =>
    obtain ⟨_, before, inner, hinner, hthrough⟩ := through_of_insert hes
    obtain ⟨hbefore, hafter⟩ := hthrough.distinct h
    exact hafter (ih hbefore hinner)

/-- a change at the end of a path keeps what it keeps of one table -/
theorem Distinct.changeAt {change : Origin → Entries → Option Entries}
    (hchange : ∀ {origin es es'}, Distinct es → change origin es = some es' → es'.Distinct) {path : List String}
    {origin : Origin} (h : es.Distinct) (hes : Entries.changeAt change path origin es = some es') : es'.Distinct := by
  induction path generalizing origin es es' with
  | nil => exact hchange h hes
  | cons step path ih =>
    obtain ⟨_, before, inner, hinner, hthrough⟩ := through_of_changeAt hes
    obtain ⟨hbefore, hafter⟩ := hthrough.distinct h
    exact hafter (ih hbefore hinner)

theorem Distinct.openTable (h : es.Distinct) {name : String} (hes : es.openTable name = some es') : es'.Distinct := by
  unfold Entries.openTable at hes
  split at hes
  · rename_i hnone
    cases hes
    exact h.add hnone (Node.distinct_table_iff.2 .nil)
  · rename_i hname
    cases hes
    exact h.replace name (Node.distinct_table_iff.2 (h.of_table hname))
  · cases hes

theorem Distinct.openItem (h : es.Distinct) {name : String} (hes : es.openItem name = some es') : es'.Distinct := by
  unfold Entries.openItem at hes
  split at hes
  · rename_i hnone
    cases hes
    have hnone' : ∀ i ∈ ([] : List (Origin × Entries)), Distinct i.2 := by simp
    exact h.add hnone (distinct_tables_append hnone' .header .nil)
  · rename_i hname
    cases hes
    exact h.replace name (distinct_tables_append (h.of_tables hname) .header .nil)
  · cases hes

theorem Distinct.insertKey (h : es.Distinct) {key : Key} {v : Value} (hv : v.Distinct)
    (hes : es.insertKey key v = some es') : es'.Distinct :=
  h.insert hv hes

end Entries

/-! ## Finished tables -/

theorem entriesToTable_eq_map (es : Entries) : entriesToTable es = es.map fun e => (e.1, e.2.toValue) := by
  induction es with
  | nil => simp [entriesToTable]
  | cons e rest ih => simp [entriesToTable, ih]

theorem itemsToValues_eq_map (items : List (Origin × Entries)) :
    itemsToValues items = items.map fun i => .table (entriesToTable i.2) := by
  induction items with
  | nil => simp [itemsToValues]
  | cons i rest ih => simp [itemsToValues, ih]

theorem keyed_entriesToTable {es : Entries} (h : Keyed (fun node => node.toValue.Distinct) es) :
    Keyed Value.Distinct (entriesToTable es) := by
  rw [entriesToTable_eq_map]
  exact h.map (fun _ => rfl) (fun _ _ hnode => hnode)

theorem Node.Distinct.toValue {node : Node} (h : node.Distinct) : node.toValue.Distinct := by
  induction h with
  | value h =>
    rw [Node.toValue]
    exact h
  | table names entries ih =>
    rw [Node.toValue]
    exact Value.distinct_table_iff.2 (keyed_entriesToTable ⟨names, ih⟩)
  | tables names entries ih =>
    rw [Node.toValue, itemsToValues_eq_map]
    refine .array ?_
    intro v hv
    obtain ⟨i, hi, rfl⟩ := List.mem_map.1 hv
    exact Value.distinct_table_iff.2 (keyed_entriesToTable ⟨names i hi, ih i hi⟩)

theorem Entries.Distinct.toTable {es : Entries} (h : es.Distinct) : Keyed Value.Distinct (entriesToTable es) :=
  keyed_entriesToTable ⟨h.names, fun e he => (h.entries e he).toValue⟩

/-! ## Reading values -/

/-- if each step of a run keeps a property, the run does -/
theorem keeps_foldlM {step : β → α → Option β} (hstep : ∀ b a b', Q b → P a → step b a = some b' → Q b')
    {as : List α} (has : ∀ a ∈ as, P a) {b b' : β} (hb : Q b) (hrun : as.foldlM step b = some b') : Q b' := by
  induction as generalizing b with
  | nil =>
    cases hrun
    exact hb
  | cons a rest ih =>
    obtain ⟨ha, hrest⟩ := List.forall_mem_cons.1 has
    rw [List.foldlM_cons] at hrun
    obtain ⟨next, hnext, hrun⟩ := Option.bind_eq_some_iff.1 hrun
    exact ih hrest (hstep b a next hb ha hnext) hrun

namespace Syntax

open Scan (Yields)

theorem yields_scalar : Yields scalar Value.Distinct := by
  unfold scalar
  refine .orElse ?_ (.orElse ?_ (.orElse ?_ (.orElse ?_ ?_)))
  · exact (Scan.yields_true _).map fun s _ => .string s
  · exact (Scan.yields_true _).map fun b _ => .boolean b
  · exact (Scan.yields_true _).map fun text _ => .datetime text
  · exact (Scan.yields_true _).map fun text _ => .float text
  · exact (Scan.yields_true _).map fun n _ => .integer n

variable {value : Scan Value}

theorem yields_pair (h : Yields value Value.Distinct) : Yields (pair value) fun p => p.2.Distinct := by
  refine .after fun k => .after fun _ => .after fun _ => h.bind ?_
  intro v hv
  exact .pure hv

theorem yields_array (h : Yields value Value.Distinct) : Yields (array value) Value.Distinct := by
  have hitem : Yields (amongGaps value) Value.Distinct := by
    refine .after fun _ => h.bind ?_
    intro v hv
    exact .after fun _ => .pure hv
  have hitems : Yields (do
      let items ← Scan.separated (amongGaps value) (Scan.char ',')
      let _ ← Scan.maybe (Scan.char ',')
      return items) fun items => ∀ v ∈ items, v.Distinct := by
    refine (hitem.separated _).bind ?_
    intro items hitems
    exact .after fun _ => .pure hitems
  refine .after fun _ => hitems.maybe.bind ?_
  intro items hitems
  refine .after fun _ => .after fun _ => .pure (.array ?_)
  cases items with
  | none => simp
  | some vs => exact hitems vs rfl

/-- an inline table is built key by key -/
theorem yields_inlineTable (h : Yields value Value.Distinct) : Yields (inlineTable value) Value.Distinct := by
  have hpair : Yields (pairAmongBlanks value) fun p => p.2.Distinct := by
    refine (yields_pair h).bind ?_
    intro p hp
    exact .after fun _ => .pure hp
  refine .after fun _ => (hpair.separated _).maybe.bind ?_
  intro pairs hpairs
  refine .after fun _ => .after fun _ => ?_
  have hall : ∀ p ∈ pairs.getD [], p.2.Distinct := by
    cases pairs with
    | none => simp
    | some ps => exact hpairs ps rfl
  split
  · rename_i es hes
    have hdistinct : Entries.Distinct es := keeps_foldlM (fun _ _ _ hes hv => hes.insertKey hv) hall .nil hes
    exact .pure (Value.distinct_table_iff.2 hdistinct.toTable)
  · exact Scan.yields_failure _

/-- by induction on the levels that there is room for -/
theorem yields_value (room : Nat) : Yields (Syntax.value room) Value.Distinct := by
  induction room with
  | zero => exact yields_scalar
  | succ room ih => exact (yields_array ih).orElse ((yields_inlineTable ih).orElse yields_scalar)

end Syntax

/-! ## Reading documents -/

/-- what a line gives a key to has no key twice -/
def Statement.Distinct : Statement → Prop
  | .pair _ v => v.Distinct
  | _ => True

namespace Syntax

open Scan (Yields)

theorem yields_statement : Yields statement Statement.Distinct := by
  refine .orElse ?_ (.orElse ?_ ?_)
  · exact .after fun _ => .after fun _ => .after fun _ => .after fun _ => .pure trivial
  · exact .after fun _ => .after fun _ => .after fun _ => .after fun _ => .pure trivial
  · refine (yields_pair (yields_value _)).bind ?_
    intro p hp
    exact .after fun _ => .pure hp

theorem yields_anyLine : Yields anyLine fun line => ∀ s ∈ line, s.Distinct := by
  have hline : Yields (some <$> statement <|> (do emptyLine; return none)) fun line => ∀ s ∈ line, s.Distinct := by
    refine .orElse (yields_statement.map ?_) (.after fun _ => .pure (by simp))
    intro s hs t ht
    cases ht
    exact hs
  refine hline.bind ?_
  intro line hline
  exact .after fun _ => .pure hline

theorem distinct_of_statements? {text : List Char} {statements : List Statement}
    (h : statements? text = some statements) : ∀ s ∈ statements, s.Distinct := by
  obtain ⟨lines, hlines, rfl⟩ := Option.map_eq_some_iff.1 h
  have hall := yields_anyLine.many.whole? hlines
  intro s hs
  obtain ⟨line, hline, hs⟩ := List.mem_filterMap.1 hs
  exact hall line hline s hs

end Syntax

/-- so far the document gives no key twice -/
def Building.Distinct (b : Building) : Prop := b.root.Distinct

/-- one line keeps the keys of a document distinct -/
theorem Building.Distinct.add {b b' : Building} {s : Statement} (h : b.Distinct) (hs : s.Distinct)
    (hb : b.add s = some b') : b'.Distinct := by
  cases s with
  | pair key v =>
    obtain ⟨root, hroot, rfl⟩ := Option.map_eq_some_iff.1 hb
    exact Entries.Distinct.changeAt (fun hes => hes.insertKey hs) h hroot
  | table key =>
    obtain ⟨root, hroot, rfl⟩ := Option.map_eq_some_iff.1 hb
    exact Entries.Distinct.changeAt (fun hes => hes.openTable) h hroot
  | item key =>
    obtain ⟨root, hroot, rfl⟩ := Option.map_eq_some_iff.1 hb
    exact Entries.Distinct.changeAt (fun hes => hes.openItem) h hroot

/-- **No key twice.** In the table of a document, and in every table inside it, each key stands once. -/
theorem keysOnce_parse? : Parser.KeysOnce parse? := by
  intro text t h
  unfold parse? at h
  obtain ⟨statements, hstatements, h⟩ := Option.bind_eq_some_iff.1 h
  obtain ⟨b, hb, h⟩ := Option.bind_eq_some_iff.1 h
  cases h
  have hempty : Building.empty.Distinct := .nil
  have hlines := Syntax.distinct_of_statements? hstatements
  have hdocument : b.Distinct := keeps_foldlM (fun _ _ _ h hs => h.add hs) hlines hempty hb
  exact Entries.Distinct.toTable hdocument

end InputRelay.Toml
