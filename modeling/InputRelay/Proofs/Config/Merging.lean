/-
Merging a document with the defaults, for any parser that gives no key twice. What counts of a document is what it says for
each item (`Says`): that is one value at most, and other entries and the order of all do not change it
(`Rearranged.says_iff`). Where each value is one that its item takes, the settings give for each item what the document says,
or else its default (`load_eq_ok_iff`); one value that is not spoils the whole document (`load_eq_error_iff`). Without one
key the document says the same for all other items (`says_without_iff`).
-/
import InputRelay.Config.Load
import InputRelay.Proofs.Config.Items
import InputRelay.Proofs.Toml.Keys

namespace InputRelay.Config

open Toml (Keyed Parser Table Value)

/-! ## What a document says -/

/-- a document has a value at the place of an item -/
def Says (t : Table) (i : Item) (v : Value) : Prop := ∃ es : Table, (i.table, .table es) ∈ t ∧ (i.key, v) ∈ es

variable {t t' : Table} {i j : Item} {v w : Value}

theorem not_says_nil : ¬ Says [] i v := by
  rintro ⟨_, hmem, _⟩
  cases hmem

theorem says_cons_iff {name : String} {x : Value} :
    Says ((name, x) :: t) i v ↔ (i.table = name ∧ ∃ es : Table, x = .table es ∧ (i.key, v) ∈ es) ∨ Says t i v := by
  unfold Says
  simp only [List.mem_cons, Prod.mk.injEq, or_and_right, exists_or]
  grind

theorem says_section_iff {name : String} {es : Table} :
    Says ((name, .table es) :: t) i v ↔ (i.table = name ∧ (i.key, v) ∈ es) ∨ Says t i v := by
  rw [says_cons_iff]
  simp

/-- with no key given twice, looking an item up finds what the document says -/
theorem found_eq_some_iff (h : Keyed Value.Distinct t) : found t i.table i.key = some v ↔ Says t i v := by
  have hinner : ∀ es, (i.table, .table es) ∈ t → Keyed Value.Distinct es :=
    fun es hes => Value.distinct_table_iff.1 (h.entries _ hes)
  unfold found
  constructor
  · intro hfound
    split at hfound
    · rename_i es hes
      have hmem := h.lookup_eq_some_iff.1 hes
      exact ⟨es, hmem, (hinner es hmem).lookup_eq_some_iff.1 hfound⟩
    · cases hfound
  · rintro ⟨es, hmem, hv⟩
    rw [h.lookup_eq_some_iff.2 hmem]
    exact (hinner es hmem).lookup_eq_some_iff.2 hv

theorem found_eq_none_iff (h : Keyed Value.Distinct t) : found t i.table i.key = none ↔ ∀ v, ¬ Says t i v := by
  simp only [Option.eq_none_iff_forall_ne_some, ne_eq, found_eq_some_iff h]

theorem Says.unique (h : Keyed Value.Distinct t) (hv : Says t i v) (hw : Says t i w) : w = v := by
  have hfound := (found_eq_some_iff h).2 hv
  rw [(found_eq_some_iff h).2 hw] at hfound
  exact Option.some.inj hfound

/-- settings that give for each item what a document says, and the default where it says nothing -/
structure Merged (t : Table) (s : Settings) : Prop where
  given : ∀ i v, Says t i v → s.spelled i = v
  absent : ∀ i, (∀ v, ¬ Says t i v) → s.spelled i = Settings.default.spelled i

theorem merged_iff (h : Keyed Value.Distinct t) {s : Settings} :
    Merged t s ↔ ∀ i : Item, s.spelled i = (found t i.table i.key).getD (Settings.default.spelled i) := by
  constructor
  · intro hmerged i
    cases hfound : found t i.table i.key with
    | none => exact hmerged.absent i ((found_eq_none_iff h).1 hfound)
    | some v => exact hmerged.given i v ((found_eq_some_iff h).1 hfound)
  · intro hitems
    constructor
    · intro i v hv
      rw [hitems i, (found_eq_some_iff h).2 hv]
      rfl
    · intro i hnone
      rw [hitems i, (found_eq_none_iff h).2 hnone]
      rfl

/-- there are such settings just where each item takes what the document says -/
theorem exists_merged_iff (h : Keyed Value.Distinct t) : (∃ s, Merged t s) ↔ ∀ i v, Says t i v → i.Takes v := by
  constructor
  · rintro ⟨s, hmerged⟩ i v hv
    rw [← hmerged.given i v hv]
    exact s.takes_spelled i
  · intro htakes
    have hall : ∀ i : Item, i.Takes ((found t i.table i.key).getD (Settings.default.spelled i)) := by
      intro i
      cases hfound : found t i.table i.key with
      | none => exact Settings.default.takes_spelled i
      | some v => exact htakes i v ((found_eq_some_iff h).1 hfound)
    obtain ⟨s, hs⟩ := Settings.exists_spelled hall
    exact ⟨s, (merged_iff h).2 hs⟩

/-! ## Loading -/

/-- a document that a parser reads, whose sections are tables -/
structure Document (parse : Parser) where
  text : String
  table : Table
  parses : parse text = some table
  sections : ∀ (i : Item) v, (i.table, v) ∈ table → ∃ es, v = .table es

variable {parse : Parser}

namespace Document

/-- the file of a document, in UTF-8 -/
def file (doc : Document parse) : File := .content doc.text.toUTF8

theorem keyed (hkeys : parse.KeysOnce) (doc : Document parse) : Keyed Value.Distinct doc.table := hkeys _ _ doc.parses

theorem ofTable?_eq_some_iff (hkeys : parse.KeysOnce) (doc : Document parse) {s : Settings} :
    Settings.ofTable? doc.table = some s ↔ Merged doc.table s := by
  have hkeyed := doc.keyed hkeys
  rw [merged_iff hkeyed]
  refine Settings.ofTable?_eq_some_iff ?_
  intro i v hv
  exact doc.sections i v (hkeyed.lookup_eq_some_iff.1 hv)

end Document

theorem fromUTF8?_toUTF8 (text : String) : String.fromUTF8? text.toUTF8 = some text := by
  unfold String.fromUTF8?
  simp only [Option.dite_none_right_eq_some, Option.some.injEq]
  exact ⟨text.isValidUTF8, rfl⟩

theorem load_file (path : String) (doc : Document parse) :
    load parse path doc.file = (Settings.ofTable? doc.table).elim (.error .malformed) .ok := by
  unfold Document.file load
  simp only [fromUTF8?_toUTF8, ofText, doc.parses, Option.bind_some]
  cases Settings.ofTable? doc.table <;> rfl

section Loading

variable (hkeys : parse.KeysOnce) (path : String)

include hkeys

theorem load_eq_ok_iff (doc : Document parse) {s : Settings} :
    load parse path doc.file = .ok s ↔ Merged doc.table s := by
  rw [load_file, ← doc.ofTable?_eq_some_iff hkeys]
  cases Settings.ofTable? doc.table <;> simp

theorem load_eq_error_iff (doc : Document parse) {e : ConfigError} :
    load parse path doc.file = .error e ↔ e = .malformed ∧ ∃ i v, Says doc.table i v ∧ ¬ i.Takes v := by
  have hspoilt : (∃ i v, Says doc.table i v ∧ ¬ i.Takes v) ↔ Settings.ofTable? doc.table = none := by
    have hmerged := exists_merged_iff (doc.keyed hkeys)
    simp only [← doc.ofTable?_eq_some_iff hkeys] at hmerged
    rw [Option.eq_none_iff_forall_ne_some, ← not_exists, hmerged]
    simp
  rw [load_file, hspoilt]
  cases Settings.ofTable? doc.table <;> simp [eq_comm]

variable {doc doc' : Document parse}

/-- a document loads as a change of what another loads as, if it is merged so and the other's faults are among its own -/
theorem load_map {change : Settings → Settings} (hmerged : ∀ s, Merged doc.table s → Merged doc'.table (change s))
    (hfault : ∀ i v, Says doc.table i v → ¬ i.Takes v → Says doc'.table i v) :
    load parse path doc'.file = (load parse path doc.file).map change := by
  cases hload : load parse path doc.file with
  | ok s => exact (load_eq_ok_iff hkeys path doc').2 (hmerged s ((load_eq_ok_iff hkeys path doc).1 hload))
  | error e =>
    obtain ⟨he, i, v, hv, hnot⟩ := (load_eq_error_iff hkeys path doc).1 hload
    exact (load_eq_error_iff hkeys path doc').2 ⟨he, i, v, hfault i v hv hnot, hnot⟩

/-- documents that say the same load alike -/
theorem load_congr (h : ∀ i v, Says doc'.table i v ↔ Says doc.table i v) :
    load parse path doc'.file = load parse path doc.file := by
  have hsame : load parse path doc'.file = (load parse path doc.file).map id := by
    refine load_map hkeys path ?_ ?_
    · intro s hmerged
      exact ⟨fun i v hv => hmerged.given i v ((h i v).1 hv),
        fun i hnone => hmerged.absent i fun v hv => hnone v ((h i v).2 hv)⟩
    · intro i v hv _
      exact (h i v).2 hv
  rw [hsame, Except.map_id]
  rfl

end Loading

/-! ## Order and stray entries -/

/-- documents that differ in the order of their entries and in entries that nothing reads -/
inductive Rearranged : Table → Table → Prop where
  | order {t t' : Table} (h : t.Perm t') : Rearranged t t'
  | stray {name : String} (h : ∀ i : Item, i.table ≠ name) (v : Value) (t : Table) : Rearranged ((name, v) :: t) t
  | empty (name : String) (t : Table) : Rearranged ((name, .table []) :: t) t
  | orderWithin (name : String) {es es' : Table} (h : es.Perm es') (t : Table) :
    Rearranged ((name, .table es) :: t) ((name, .table es') :: t)
  | strayWithin {name key : String} (h : ∀ i : Item, i.table = name → i.key ≠ key) (v : Value) (es t : Table) :
    Rearranged ((name, .table ((key, v) :: es)) :: t) ((name, .table es) :: t)
  | symm {t t' : Table} (h : Rearranged t t') : Rearranged t' t
  | trans {t t' t'' : Table} (h : Rearranged t t') (h' : Rearranged t' t'') : Rearranged t t''

theorem Rearranged.says_iff (h : Rearranged t t') : Says t i v ↔ Says t' i v := by
  induction h with
  | order h =>
    unfold Says
    simp only [h.mem_iff]
  | stray h x t =>
    rw [says_cons_iff]
    simp [h i]
  | empty name t =>
    rw [says_section_iff]
    simp
  | orderWithin name h t =>
    rw [says_section_iff, says_section_iff, h.mem_iff]
  | @strayWithin name key h x es t =>
    have hkey : i.table = name → (i.key, v) ≠ (key, x) := fun hname heq => h i hname (congrArg Prod.fst heq)
    rw [says_section_iff, says_section_iff, List.mem_cons]
    grind
  | symm _ ih => exact ih.symm
  | trans _ _ ih ih' => exact ih.trans ih'

/-! ## Without a key -/

/-- a value without a key, if it is a table -/
def dropKey (key : String) : Value → Value
  | .table es => .table (es.filter fun e => e.1 ≠ key)
  | v => v

theorem mem_dropKey_iff {key k : String} {x : Value} :
    (∃ es : Table, dropKey key x = .table es ∧ (k, v) ∈ es) ↔ k ≠ key ∧ ∃ es : Table, x = .table es ∧ (k, v) ∈ es := by
  cases x <;> simp [dropKey, and_comm]

/-- a document without the key of an item -/
def without (i : Item) (t : Table) : Table :=
  t.map fun e => (e.1, if e.1 = i.table then dropKey i.key e.2 else e.2)

/-- it says nothing for that item, and what it said for all others -/
theorem says_without_iff : Says (without i t) j v ↔ j ≠ i ∧ Says t j v := by
  induction t with
  | nil => simp [without, not_says_nil]
  | cons e rest ih =>
    obtain ⟨name, x⟩ := e
    have hhead : (j.table = name ∧ ∃ es : Table, (if name = i.table then dropKey i.key x else x) = .table es ∧
        (j.key, v) ∈ es) ↔ j ≠ i ∧ j.table = name ∧ ∃ es : Table, x = .table es ∧ (j.key, v) ∈ es := by
      split_ifs with hname
      · subst hname
        rw [mem_dropKey_iff]
        constructor
        · rintro ⟨htable, hkey, hmem⟩
          exact ⟨fun h => hkey (congrArg Item.key h), htable, hmem⟩
        · rintro ⟨hne, htable, hmem⟩
          exact ⟨htable, fun hkey => hne (Item.ext htable hkey), hmem⟩
      · constructor
        · rintro ⟨rfl, hmem⟩
          exact ⟨fun h => hname (congrArg Item.table h), rfl, hmem⟩
        · rintro ⟨-, h⟩
          exact h
    have hcons : without i ((name, x) :: rest) =
        (name, if name = i.table then dropKey i.key x else x) :: without i rest := rfl
    rw [hcons, says_cons_iff, says_cons_iff, hhead, ih, and_or_left]

/-- settings with the default for one item -/
def Item.reset (i : Item) (s : Settings) : Settings :=
  match i with
  | .logLevel => { s with client.logLevel := Settings.default.client.logLevel }
  | .host => { s with network.host := Settings.default.network.host }
  | .port => { s with network.port := Settings.default.network.port }
  | .dpad => { s with input.dpad := Settings.default.input.dpad }
  | .navigationTouchpad => { s with input.navigationTouchpad := Settings.default.input.navigationTouchpad }
  | .keyboard => { s with input.keyboard := Settings.default.input.keyboard }
  | .mouse => { s with input.mouse := Settings.default.input.mouse }

theorem Item.spelled_reset (s : Settings) (i j : Item) :
    (i.reset s).spelled j = if j = i then Settings.default.spelled j else s.spelled j := by
  cases i <;> cases j <;> rfl

/-- without a key that had a value for it, an item falls back to its default, and nothing else changes -/
theorem load_without (hkeys : parse.KeysOnce) (path : String) {doc doc' : Document parse} (hv : Says doc.table i v)
    (htakes : i.Takes v) (h : ∀ j w, Says doc'.table j w ↔ j ≠ i ∧ Says doc.table j w) :
    load parse path doc'.file = (load parse path doc.file).map fun s => i.reset s := by
  refine load_map hkeys path ?_ ?_
  · intro s hmerged
    constructor
    · intro j w hw
      obtain ⟨hne, hw⟩ := (h j w).1 hw
      rw [Item.spelled_reset, if_neg hne]
      exact hmerged.given j w hw
    · intro j hnone
      rw [Item.spelled_reset]
      split_ifs with heq
      · rfl
      · exact hmerged.absent j fun w hw => hnone w ((h j w).2 ⟨heq, hw⟩)
  · intro j w hw hnot
    -- the value that spoils the document is not the one that goes
    have hne : j ≠ i := by
      rintro rfl
      rw [hv.unique (doc.keyed hkeys) hw] at hnot
      exact hnot htakes
    exact (h j w).2 ⟨hne, hw⟩

/-! ## Some documents -/

theorem table_ne_port (i : Item) : i.table ≠ "port" := by
  cases i <;> simp [Item.table]

/-- a port of the network, and another that nothing reads -/
def Document.twoPorts : Document Toml.parse? where
  text := "port = 2\n[network]\nport = 1\n"
  table := [("port", .integer 2), ("network", .table [("port", .integer 1)])]
  parses := by cbv
  sections := by simp [table_ne_port]

/-- a port of the network -/
def Document.onePort : Document Toml.parse? where
  text := "network.port = 1"
  table := [("network", .table [("port", .integer 1)])]
  parses := by cbv
  sections := by simp

/-- a document without text -/
def Document.blank : Document Toml.parse? where
  text := ""
  table := []
  parses := by cbv
  sections := by simp

/-- a port that is one too high -/
def Document.highPort : Document Toml.parse? where
  text := "network.port = 65536"
  table := [("network", .table [("port", .integer 65536)])]
  parses := by cbv
  sections := by simp

/-! ## Main result -/

/-- **Merging with the defaults.** Take any parser that gives no key twice, and any document that it reads, whose sections are
tables.
- It loads as settings just where they give for each of the seven items, each by itself, the value that the document has at
  the item's table and key, and the item's default among the default settings where the document has none there.
- It fails just where a value at the place of an item is not one that the item takes, and then as malformed.
- A document that differs from it in the order of entries, or in entries that nothing reads, loads the same.
- Without the key of an item, where that had a value that the item takes, it loads with the default for that item and the
  same for all others, and fails where it failed before.
- A file that is not there loads like a document without entries: both give the default settings. -/
theorem load_merged (parse : Parser) (hkeys : parse.KeysOnce) (path : String) (doc : Document parse) :
    (∀ s, load parse path doc.file = .ok s ↔ Merged doc.table s) ∧
    (∀ e, load parse path doc.file = .error e ↔ e = .malformed ∧ ∃ i v, Says doc.table i v ∧ ¬ i.Takes v) ∧
    (∀ doc' : Document parse, Rearranged doc.table doc'.table →
      load parse path doc'.file = load parse path doc.file) ∧
    (∀ (i : Item) (v : Value) (doc' : Document parse), Says doc.table i v → i.Takes v →
      Rearranged (without i doc.table) doc'.table →
      load parse path doc'.file = (load parse path doc.file).map fun s => i.reset s) ∧
    (∀ blank : Document parse, blank.table = [] → load parse path .missing = load parse path blank.file) ∧
    load parse path .missing = .ok .default := by
  refine ⟨fun s => load_eq_ok_iff hkeys path doc, fun e => load_eq_error_iff hkeys path doc, ?_, ?_, ?_, rfl⟩
  · intro doc' h
    exact load_congr hkeys path fun i v => h.says_iff.symm
  · intro i v doc' hv htakes h
    refine load_without hkeys path hv htakes ?_
    intro j w
    rw [← h.says_iff, says_without_iff]
  · intro blank hblank
    have hdefault : Merged blank.table .default := by
      rw [hblank]
      exact ⟨fun i v hv => absurd hv not_says_nil, fun _ _ => rfl⟩
    exact ((load_eq_ok_iff hkeys path blank).2 hdefault).symm

/-- without the port that nothing reads a document loads the same, without both as if it were not there; a high port spoils
it -/
theorem load_merged_port :
    let loaded text := load Toml.parse? "config.toml" (.content (String.toUTF8 text))
    let s : Settings := ⟨.default, ⟨"127.0.0.1", 1⟩, .closed⟩
    Parser.KeysOnce Toml.parse? ∧ loaded "port = 2\n[network]\nport = 1\n" = .ok s ∧ loaded "network.port = 1" = .ok s ∧
    loaded "" = .ok (Item.port.reset s) ∧ load Toml.parse? "config.toml" .missing = loaded "" ∧
    loaded "network.port = 65536" = .error .malformed := by
  intro loaded s
  have hkeys := Toml.keysOnce_parse?
  have hport : Says Document.twoPorts.table .port (.integer 1) :=
    ⟨_, List.mem_cons_of_mem _ List.mem_cons_self, List.mem_cons_self⟩
  have hhigh : Says Document.highPort.table .port (.integer 65536) := ⟨_, List.mem_cons_self, List.mem_cons_self⟩
  have hbounds : ¬ Item.port.Takes (.integer 65536) := by
    rintro ⟨n, -, hn, heq⟩
    cases heq
    omega
  obtain ⟨hok, -, hrearranged, hwithout, hblank, -⟩ := load_merged Toml.parse? hkeys "config.toml" .twoPorts
  have hload : load Toml.parse? "config.toml" Document.twoPorts.file = .ok s := by
    refine (hok s).2 ((merged_iff (Document.twoPorts.keyed hkeys)).2 ?_)
    intro i
    cases i <;> rfl
  have hstray : Rearranged Document.twoPorts.table Document.onePort.table := .stray table_ne_port _ _
  have hshort : Rearranged (without .port Document.twoPorts.table) Document.blank.table :=
    .trans (.stray table_ne_port _ _) (.empty _ _)
  refine ⟨hkeys, hload, (hrearranged .onePort hstray).trans hload, ?_, hblank .blank rfl, ?_⟩
  · have hreset := hwithout .port (.integer 1) .blank hport ⟨1, by simp⟩ hshort
    rw [hload] at hreset
    exact hreset
  · obtain ⟨-, herror, -⟩ := load_merged Toml.parse? hkeys "config.toml" .highPort
    exact (herror _).2 ⟨rfl, .port, _, hhigh, hbounds⟩

end InputRelay.Config
