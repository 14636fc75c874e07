/-
Reading any bytes as a stream. A reader stands at an offset, reads the header there and then the frame, and goes on behind
the bytes that the frame takes. `Walk b start items stop` says that it can come from one offset to another this way, with
the frames `items`. Every step takes at least twenty bytes, so a walk is short (`Walk.length_le`), and as each step is
settled by the bytes, all walks from one offset are the beginning of one reading (`Walk.isPrefix`). That reading itself is a
walk, to the end of the bytes or to the first offset with no frame (`readFrom_walk`). More bytes behind those that are read
to their end are read as on their own, only further back (`readFrom_append`, `readFrom_shift`).
-/
import InputRelay.Proofs.Wire.Extension
import InputRelay.Proofs.Wire.Frames

namespace InputRelay.Wire.Stream

/-! ## One step -/

theorem next_eq_ok_iff {bs : List UInt8} {number : UInt64} {e : Event} {size : Nat} :
    next bs = .ok (number, e, size) ↔
      ∃ header, decodeHeader bs = .ok header ∧ header.number = number ∧ decode bs = .ok (e, size) := by
  constructor
  · intro h
    obtain ⟨header, hheader, h⟩ := ok_of_bind h
    obtain ⟨⟨e', size'⟩, hdecode, h⟩ := ok_of_bind h
    cases h
    exact ⟨header, hheader, rfl, hdecode⟩
  · rintro ⟨header, hheader, rfl, hdecode⟩
    simp only [next, hheader, hdecode, bind, Except.bind, pure, Except.pure]

/-- a step fails just where decoding fails -/
theorem next_eq_error_iff {bs : List UInt8} {err : FrameError} : next bs = .error err ↔ decode bs = .error err := by
  cases hheader : decodeHeader bs with
  | error err' =>
    simp [next, hheader, decode_of_decodeHeader hheader, bind, Except.bind]
  | ok header =>
    cases hdecode : decode bs with
    | error err' => simp [next, hheader, hdecode, bind, Except.bind]
    | ok read => simp [next, hheader, hdecode, bind, Except.bind, pure, Except.pure]

/-- a step does not look behind the frame that it reads -/
theorem next_append {bs : List UInt8} {number : UInt64} {e : Event} {size : Nat} (h : next bs = .ok (number, e, size))
    (t : List UInt8) : next (bs ++ t) = .ok (number, e, size) := by
  obtain ⟨header, hheader, hnumber, hdecode⟩ := next_eq_ok_iff.1 h
  exact next_eq_ok_iff.2
    ⟨header, decodeHeader_of_isPrefix (List.prefix_append bs t) hheader, hnumber, (decode_append hdecode t).1⟩

/-! ## Walks -/

/-- frames one after the other, from one offset to another: each is read by its header and then whole, and the next one
begins behind the bytes that it takes -/
inductive Walk (b : List UInt8) : Nat → List Item → Nat → Prop
  | stay (offset : Nat) : Walk b offset [] offset
  | step {offset stop size : Nat} {header : Header} {e : Event} {items : List Item}
      (hheader : decodeHeader (b.drop offset) = .ok header) (hdecode : decode (b.drop offset) = .ok (e, size))
      (rest : Walk b (offset + size) items stop) : Walk b offset (⟨offset, header.number, e, size⟩ :: items) stop

namespace Walk

variable {b : List UInt8} {offset stop : Nat} {items : List Item}

theorem stop_eq (h : Walk b offset items stop) : stop = offset + (items.map Item.size).sum := by
  induction h with
  | stay => rfl
  | step _ _ _ ih =>
    rw [ih, List.map_cons, List.sum_cons, Nat.add_assoc]

/-- a walk stays inside the bytes -/
theorem stop_le (h : Walk b offset items stop) (hl : offset ≤ b.length) : stop ≤ b.length := by
  induction h with
  | stay => exact hl
  | step _ hdecode _ ih =>
    have hsize := decode_size hdecode
    rw [List.length_drop] at hsize
    exact ih (by omega)

/-- each step takes at least twenty bytes -/
theorem length_le (h : Walk b offset items stop) : offset + 20 * items.length ≤ stop := by
  induction h with
  | stay => simp
  | step _ hdecode _ ih =>
    have hsize := decode_size hdecode
    rw [List.length_cons]
    omega

/-- every frame begins where those before it end, and is read there -/
theorem of_getElem? (h : Walk b offset items stop) {k : Nat} {item : Item} (hk : items[k]? = some item) :
    item.offset = offset + ((items.take k).map Item.size).sum ∧ 20 ≤ item.size ∧ item.offset + item.size ≤ stop ∧
      decode (b.drop item.offset) = .ok (item.event, item.size) ∧
      ∃ header, decodeHeader (b.drop item.offset) = .ok header ∧ header.number = item.number := by
  induction h generalizing k with
  | stay => cases hk
  | @step offset stop size header e items hheader hdecode rest ih =>
    cases k with
    | zero =>
      cases hk
      exact ⟨rfl, (decode_size hdecode).1, Nat.le_of_add_right_le rest.length_le, hdecode, header, hheader, rfl⟩
    | succ k =>
      obtain ⟨hoffset, hitem⟩ := ih hk
      refine ⟨?_, hitem⟩
      rw [hoffset, List.take_succ_cons, List.map_cons, List.sum_cons, Nat.add_assoc]

/-- every walk is the beginning of the reading -/
theorem isPrefix (h : Walk b offset items stop) : items <+: (readFrom offset (b.drop offset)).items := by
  induction h with
  | stay => exact List.nil_prefix
  | step hheader hdecode _ ih =>
    rw [readFrom_of_next _ (next_eq_ok_iff.2 ⟨_, hheader, rfl, hdecode⟩), List.drop_drop]
    exact (List.prefix_cons_inj _).2 ih

end Walk

/-! ## The reading -/

/-- reading ends: at the end of the bytes, or at an offset with no frame -/
def Ends (b : List UInt8) (reading : Reading) (stop : Nat) : Prop :=
  reading.stop = none ∧ stop = b.length ∨
    ∃ err, reading.stop = some (stop, err) ∧ stop < b.length ∧ decode (b.drop stop) = .error err

/-- reading is a walk that goes on until it ends -/
theorem readFrom_walk (b : List UInt8) {offset : Nat} {bs : List UInt8} (hbs : bs = b.drop offset)
    (hl : offset ≤ b.length) :
    ∃ stop, Walk b offset (readFrom offset bs).items stop ∧ Ends b (readFrom offset bs) stop := by
  have hleft : bs.length = b.length - offset := by rw [hbs, List.length_drop]
  fun_induction readFrom offset bs with
  | case1 offset =>
    have hend : offset = b.length := Nat.le_antisymm hl (Nat.sub_eq_zero_iff_le.1 hleft.symm)
    exact ⟨offset, .stay offset, Or.inl ⟨rfl, hend⟩⟩
  | case2 offset bs hne err hnext =>
    have hlt : offset < b.length := Nat.lt_of_sub_pos (hleft ▸ List.length_pos_iff.2 hne)
    exact ⟨offset, .stay offset, Or.inr ⟨err, rfl, hlt, hbs ▸ next_eq_error_iff.1 hnext⟩⟩
  | case3 offset bs hne number e size hnext rest ih =>
    obtain ⟨header, hheader, rfl, hdecode⟩ := next_eq_ok_iff.1 hnext
    have hsize := size_of_next hnext
    have hrest : bs.drop size = b.drop (offset + size) := by rw [hbs, List.drop_drop]
    obtain ⟨stop, hwalk, hends⟩ := ih hrest (by omega) (by rw [List.length_drop]; omega)
    rw [hbs] at hheader hdecode
    exact ⟨stop, .step hheader hdecode hwalk, hends⟩

/-! ## More bytes behind -/

/-- the same item further back -/
def Item.shift (distance : Nat) (i : Item) : Item := { i with offset := distance + i.offset }

/-- the same reading further back -/
def Reading.shift (distance : Nat) (r : Reading) : Reading :=
  ⟨r.items.map (Item.shift distance), r.stop.map fun (offset, err) => (distance + offset, err)⟩

/-- reading goes on with another reading -/
def Reading.followedBy (r r' : Reading) : Reading := ⟨r.items ++ r'.items, r'.stop⟩

theorem readFrom_shift (distance offset : Nat) (bs : List UInt8) :
    readFrom (distance + offset) bs = (readFrom offset bs).shift distance := by
  fun_induction readFrom offset bs with
  | case1 offset =>
    rw [readFrom_nil]
    rfl
  | case2 offset bs hne err hnext =>
    rw [readFrom_of_error _ hne hnext]
    rfl
  | case3 offset bs hne number e size hnext rest ih =>
    rw [readFrom_of_next _ hnext, Nat.add_assoc, ih]
    rfl

/-- bytes behind those that are read to their end are read from there -/
theorem readFrom_append {offset : Nat} {bs : List UInt8} (h : (readFrom offset bs).stop = none) (t : List UInt8) :
    readFrom offset (bs ++ t) = (readFrom offset bs).followedBy (readFrom (offset + bs.length) t) := by
  fun_induction readFrom offset bs with
  | case1 offset => rfl
  | case2 offset bs hne err hnext => cases h
  | case3 offset bs hne number e size hnext rest ih =>
    have hsize := (size_of_next hnext).2
    have hend : offset + size + (bs.drop size).length = offset + bs.length := by
      rw [List.length_drop]
      omega
    rw [readFrom_of_next _ (next_append hnext t), List.drop_append_of_le_length hsize, ih h, hend]
    rfl

/-! ## Main result -/

/-- **Any bytes as a stream.** Where there is no header there is no event either. Take any bytes, and a reader that reads
header and frame where it stands and goes on behind the bytes that the frame takes. However far it comes, it has read no
more than one frame for each twenty bytes, and these are the first frames of one reading. There, each frame begins where
those before it end, from offset zero on, takes at least twenty bytes, all of them there, and is what header and event say
at its offset. The reading ends with the last byte, or with the one error that is found at the first offset that no frame
covers. If it ends with the last byte, then more bytes behind are read as they are on their own, further back by what is in
front. -/
theorem read_any (b : List UInt8) :
    (∀ bs err, decodeHeader bs = .error err → decode bs = .error err) ∧
    let reading := read b
    let covered := (reading.items.map Item.size).sum
    (∀ items stop, Walk b 0 items stop → items.length ≤ b.length / 20 ∧ items <+: reading.items) ∧
    reading.items.length ≤ b.length / 20 ∧
    (∀ k item, reading.items[k]? = some item →
      item.offset = ((reading.items.take k).map Item.size).sum ∧ 20 ≤ item.size ∧ item.offset + item.size ≤ b.length ∧
      decode (b.drop item.offset) = .ok (item.event, item.size) ∧
      ∃ header, decodeHeader (b.drop item.offset) = .ok header ∧ header.number = item.number) ∧
    (reading.stop = none ∧ covered = b.length ∨
      ∃ err, reading.stop = some (covered, err) ∧ covered < b.length ∧ decode (b.drop covered) = .error err) ∧
    ∀ t, reading.stop = none → read (b ++ t) = reading.followedBy ((read t).shift b.length) := by
  refine ⟨fun _ _ => decode_of_decodeHeader, ?_⟩
  intro reading covered
  have hshort : ∀ items stop, Walk b 0 items stop → items.length ≤ b.length / 20 := by
    intro items stop h
    have hlength := h.length_le
    have hinside := h.stop_le (Nat.zero_le _)
    omega
  obtain ⟨stop, hwalk, hends⟩ := readFrom_walk b rfl (Nat.zero_le _)
  have hcovered : stop = covered := by
    rw [hwalk.stop_eq, Nat.zero_add]
    rfl
  subst hcovered
  refine ⟨fun items stop h => ⟨hshort items stop h, h.isPrefix⟩, hshort _ _ hwalk, ?_, hends, fun t hstop => ?_⟩
  · intro k item hk
    obtain ⟨hoffset, hsize, hinside, hread⟩ := hwalk.of_getElem? hk
    rw [Nat.zero_add] at hoffset
    exact ⟨hoffset, hsize, hinside.trans (hwalk.stop_le (Nat.zero_le _)), hread⟩
  · have hback := readFrom_shift b.length 0 t
    have happend := readFrom_append hstop t
    rw [Nat.zero_add, ← Nat.add_zero b.length, hback] at happend
    exact happend

end InputRelay.Wire.Stream
