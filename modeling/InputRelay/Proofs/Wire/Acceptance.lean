/-
Which bytes are a frame, and what is wrong with all others. `Fault b` lists the faults of some bytes in the order in
which they count, told from the bytes alone:
- fewer than 16 bytes;
- a foreign version in byte 0;
- no kind of message in byte 1;
- fewer bytes behind the header than bytes 4 to 7 announce;
- a payload too short for its display, its input fields or its body, or no device in its byte 4.
Each fault says that those before it are absent. `decode_exact`: decoding fails with an error exactly if the bytes have
that fault, and succeeds if they have none; so no reader and no slice inside is ever out of range. Two byte strings that are
`Alike`, that is differ only in reserved bytes, in payload bytes that the kind does not need or behind the frame, are
decoded alike.
-/
import InputRelay.Proofs.Wire.RoundTrip

namespace InputRelay.Device

/-- the device codes are those from one to five -/
theorem exists_ofCode?_iff (c : UInt8) : (∃ d, ofCode? c = some d) ↔ 1 ≤ c ∧ c ≤ 5 := by
  constructor
  · rintro ⟨d, hd⟩
    rw [← code_of_ofCode? hd]
    cases d <;> decide
  · rintro ⟨h1, h5⟩
    obtain hc | hc | hc | hc | hc : c = 1 ∨ c = 2 ∨ c = 3 ∨ c = 4 ∨ c = 5 := by
      simp only [UInt8.le_iff_toNat_le, ← UInt8.toNat_inj] at *
      simp at h1 h5 ⊢
      omega
    all_goals subst hc; exact ⟨_, rfl⟩

theorem ofCode?_eq_none {c : UInt8} (h : ¬ (1 ≤ c ∧ c ≤ 5)) : ofCode? c = none := by
  rw [← exists_ofCode?_iff] at h
  exact Option.eq_none_iff_forall_ne_some.2 fun d hd => h ⟨d, hd⟩

end InputRelay.Device

namespace InputRelay.Wire

/-- the payload length that bytes 4 to 7 announce -/
def declared (b : List UInt8) : Nat := BigEndian.number ((b.drop 4).take 4)

/-- a sound header, for a kind of message -/
structure Headed (b : List UInt8) (t : MessageType) : Prop where
  long : 16 ≤ b.length
  version : b[0]? = some protocolVersion
  kind : b[1]? = some t.code

/-- a sound header with all the payload that it announces -/
structure Whole (b : List UInt8) (t : MessageType) : Prop extends Headed b t where
  present : 16 + declared b ≤ b.length

/-- what is wrong with some bytes -/
inductive Fault (b : List UInt8) : FrameError → Prop
  | short (h : b.length < 16) : Fault b (.insufficientData 16 b.length)
  | version {v : UInt8} (h : 16 ≤ b.length) (hv : b[0]? = some v) (hne : v ≠ protocolVersion) :
      Fault b (.unsupportedVersion v)
  | kind {c : UInt8} (h : 16 ≤ b.length) (hv : b[0]? = some protocolVersion) (hc : b[1]? = some c)
      (hne : ∀ t : MessageType, t.code ≠ c) : Fault b (.unknownMessageType c)
  | cut {t : MessageType} (h : Headed b t) (hl : b.length < 16 + declared b) :
      Fault b (.payloadLengthMismatch (declared b) (b.length - 16))
  | noDisplay {t : MessageType} (h : Whole b t) (hl : declared b < 4) :
      Fault b (.malformedPayload (.tooShort .displayId (declared b)))
  | noInput {t : MessageType} (h : Whole b t) (ht : t ≠ .home) (h4 : 4 ≤ declared b) (hl : declared b < 13) :
      Fault b (.malformedPayload (.tooShort .inputFields (declared b)))
  | device {t : MessageType} {c : UInt8} (h : Whole b t) (ht : t ≠ .home) (h13 : 13 ≤ declared b)
      (hc : b[16 + 4]? = some c) (hne : ¬ (1 ≤ c ∧ c ≤ 5)) : Fault b (.malformedPayload (.unknownDevice c))
  | noBody {t : MessageType} {c : UInt8} (h : Whole b t) (ht : t ≠ .home) (h13 : 13 ≤ declared b)
      (hc : b[16 + 4]? = some c) (hdev : 1 ≤ c ∧ c ≤ 5) (hl : declared b < 13 + (Part.body t).size) :
      Fault b (.malformedPayload (.tooShort (.body t) (declared b - 13)))

/-! ## Bodies and payloads -/

theorem need_of_lt (part : Part) (bs : List UInt8) (h : bs.length < part.size) :
    need part bs = .error (.malformedPayload (.tooShort part bs.length)) :=
  if_pos h

theorem int32_ok (bs : List UInt8) (i : Nat) (h : i + 4 ≤ bs.length) : ∃ n, int32 bs i = .ok n :=
  ⟨_, by rw [int32, word_ok h]; rfl⟩

theorem int64_ok (bs : List UInt8) (i : Nat) (h : i + 8 ≤ bs.length) : ∃ n, int64 bs i = .ok n :=
  ⟨_, by rw [int64, word_ok h]; rfl⟩

theorem single_ok (bs : List UInt8) (i : Nat) (h : i + 4 ≤ bs.length) : ∃ x, single bs i = .ok x :=
  ⟨_, by rw [single, word_ok h]; rfl⟩

theorem decodeBody_ok {t : MessageType} {bs : List UInt8} (ht : t ≠ .home) (h : (Part.body t).size ≤ bs.length) :
    ∃ body, decodeBody t bs = .ok body ∧ body.messageType = t := by
  have hn := need_of_le (.body t) bs h
  have h0 : 0 + 4 ≤ bs.length ∧ 4 + 4 ≤ bs.length := by cases t <;> simp_all [Part.size] <;> omega
  obtain ⟨m, hm⟩ := int32_ok bs 0 h0.1
  obtain ⟨n, hn'⟩ := int32_ok bs 4 h0.2
  obtain ⟨x, hx⟩ := single_ok bs 0 h0.1
  obtain ⟨y, hy⟩ := single_ok bs 4 h0.2
  cases t with
  | home => exact absurd rfl ht
  | touchEvent =>
    have h20 : 20 ≤ bs.length := h
    obtain ⟨x8, h8⟩ := single_ok bs 8 (by omega)
    obtain ⟨x12, h12⟩ := single_ok bs 12 (by omega)
    obtain ⟨x16, h16⟩ := single_ok bs 16 (by omega)
    simp [decodeBody, hn, hm, hn', h8, h12, h16, bind, Except.bind, pure, Except.pure, Body.messageType]
  | keyEvent | mouseButton => simp [decodeBody, hn, hm, hn', bind, Except.bind, pure, Except.pure, Body.messageType]
  | mouseRelative | mouseScroll => simp [decodeBody, hn, hx, hy, bind, Except.bind, pure, Except.pure, Body.messageType]

theorem decodeBody_short {t : MessageType} {bs : List UInt8} (ht : t ≠ .home) (h : bs.length < (Part.body t).size) :
    decodeBody t bs = .error (.malformedPayload (.tooShort (.body t) bs.length)) := by
  have hn := need_of_lt (.body t) bs h
  cases t with
  | home => exact absurd rfl ht
  | _ => simp [decodeBody, hn, bind, Except.bind]

/-- the bytes of a payload that follow its input fields make the body; the device comes from byte 4 -/
theorem decodePayload_input {t : MessageType} {p : List UInt8} {c : UInt8} {d : Device} (ht : t ≠ .home)
    (hl : 13 ≤ p.length) (hc : p[4]? = some c) (hd : Device.ofCode? c = some d) :
    ∃ display time, decodePayload t p = (decodeBody t (p.drop 13)).map fun body => .input ⟨display, d, time, body⟩ := by
  have h4 := need_of_le .displayId p (by simp only [Part.size]; omega)
  have h13 := need_of_le .inputFields p hl
  obtain ⟨display, h0⟩ := int32_ok p 0 (by omega)
  obtain ⟨time, h5⟩ := int64_ok p 5 (by omega)
  refine ⟨⟨display⟩, time, ?_⟩
  simp only [decodePayload, h4, h13, h0, h5, word_byte hc, hd, if_neg ht, UInt8.ofNat_toNat, bind, Except.bind, pure,
    Except.pure, Part.size, tail_ok hl]
  cases decodeBody t (p.drop 13) <;> rfl

theorem decodePayload_noDisplay {t : MessageType} {p : List UInt8} (hl : p.length < 4) :
    decodePayload t p = .error (.malformedPayload (.tooShort .displayId p.length)) := by
  have h4 := need_of_lt .displayId p hl
  simp [decodePayload, h4, bind, Except.bind]

theorem decodePayload_home {p : List UInt8} (hl : 4 ≤ p.length) : ∃ d, decodePayload .home p = .ok (.home d) := by
  have h4 := need_of_le .displayId p hl
  obtain ⟨display, h0⟩ := int32_ok p 0 (by omega)
  exact ⟨⟨display⟩, by simp [decodePayload, h4, h0, bind, Except.bind, pure, Except.pure]⟩

theorem decodePayload_noInput {t : MessageType} {p : List UInt8} (ht : t ≠ .home) (hl : 4 ≤ p.length)
    (h : p.length < 13) : decodePayload t p = .error (.malformedPayload (.tooShort .inputFields p.length)) := by
  have h4 := need_of_le .displayId p hl
  have h13 := need_of_lt .inputFields p h
  obtain ⟨display, h0⟩ := int32_ok p 0 (by omega)
  simp [decodePayload, h4, h13, h0, ht, bind, Except.bind]

theorem decodePayload_device {t : MessageType} {p : List UInt8} {c : UInt8} (ht : t ≠ .home) (hl : 13 ≤ p.length)
    (hc : p[4]? = some c) (hd : Device.ofCode? c = none) :
    decodePayload t p = .error (.malformedPayload (.unknownDevice c)) := by
  have h4 := need_of_le .displayId p (by simp only [Part.size]; omega)
  have h13 := need_of_le .inputFields p hl
  obtain ⟨display, h0⟩ := int32_ok p 0 (by omega)
  simp [decodePayload, h4, h13, h0, ht, word_byte hc, hd, bind, Except.bind, throw, throwThe, MonadExceptOf.throw]

/-! ## Headers and frames -/

theorem MessageType.ofCode?_eq_none {c : UInt8} (h : ∀ t : MessageType, t.code ≠ c) : MessageType.ofCode? c = none :=
  Option.eq_none_iff_forall_ne_some.2 fun t ht => h t (MessageType.code_of_ofCode? ht)

/-- the sequence number that bytes 8 to 15 hold -/
def numbered (b : List UInt8) : UInt64 := .ofNat (BigEndian.number ((b.drop 8).take 8))

theorem Headed.decodeHeader_eq {b : List UInt8} {t : MessageType} (h : Headed b t) :
    decodeHeader b = .ok ⟨protocolVersion, t, declared b, numbered b⟩ := by
  have hl : ¬ b.length < headerSize := Nat.not_lt.2 h.long
  have h4 : word b 4 4 = .ok (declared b) := word_ok (by have := h.long; omega)
  have h8 : word b 8 8 = .ok (BigEndian.number ((b.drop 8).take 8)) := word_ok h.long
  simp [decodeHeader, hl, word_byte h.version, word_byte h.kind, MessageType.ofCode?_code, h4, h8, numbered,
    bind, Except.bind, pure, Except.pure]

theorem decodeHeader_headed {b : List UInt8} {t : MessageType} (h : Headed b t) :
    ∃ number, decodeHeader b = .ok ⟨protocolVersion, t, declared b, number⟩ :=
  ⟨_, h.decodeHeader_eq⟩

/-- the payload that some bytes announce, as far as it is there -/
def announced (b : List UInt8) : List UInt8 := (b.drop 16).take (declared b)

theorem Whole.length_announced {b : List UInt8} {t : MessageType} (h : Whole b t) :
    (announced b).length = declared b := by
  have := h.present
  rw [announced, List.length_take, List.length_drop]
  omega

theorem getElem?_announced {b : List UInt8} {i : Nat} (h : i < declared b) : (announced b)[i]? = b[16 + i]? := by
  rw [announced, List.getElem?_take_of_lt h, List.getElem?_drop]

/-- a frame announced long enough for input fields has a device byte -/
theorem Whole.device_byte {b : List UInt8} {t : MessageType} (h : Whole b t) (h13 : 13 ≤ declared b) :
    ∃ c, b[16 + 4]? = some c := by
  have := h.present
  exact ⟨_, List.getElem?_eq_getElem (by omega)⟩

theorem announced_device {b : List UInt8} {c : UInt8} (h13 : 13 ≤ declared b) (hc : b[16 + 4]? = some c) :
    (announced b)[4]? = some c :=
  (getElem?_announced (by omega)).trans hc

theorem decode_headed {b : List UInt8} {t : MessageType} (h : Headed b t) :
    decode b = if b.length < 16 + declared b then .error (.payloadLengthMismatch (declared b) (b.length - 16))
      else (decodePayload t (announced b)).map fun e => (e, 16 + declared b) := by
  obtain ⟨number, hh⟩ := decodeHeader_headed h
  simp only [decode, hh, bind, Except.bind, pure, Except.pure, throw, throwThe, MonadExceptOf.throw]
  by_cases hl : b.length < 16 + declared b
  · have hl' : b.length < headerSize + declared b := hl
    rw [if_pos hl, if_pos hl']
    rfl
  · have hl' : ¬ b.length < headerSize + declared b := hl
    have hslice : field b headerSize (declared b) = .ok (announced b) := field_ok (Nat.not_lt.1 hl)
    rw [if_neg hl, if_neg hl', hslice]
    simp only [headerSize]
    cases decodePayload t (announced b) <;> rfl

theorem decode_whole {b : List UInt8} {t : MessageType} (h : Whole b t) :
    decode b = (decodePayload t (announced b)).map fun e => (e, 16 + declared b) := by
  rw [decode_headed h.toHeaded, if_neg (Nat.not_lt.2 h.present)]

theorem decodeHeader_short {b : List UInt8} (h : b.length < 16) :
    decodeHeader b = .error (.insufficientData 16 b.length) := by
  simp [decodeHeader, headerSize, h, bind, Except.bind, throw, throwThe, MonadExceptOf.throw]

theorem decodeHeader_version {b : List UInt8} (h : 16 ≤ b.length) {v : UInt8} (hv : b[0]? = some v)
    (hne : v ≠ protocolVersion) : decodeHeader b = .error (.unsupportedVersion v) := by
  simp [decodeHeader, headerSize, Nat.not_lt.2 h, word_byte hv, hne, bind, Except.bind, throw, throwThe,
    MonadExceptOf.throw]

theorem decodeHeader_kind {b : List UInt8} (h : 16 ≤ b.length) (hv : b[0]? = some protocolVersion) {c : UInt8}
    (hc : b[1]? = some c) (hne : ∀ t : MessageType, t.code ≠ c) :
    decodeHeader b = .error (.unknownMessageType c) := by
  simp [decodeHeader, headerSize, Nat.not_lt.2 h, word_byte hv, word_byte hc, MessageType.ofCode?_eq_none hne, bind,
    Except.bind, throw, throwThe, MonadExceptOf.throw]

/-- where there is no header there is no event, for the same reason -/
theorem decode_of_decodeHeader {b : List UInt8} {err : FrameError} (h : decodeHeader b = .error err) :
    decode b = .error err := by
  simp only [decode, h, bind, Except.bind]

/-- bytes with a fault are refused for it -/
theorem decode_of_fault {b : List UInt8} {err : FrameError} (h : Fault b err) : decode b = .error err := by
  cases h with
  | short h => exact decode_of_decodeHeader (decodeHeader_short h)
  | version h hv hne => exact decode_of_decodeHeader (decodeHeader_version h hv hne)
  | kind h hv hc hne => exact decode_of_decodeHeader (decodeHeader_kind h hv hc hne)
  | cut h hl => rw [decode_headed h, if_pos hl]
  | noDisplay h hl =>
    rw [decode_whole h, decodePayload_noDisplay (by rw [h.length_announced]; exact hl), h.length_announced]
    rfl
  | noInput h ht h4 hl =>
    rw [decode_whole h, decodePayload_noInput ht (by rw [h.length_announced]; exact h4)
      (by rw [h.length_announced]; exact hl), h.length_announced]
    rfl
  | device h ht h13 hc hne =>
    have hc' := announced_device h13 hc
    rw [decode_whole h, decodePayload_device ht (by rw [h.length_announced]; exact h13) hc' (Device.ofCode?_eq_none hne)]
    rfl
  | @noBody t c h ht h13 hc hdev hl =>
    have hc' := announced_device h13 hc
    obtain ⟨d, hd⟩ := (Device.exists_ofCode?_iff c).2 hdev
    obtain ⟨display, time, hp⟩ := decodePayload_input ht (by rw [h.length_announced]; exact h13) hc' hd
    have hbody : ((announced b).drop 13).length = declared b - 13 := by rw [List.length_drop, h.length_announced]
    rw [decode_whole h, hp, decodeBody_short ht (by rw [hbody]; omega), hbody]
    rfl

/-- bytes of at least a header's length are headed for some kind, or their header has a fault -/
theorem headed_or_fault {b : List UInt8} (h : 16 ≤ b.length) : (∃ t, Headed b t) ∨ ∃ err, Fault b err := by
  have h0 : b[0]? = some b[0] := List.getElem?_eq_getElem _
  have h1 : b[1]? = some b[1] := List.getElem?_eq_getElem _
  by_cases hv : b[0] = protocolVersion
  · rw [hv] at h0
    by_cases hc : ∃ t : MessageType, t.code = b[1]
    · obtain ⟨t, ht⟩ := hc
      exact Or.inl ⟨t, h, h0, ht ▸ h1⟩
    · exact Or.inr ⟨_, .kind h h0 h1 fun t ht => hc ⟨t, ht⟩⟩
  · exact Or.inr ⟨_, .version h h0 hv⟩

theorem Whole.ok_or_fault {b : List UInt8} {t : MessageType} (h : Whole b t) :
    (∃ e, decodePayload t (announced b) = .ok e) ∨ ∃ err, Fault b err := by
  have hl := h.length_announced
  by_cases h4 : declared b < 4
  · exact Or.inr ⟨_, .noDisplay h h4⟩
  by_cases ht : t = .home
  · subst ht
    obtain ⟨d, hd⟩ := decodePayload_home (p := announced b) (by omega)
    exact Or.inl ⟨_, hd⟩
  by_cases h13 : declared b < 13
  · exact Or.inr ⟨_, .noInput h ht (by omega) h13⟩
  obtain ⟨c, hc⟩ := h.device_byte (Nat.not_lt.1 h13)
  by_cases hdev : 1 ≤ c ∧ c ≤ 5
  · by_cases hb : declared b < 13 + (Part.body t).size
    · exact Or.inr ⟨_, .noBody h ht (by omega) hc hdev hb⟩
    · obtain ⟨d, hd⟩ := (Device.exists_ofCode?_iff _).2 hdev
      have hc' := announced_device (by omega) hc
      obtain ⟨display, time, hp⟩ := decodePayload_input ht (by omega) hc' hd
      have hsize : (Part.body t).size ≤ ((announced b).drop 13).length := by rw [List.length_drop]; omega
      obtain ⟨body, hbody, -⟩ := decodeBody_ok ht hsize
      exact Or.inl ⟨_, by rw [hp, hbody]; rfl⟩
  · exact Or.inr ⟨_, .device h ht (by omega) hc hdev⟩

/-- bytes are an event's frame, or have a fault -/
theorem ok_or_fault (b : List UInt8) : (∃ e, decode b = .ok (e, 16 + declared b)) ∨ ∃ err, Fault b err := by
  by_cases h : b.length < 16
  · exact Or.inr ⟨_, .short h⟩
  rcases headed_or_fault (Nat.not_lt.1 h) with ⟨t, ht⟩ | hf
  · by_cases hl : b.length < 16 + declared b
    · exact Or.inr ⟨_, .cut ht hl⟩
    · have hw : Whole b t := ⟨ht, Nat.not_lt.1 hl⟩
      rcases hw.ok_or_fault with ⟨e, he⟩ | hf
      · exact Or.inl ⟨e, by rw [decode_whole hw, he]; rfl⟩
      · exact Or.inr hf
  · exact Or.inr hf

theorem decode_error_iff (b : List UInt8) (err : FrameError) : decode b = .error err ↔ Fault b err := by
  refine ⟨fun h => ?_, decode_of_fault⟩
  rcases ok_or_fault b with ⟨e, he⟩ | ⟨err', hf⟩
  · rw [he] at h; cases h
  · rw [decode_of_fault hf] at h; cases h; exact hf

/-- what makes a payload malformed, all causes together -/
theorem malformed_iff (b : List UInt8) :
    (∃ cause, Fault b (.malformedPayload cause)) ↔ ∃ t, Whole b t ∧ (declared b < 4 ∨ t ≠ .home ∧
      (declared b < 13 ∨ (∃ c, b[16 + 4]? = some c ∧ ¬ (1 ≤ c ∧ c ≤ 5)) ∨ declared b < 13 + (Part.body t).size)) := by
  constructor
  · rintro ⟨cause, hf⟩
    cases hf with
    | noDisplay h hl => exact ⟨_, h, Or.inl hl⟩
    | noInput h ht _ hl => exact ⟨_, h, Or.inr ⟨ht, Or.inl hl⟩⟩
    | device h ht _ hc hne => exact ⟨_, h, Or.inr ⟨ht, Or.inr (Or.inl ⟨_, hc, hne⟩)⟩⟩
    | noBody h ht _ _ _ hl => exact ⟨_, h, Or.inr ⟨ht, Or.inr (Or.inr hl)⟩⟩
  · rintro ⟨t, h, hcase⟩
    by_cases h4 : declared b < 4
    · exact ⟨_, .noDisplay h h4⟩
    obtain ⟨ht, hcase⟩ := hcase.resolve_left h4
    by_cases h13 : declared b < 13
    · exact ⟨_, .noInput h ht (by omega) h13⟩
    obtain ⟨c, hc⟩ := h.device_byte (Nat.not_lt.1 h13)
    by_cases hdev : 1 ≤ c ∧ c ≤ 5
    · rcases hcase.resolve_left h13 with ⟨c', hc', hne⟩ | hl
      · rw [hc] at hc'
        cases hc'
        exact absurd hdev hne
      · exact ⟨_, .noBody h ht (by omega) hc hdev hl⟩
    · exact ⟨_, .device h ht (by omega) hc hdev⟩

/-! ## What decoding looks at -/

theorem decodeBody_congr {t : MessageType} {bs bs' : List UInt8} (hl : bs'.length = bs.length)
    (hb : ∀ i < (Part.body t).size, bs'[i]? = bs[i]?) : decodeBody t bs' = decodeBody t bs := by
  by_cases ht : t = .home
  · subst ht; rfl
  by_cases hs : bs.length < (Part.body t).size
  · rw [decodeBody_short ht hs, decodeBody_short ht (by omega), hl]
  have hf : ∀ i, i + 4 ≤ (Part.body t).size → field bs' i 4 = field bs i 4 := fun i hi =>
    field_congr (by omega) (by omega) fun j _ hj => hb j (by omega)
  have hn := need_congr (.body t) hl
  cases t with
  | home => exact absurd rfl ht
  | touchEvent =>
    have h0 := hf 0 (by decide)
    have h4 := hf 4 (by decide)
    have h8 := hf 8 (by decide)
    have h12 := hf 12 (by decide)
    have h16 := hf 16 (by decide)
    simp only [decodeBody, hn, int32, single, word, h0, h4, h8, h12, h16]
  | _ =>
    have h0 := hf 0 (by decide)
    have h4 := hf 4 (by decide)
    simp only [decodeBody, hn, int32, single, word, h0, h4]

theorem decodePayload_congr {t : MessageType} {p p' : List UInt8} (hl : p'.length = p.length)
    (hb : ∀ i < t.needs, p'[i]? = p[i]?) : decodePayload t p' = decodePayload t p := by
  have hn4 := (needs_lt t).1
  by_cases h4 : p.length < 4
  · rw [decodePayload_noDisplay h4, decodePayload_noDisplay (by omega), hl]
  have h0 : field p' 0 4 = field p 0 4 := field_congr (by omega) (by omega) fun j _ hj => hb j (by omega)
  by_cases ht : t = .home
  · subst ht
    simp only [decodePayload, need_congr .displayId hl, int32, word, h0, if_true]
  by_cases h13 : p.length < 13
  · rw [decodePayload_noInput ht (by omega) h13, decodePayload_noInput ht (by omega) (by omega), hl]
  have hneeds : t.needs = 13 + (Part.body t).size := by cases t <;> simp_all [MessageType.needs, Part.size]
  have hc : field p' 4 1 = field p 4 1 := field_congr (by omega) (by omega) fun j _ hj => hb j (by omega)
  have h5 : field p' 5 8 = field p 5 8 := field_congr (by omega) (by omega) fun j _ hj => hb j (by omega)
  have hrest : tail p Part.inputFields.size = .ok (p.drop 13) := tail_ok (Nat.not_lt.1 h13)
  have hrest' : tail p' Part.inputFields.size = .ok (p'.drop 13) := tail_ok (show 13 ≤ p'.length by omega)
  have hbody : decodeBody t (p'.drop 13) = decodeBody t (p.drop 13) := by
    refine decodeBody_congr (by rw [List.length_drop, List.length_drop, hl]) fun i hi => ?_
    rw [List.getElem?_drop, List.getElem?_drop]
    exact hb _ (by simp only [Part.size] at *; omega)
  simp only [decodePayload, need_congr _ hl, int32, int64, word, h0, hc, h5, hrest, hrest', bind, Except.bind, hbody]

/-- the places that decoding looks at: the header but for its reserved bytes, and as much of the payload as its kind
needs -/
def Looked (b : List UInt8) (i : Nat) : Prop :=
  (i < 16 ∧ i ≠ 2 ∧ i ≠ 3) ∨
    ∃ t : MessageType, b[1]? = some t.code ∧ 16 ≤ i ∧ i < 16 + min (declared b) t.needs

/-- bytes that agree wherever decoding looks, and are equally many or both hold a whole frame -/
structure Alike (b b' : List UInt8) : Prop where
  looked : ∀ i, Looked b i → b'[i]? = b[i]?
  size : b'.length = b.length ∨ 16 + declared b ≤ b.length ∧ 16 + declared b ≤ b'.length

theorem Alike.declared_eq {b b' : List UInt8} (h : Alike b b') : declared b' = declared b := by
  unfold declared
  congr 1
  apply List.ext_getElem?
  intro i
  by_cases hi : i < 4
  · rw [List.getElem?_take_of_lt hi, List.getElem?_take_of_lt hi, List.getElem?_drop, List.getElem?_drop]
    exact h.looked _ (Or.inl ⟨by omega, by omega, by omega⟩)
  · rw [List.getElem?_take_eq_none (by omega), List.getElem?_take_eq_none (by omega)]

theorem Alike.headed {b b' : List UInt8} {t : MessageType} (h : Alike b b') (hb : Headed b t) : Headed b' t where
  long := by have := hb.long; rcases h.size with h | h <;> omega
  version := (h.looked 0 (Or.inl (by omega))).trans hb.version
  kind := (h.looked 1 (Or.inl (by omega))).trans hb.kind

theorem Alike.getElem?_announced {b b' : List UInt8} {t : MessageType} (h : Alike b b') (hb : Whole b t) (hb' : Whole b' t)
    {i : Nat} (hi : i < t.needs) : (announced b')[i]? = (announced b)[i]? := by
  have hd := h.declared_eq
  by_cases hl : i < declared b
  · rw [Wire.getElem?_announced (by omega), Wire.getElem?_announced hl]
    exact h.looked _ (Or.inr ⟨t, hb.kind, by omega, by omega⟩)
  · rw [List.getElem?_eq_none (by rw [hb'.length_announced]; omega),
      List.getElem?_eq_none (by rw [hb.length_announced]; omega)]

/-- alike bytes are decoded alike -/
theorem Alike.decode_eq {b b' : List UInt8} (h : Alike b b') : decode b' = decode b := by
  have hd := h.declared_eq
  by_cases hlong : b.length < 16
  · have hl : b'.length = b.length := by rcases h.size with h | h <;> omega
    rw [decode_of_fault (.short hlong), decode_of_fault (.short (by omega)), hl]
  have hlong' : 16 ≤ b'.length := by rcases h.size with h | h <;> omega
  by_cases hh : ∃ t, Headed b t
  · obtain ⟨t, ht⟩ := hh
    have ht' := h.headed ht
    by_cases hcut : b.length < 16 + declared b
    · have hl : b'.length = b.length := by rcases h.size with h | h <;> omega
      rw [decode_of_fault (.cut ht hcut), decode_of_fault (.cut ht' (by omega)), hd, hl]
    · have hw : Whole b t := ⟨ht, Nat.not_lt.1 hcut⟩
      have hw' : Whole b' t := ⟨ht', by rcases h.size with h | h <;> omega⟩
      have hp : decodePayload t (announced b') = decodePayload t (announced b) :=
        decodePayload_congr (by rw [hw'.length_announced, hw.length_announced, hd])
          fun i hi => h.getElem?_announced hw hw' hi
      rw [decode_whole hw, decode_whole hw', hp, hd]
  · obtain ⟨err, hf⟩ := (headed_or_fault (Nat.not_lt.1 hlong)).resolve_left hh
    cases hf with
    | short hs => exact absurd hs hlong
    | version hl hv hne =>
      rw [decode_of_fault (.version hl hv hne),
        decode_of_fault (.version hlong' ((h.looked 0 (Or.inl (by omega))).trans hv) hne)]
    | kind hl hv hc hne =>
      rw [decode_of_fault (.kind hl hv hc hne), decode_of_fault (.kind hlong'
        ((h.looked 0 (Or.inl (by omega))).trans hv) ((h.looked 1 (Or.inl (by omega))).trans hc) hne)]
    | cut hb => exact absurd ⟨_, hb⟩ hh
    | noDisplay hb => exact absurd ⟨_, hb.toHeaded⟩ hh
    | noInput hb => exact absurd ⟨_, hb.toHeaded⟩ hh
    | device hb => exact absurd ⟨_, hb.toHeaded⟩ hh
    | noBody hb => exact absurd ⟨_, hb.toHeaded⟩ hh

/-! ## Main result -/

/-- **Exact acceptance and refusal.** Any bytes are refused with an error exactly if they have that fault, and taken as a
frame of the announced size exactly if they have none. So past the length check no reader runs out of bytes and no slice
is out of range, a home frame is never asked for a body, and what reserved bytes, surplus payload or bytes behind the
frame hold changes nothing. -/
theorem decode_exact (b : List UInt8) :
    (∀ err, decode b = .error err ↔ Fault b err) ∧
    (∀ n, (∃ e, decode b = .ok (e, n)) ↔ (∀ err, ¬ Fault b err) ∧ n = 16 + declared b) ∧
    ((∃ cause, decode b = .error (.malformedPayload cause)) ↔ ∃ t, Whole b t ∧ (declared b < 4 ∨ t ≠ .home ∧
      (declared b < 13 ∨ (∃ c, b[16 + 4]? = some c ∧ ¬ (1 ≤ c ∧ c ≤ 5)) ∨ declared b < 13 + (Part.body t).size))) ∧
    (16 ≤ b.length → ∀ needed got, decode b ≠ .error (.insufficientData needed got)) ∧
    decode b ≠ .error (.malformedPayload .homeBody) ∧
    ∀ b', Alike b b' → decode b' = decode b := by
  refine ⟨decode_error_iff b, fun n => ⟨?_, ?_⟩, ?_, fun hl needed got h => ?_, fun h => ?_, fun b' h => h.decode_eq⟩
  · rintro ⟨e, he⟩
    have hno : ∀ err, ¬ Fault b err := fun err hf => by rw [decode_of_fault hf] at he; cases he
    obtain ⟨e', he'⟩ := (ok_or_fault b).resolve_right fun ⟨err, hf⟩ => hno err hf
    rw [he'] at he
    cases he
    exact ⟨hno, rfl⟩
  · rintro ⟨hno, rfl⟩
    exact (ok_or_fault b).resolve_right fun ⟨err, hf⟩ => hno err hf
  · simp only [decode_error_iff]
    exact malformed_iff b
  · cases (decode_error_iff b _).1 h
    omega
  · cases (decode_error_iff b _).1 h

end InputRelay.Wire
