/-
Reading from the front of bytes of which more may come. A header is settled by sixteen bytes and a frame by as many as its
header announces: what comes behind changes neither (`decodeHeader_of_isPrefix`, `decode_of_isPrefix`). So an error says
whether waiting helps: bytes that lack a header or some of their payload may yet become a frame (`FrameError.wantsMore`),
all other errors are there to stay (`Fault.of_isPrefix`).
-/
import InputRelay.Proofs.Wire.Canonical

namespace InputRelay.Wire

/-- an error that more bytes may mend -/
def FrameError.wantsMore : FrameError → Bool
  | insufficientData .. => true
  | payloadLengthMismatch .. => true
  | unsupportedVersion _ => false
  | unknownMessageType _ => false
  | malformedPayload _ => false

variable {p b : List UInt8}

/-! ## Headers -/

theorem getElem?_of_isPrefix (h : p <+: b) {i : Nat} (hi : i < p.length) : b[i]? = p[i]? := by
  obtain ⟨t, rfl⟩ := h
  exact List.getElem?_append_left hi

/-- bytes in the middle are those of any prefix that has them -/
theorem slice_of_isPrefix (h : p <+: b) {start count : Nat} (hl : start + count ≤ p.length) :
    (b.drop start).take count = (p.drop start).take count := by
  obtain ⟨t, rfl⟩ := h
  rw [List.drop_append_of_le_length (by omega), List.take_append_of_le_length (by rw [List.length_drop]; omega)]

theorem declared_of_isPrefix (h : p <+: b) (hl : 16 ≤ p.length) : declared b = declared p :=
  congrArg BigEndian.number (slice_of_isPrefix h (by omega))

theorem numbered_of_isPrefix (h : p <+: b) (hl : 16 ≤ p.length) : numbered b = numbered p :=
  congrArg (fun bs => UInt64.ofNat (BigEndian.number bs)) (slice_of_isPrefix h hl)

/-- the header is the same in a prefix that has all of it -/
theorem headed_of_isPrefix (h : p <+: b) (hl : 16 ≤ p.length) {t : MessageType} : Headed b t ↔ Headed p t := by
  have hversion : b[0]? = p[0]? := getElem?_of_isPrefix h (by omega)
  have hkind : b[1]? = p[1]? := getElem?_of_isPrefix h (by omega)
  constructor
  · exact fun hb => ⟨hl, hversion.symm.trans hb.version, hkind.symm.trans hb.kind⟩
  · exact fun hp => ⟨hl.trans h.length_le, hversion.trans hp.version, hkind.trans hp.kind⟩

/-- a header is for one kind of message -/
theorem Headed.unique {t t' : MessageType} (h : Headed b t) (h' : Headed b t') : t = t' := by
  have hcode : some t.code = some t'.code := h.kind.symm.trans h'.kind
  have hkind := congrArg MessageType.ofCode? (Option.some.inj hcode)
  rw [MessageType.ofCode?_code, MessageType.ofCode?_code] at hkind
  exact Option.some.inj hkind

/-- bytes without a sound header are refused for it -/
theorem decodeHeader_of_fault {err : FrameError} (h : Fault b err) (hno : ∀ t, ¬ Headed b t) :
    decodeHeader b = .error err := by
  cases h with
  | short h => exact decodeHeader_short h
  | version h hv hne => exact decodeHeader_version h hv hne
  | kind h hv hc hne => exact decodeHeader_kind h hv hc hne
  | cut h => exact absurd h (hno _)
  | noDisplay h | noInput h | device h | noBody h => exact absurd h.toHeaded (hno _)

/-- what is read as a header is sound, and says what the bytes say -/
theorem headed_of_decodeHeader {header : Header} (h : decodeHeader b = .ok header) :
    Headed b header.type ∧ header = ⟨protocolVersion, header.type, declared b, numbered b⟩ := by
  by_cases hb : ∃ t, Headed b t
  · obtain ⟨t, ht⟩ := hb
    rw [ht.decodeHeader_eq] at h
    cases h
    exact ⟨ht, rfl⟩
  · have hno : ∀ t, ¬ Headed b t := fun t ht => hb ⟨t, ht⟩
    obtain ⟨err, hf⟩ : ∃ err, Fault b err := by
      by_cases hl : b.length < 16
      · exact ⟨_, .short hl⟩
      · exact (headed_or_fault (Nat.not_lt.1 hl)).resolve_left hb
    rw [decodeHeader_of_fault hf hno] at h
    cases h

/-- a header once read is the same whatever comes behind -/
theorem decodeHeader_of_isPrefix (h : p <+: b) {header : Header} (hp : decodeHeader p = .ok header) :
    decodeHeader b = .ok header := by
  obtain ⟨hheaded, hsays⟩ := headed_of_decodeHeader hp
  rw [((headed_of_isPrefix h hheaded.long).2 hheaded).decodeHeader_eq, declared_of_isPrefix h hheaded.long,
    numbered_of_isPrefix h hheaded.long]
  exact congrArg Except.ok hsays.symm

/-! ## Frames -/

/-- decoding does not look behind a whole frame -/
theorem decode_of_isPrefix (h : p <+: b) (hwhole : 16 + declared p ≤ p.length) : decode b = decode p := by
  have halike : Alike p b := by
    refine ⟨fun i hi => getElem?_of_isPrefix h ?_, Or.inr ⟨hwhole, hwhole.trans h.length_le⟩⟩
    rcases hi with ⟨hi, -⟩ | ⟨t, -, -, hi⟩ <;> omega
  exact halike.decode_eq

/-- an error that is not for want of bytes stays, whatever comes behind -/
theorem Fault.of_isPrefix (h : p <+: b) {err : FrameError} (hp : Fault p err) (hsettled : err.wantsMore = false) :
    decode b = .error err := by
  have hdecode := decode_of_fault hp
  cases hp with
  | short | cut => cases hsettled
  | version hl hv hne =>
    exact decode_of_fault (.version (hl.trans h.length_le) ((getElem?_of_isPrefix h (by omega)).trans hv) hne)
  | kind hl hv hc hne =>
    exact decode_of_fault (.kind (hl.trans h.length_le) ((getElem?_of_isPrefix h (by omega)).trans hv)
      ((getElem?_of_isPrefix h (by omega)).trans hc) hne)
  | noDisplay hw | noInput hw | device hw | noBody hw => exact (decode_of_isPrefix h hw.present).trans hdecode

/-- a frame once read is the same whatever comes behind, also if nothing does -/
theorem decode_append {e : Event} {n : Nat} (h : decode p = .ok (e, n)) (t : List UInt8) :
    decode (p ++ t) = .ok (e, n) ∧ decode (p.take n) = .ok (e, n) := by
  obtain ⟨hw, -, rfl⟩ := whole_of_decode h
  have hfront : p.take (16 + declared p) <+: p := List.take_prefix _ _
  have hlength : (p.take (16 + declared p)).length = 16 + declared p := by
    rw [List.length_take, Nat.min_eq_left hw.present]
  have hannounced : declared (p.take (16 + declared p)) = declared p :=
    (declared_of_isPrefix hfront (by rw [hlength]; omega)).symm
  refine ⟨(decode_of_isPrefix (List.prefix_append p t) hw.present).trans h, ?_⟩
  rw [← decode_of_isPrefix hfront (by rw [hannounced, hlength]), h]

/-- under a sound header, bytes are a cut frame, or want no more of them -/
theorem Headed.settled {t : MessageType} (h : Headed b t) (hl : 16 + declared b ≤ b.length) {err : FrameError}
    (herr : decode b = .error err) : err.wantsMore = false := by
  cases (decode_error_iff b err).1 herr with
  | short hs => exact absurd h.long (Nat.not_le.2 hs)
  | cut _ hc => exact absurd hl (Nat.not_le.2 hc)
  | _ => rfl

/-! ## Main result -/

/-- **Reading as bytes arrive.** Take any bytes and any that come behind them. A frame that is read from the first is read
from both, and from its own bytes alone. An error that does not want for more bytes stays the same. A header once read stays
the same, and its length is the whole truth: as long as bytes of the payload that it announces are missing, decoding fails
for that, and from then on it never fails for want of bytes; if it succeeds, it takes the header and the announced payload,
and gives an event of the announced kind. -/
theorem decode_arriving (a t : List UInt8) :
    (∀ e n, decode a = .ok (e, n) → decode (a ++ t) = .ok (e, n) ∧ decode (a.take n) = .ok (e, n)) ∧
    (∀ err, decode a = .error err → err.wantsMore = false → decode (a ++ t) = .error err) ∧
    ∀ header, decodeHeader a = .ok header →
      decodeHeader (a ++ t) = .ok header ∧
      ((a ++ t).length < headerSize + header.payloadLength →
        decode (a ++ t) = .error (.payloadLengthMismatch header.payloadLength ((a ++ t).length - headerSize))) ∧
      (headerSize + header.payloadLength ≤ (a ++ t).length →
        (∀ err, decode (a ++ t) = .error err → err.wantsMore = false) ∧
        ∀ e n, decode (a ++ t) = .ok (e, n) → n = headerSize + header.payloadLength ∧ e.messageType = header.type) := by
  have hprefix : a <+: a ++ t := List.prefix_append a t
  refine ⟨fun e n h => decode_append h t, fun err h => ((decode_error_iff a err).1 h).of_isPrefix hprefix, ?_⟩
  intro header hheader
  have hboth := decodeHeader_of_isPrefix hprefix hheader
  obtain ⟨hheaded, hsays⟩ := headed_of_decodeHeader hboth
  have hannounced : header.payloadLength = declared (a ++ t) := congrArg Header.payloadLength hsays
  rw [hannounced]
  refine ⟨hboth, fun hcut => decode_of_fault (.cut hheaded hcut), fun hwhole => ⟨fun err => hheaded.settled hwhole, ?_⟩⟩
  intro e n he
  obtain ⟨hw, -, hn⟩ := whole_of_decode he
  exact ⟨hn, hw.unique hheaded⟩

end InputRelay.Wire
