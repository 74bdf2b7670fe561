import Homescope.BodyGrammar
import Homescope.ReadingPath

/-! How `SensorPacket::encode` uses the buffer that it is given. -/

namespace Homescope

/-- The AEAD encrypts every text that a buffer of `room` bytes holds. -/
def Aead.Encrypts (aead : Aead) (room : Nat) : Prop :=
  ∀ key nonce ad plaintext : List Byte, plaintext.length ≤ room →
    ∃ out, aead.encrypt key nonce ad plaintext = some out

namespace Measurement

theorem encode_short {m : Measurement} {out : List Byte} (h : out.length < 3) :
    m.encode out = .error .mk := by
  cases out with
  | nil => rfl
  | cons b payload =>
    have hlen : payload.length < 2 := Nat.lt_of_succ_lt_succ h
    have hshort : m.encodeValue payload = .error .mk := by
      cases m <;> exact Wire.encode_short hlen
    rw [encode, hshort]

theorem encode_eq (m : Measurement) (out : List Byte) : m.encode out =
    if 3 ≤ out.length then .ok (m.bytes ++ out.drop 3, 3) else .error .mk := by
  split
  · rename_i hlen
    obtain ⟨front, rest, rfl, hfront⟩ := exists_chunk 3 out hlen
    rw [List.drop_left' hfront]
    exact m.encode_append hfront rest
  · exact encode_short (by omega)

end Measurement

namespace SensorPacket

/-- Every slice `body_buf[measurements_written..]` that the loop takes begins inside the buffer. -/
def SlicesInside : List Measurement → List Byte → Nat → Prop
  | [], _, _ => True
  | m :: measurements, bodyBuf, written =>
    written ≤ bodyBuf.length ∧ ∀ rest n, m.encode (bodyBuf.drop written) = .ok (rest, n) →
      SlicesInside measurements (bodyBuf.take written ++ rest) (written + n)

theorem slicesInside (ms : List Measurement) (bodyBuf : List Byte) {written : Nat}
    (h : written ≤ bodyBuf.length) : SlicesInside ms bodyBuf written := by
  induction ms generalizing bodyBuf written with
  | nil => trivial
  | cons m ms ih =>
    refine ⟨h, fun rest n hm => ih _ ?_⟩
    rw [Measurement.encode_eq] at hm
    split at hm
    · rename_i hlen
      cases hm
      rw [List.length_drop] at hlen
      have hbytes : m.bytes.length = 3 := m.bytes_length
      simp only [List.length_append, List.length_take, List.length_drop, hbytes]
      omega
    · cases hm

theorem writeMeasurements_short (ms : List Measurement) (done : List Byte) {room : List Byte}
    (h : room.length < 3 * ms.length) :
    writeMeasurements ms (done ++ room) done.length = .error .mk := by
  induction ms generalizing done room with
  | nil => exact absurd h (Nat.not_lt_zero _)
  | cons m ms ih =>
    rw [List.length_cons] at h
    simp only [writeMeasurements, List.drop_left, List.take_left, Measurement.encode_eq]
    split
    · rename_i e he
      split at he
      · cases he
      · exact congrArg _ (Except.error.inj he).symm
    · rename_i rest n hok
      split at hok
      · rename_i hlen
        cases hok
        have hrest : (room.drop 3).length < 3 * ms.length := by
          rw [List.length_drop]
          omega
        have hnext := ih (done ++ m.bytes) hrest
        have hbytes : m.bytes.length = 3 := m.bytes_length
        rwa [List.length_append, hbytes, List.append_assoc] at hnext
      · cases hok

variable {aead : Aead} {seq : Word} {ms : List Measurement} {cipher : PacketCipher}

/-- Too short a buffer is reported, whichever part of the packet it cuts. -/
theorem encode_short {out : List Byte} (h : out.length < 5 + 3 * ms.length + 16) :
    encode aead seq ms out cipher = .error (.outputBufferTooSmall .mk) := by
  rcases splitFirstChunk_cases verSize out with ⟨-, hnone⟩ | ⟨a, out, rfl, ha⟩
  · simp only [encode, hnone]
  rcases splitFirstChunk_cases seqSize out with ⟨-, hnone⟩ | ⟨b, out, rfl, hb⟩
  · simp only [encode, splitFirstChunk_append ha, hnone]
  rw [List.length_append, List.length_append, ha, hb] at h
  by_cases hbody : out.length < 3 * ms.length
  · have hwrite := writeMeasurements_short ms [] hbody
    rw [List.nil_append, List.length_nil] at hwrite
    simp only [encode, splitFirstChunk_append ha, splitFirstChunk_append hb, hwrite]
  · have hlen := V1.length_flatMap_bytes ms
    obtain ⟨c, rest, rfl, hc⟩ := exists_chunk (ms.flatMap Measurement.bytes).length out (by omega)
    have hwrite := writeMeasurements_append ms [] hc rest
    simp only [List.nil_append, List.length_nil, Nat.zero_add] at hwrite
    have htag : splitFirstChunk aeadTagSize rest = none := by
      rw [splitFirstChunk_eq_none]
      rw [List.length_append] at h
      change 1 + (4 + _) < _ at h
      change _ < 16
      omega
    simp only [encode, splitFirstChunk_append ha, splitFirstChunk_append hb, hwrite,
      splitFirstChunk_append rfl, htag]

theorem encodeAir_short {out : List Byte} (h : out.length < 7 + 3 * ms.length + 16) :
    encodeAir aead seq ms out cipher = .error (.outputBufferTooSmall .mk) := by
  rcases splitFirstChunk_cases airMagic.length out with ⟨-, hnone⟩ | ⟨a, out, rfl, ha⟩
  · simp only [encodeAir, hnone]
  · rw [List.length_append, ha] at h
    change 2 + _ < _ at h
    have hshort : out.length < 5 + 3 * ms.length + 16 := by omega
    simp only [encodeAir, splitFirstChunk_append ha, encode_short hshort]

/-- A long enough buffer takes the whole packet, and nothing behind it is written. -/
theorem encode_room (seq : Word) (cipher : PacketCipher) {out : List Byte} (henc : aead.Encrypts out.length)
    (h : 5 + 3 * ms.length + 16 ≤ out.length) :
    ∃ data tag, cipher.encryptInPlace aead V1.version seq (ms.flatMap Measurement.bytes) =
        .ok (data, tag) ∧
      encode aead seq ms out cipher =
        .ok ((SensorPacket.mk V1.version seq (data ++ tag)).bytes ++ out.drop (5 + 3 * ms.length + 16),
          5 + 3 * ms.length + 16) := by
  have hlen := V1.length_flatMap_bytes ms
  obtain ⟨⟨data, tag⟩, hsealed⟩ := henc cipher.key.bytes (PacketCipher.nonce seq)
    (cipher.associatedData seq V1.version) (ms.flatMap Measurement.bytes) (by omega)
  have hseal : cipher.encryptInPlace aead V1.version seq (ms.flatMap Measurement.bytes) =
      .ok (data, tag) := by
    rw [PacketCipher.encryptInPlace, hsealed]
  obtain ⟨front, rest, rfl, hfront⟩ := exists_chunk (5 + 3 * ms.length + 16) out h
  have hsize : front.length = overheadSize + (ms.flatMap Measurement.bytes).length + aeadTagSize := by
    rw [hfront, hlen]
    rfl
  refine ⟨data, tag, hseal, ?_⟩
  rw [List.drop_left' hfront, encode_append hseal hsize rest, hfront]

theorem encodeAir_room (seq : Word) (cipher : PacketCipher) {out : List Byte} (henc : aead.Encrypts out.length)
    (h : 7 + 3 * ms.length + 16 ≤ out.length) :
    ∃ data tag, cipher.encryptInPlace aead V1.version seq (ms.flatMap Measurement.bytes) =
        .ok (data, tag) ∧
      encodeAir aead seq ms out cipher =
        .ok (airMagic ++ (SensorPacket.mk V1.version seq (data ++ tag)).bytes ++
          out.drop (7 + 3 * ms.length + 16), 7 + 3 * ms.length + 16) := by
  obtain ⟨a, out, rfl, ha⟩ := exists_chunk airMagic.length out (by
    change 2 ≤ _
    omega)
  have hmagic : airMagic.length = 2 := rfl
  rw [List.length_append, ha, hmagic] at h
  obtain ⟨data, tag, hseal, hencode⟩ := encode_room seq cipher
    (fun key nonce ad plaintext hlen => henc key nonce ad plaintext (by
      rw [List.length_append]
      omega)) (show 5 + 3 * ms.length + 16 ≤ out.length by omega)
  have hneed : 7 + 3 * ms.length + 16 = airMagic.length + (5 + 3 * ms.length + 16) := by
    rw [hmagic]
    omega
  refine ⟨data, tag, hseal, ?_⟩
  rw [hneed, drop_append_add ha, List.append_assoc]
  simp only [encodeAir, splitFirstChunk_append ha, hencode]

theorem length_bytes_sealed {data tag : List Byte}
    (hseal : cipher.encryptInPlace aead V1.version seq (ms.flatMap Measurement.bytes) =
      .ok (data, tag)) :
    (SensorPacket.mk V1.version seq (data ++ tag)).bytes.length = 5 + 3 * ms.length + 16 := by
  obtain ⟨hdata, htag⟩ := PacketCipher.encryptInPlace_length hseal
  rw [bytes_length, List.length_append, hdata, htag, V1.length_flatMap_bytes, ← Nat.add_assoc]
  rfl

/-! ### Decoding what was written -/

theorem length_le_of_nodup (h : (ms.map Measurement.id).Nodup) : ms.length ≤ 3 := by
  have hsub : ms.map Measurement.id ⊆ [.battery, .temperature, .humidity] := by
    intro k _
    cases k <;> simp
  have hle := (List.subperm_of_subset h hsub).length_le
  rwa [List.length_map] at hle

/-- The bytes are a packet with this `seq`, which decodes to slots that hold the measurements. -/
def Decodes (aead : Aead) (cipher : PacketCipher) (seq : Word) (ms : List Measurement)
    (bytes : List Byte) : Prop :=
  ∃ packet metrics, parse bytes = .ok packet ∧ packet.seq = seq ∧
    packet.decode aead cipher = .ok metrics ∧ V1.Holds metrics ms

theorem decodes_iff (hl : aead.Lawful) {data tag : List Byte}
    (hseal : cipher.encryptInPlace aead V1.version seq (ms.flatMap Measurement.bytes) =
      .ok (data, tag)) :
    Decodes aead cipher seq ms (SensorPacket.mk V1.version seq (data ++ tag)).bytes ↔
      V1.WellFormed ms := by
  constructor
  · rintro ⟨packet, metrics, hparse, -, hdecode, -⟩
    obtain rfl := Except.ok.inj ((parse_bytes _).symm.trans hparse)
    rw [decode] at hdecode
    split at hdecode
    · cases hdecode
    simp only [PacketCipher.decrypt_encrypt hl hseal, if_true] at hdecode
    obtain ⟨items, hitems, hbytes, -⟩ := V1.decode_eq_ok.mp hdecode
    rwa [V1.flatMap_bytes_injective hbytes]
  · rintro ⟨hne, hnodup⟩
    obtain ⟨hdata, htag⟩ := PacketCipher.encryptInPlace_length hseal
    have hlen : (data ++ tag).length ≤ maxBodyLen := by
      have hle := length_le_of_nodup hnodup
      rw [List.length_append, hdata, htag, V1.length_flatMap_bytes]
      change _ ≤ 3 * 3 + aeadTagSize
      omega
    obtain ⟨metrics, hdecode, hholds⟩ := decode_sealed hl hseal hlen hne hnodup
    exact ⟨_, metrics, parse_bytes _, rfl, hdecode, hholds⟩

/-- The encoders use the bytes that the packet takes, and no others; what they write is decoded when
the kinds of the measurements are distinct, and there is one. -/
theorem encode_exact (hl : aead.Lawful) {out : List Byte} (henc : aead.Encrypts out.length)
    (seq : Word) (ms : List Measurement) (cipher : PacketCipher) :
    (SlicesInside ms (out.drop 5) 0 ∧ SlicesInside ms (out.drop 7) 0) ∧
    ((∃ out' n, encode aead seq ms out cipher = .ok (out', n)) ↔
      5 + 3 * ms.length + 16 ≤ out.length) ∧
    (∀ out' n, encode aead seq ms out cipher = .ok (out', n) →
      n = 5 + 3 * ms.length + 16 ∧ out'.length = out.length ∧ out'.drop n = out.drop n ∧
        (Decodes aead cipher seq ms (out'.take n) ↔ V1.WellFormed ms)) ∧
    ((∃ out' n, encodeAir aead seq ms out cipher = .ok (out', n)) ↔
      7 + 3 * ms.length + 16 ≤ out.length) ∧
    ∀ out' n, encodeAir aead seq ms out cipher = .ok (out', n) →
      n = 7 + 3 * ms.length + 16 ∧ out'.length = out.length ∧ out'.drop n = out.drop n ∧
        ∃ bytes, stripAirMagic (out'.take n) = .ok bytes ∧
          (Decodes aead cipher seq ms bytes ↔ V1.WellFormed ms) := by
  refine ⟨⟨slicesInside ms _ (Nat.zero_le _), slicesInside ms _ (Nat.zero_le _)⟩, ?_, ?_, ?_, ?_⟩
  · by_cases h : 5 + 3 * ms.length + 16 ≤ out.length
    · obtain ⟨data, tag, -, hencode⟩ := encode_room seq cipher henc h
      exact iff_of_true ⟨_, _, hencode⟩ h
    · rw [encode_short (Nat.lt_of_not_le h)]
      exact iff_of_false nofun h
  · intro out' n hout
    by_cases h : 5 + 3 * ms.length + 16 ≤ out.length
    · obtain ⟨data, tag, hseal, hencode⟩ := encode_room seq cipher henc h
      obtain ⟨rfl, rfl⟩ := Prod.ext_iff.mp (Except.ok.inj (hencode.symm.trans hout))
      have hlen := length_bytes_sealed hseal
      refine ⟨rfl, ?_, List.drop_left' hlen, ?_⟩
      · rw [List.length_append, hlen, List.length_drop]
        omega
      · rw [List.take_left' hlen]
        exact decodes_iff hl hseal
    · rw [encode_short (Nat.lt_of_not_le h)] at hout
      cases hout
  · by_cases h : 7 + 3 * ms.length + 16 ≤ out.length
    · obtain ⟨data, tag, -, hencode⟩ := encodeAir_room seq cipher henc h
      exact iff_of_true ⟨_, _, hencode⟩ h
    · rw [encodeAir_short (Nat.lt_of_not_le h)]
      exact iff_of_false nofun h
  · intro out' n hout
    by_cases h : 7 + 3 * ms.length + 16 ≤ out.length
    · obtain ⟨data, tag, hseal, hencode⟩ := encodeAir_room seq cipher henc h
      obtain ⟨rfl, rfl⟩ := Prod.ext_iff.mp (Except.ok.inj (hencode.symm.trans hout))
      have hmagic : airMagic.length = 2 := rfl
      have hlen : (airMagic ++ (SensorPacket.mk V1.version seq (data ++ tag)).bytes).length =
          7 + 3 * ms.length + 16 := by
        rw [List.length_append, length_bytes_sealed hseal, hmagic]
        omega
      refine ⟨rfl, ?_, List.drop_left' hlen, _, ?_, decodes_iff hl hseal⟩
      · rw [List.length_append, hlen, List.length_drop]
        omega
      · rw [List.take_left' hlen, stripAirMagic_append]
    · rw [encodeAir_short (Nat.lt_of_not_le h)] at hout
      cases hout

theorem encode_exact_sensed : ∃ out' n,
    encodeAir ReadingPath.sampleAead 5 ReadingPath.sensed (List.replicate 40 0)
        ReadingPath.sensorCipher = .ok (out', n) ∧ n = 32 ∧ out'.drop 32 = List.replicate 8 0 ∧
      ∃ bytes, stripAirMagic (out'.take n) = .ok bytes ∧
        Decodes ReadingPath.sampleAead ReadingPath.sensorCipher 5 ReadingPath.sensed bytes := by
  have henc : ReadingPath.sampleAead.Encrypts (List.replicate 40 (0 : Byte)).length := fun key nonce ad plaintext _ => by
    cases hvector : (Aead.ofVectors [ReadingPath.sensedVector]).encrypt key nonce ad plaintext with
    | none => exact ⟨_, Option.or_eq_some_iff.mpr (.inr ⟨hvector, rfl⟩)⟩
    | some sealedData => exact ⟨_, Option.or_eq_some_iff.mpr (.inl hvector)⟩
  obtain ⟨-, -, -, hair, hwritten⟩ := encode_exact ReadingPath.sampleAead_lawful
    henc 5 ReadingPath.sensed ReadingPath.sensorCipher
  obtain ⟨out', n, hout⟩ := hair.mpr (by decide)
  obtain ⟨hn, -, hdrop, bytes, hstrip, hdecodes⟩ := hwritten _ _ hout
  have hn : n = 32 := hn
  subst hn
  exact ⟨out', _, hout, rfl, hdrop, bytes, hstrip, hdecodes.mpr ⟨by decide, by decide⟩⟩

end SensorPacket

end Homescope
