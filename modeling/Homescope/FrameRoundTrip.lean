import Homescope.Crc16
import Homescope.Observation

/-! Framing and parsing undo each other. -/

namespace Homescope.Frame

variable {crc16 : List Byte → BitVec 16}

/-- `x` writes `payload` to the front of every buffer that holds it, and fails on the others. -/
structure Encode.Writes {T : Type} [Encode T] (x : T) (payload : List Byte) : Prop where
  fits : ∀ room : List Byte, payload.length ≤ room.length → ∃ buf,
    Encode.encode x room = .ok (buf, payload.length) ∧ buf.length = room.length ∧
      buf.take payload.length = payload
  short : ∀ room : List Byte, room.length < payload.length →
    Encode.encode x room = .error BufferTooSmall.mk

theorem encode_of_writes (crc16 : List Byte → BitVec 16) {T : Type} [Encode T] {x : T}
    {payload out : List Byte}
    (hx : Encode.Writes x payload) (h : overhead + payload.length ≤ out.length) :
    ∃ out', encode crc16 out x = .ok (out', overhead + payload.length) ∧
      out'.length = out.length ∧
      out'.take (overhead + payload.length) = frameOf crc16 payload := by
  have hsize : overhead = magicBytes.length + payloadLenSize + crcLen := rfl
  obtain ⟨a, out, rfl, ha⟩ := exists_chunk magicBytes.length out (by omega)
  rw [List.length_append] at h
  obtain ⟨b, out, rfl, hb⟩ := exists_chunk payloadLenSize out (by omega)
  rw [List.length_append] at h
  obtain ⟨buf, hbuf, hlen, htake⟩ := hx.fits out (by omega)
  obtain ⟨c, rest, hrest, hc⟩ := exists_chunk crcLen (buf.drop payload.length)
    (by rw [List.length_drop]; omega)
  have hrestlen := congrArg List.length hrest
  rw [List.length_drop, List.length_append] at hrestlen
  rw [encode_eq ha hb hbuf, hrest, splitFirstChunk_append hc]
  refine ⟨_, rfl, ?_, ?_⟩
  · simp only [htake, List.length_append, toLeBytes_length]
    omega
  · rw [htake]
    exact List.take_left' (frameOf_length crc16 payload)

theorem encode_of_short {T : Type} [Encode T] {x : T} {payload out : List Byte}
    (hx : Encode.Writes x payload) (h : out.length < overhead + payload.length) :
    encode crc16 out x = .error .mk := by
  have hsize : overhead = magicBytes.length + payloadLenSize + crcLen := rfl
  rcases splitFirstChunk_cases magicBytes.length out with ⟨-, hnone⟩ | ⟨a, out, rfl, ha⟩
  · rw [encode, hnone]
  rcases splitFirstChunk_cases payloadLenSize out with ⟨-, hnone⟩ | ⟨b, out, rfl, hb⟩
  · simp only [encode, splitFirstChunk_append ha, hnone]
  rw [List.length_append, List.length_append] at h
  by_cases hfit : payload.length ≤ out.length
  · obtain ⟨buf, hbuf, hlen, -⟩ := hx.fits out hfit
    have hnone : splitFirstChunk crcLen (buf.drop payload.length) = none := by
      rw [splitFirstChunk_eq_none, List.length_drop]
      omega
    rw [encode_eq ha hb hbuf, hnone]
  · simp only [encode, splitFirstChunk_append ha, splitFirstChunk_append hb,
      hx.short out (Nat.lt_of_not_le hfit)]

/-- A buffer that parses begins with the frame of its payload. -/
theorem take_of_parse_ok {bytes payload : List Byte} {n : Nat}
    (h : parse crc16 bytes = .ok payload n) :
    payload.length ≤ maxPayloadLen ∧ bytes.take n = frameOf crc16 payload := by
  have hv := parse_view crc16 bytes
  rw [h] at hv
  cases hv with
  | @ok len _ crc rest hlen hpayload hmax hcrc hgood =>
    have hlen' : toLeBytes payloadLenSize payload.length = len := by
      rw [hpayload, ← hlen]
      exact toLeBytes_fromLeBytes len
    have hcrc' : toLeBytes crcLen (crc16 (len ++ payload)).toNat = crc := by
      rw [← hgood]
      exact toLeBytes_ofNat_fromLeBytes rfl hcrc
    refine ⟨hpayload ▸ hmax, ?_⟩
    have hframe : frameOf crc16 payload = magicBytes ++ (len ++ (payload ++ crc)) := by
      rw [frameOf, hlen', hcrc', List.append_assoc, List.append_assoc]
    have hsplit : magicBytes ++ (len ++ (payload ++ (crc ++ rest))) =
        frameOf crc16 payload ++ rest := by
      simp only [hframe, List.append_assoc]
    rw [hsplit]
    exact List.take_left' (frameOf_length crc16 payload)

/-- What has been read of a frame is neither rejected nor taken for a shorter one: either verdict
would stay when the rest arrives. -/
theorem parse_take_frameOf {payload : List Byte} (h : payload.length ≤ maxPayloadLen) {k : Nat}
    (hk : k < overhead + payload.length) :
    parse crc16 ((frameOf crc16 payload).take k) = .incomplete := by
  have hwhole : parse crc16 (frameOf crc16 payload ++ []) = .ok payload (overhead + payload.length) :=
    parse_frameOf h []
  rw [List.append_nil, ← List.take_append_drop k (frameOf crc16 payload)] at hwhole
  cases hpart : parse crc16 ((frameOf crc16 payload).take k) with
  | incomplete => rfl
  | ok p n =>
    obtain ⟨-, hle, hmore⟩ := parse_ok hpart
    rw [hmore] at hwhole
    cases hwhole
    rw [List.length_take] at hle
    omega
  | corrupt e d =>
    rw [parse_append_corrupt hpart] at hwhole
    cases hwhole

/-- A payload goes through a frame and comes back, and nothing else is read as a frame. -/
theorem encode_parse {T : Type} [Encode T] {x : T} {payload : List Byte}
    (hx : Encode.Writes x payload) (h : payload.length ≤ 1024) :
    (∀ out : List Byte, (∃ out' n, encode crc16 out x = .ok (out', n)) ↔
      6 + payload.length ≤ out.length) ∧
    (∀ out out' n, encode crc16 out x = .ok (out', n) →
      n = 6 + payload.length ∧ out'.length = out.length ∧
      out'.take n = frameOf crc16 payload ∧
      (∀ suffix, parse crc16 (out'.take n ++ suffix) = .ok payload n) ∧
      ∀ k < n, parse crc16 (out'.take k) = .incomplete) ∧
    ∀ bytes p n, parse crc16 bytes = .ok p n →
      p.length ≤ 1024 ∧ n = 6 + p.length ∧ bytes.take n = frameOf crc16 p := by
  refine ⟨fun out => ?_, fun out out' n henc => ?_, fun bytes p n hp => ?_⟩
  · constructor
    · rintro ⟨out', n, henc⟩
      by_contra hlt
      rw [encode_of_short hx (Nat.lt_of_not_le hlt)] at henc
      cases henc
    · intro hle
      obtain ⟨out', henc, -⟩ := encode_of_writes crc16 hx hle
      exact ⟨out', _, henc⟩
  · by_cases hle : overhead + payload.length ≤ out.length
    · obtain ⟨buf, hbuf, hlen, htake⟩ := encode_of_writes crc16 hx hle
      rw [hbuf] at henc
      cases henc
      refine ⟨rfl, hlen, htake, fun suffix => ?_, fun k hk => ?_⟩
      · rw [htake]
        exact parse_frameOf h suffix
      · have hcut : parse crc16 ((frameOf crc16 payload).take k) = .incomplete := parse_take_frameOf h hk
        rw [← hcut, ← htake, List.take_take, Nat.min_eq_left hk.le]
    · rw [encode_of_short hx (Nat.lt_of_not_le hle)] at henc
      cases henc
  · obtain ⟨hlen, htake⟩ := take_of_parse_ok hp
    exact ⟨hlen, (parse_ok hp).1, htake⟩

/-- An observation is such a payload. -/
theorem writes_observation (o : SensorObservation) : Encode.Writes o o.bytes where
  fits room h := by
    rw [SensorObservation.bytes_length] at h ⊢
    refine ⟨o.bytes ++ room.drop (SensorObservation.headerLen + o.packet.length), ?_, ?_, ?_⟩
    · exact (SensorObservation.encode_eq o room).trans (if_pos h)
    · rw [List.length_append, List.length_drop, SensorObservation.bytes_length]
      omega
    · exact List.take_left' o.bytes_length
  short room h := by
    rw [SensorObservation.bytes_length] at h
    exact (SensorObservation.encode_eq o room).trans (if_neg (Nat.not_le.mpr h))

def testObservation : SensorObservation where
  deviceAddr := .testAddr
  ageMs := 555
  rssi := ⟨-50⟩
  packet := [0xca, 0xfe, 0x12, 0x34, 0x56, 0x78]

theorem encode_parse_observation : ∃ out' n,
    encode crc16IbmSdlc (List.replicate 23 0) testObservation = .ok (out', n) ∧ n = 23 ∧
      parse crc16IbmSdlc (out'.take n ++ [0x48]) = .ok testObservation.bytes n ∧
      parse crc16IbmSdlc (out'.take 22) = .incomplete := by
  obtain ⟨hfits, hround, -⟩ := @encode_parse crc16IbmSdlc SensorObservation _ testObservation _
    (writes_observation testObservation) (by decide)
  obtain ⟨out', n, henc⟩ := (hfits (List.replicate 23 0)).mpr (by decide)
  obtain ⟨hn, -, -, hsuffix, hprefix⟩ := hround _ _ _ henc
  exact ⟨out', n, henc, hn, hsuffix [0x48], hprefix 22 (by rw [hn]; decide)⟩

end Homescope.Frame
