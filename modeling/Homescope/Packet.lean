import Homescope.Cipher
import Homescope.Measurement

/-! The air packet `[ver][seq][sealed body]` (`common/src/packet.rs`) and its
version 1 body (`common/src/packet/v1.rs`). -/

namespace Homescope

/-- `HP`. -/
def airMagic : List Byte := [0x48, 0x50]

/-- One packet's measurements in their slots. -/
structure Metrics where
  battery : Option Millivolts := none
  temperature : Option CentiCelsius := none
  relativeHumidity : Option CentiPercent := none
  deriving DecidableEq, Repr

namespace SensorPacket

inductive StripAirMagicError
  | truncated (e : Truncated)
  | invalidPrefix
  deriving DecidableEq, Repr

inductive DecodeError
  | header (e : Truncated)
  | unsupportedVersion (ver : Byte)
  | measurement (e : Measurement.DecodeError)
  | duplicate (m : Measurement)
  | empty
  | tooLong
  | decryption (e : DecryptionError)
  deriving DecidableEq, Repr

inductive EncodeError
  | outputBufferTooSmall (e : BufferTooSmall)
  | encryption (e : EncryptionError)
  deriving DecidableEq, Repr

end SensorPacket

namespace V1

open SensorPacket (DecodeError)

def version : Byte := 1

/-- The items of the `Measurements` iterator; an error is its last one. Every
item takes at least its id byte off, so the length of the body is fuel enough. -/
def measurements : Nat → List Byte → List (Except Measurement.DecodeError Measurement)
  | 0, _ => []
  | _ + 1, [] => []
  | fuel + 1, rest =>
    match Measurement.decode rest with
    | .ok (m, bytesRead) => .ok m :: measurements fuel (rest.drop bytesRead)
    | .error e => [.error e]

def set {T : Type} (slot : Option T) (val : T) (wrap : T → Measurement) :
    Except DecodeError (Option T) :=
  if slot.isSome then .error (.duplicate (wrap val)) else .ok (some val)

/-- One turn of the loop over the measurements. -/
def put (metrics : Metrics) : Measurement → Except DecodeError Metrics
  | .battery bat => do
    let slot ← set metrics.battery bat .battery
    return { metrics with battery := slot }
  | .temperature temp => do
    let slot ← set metrics.temperature temp .temperature
    return { metrics with temperature := slot }
  | .humidity rh => do
    let slot ← set metrics.relativeHumidity rh .humidity
    return { metrics with relativeHumidity := slot }

def fold : List (Except Measurement.DecodeError Measurement) → Metrics → Bool →
    Except DecodeError (Metrics × Bool)
  | [], metrics, hasMeasurements => .ok (metrics, hasMeasurements)
  | .error e :: _, _, _ => .error (.measurement e)
  | .ok m :: items, metrics, _ => do fold items (← put metrics m) true

def decode (body : List Byte) : Except DecodeError Metrics := do
  let (metrics, hasMeasurements) ← fold (measurements body.length body) {} false
  if hasMeasurements then return metrics else throw .empty

end V1

structure SensorPacket where
  ver : Byte
  seq : Word
  body : List Byte
  deriving DecidableEq

namespace SensorPacket

def seqSize : Nat := 4

def verSize : Nat := 1

def overheadSize : Nat := seqSize + verSize

def maxBodyLen : Nat := Measurement.maxEncodedLen * Measurement.variantCount + aeadTagSize

def maxEncodedLen : Nat := maxBodyLen + overheadSize

def maxAirLen : Nat := airMagic.length + maxEncodedLen

/-- What one advertising structure can carry. -/
def maxWireLen : Nat := 252

def parse : List Byte → Except Truncated SensorPacket
  | [] => .error .mk
  | ver :: rest =>
    match splitFirstChunk seqSize rest with
    | none => .error .mk
    | some (seqBytes, body) =>
      .ok { ver, seq := BitVec.ofNat 32 (fromLeBytes seqBytes), body }

def stripAirMagic (bytes : List Byte) : Except StripAirMagicError (List Byte) :=
  if bytes.length < airMagic.length then
    .error (.truncated .mk)
  else if bytes.take airMagic.length = airMagic then
    .ok (bytes.drop airMagic.length)
  else
    .error .invalidPrefix

variable (aead : Aead)

def decode (packet : SensorPacket) (cipher : PacketCipher) : Except DecodeError Metrics :=
  if maxBodyLen < packet.body.length then
    .error .tooLong
  else
    match cipher.decryptInPlace aead packet.ver packet.seq packet.body with
    | .error e => .error (.decryption e)
    | .ok plaintext =>
      if packet.ver = V1.version then V1.decode plaintext
      else .error (.unsupportedVersion packet.ver)

/-- The loop that writes the measurements behind each other. -/
def writeMeasurements : List Measurement → List Byte → Nat → Except BufferTooSmall (List Byte × Nat)
  | [], bodyBuf, written => .ok (bodyBuf, written)
  | m :: measurements, bodyBuf, written =>
    match m.encode (bodyBuf.drop written) with
    | .error e => .error e
    | .ok (rest, n) => writeMeasurements measurements (bodyBuf.take written ++ rest) (written + n)

def encode (seq : Word) (measurements : List Measurement) (out : List Byte)
    (cipher : PacketCipher) : Except EncodeError (List Byte × Nat) :=
  let ver := V1.version
  match splitFirstChunk verSize out with
  | none => .error (.outputBufferTooSmall .mk)
  | some (_, rest) =>
    match splitFirstChunk seqSize rest with
    | none => .error (.outputBufferTooSmall .mk)
    | some (_, bodyBuf) =>
      match writeMeasurements measurements bodyBuf 0 with
      | .error e => .error (.outputBufferTooSmall e)
      | .ok (bodyBuf, written) =>
        match splitFirstChunk written bodyBuf with
        | none => .error (.outputBufferTooSmall .mk)
        | some (dataBuf, rest) =>
          match splitFirstChunk aeadTagSize rest with
          | none => .error (.outputBufferTooSmall .mk)
          | some (_, rest) =>
            match cipher.encryptInPlace aead ver seq dataBuf with
            | .error e => .error (.encryption e)
            | .ok (dataBuf, tagBuf) =>
              .ok (ver :: toLeBytes seqSize seq.toNat ++ dataBuf ++ tagBuf ++ rest,
                overheadSize + written + aeadTagSize)

def encodeAir (seq : Word) (measurements : List Measurement) (out : List Byte)
    (cipher : PacketCipher) : Except EncodeError (List Byte × Nat) :=
  match splitFirstChunk airMagic.length out with
  | none => .error (.outputBufferTooSmall .mk)
  | some (_, rest) =>
    match encode aead seq measurements rest cipher with
    | .error e => .error e
    | .ok (rest, n) => .ok (airMagic ++ rest, airMagic.length + n)

end SensorPacket

/-- The slot that a kind of measurement is kept in. -/
def Metrics.slot (metrics : Metrics) : MeasurementId → Option Measurement
  | .battery => metrics.battery.map .battery
  | .temperature => metrics.temperature.map .temperature
  | .humidity => metrics.relativeHumidity.map .humidity

namespace V1

theorem measurements_append (ms : List Measurement) (fuel : Nat) (tail : List Byte) :
    measurements (ms.length + fuel) (ms.flatMap Measurement.bytes ++ tail) =
      ms.map .ok ++ measurements fuel tail := by
  induction ms with
  | nil =>
    rw [List.length_nil, Nat.zero_add]
    rfl
  | cons m ms ih =>
    have hdecode := m.decode_bytes (ms.flatMap Measurement.bytes ++ tail)
    have hfuel : (m :: ms).length + fuel = ms.length + fuel + 1 := by
      rw [List.length_cons]
      omega
    rw [List.flatMap_cons, List.append_assoc, hfuel]
    rw [Measurement.bytes, List.cons_append] at hdecode ⊢
    simp only [measurements, hdecode, List.map_cons, List.cons_append]
    rw [← List.cons_append, ← Measurement.bytes, List.drop_left' m.bytes_length, ih]

theorem length_flatMap_bytes (ms : List Measurement) :
    (ms.flatMap Measurement.bytes).length = 3 * ms.length := by
  induction ms with
  | nil => rfl
  | cons m ms ih =>
    have hlen : m.bytes.length = 3 := m.bytes_length
    rw [List.flatMap_cons, List.length_append, hlen, ih, List.length_cons]
    omega

theorem measurements_bytes (ms : List Measurement) {fuel : Nat}
    (h : (ms.flatMap Measurement.bytes).length ≤ fuel) :
    measurements fuel (ms.flatMap Measurement.bytes) = ms.map .ok := by
  obtain ⟨more, rfl⟩ : ∃ more, fuel = ms.length + more :=
    ⟨fuel - ms.length, by rw [length_flatMap_bytes] at h; omega⟩
  have happend := measurements_append ms more []
  have hnil : measurements more [] = [] := by cases more <;> rfl
  rwa [hnil, List.append_nil, List.append_nil] at happend

theorem put_ok {metrics : Metrics} {m : Measurement} (h : metrics.slot m.id = none) :
    ∃ metrics', put metrics m = .ok metrics' ∧
      ∀ k, metrics'.slot k = if k = m.id then some m else metrics.slot k := by
  cases m with
  | battery bat =>
    have hslot : metrics.battery = none := Option.map_eq_none_iff.mp h
    exact ⟨{ metrics with battery := some bat }, by simp [put, set, hslot],
      by intro k; cases k <;> rfl⟩
  | temperature temp =>
    have hslot : metrics.temperature = none := Option.map_eq_none_iff.mp h
    exact ⟨{ metrics with temperature := some temp }, by simp [put, set, hslot],
      by intro k; cases k <;> rfl⟩
  | humidity rh =>
    have hslot : metrics.relativeHumidity = none := Option.map_eq_none_iff.mp h
    exact ⟨{ metrics with relativeHumidity := some rh }, by simp [put, set, hslot],
      by intro k; cases k <;> rfl⟩

/-- Measurements of distinct kinds all end up in their slots. -/
theorem fold_ok {ms : List Measurement} (hnodup : (ms.map Measurement.id).Nodup)
    {metrics : Metrics} (h : ∀ m ∈ ms, metrics.slot m.id = none) (hasMeasurements : Bool) :
    ∃ metrics', fold (ms.map .ok) metrics hasMeasurements =
        .ok (metrics', hasMeasurements || !ms.isEmpty) ∧
      ∀ k m, metrics'.slot k = some m ↔ metrics.slot k = some m ∨ (m ∈ ms ∧ m.id = k) := by
  induction ms generalizing metrics hasMeasurements with
  | nil => exact ⟨metrics, by simp [fold], by simp⟩
  | cons m ms ih =>
    rw [List.map_cons, List.nodup_cons] at hnodup
    obtain ⟨metrics₁, hput, hslot⟩ := put_ok (h m List.mem_cons_self)
    have hnone : ∀ m' ∈ ms, metrics₁.slot m'.id = none := by
      intro m' hm'
      have hne : m'.id ≠ m.id := fun he =>
        hnodup.1 (List.mem_map.mpr ⟨m', hm', he⟩)
      rw [hslot, if_neg hne]
      exact h m' (List.mem_cons_of_mem m hm')
    obtain ⟨metrics', hfold, hmem⟩ := ih hnodup.2 hnone true
    refine ⟨metrics', ?_, fun k m' => ?_⟩
    · simp only [List.map_cons, fold, hput]
      rw [List.isEmpty_cons, Bool.not_false, Bool.or_true]
      exact hfold
    · rw [hmem, hslot, List.mem_cons]
      have hm := h m List.mem_cons_self
      by_cases hk : k = m.id
      · subst hk
        rw [if_pos rfl, hm]
        grind
      · rw [if_neg hk]
        grind

theorem decode_ok {ms : List Measurement} (hne : ms ≠ [])
    (hnodup : (ms.map Measurement.id).Nodup) :
    ∃ metrics, decode (ms.flatMap Measurement.bytes) = .ok metrics ∧
      ∀ k m, metrics.slot k = some m ↔ m ∈ ms ∧ m.id = k := by
  have hempty : ∀ k, ({} : Metrics).slot k = none := by intro k; cases k <;> rfl
  obtain ⟨metrics, hfold, hslot⟩ := fold_ok hnodup (fun m _ => hempty m.id) false
  refine ⟨metrics, ?_, fun k m => ?_⟩
  · rw [decode, measurements_bytes ms le_rfl, hfold]
    cases ms with
    | nil => exact absurd rfl hne
    | cons m ms => rfl
  · rw [hslot, hempty]
    simp

end V1

namespace SensorPacket

/-- The encoding of a packet. -/
def bytes (packet : SensorPacket) : List Byte :=
  packet.ver :: (toLeBytes seqSize packet.seq.toNat ++ packet.body)

theorem parse_bytes (packet : SensorPacket) : parse packet.bytes = .ok packet := by
  simp only [parse, bytes, splitFirstChunk_append (toLeBytes_length _ _),
    ofNat_fromLeBytes_toLeBytes (w := 32) (n := seqSize) rfl]

theorem bytes_of_parse {bytes : List Byte} {packet : SensorPacket} (h : parse bytes = .ok packet) :
    bytes = packet.bytes := by
  cases bytes with
  | nil => cases h
  | cons ver rest =>
    simp only [parse] at h
    split at h
    · cases h
    · rename_i seqBytes body hsplit
      cases h
      obtain ⟨hrest, hlen⟩ := splitFirstChunk_eq_some hsplit
      simp only [SensorPacket.bytes, toLeBytes_ofNat_fromLeBytes (w := 32) rfl hlen, hrest]

theorem stripAirMagic_append (packet : List Byte) :
    stripAirMagic (airMagic ++ packet) = .ok packet := by
  rw [stripAirMagic, if_neg (by simp), List.take_left, if_pos rfl, List.drop_left]

theorem writeMeasurements_append (ms : List Measurement) (done : List Byte) {front : List Byte}
    (h : front.length = (ms.flatMap Measurement.bytes).length) (rest : List Byte) :
    writeMeasurements ms (done ++ (front ++ rest)) done.length =
      .ok (done ++ (ms.flatMap Measurement.bytes ++ rest),
        done.length + (ms.flatMap Measurement.bytes).length) := by
  induction ms generalizing done front with
  | nil =>
    obtain rfl := List.eq_nil_of_length_eq_zero h
    rfl
  | cons m ms ih =>
    rw [List.flatMap_cons, List.length_append] at h
    obtain ⟨a, b, rfl, ha⟩ := exists_chunk m.bytes.length front (by omega)
    rw [List.length_append, ha] at h
    have hwrite := m.encode_append (ha.trans m.bytes_length) (b ++ rest)
    rw [← m.bytes_length] at hwrite
    simp only [writeMeasurements, List.append_assoc, List.drop_left, List.take_left, hwrite]
    have hnext := ih (done ++ m.bytes) (Nat.add_left_cancel h)
    simp only [List.append_assoc, List.length_append] at hnext
    rw [hnext, List.flatMap_cons, List.length_append]
    simp only [List.append_assoc, Nat.add_assoc]

variable {aead : Aead}

/-- Encoding into a buffer that is exactly long enough, with anything behind it. -/
theorem encode_append {seq : Word} {ms : List Measurement} {cipher : PacketCipher}
    {data tag front : List Byte}
    (hseal : cipher.encryptInPlace aead V1.version seq (ms.flatMap Measurement.bytes) =
      .ok (data, tag))
    (h : front.length = overheadSize + (ms.flatMap Measurement.bytes).length + aeadTagSize)
    (rest : List Byte) :
    encode aead seq ms (front ++ rest) cipher =
      .ok ((SensorPacket.mk V1.version seq (data ++ tag)).bytes ++ rest, front.length) := by
  obtain ⟨a, front, rfl, ha⟩ := exists_chunk verSize front (by
    rw [h, overheadSize]
    omega)
  rw [List.length_append, ha] at h
  obtain ⟨b, front, rfl, hb⟩ := exists_chunk seqSize front (by
    rw [overheadSize] at h
    omega)
  rw [List.length_append, hb] at h
  obtain ⟨c, d, rfl, hc⟩ := exists_chunk (ms.flatMap Measurement.bytes).length front (by
      rw [overheadSize] at h
      omega)
  rw [List.length_append, hc] at h
  have hd : d.length = aeadTagSize := by
    rw [overheadSize] at h
    omega
  have hwrite := writeMeasurements_append ms [] hc (d ++ rest)
  simp only [List.nil_append, List.length_nil, Nat.zero_add] at hwrite
  simp only [encode, List.append_assoc, splitFirstChunk_append ha, splitFirstChunk_append hb,
    hwrite, splitFirstChunk_append rfl, splitFirstChunk_append hd, hseal, bytes,
    List.length_append, ha, hb, hc, hd]
  refine congrArg Except.ok (Prod.ext ?_ ?_)
  · simp only [List.cons_append, List.append_assoc]
  · simp only [overheadSize]
    omega

theorem encodeAir_append {seq : Word} {ms : List Measurement} {cipher : PacketCipher}
    {data tag front : List Byte}
    (hseal : cipher.encryptInPlace aead V1.version seq (ms.flatMap Measurement.bytes) =
      .ok (data, tag))
    (h : front.length = airMagic.length +
      (overheadSize + (ms.flatMap Measurement.bytes).length + aeadTagSize))
    (rest : List Byte) :
    encodeAir aead seq ms (front ++ rest) cipher =
      .ok (airMagic ++ ((SensorPacket.mk V1.version seq (data ++ tag)).bytes ++ rest),
        front.length) := by
  obtain ⟨a, front, rfl, ha⟩ := exists_chunk airMagic.length front (by omega)
  rw [List.length_append, ha] at h
  rw [encodeAir, List.append_assoc, splitFirstChunk_append ha]
  simp only [encode_append hseal (Nat.add_left_cancel h), List.length_append, ha]

theorem bytes_length (packet : SensorPacket) :
    packet.bytes.length = overheadSize + packet.body.length := by
  simp only [bytes, List.length_cons, List.length_append, toLeBytes_length, overheadSize, verSize]
  omega

/-- A packet that carries the measurements `ms`, sealed by `cipher`, is decoded
to slots that hold them and nothing else. -/
theorem decode_sealed (hl : aead.Lawful) {seq : Word} {ms : List Measurement}
    {cipher : PacketCipher} {data tag : List Byte}
    (hseal : cipher.encryptInPlace aead V1.version seq (ms.flatMap Measurement.bytes) =
      .ok (data, tag))
    (hlen : (data ++ tag).length ≤ maxBodyLen) (hne : ms ≠ [])
    (hnodup : (ms.map Measurement.id).Nodup) :
    ∃ metrics, decode aead (SensorPacket.mk V1.version seq (data ++ tag)) cipher = .ok metrics ∧
      ∀ k m, metrics.slot k = some m ↔ m ∈ ms ∧ m.id = k := by
  obtain ⟨metrics, hdecode, hslot⟩ := V1.decode_ok hne hnodup
  refine ⟨metrics, ?_, hslot⟩
  rw [decode, if_neg (Nat.not_lt.mpr hlen)]
  simp only [PacketCipher.decrypt_encrypt hl hseal, if_true, hdecode]

end SensorPacket

end Homescope
