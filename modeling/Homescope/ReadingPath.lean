import Homescope.AeadVectors
import Homescope.Envelope
import Homescope.FrameDecoder
import Mathlib.Data.Countable.Basic
import Mathlib.Data.List.Perm.Subperm
import Mathlib.Logic.Equiv.List

/-! The whole path of a reading: sensor, receiver, gateway, API. -/

namespace Homescope

/-- What stands around the path: the cipher, the checksum, the text formats and
the range of timestamps. -/
structure Surroundings where
  aead : Aead
  crc16 : List Byte → BitVec 16
  format : TextFormat
  inRange : DateTime → Bool

structure Surroundings.Lawful (env : Surroundings) : Prop where
  aead : env.aead.Lawful
  format : env.format.Lawful

namespace ReadingPath

variable (env : Surroundings)

/-- `PacketBuilder::build` with the `seq` it was given. -/
def sensor (cipher : PacketCipher) (seq : Word) (measurements : List Measurement) :
    Option (List Byte) := do
  let buffer := List.replicate SensorPacket.maxAirLen 0
  let (buffer, len) ← (SensorPacket.encodeAir env.aead seq measurements buffer cipher).toOption
  return buffer.take len

/-- A report of `addr` through the scanner and the USB writer. -/
def receiver (addr : DeviceAddr) (ageMs : Word) (rssi : Dbm) (payload : List Byte) :
    Option (List Byte) := do
  let packet ← (SensorPacket.stripAirMagic payload).toOption
  let _ ← (SensorPacket.parse packet).toOption
  -- `Vec::from_slice` into the capacity of a scanned packet.
  guard (packet.length ≤ SensorPacket.maxWireLen)
  let observation : SensorObservation := { deviceAddr := addr, ageMs, rssi, packet }
  let buffer := List.replicate Frame.maxLen 0
  let (buffer, len) ← (Frame.encode env.crc16 buffer observation).toOption
  return buffer.take len

/-- The first frame of the buffer, published at `now`. -/
def gateway (now : DateTime) (src : List Byte) : Option (List Byte) := do
  let (payload, _) ← FrameDecoder.decode env.crc16 src
  let observation ← (SensorObservation.parse (← payload)).toOption
  let envelope ← ObservationEnvelope.fromObservation env.inRange observation now
  return envelope.serialize env.format

def api (cipher : PacketCipher) (payload : List Byte) : Option SensorReading := do
  let envelope ← ObservationEnvelope.deserialize env.format payload
  (SensorReading.openEnvelope env.aead envelope cipher).toOption

/-- All four in a row; `behind` is what else the gateway has in its buffer. -/
def deliver (cipher : PacketCipher) (seq : Word) (measurements : List Measurement) (ageMs : Word)
    (rssi : Dbm) (now : DateTime) (behind : List Byte) : Option SensorReading := do
  let air ← sensor env cipher seq measurements
  let frame ← receiver env cipher.deviceAddr ageMs rssi air
  let published ← gateway env now (frame ++ behind)
  api env cipher published

variable {env}

/-- At most one measurement of each kind. -/
theorem measurements_length {ms : List Measurement} (h : (ms.map Measurement.id).Nodup) :
    (ms.flatMap Measurement.bytes).length ≤
      Measurement.maxEncodedLen * Measurement.variantCount := by
  have hsub : ms.map Measurement.id ⊆ [.battery, .temperature, .humidity] := by
    intro k _
    cases k <;> simp
  have hle := (List.subperm_of_subset h hsub).length_le
  have hsum : ms.map (fun m => m.bytes.length) =
      List.replicate ms.length Measurement.maxEncodedLen :=
    List.map_eq_replicate_iff.mpr fun m _ => m.bytes_length
  rw [List.length_flatMap, hsum, List.sum_replicate_nat, Nat.mul_comm]
  rw [List.length_map] at hle
  exact Nat.mul_le_mul_left _ hle

theorem sensor_ok (hl : env.Lawful) (cipher : PacketCipher) (seq : Word) {ms : List Measurement}
    (hne : ms ≠ []) (hnodup : (ms.map Measurement.id).Nodup) :
    ∃ (packet : SensorPacket) (metrics : Metrics),
      sensor env cipher seq ms = some (airMagic ++ packet.bytes) ∧
        packet.bytes.length ≤ SensorPacket.maxEncodedLen ∧ packet.seq = seq ∧
        packet.decode env.aead cipher = .ok metrics ∧
        ∀ k m, metrics.slot k = some m ↔ m ∈ ms ∧ m.id = k := by
  have hbytes := measurements_length hnodup
  obtain ⟨⟨data, tag⟩, henc⟩ := hl.aead.encrypts cipher.key.bytes (PacketCipher.nonce seq)
    (cipher.associatedData seq V1.version) (ms.flatMap Measurement.bytes)
    (by simp [PacketCipher.associatedData, cipher.deviceAddr.length_eq])
    (hbytes.trans_lt (by decide))
  obtain ⟨hdata, htag⟩ := env.aead.encrypt_length henc
  have hseal : cipher.encryptInPlace env.aead V1.version seq (ms.flatMap Measurement.bytes) =
      .ok (data, tag) := by
    rw [PacketCipher.encryptInPlace, henc]
  have hbody : (data ++ tag).length ≤ SensorPacket.maxBodyLen := by
    rw [List.length_append, hdata, htag]
    exact Nat.add_le_add_right hbytes _
  obtain ⟨metrics, hdecode, hslot⟩ := SensorPacket.decode_sealed hl.aead hseal hbody hne hnodup
  refine ⟨⟨V1.version, seq, data ++ tag⟩, metrics, ?_, ?_, rfl, hdecode, hslot⟩
  · obtain ⟨front, rest, hsplit, hfront⟩ := exists_chunk
      (airMagic.length + (SensorPacket.overheadSize +
        (ms.flatMap Measurement.bytes).length + aeadTagSize))
      (List.replicate SensorPacket.maxAirLen 0) (by
        rw [List.length_replicate]
        change 2 + (5 + _ + 16) ≤ 32
        change _ ≤ 9 at hbytes
        omega)
    have hlen : (airMagic ++ (SensorPacket.mk V1.version seq (data ++ tag)).bytes).length =
        front.length := by
      rw [hfront, List.length_append, SensorPacket.bytes_length, List.length_append, hdata, htag,
        Nat.add_assoc SensorPacket.overheadSize]
    rw [sensor, hsplit, SensorPacket.encodeAir_append hseal hfront, ← List.append_assoc]
    exact congrArg some (List.take_left' hlen)
  · rw [SensorPacket.bytes_length, SensorPacket.maxEncodedLen, Nat.add_comm]
    exact Nat.add_le_add_right hbody _

theorem receiver_ok (addr : DeviceAddr) (ageMs : Word) (rssi : Dbm) {packet : SensorPacket}
    (h : packet.bytes.length ≤ SensorPacket.maxWireLen) :
    receiver env addr ageMs rssi (airMagic ++ packet.bytes) =
      some (Frame.frameOf env.crc16
        (SensorObservation.mk addr ageMs rssi packet.bytes).bytes) := by
  have hstrip : (SensorPacket.stripAirMagic (airMagic ++ packet.bytes)).toOption =
      some packet.bytes := by
    rw [SensorPacket.stripAirMagic_append]
    rfl
  have hparse : (SensorPacket.parse packet.bytes).toOption = some packet := by
    rw [SensorPacket.parse_bytes]
    rfl
  simp only [receiver, Option.bind_eq_bind, hstrip, hparse, Option.bind_some, guard, if_pos h]
  generalize ho : SensorObservation.mk addr ageMs rssi packet.bytes = o
  have hlen := o.bytes_length
  have hfits : ∀ room : List Byte, o.bytes.length ≤ room.length →
      Frame.Encode.encode o room = .ok (o.bytes ++ room.drop o.bytes.length, o.bytes.length) := by
    intro room hroom
    rw [hlen] at hroom ⊢
    exact (o.encode_eq room).trans (if_pos hroom)
  have hpacket : o.packet = packet.bytes := by rw [← ho]
  have hroom : Frame.overhead + o.bytes.length ≤
      (List.replicate Frame.maxLen (0 : Byte)).length := by
    rw [hlen, hpacket, List.length_replicate]
    change 6 + (11 + _) ≤ 1030
    change _ ≤ 252 at h
    omega
  rw [Frame.encode_fits hfits hroom]
  exact congrArg some (List.take_left' (Frame.frameOf_length env.crc16 o.bytes))

theorem gateway_ok {o : SensorObservation} (h : o.packet.length ≤ SensorPacket.maxWireLen)
    {now : DateTime} (hrange : env.inRange (now - milliseconds o.ageMs.toNat) = true)
    (behind : List Byte) :
    gateway env now (Frame.frameOf env.crc16 o.bytes ++ behind) =
      some (ObservationEnvelope.serialize env.format
        { deviceAddr := o.deviceAddr, rssi := o.rssi,
          receivedAt := now - milliseconds o.ageMs.toNat, packet := o.packet }) := by
  have hmax : o.bytes.length ≤ Frame.maxPayloadLen := by
    rw [o.bytes_length]
    change 11 + _ ≤ 1024
    change _ ≤ 252 at h
    omega
  have hparse : (SensorObservation.parse o.bytes).toOption = some o := by
    rw [o.parse_bytes]
    rfl
  simp only [gateway, Option.bind_eq_bind, FrameDecoder.decode_frameOf hmax, Option.bind_some,
    hparse, ObservationEnvelope.fromObservation, if_pos hrange]
  rfl

theorem api_ok (hl : env.Lawful) {cipher : PacketCipher} {envelope : ObservationEnvelope}
    {packet : SensorPacket} {metrics : Metrics} (hpacket : envelope.packet = packet.bytes)
    (hdecode : packet.decode env.aead cipher = .ok metrics) :
    api env cipher (envelope.serialize env.format) =
      some { deviceAddr := envelope.deviceAddr, seq := packet.seq, rssi := envelope.rssi,
             receivedAt := envelope.receivedAt, battery := metrics.battery,
             temperature := metrics.temperature,
             relativeHumidity := metrics.relativeHumidity } := by
  simp only [api, ObservationEnvelope.deserialize_serialize hl.format, Option.bind_eq_bind,
    Option.bind_some, SensorReading.openEnvelope, hpacket, SensorPacket.parse_bytes, hdecode]
  rfl

/-- A reading arrives as it was sent: its address, `seq` and `rssi`, the time it
was captured, and exactly the measurements of the packet. -/
theorem deliver_ok (hl : env.Lawful) (cipher : PacketCipher) (seq : Word) (ms : List Measurement)
    (hne : ms ≠ []) (hnodup : (ms.map Measurement.id).Nodup) (ageMs : Word) (rssi : Dbm)
    (now : DateTime) (hrange : env.inRange (now - milliseconds ageMs.toNat) = true)
    (behind : List Byte) :
    ∃ reading, deliver env cipher seq ms ageMs rssi now behind = some reading ∧
      reading.deviceAddr = cipher.deviceAddr ∧ reading.seq = seq ∧ reading.rssi = rssi ∧
      reading.receivedAt = now - milliseconds ageMs.toNat ∧
      (∀ v, reading.battery = some v ↔ .battery v ∈ ms) ∧
      (∀ v, reading.temperature = some v ↔ .temperature v ∈ ms) ∧
      (∀ v, reading.relativeHumidity = some v ↔ .humidity v ∈ ms) := by
  obtain ⟨packet, metrics, hsensor, hlen, rfl, hdecode, hslot⟩ :=
    sensor_ok hl cipher seq hne hnodup
  have hwire : packet.bytes.length ≤ SensorPacket.maxWireLen := hlen.trans (by decide)
  have hgateway := gateway_ok (o := ⟨cipher.deviceAddr, ageMs, rssi, packet.bytes⟩) hwire hrange
    behind
  refine ⟨⟨cipher.deviceAddr, packet.seq, rssi, now - milliseconds ageMs.toNat, metrics.battery,
    metrics.temperature, metrics.relativeHumidity⟩, ?_, rfl, rfl, rfl, rfl, ?_, ?_, ?_⟩
  · simp only [deliver, Option.bind_eq_bind, hsensor, Option.bind_some,
      receiver_ok cipher.deviceAddr ageMs rssi hwire, hgateway]
    exact api_ok hl rfl hdecode
  · intro v
    simpa [Metrics.slot, Measurement.id] using hslot .battery (.battery v)
  · intro v
    simpa [Metrics.slot, Measurement.id] using hslot .temperature (.temperature v)
  · intro v
    simpa [Metrics.slot, Measurement.id] using hslot .humidity (.humidity v)

/-- A codec that is the real one on one value. -/
theorem exists_codec {α β : Type} [Countable α] [DecidableEq α] (fallback : Nat → β)
    (hinj : Function.Injective fallback) (a₀ : α) (b₀ : β) (hb : ∀ n, fallback n ≠ b₀) :
    ∃ (encode : α → β) (decode : β → Option α), encode a₀ = b₀ ∧
      ∀ a, decode (encode a) = some a := by
  obtain ⟨f, hf⟩ := exists_injective_nat α
  have hencode : Function.Injective fun a => if a = a₀ then b₀ else fallback (f a) := by
    intro a b h
    dsimp only at h
    split at h <;> split at h
    · simp_all
    · exact absurd h.symm (hb _)
    · exact absurd h (hb _)
    · exact hf (hinj h)
  exact ⟨_, Function.partialInv _, if_pos rfl, Function.partialInv_left hencode⟩

def sensorKey : DeviceKey where
  bytes := [0xCE, 0x57, 0xF1, 0xC9, 0x9D, 0xA6, 0x14, 0x42, 0x14, 0x0A, 0x9F, 0x58, 0xD2, 0xC4, 0x54,
    0x7B, 0xDB, 0x68, 0x40, 0xDC, 0xCB, 0xFE, 0x41, 0x56, 0x86, 0x26, 0x3D, 0xD8, 0xAC, 0x2B,
    0x0D, 0x1B]
  length_eq := rfl

def sensorCipher : PacketCipher := ⟨sensorKey, .testAddr⟩

def sensed : List Measurement := [.battery ⟨2950⟩, .temperature ⟨2105⟩, .humidity ⟨4875⟩]

/-- ChaCha20-Poly1305 on the packet with `seq` 5. -/
def sensedVector : AeadVector where
  key := sensorKey.bytes
  nonce := PacketCipher.nonce 5
  ad := sensorCipher.associatedData 5 1
  plaintext := sensed.flatMap Measurement.bytes
  ciphertext := [0xD3, 0xD2, 0x2B, 0xAA, 0xE1, 0xD7, 0x11, 0x73, 0x47]
  tag := [0xC8, 0x1D, 0x62, 0xA8, 0xBA, 0xEB, 0x6F, 0x60, 0x51, 0x7E, 0xEE, 0x5E, 0x2D, 0xCA, 0x9C,
    0x10]
  ciphertext_length := by decide +kernel
  tag_length := rfl

def sampleAead : Aead := (Aead.ofVectors [sensedVector]).orPlain

theorem sampleAead_lawful : sampleAead.Lawful := Aead.orPlain_lawful (by decide +kernel)

def sensedJson : EnvelopeJson where
  deviceAddr := "060504030201"
  rssi := 0xCE
  receivedAt := 1753000000000000000
  packet := "AQUAAADT0iuq4dcRc0fIHWKouutvYFF+7l4typwQ"

def sensedText : String :=
  "\x7b\"deviceAddr\":\"060504030201\",\"rssi\":-50,\"receivedAt\":\"2025-07-20T08:26:40Z\"," ++
    "\"packet\":\"AQUAAADT0iuq4dcRc0fIHWKouutvYFF+7l4typwQ\"\x7d"

def sensedPacket : List Byte :=
  [0x01, 0x05, 0x00, 0x00, 0x00] ++ sensedVector.ciphertext ++ sensedVector.tag

theorem exists_format : ∃ format : TextFormat, format.Lawful ∧
    format.toVec sensedJson = sensedText.toList.map (fun c => BitVec.ofNat 8 c.toNat) ∧
      format.base64Encode sensedPacket = sensedJson.packet := by
  have hcountable : Countable EnvelopeJson := by
    have hchar : Countable Char := Function.Injective.countable (f := Char.toNat)
      fun _ _ => Char.toNat_inj.mp
    have hstring : Countable String := Function.Injective.countable (f := String.toList)
      fun _ _ => String.toList_injective
    have hbyte : Countable (BitVec 8) := Function.Injective.countable (f := BitVec.toNat)
      fun _ _ => BitVec.eq_of_toNat_eq
    have htime : Countable DateTime := inferInstanceAs (Countable Int)
    refine Function.Injective.countable
      (f := fun json : EnvelopeJson => (json.deviceAddr, json.rssi, json.receivedAt, json.packet)) ?_
    rintro ⟨⟩ ⟨⟩ h
    cases h
    rfl
  have hbytes : Countable (List Byte) := by
    have : Countable (BitVec 8) := Function.Injective.countable (f := BitVec.toNat)
      fun _ _ => BitVec.eq_of_toNat_eq
    infer_instance
  obtain ⟨toVec, fromSlice, htext, hjson⟩ := exists_codec (List.replicate · (0 : Byte))
    (List.replicate_left_injective 0) sensedJson
    (sensedText.toList.map fun c => BitVec.ofNat 8 c.toNat) (by
      intro n h
      have hmem : (0x7B : Byte) ∈ List.replicate n (0 : Byte) := by
        rw [h]
        decide +kernel
      exact absurd (List.eq_of_mem_replicate hmem) (by decide))
  obtain ⟨encode, decode, hpacket, hbase64⟩ := exists_codec
    (fun n => String.ofList (List.replicate n '='))
    (fun n m h => List.replicate_left_injective '=' (String.ofList_injective h)) sensedPacket
    sensedJson.packet (by
      intro n h
      have hmem : 'A' ∈ List.replicate n '=' := by
        rw [← String.toList_ofList (l := List.replicate n '='), h]
        decide +kernel
      exact absurd (List.eq_of_mem_replicate hmem) (by decide))
  exact ⟨⟨toVec, fromSlice, encode, decode⟩, ⟨hjson, hbase64⟩, htext, hpacket⟩

/-- The range of the timestamp type, from year -262143 to year 262142. -/
def timestampRange (t : DateTime) : Bool :=
  -8334601228800000000000 ≤ t && t < 8210266876800000000000

theorem deliver_ok_sensed : ∃ format : TextFormat,
    format.toVec sensedJson = sensedText.toList.map (fun c => BitVec.ofNat 8 c.toNat) ∧
      format.base64Encode sensedPacket = sensedJson.packet ∧
      ∃ reading, deliver ⟨sampleAead, crc16IbmSdlc, format, timestampRange⟩ sensorCipher 5 sensed
          555 ⟨0xCE⟩ 1753000000555000000 [0x48] = some reading ∧
        reading.deviceAddr = sensorCipher.deviceAddr ∧ reading.seq = 5 ∧ reading.rssi = ⟨0xCE⟩ ∧
        reading.receivedAt = 1753000000555000000 - milliseconds (555 : Word).toNat ∧
        (∀ v, reading.battery = some v ↔ .battery v ∈ sensed) ∧
        (∀ v, reading.temperature = some v ↔ .temperature v ∈ sensed) ∧
        (∀ v, reading.relativeHumidity = some v ↔ .humidity v ∈ sensed) := by
  obtain ⟨format, hformat, htext, hpacket⟩ := exists_format
  have hrange : timestampRange (1753000000555000000 - milliseconds (555 : Word).toNat) = true := by
    decide +kernel
  exact ⟨format, htext, hpacket, deliver_ok ⟨sampleAead_lawful, hformat⟩ sensorCipher 5 sensed
    (by decide) (by decide) 555 ⟨0xCE⟩ 1753000000555000000 hrange [0x48]⟩

end ReadingPath

end Homescope
