import Homescope.IdealAead
import Homescope.ReadingPath
import Homescope.Registry

/-! What an opened packet says about its sealer, where the AEAD is ideal. -/

namespace Homescope

/-- A packet body that was sealed. -/
structure PacketSeal where
  cipher : PacketCipher
  ver : Byte
  seq : Word
  body : List Byte

namespace PacketSeal

def aead (s : PacketSeal) : AeadSeal where
  key := s.cipher.key.bytes
  nonce := PacketCipher.nonce s.seq
  ad := s.cipher.associatedData s.seq s.ver
  plaintext := s.body

/-- The packet that the sealer sent. -/
def Emits (aead : Aead) (s : PacketSeal) (packet : SensorPacket) : Prop :=
  ∃ data tag, s.cipher.encryptInPlace aead s.ver s.seq s.body = .ok (data, tag) ∧
    packet = ⟨s.ver, s.seq, data ++ tag⟩

/-- The cipher, the version, the `seq` and the body can be read off a seal. -/
theorem aead_inj {s : PacketSeal} {cipher : PacketCipher} {ver : Byte} {seq : Word}
    {body : List Byte} (h : s.aead =
      ⟨cipher.key.bytes, PacketCipher.nonce seq, cipher.associatedData seq ver, body⟩) :
    s.cipher = cipher ∧ s.ver = ver ∧ s.seq = seq ∧ s.body = body := by
  obtain ⟨hkey, -, had, hbody⟩ := AeadSeal.mk.inj h
  obtain ⟨haddr, hver, hseq⟩ := PacketCipher.associatedData_inj had
  refine ⟨?_, hver, hseq, hbody⟩
  rcases s with ⟨⟨key, addr⟩, _, _, _⟩
  rw [PacketCipher.mk.injEq]
  exact ⟨DeviceKey.ext hkey, haddr⟩

end PacketSeal

namespace PacketCipher

variable {aead : Aead} {cipher : PacketCipher} {ver : Byte} {seq : Word}

theorem decryptInPlace_ok {buf plaintext : List Byte}
    (h : cipher.decryptInPlace aead ver seq buf = .ok plaintext) :
    ∃ data tag, buf = data ++ tag ∧
      aead.decrypt cipher.key.bytes (nonce seq) (cipher.associatedData seq ver) data tag =
        some plaintext := by
  simp only [decryptInPlace] at h
  split at h
  · cases h
  · split at h
    · cases h
    · rename_i hdecrypt
      cases h
      exact ⟨_, _, (List.take_append_drop ..).symm, hdecrypt⟩

/-- A body that opens was sealed under the cipher, the version and the `seq`. -/
theorem sealed_of_decrypt {seals : Set PacketSeal} (hi : aead.Ideal (PacketSeal.aead '' seals))
    {buf plaintext : List Byte} (h : cipher.decryptInPlace aead ver seq buf = .ok plaintext) :
    ⟨cipher, ver, seq, plaintext⟩ ∈ seals ∧
      PacketSeal.Emits aead ⟨cipher, ver, seq, plaintext⟩ ⟨ver, seq, buf⟩ := by
  obtain ⟨data, tag, rfl, hdecrypt⟩ := decryptInPlace_ok h
  obtain ⟨⟨s, hs, hseal⟩, hencrypt⟩ := hi.authentic hdecrypt
  obtain ⟨rfl, rfl, rfl, rfl⟩ := PacketSeal.aead_inj hseal
  refine ⟨hs, data, tag, ?_, rfl⟩
  simp only [encryptInPlace, hencrypt]

/-- A sealed body opens under its own cipher, version and `seq`. -/
theorem decrypt_sealed {seals : Set PacketSeal} (hi : aead.Ideal (PacketSeal.aead '' seals))
    {s : PacketSeal} (hs : s ∈ seals) {data tag : List Byte}
    (h : s.cipher.encryptInPlace aead s.ver s.seq s.body = .ok (data, tag)) :
    s.cipher.decryptInPlace aead s.ver s.seq (data ++ tag) = .ok s.body := by
  simp only [encryptInPlace] at h
  split at h
  · cases h
  · rename_i henc
    cases h
    rw [decryptInPlace_append (aead.encrypt_length henc).2]
    have hopen := hi.decrypts (Set.mem_image_of_mem PacketSeal.aead hs) henc
    simp only [PacketSeal.aead] at hopen
    rw [hopen]

end PacketCipher

/-! ### Readings -/

section Readings

variable {aead : Aead} {seals : Set PacketSeal} {cipher : PacketCipher}

theorem SensorReading.openEnvelope_ok {envelope : ObservationEnvelope} {reading : SensorReading}
    (h : SensorReading.openEnvelope aead envelope cipher = .ok reading) :
    ∃ (packet : SensorPacket) (metrics : Metrics), envelope.packet = packet.bytes ∧ packet.decode aead cipher = .ok metrics ∧
      reading = ⟨envelope.deviceAddr, packet.seq, envelope.rssi, envelope.receivedAt,
        metrics.battery, metrics.temperature, metrics.relativeHumidity⟩ := by
  simp only [SensorReading.openEnvelope] at h
  split at h
  · cases h
  · rename_i packet hparse
    split at h
    · cases h
    · rename_i metrics hdecode
      cases h
      exact ⟨packet, metrics, SensorPacket.bytes_of_parse hparse, hdecode, rfl⟩

theorem SensorPacket.decode_ok {packet : SensorPacket} {metrics : Metrics}
    (h : packet.decode aead cipher = .ok metrics) :
    packet.ver = V1.version ∧ ∃ plaintext,
      cipher.decryptInPlace aead packet.ver packet.seq packet.body = .ok plaintext ∧
        V1.decode plaintext = .ok metrics := by
  simp only [SensorPacket.decode] at h
  split at h
  · cases h
  · split at h
    · cases h
    · rename_i plaintext hopen
      split at h
      · exact ⟨‹_›, plaintext, hopen, h⟩
      · cases h

/-- A reading that a registered device's cipher opens is one that a holder of
that device's key and address sealed, byte for byte. -/
theorem opened_was_sealed (hi : aead.Ideal (PacketSeal.aead '' seals))
    {get : DeviceAddr → Option Device}
    (hreg : ∀ addr device, get addr = some device → device.cipher.deviceAddr = addr)
    {envelope : ObservationEnvelope} {device : Device}
    (hget : get envelope.deviceAddr = some device) :
    (∀ reading, SensorReading.openEnvelope aead envelope device.cipher = .ok reading →
      ∃ s ∈ seals, s.cipher.key = device.cipher.key ∧
        s.cipher.deviceAddr = envelope.deviceAddr ∧
        (∃ packet : SensorPacket, s.Emits aead packet ∧ envelope.packet = packet.bytes) ∧
        reading.deviceAddr = envelope.deviceAddr ∧ reading.seq = s.seq ∧ s.ver = V1.version ∧
        V1.decode s.body =
          .ok ⟨reading.battery, reading.temperature, reading.relativeHumidity⟩) ∧
    ((¬ ∃ s ∈ seals, s.cipher.key = device.cipher.key ∧
        s.cipher.deviceAddr = envelope.deviceAddr ∧
        ∃ packet : SensorPacket, s.Emits aead packet ∧ envelope.packet = packet.bytes) →
      ∃ e, SensorReading.openEnvelope aead envelope device.cipher = .error e) := by
  have hsealed : ∀ reading, SensorReading.openEnvelope aead envelope device.cipher = .ok reading →
      ∃ s ∈ seals, s.cipher.key = device.cipher.key ∧
        s.cipher.deviceAddr = envelope.deviceAddr ∧
        (∃ packet : SensorPacket, s.Emits aead packet ∧ envelope.packet = packet.bytes) ∧
        reading.deviceAddr = envelope.deviceAddr ∧ reading.seq = s.seq ∧ s.ver = V1.version ∧
        V1.decode s.body =
          .ok ⟨reading.battery, reading.temperature, reading.relativeHumidity⟩ := by
    intro reading h
    obtain ⟨packet, metrics, hbytes, hdecode, rfl⟩ := SensorReading.openEnvelope_ok h
    obtain ⟨hver, plaintext, hopen, hbody⟩ := SensorPacket.decode_ok hdecode
    obtain ⟨hs, hemits⟩ := PacketCipher.sealed_of_decrypt hi hopen
    exact ⟨_, hs, rfl, hreg _ _ hget, ⟨packet, hemits, hbytes⟩, rfl, rfl, hver, hbody⟩
  refine ⟨hsealed, fun hnone => ?_⟩
  cases h : SensorReading.openEnvelope aead envelope device.cipher with
  | error e => exact ⟨e, rfl⟩
  | ok reading =>
    obtain ⟨s, hs, hkey, haddr, hemits, -⟩ := hsealed reading h
    exact absurd ⟨s, hs, hkey, haddr, hemits⟩ hnone

theorem V1.put_names_no_version (metrics : Metrics) (m : Measurement) (ver : Byte) :
    V1.put metrics m ≠ .error (.unsupportedVersion ver) := by
  cases m with
  | battery bat =>
    cases h : metrics.battery <;>
      simp [V1.put, V1.set, h, bind, Except.bind, pure, Except.pure]
  | temperature temp =>
    cases h : metrics.temperature <;>
      simp [V1.put, V1.set, h, bind, Except.bind, pure, Except.pure]
  | humidity rh =>
    cases h : metrics.relativeHumidity <;>
      simp [V1.put, V1.set, h, bind, Except.bind, pure, Except.pure]

theorem V1.fold_names_no_version (items : List (Except Measurement.DecodeError Measurement))
    (metrics : Metrics) (hasMeasurements : Bool) (ver : Byte) :
    V1.fold items metrics hasMeasurements ≠ .error (.unsupportedVersion ver) := by
  induction items generalizing metrics hasMeasurements with
  | nil => simp [V1.fold]
  | cons item items ih =>
    cases item with
    | error e => simp [V1.fold]
    | ok m =>
      simp only [V1.fold]
      cases h : V1.put metrics m with
      | error e =>
        rintro he
        cases he
        exact V1.put_names_no_version metrics m ver h
      | ok metrics' => exact ih metrics' true

theorem V1.decode_names_no_version (body : List Byte) (ver : Byte) :
    V1.decode body ≠ .error (.unsupportedVersion ver) := by
  simp only [V1.decode]
  cases h : V1.fold (V1.measurements body.length body) {} false with
  | error e =>
    rintro he
    cases he
    exact V1.fold_names_no_version _ _ _ ver h
  | ok result =>
    obtain ⟨metrics, hasMeasurements⟩ := result
    cases hasMeasurements <;>
      simp [bind, Except.bind, pure, Except.pure, throw, throwThe, MonadExceptOf.throw]

/-- The bound on the body decides whether a later version is named as such, and
only an authentic packet ever is. -/
theorem unsupportedVersion_iff (hi : aead.Ideal (PacketSeal.aead '' seals)) :
    (∀ s ∈ seals, ∀ packet : SensorPacket, s.Emits aead packet → s.ver ≠ V1.version →
      packet.bytes.length ≤ SensorPacket.maxWireLen →
        (packet.decode aead s.cipher = .error (.unsupportedVersion s.ver) ↔
          s.body.length + aeadTagSize ≤ SensorPacket.maxBodyLen)) ∧
    ∀ (cipher : PacketCipher) (packet : SensorPacket) (ver : Byte),
      packet.decode aead cipher = .error (.unsupportedVersion ver) →
        packet.ver = ver ∧ ∃ s ∈ seals, s.cipher = cipher ∧ s.Emits aead packet := by
  constructor
  · rintro s hs packet ⟨data, tag, hseal, rfl⟩ hver -
    have hlen : (data ++ tag).length = s.body.length + aeadTagSize := by
      obtain ⟨hd, ht⟩ := PacketCipher.encryptInPlace_length hseal
      rw [List.length_append, hd, ht]
    simp only [SensorPacket.decode, hlen, PacketCipher.decrypt_sealed hi hs hseal, if_neg hver]
    split
    · simp only [reduceCtorEq, false_iff, Except.error.injEq]
      omega
    · simp only [true_iff]
      omega
  · intro cipher packet ver h
    simp only [SensorPacket.decode] at h
    split at h
    · cases h
    · split at h
      · cases h
      · rename_i plaintext hopen
        split at h
        · exact absurd h (V1.decode_names_no_version plaintext ver)
        · cases h
          obtain ⟨hs, hemits⟩ := PacketCipher.sealed_of_decrypt hi hopen
          exact ⟨rfl, _, hs, rfl, hemits⟩

end Readings

/-! ### Three packets of one sensor -/

section Sample

open ReadingPath (sensorCipher sensorKey sensed sensedVector sensedPacket)

def PacketSeal.vector (s : PacketSeal) (ciphertext tag : List Byte)
    (hc : ciphertext.length = s.body.length) (ht : tag.length = aeadTagSize) : AeadVector where
  key := s.aead.key
  nonce := s.aead.nonce
  ad := s.aead.ad
  plaintext := s.body
  ciphertext := ciphertext
  tag := tag
  ciphertext_length := hc
  tag_length := ht

def sensedSeal : PacketSeal := ⟨sensorCipher, 1, 5, sensed.flatMap Measurement.bytes⟩

def shortSeal : PacketSeal := ⟨sensorCipher, 2, 6, [0x01, 0x86, 0x0B]⟩

def shortVector : AeadVector := shortSeal.vector [0x68, 0x18, 0xF5]
  [0xBC, 0x2F, 0x2F, 0x71, 0x96, 0x3D, 0xC5, 0x1D, 0x18, 0x69, 0xBF, 0xEC, 0x64, 0x95, 0xA3, 0x5E]
  rfl rfl

def longSeal : PacketSeal :=
  ⟨sensorCipher, 2, 7, [0x04, 0x01, 0x02, 0x03, 0x04, 0x05, 0x06, 0x07, 0x08, 0x09]⟩

def longVector : AeadVector := longSeal.vector
  [0x6C, 0x70, 0xF8, 0x22, 0xDE, 0x73, 0x8A, 0xFA, 0x1A, 0x82]
  [0x19, 0x91, 0x7E, 0x56, 0x34, 0x2D, 0x7D, 0x24, 0xF9, 0x25, 0x2F, 0x3D, 0x38, 0x80, 0x4C, 0xDC]
  rfl rfl

def sealedAead : Aead := Aead.ofVectors [sensedVector, shortVector, longVector]

def sensorSeals : Set PacketSeal := {sensedSeal, shortSeal, longSeal}

theorem sealedAead_ideal : sealedAead.Ideal (PacketSeal.aead '' sensorSeals) := by
  refine Aead.ofVectors_ideal (by decide +kernel) ?_
  ext s
  simp only [sensorSeals, Set.image_insert_eq, Set.image_singleton, Set.mem_insert_iff,
    Set.mem_singleton_iff, List.mem_cons, List.not_mem_nil, or_false, Set.mem_ofPred_eq,
    exists_eq_or_imp, exists_eq_left]
  rfl

/-- Two registered devices with one key. -/
def twins (addr : DeviceAddr) : Option Device :=
  if addr = sensorCipher.deviceAddr ∨ addr = ⟨[1, 2, 3, 4, 5, 7], rfl⟩ then
    some ⟨addr, "kitchen", 0, ⟨sensorKey, addr⟩⟩
  else none

def sensedEnvelope (addr : DeviceAddr) : ObservationEnvelope :=
  ⟨addr, ⟨0xCE⟩, 1753000000000000000, sensedPacket⟩

theorem twins_cipher (addr : DeviceAddr) (device : Device) (h : twins addr = some device) :
    device.cipher.deviceAddr = addr := by
  simp only [twins] at h
  split at h
  · cases h
    rfl
  · cases h

/-- A packet that its sensor sealed is opened as such; under the address of a
device with the same key it is not. -/
theorem opened_was_sealed_twins :
    (∃ reading, SensorReading.openEnvelope sealedAead (sensedEnvelope sensorCipher.deviceAddr)
        ⟨sensorKey, sensorCipher.deviceAddr⟩ = .ok reading ∧
      ∃ s ∈ sensorSeals, s.cipher.deviceAddr = sensorCipher.deviceAddr ∧ reading.seq = s.seq) ∧
    ∃ e, SensorReading.openEnvelope sealedAead (sensedEnvelope ⟨[1, 2, 3, 4, 5, 7], rfl⟩)
      ⟨sensorKey, ⟨[1, 2, 3, 4, 5, 7], rfl⟩⟩ = .error e := by
  constructor
  · have hget : twins (sensedEnvelope sensorCipher.deviceAddr).deviceAddr =
        some ⟨sensorCipher.deviceAddr, "kitchen", 0, sensorCipher⟩ := by
      decide +kernel
    have hopened := opened_was_sealed sealedAead_ideal twins_cipher hget
    have hok : SensorReading.openEnvelope sealedAead (sensedEnvelope sensorCipher.deviceAddr)
        sensorCipher = .ok ⟨sensorCipher.deviceAddr, 5, ⟨0xCE⟩, 1753000000000000000, some ⟨2950⟩,
          some ⟨2105⟩, some ⟨4875⟩⟩ := by decide +kernel
    obtain ⟨s, hs, -, haddr, -, -, hseq, -⟩ := hopened.1 _ hok
    exact ⟨_, hok, s, hs, haddr, hseq⟩
  · have hget : twins (sensedEnvelope ⟨[1, 2, 3, 4, 5, 7], rfl⟩).deviceAddr =
        some ⟨⟨[1, 2, 3, 4, 5, 7], rfl⟩, "kitchen", 0,
          ⟨sensorKey, ⟨[1, 2, 3, 4, 5, 7], rfl⟩⟩⟩ := by
      decide +kernel
    refine (opened_was_sealed sealedAead_ideal twins_cipher hget).2 ?_
    rintro ⟨s, hs, -, haddr, -⟩
    simp only [sensorSeals, Set.mem_insert_iff, Set.mem_singleton_iff] at hs
    rcases hs with rfl | rfl | rfl <;> revert haddr <;> decide

theorem unsupportedVersion_iff_short :
    SensorPacket.decode sealedAead ⟨2, 6, shortVector.ciphertext ++ shortVector.tag⟩ sensorCipher =
      .error (.unsupportedVersion 2) :=
  ((unsupportedVersion_iff sealedAead_ideal).1 shortSeal (by simp [sensorSeals]) _
    ⟨shortVector.ciphertext, shortVector.tag, by decide +kernel, rfl⟩ (by decide) (by decide)).2
    (by decide)

/-- An authentic packet of a later version, with a body that no version 1 packet has. -/
theorem later_version_too_long :
    longSeal ∈ sensorSeals ∧
      longSeal.Emits sealedAead ⟨2, 7, longVector.ciphertext ++ longVector.tag⟩ ∧
      longSeal.ver ≠ V1.version ∧
      (SensorPacket.mk 2 7 (longVector.ciphertext ++ longVector.tag)).bytes.length ≤
        SensorPacket.maxWireLen ∧
      SensorPacket.decode sealedAead ⟨2, 7, longVector.ciphertext ++ longVector.tag⟩ sensorCipher =
        .error .tooLong :=
  ⟨by simp [sensorSeals], ⟨_, _, by decide +kernel, rfl⟩, by decide, by decide, by decide +kernel⟩

end Sample

end Homescope
