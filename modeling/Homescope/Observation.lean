import Homescope.Frame
import Homescope.Packet

/-! What the receiver tells the gateway (`common/src/observation.rs`). -/

namespace Homescope

structure SensorObservation where
  deviceAddr : DeviceAddr
  ageMs : Word
  rssi : Dbm
  packet : List Byte
  deriving DecidableEq

/-- The address at the front of a slice. -/
def DeviceAddr.splitFirst (bytes : List Byte) : Option (DeviceAddr × List Byte) :=
  if h : DeviceAddr.size ≤ bytes.length then
    some (⟨bytes.take DeviceAddr.size, by simpa [DeviceAddr.size] using h⟩,
      bytes.drop DeviceAddr.size)
  else none

theorem DeviceAddr.splitFirst_append (addr : DeviceAddr) (rest : List Byte) :
    DeviceAddr.splitFirst (addr.bytes ++ rest) = some (addr, rest) := by
  have hlen : addr.bytes.length = DeviceAddr.size := addr.length_eq
  rw [DeviceAddr.splitFirst, dif_pos (by simp [hlen])]
  exact congrArg some (Prod.ext (DeviceAddr.ext (List.take_left' hlen)) (List.drop_left' hlen))

namespace SensorObservation

def headerLen : Nat := DeviceAddr.size + 4 + Wire.size Dbm

/-- Everything after the header is the packet. -/
def parse (bytes : List Byte) : Except Truncated SensorObservation :=
  match DeviceAddr.splitFirst bytes with
  | none => .error .mk
  | some (deviceAddr, rest) =>
    match splitFirstChunk 4 rest with
    | none => .error .mk
    | some (ageMs, rest) =>
      match splitFirstChunk (Wire.size Dbm) rest with
      | none => .error .mk
      | some (rssi, packet) =>
        match Wire.decode rssi with
        | .error e => .error e
        | .ok rssi =>
          .ok { deviceAddr, ageMs := BitVec.ofNat 32 (fromLeBytes ageMs), rssi, packet }

def encode (o : SensorObservation) (out : List Byte) : Except BufferTooSmall (List Byte × Nat) :=
  match splitFirstChunk DeviceAddr.size out with
  | none => .error .mk
  | some (_, rest) =>
    match splitFirstChunk 4 rest with
    | none => .error .mk
    | some (_, rest) =>
      match splitFirstChunk (Wire.size Dbm) rest with
      | none => .error .mk
      | some (rssi, rest) =>
        match Wire.encode o.rssi rssi with
        | .error e => .error e
        | .ok (rssi, _) =>
          match splitFirstChunk o.packet.length rest with
          | none => .error .mk
          | some (_, rest) =>
            .ok (o.deviceAddr.bytes ++ toLeBytes 4 o.ageMs.toNat ++ rssi ++ o.packet ++ rest,
              headerLen + o.packet.length)

instance : Frame.Encode SensorObservation where
  maxEncodedLen := headerLen + SensorPacket.maxWireLen
  encode := encode
  maxEncodedLen_le := by decide

/-- The encoding of an observation. -/
def bytes (o : SensorObservation) : List Byte :=
  o.deviceAddr.bytes ++ (toLeBytes 4 o.ageMs.toNat ++ (Wire.bytes o.rssi ++ o.packet))

theorem bytes_length (o : SensorObservation) :
    o.bytes.length = headerLen + o.packet.length := by
  have haddr : o.deviceAddr.bytes.length = DeviceAddr.size := o.deviceAddr.length_eq
  simp only [bytes, List.length_append, haddr, toLeBytes_length, Wire.bytes_length, headerLen]
  omega

theorem encode_eq (o : SensorObservation) (out : List Byte) :
    encode o out = if headerLen + o.packet.length ≤ out.length then
      .ok (o.bytes ++ out.drop (headerLen + o.packet.length), headerLen + o.packet.length)
    else .error .mk := by
  have hheader : headerLen = DeviceAddr.size + 4 + Wire.size Dbm := rfl
  rcases splitFirstChunk_cases DeviceAddr.size out with ⟨hlt, h⟩ | ⟨a, out, rfl, ha⟩
  · rw [encode, h, if_neg]
    omega
  rcases splitFirstChunk_cases 4 out with ⟨hlt, h⟩ | ⟨b, out, rfl, hb⟩
  · simp only [encode, splitFirstChunk_append ha, h]
    rw [if_neg]
    simp only [List.length_append]
    omega
  rcases splitFirstChunk_cases (Wire.size Dbm) out with ⟨hlt, h⟩ | ⟨c, out, rfl, hc⟩
  · simp only [encode, splitFirstChunk_append ha, splitFirstChunk_append hb, h]
    rw [if_neg]
    simp only [List.length_append]
    omega
  have hrssi : Wire.encode o.rssi c = .ok (Wire.bytes o.rssi, Wire.size Dbm) := by
    simpa using Wire.encode_append hc []
  rcases splitFirstChunk_cases o.packet.length out with ⟨hlt, h⟩ | ⟨d, out, rfl, hd⟩
  · simp only [encode, splitFirstChunk_append ha, splitFirstChunk_append hb,
      splitFirstChunk_append hc, hrssi, h]
    rw [if_neg]
    simp only [List.length_append]
    omega
  · simp only [encode, splitFirstChunk_append ha, splitFirstChunk_append hb,
      splitFirstChunk_append hc, splitFirstChunk_append hd, hrssi]
    rw [if_pos]
    · simp only [hheader, Nat.add_assoc, drop_append_add ha, drop_append_add hb, drop_append_add hc,
        List.drop_left' hd, bytes, List.append_assoc]
    · simp only [List.length_append]
      omega

/-- An observation whose packet fits one advertising structure keeps the
contract of `Encode`. -/
theorem contract {o : SensorObservation} (h : o.packet.length ≤ SensorPacket.maxWireLen) :
    Frame.Encode.Contract o := by
  intro out out' n ho
  change encode o out = _ at ho
  rw [encode_eq] at ho
  split at ho
  · rename_i hle
    cases ho
    refine ⟨Nat.add_le_add_left h _, hle, ?_, ?_⟩
    · rw [List.length_append, List.length_drop, bytes_length]
      omega
    · exact List.drop_left' o.bytes_length
  · cases ho
theorem parse_bytes (o : SensorObservation) : parse o.bytes = .ok o := by
  have hrssi : Wire.decode (Wire.bytes o.rssi) = .ok o.rssi := by
    simpa using Wire.decode_bytes o.rssi []
  simp only [parse, bytes, DeviceAddr.splitFirst_append,
    splitFirstChunk_append (toLeBytes_length _ _),
    splitFirstChunk_append (Wire.bytes_length o.rssi), hrssi,
    ofNat_fromLeBytes_toLeBytes (n := 4) rfl]

end SensorObservation

end Homescope
