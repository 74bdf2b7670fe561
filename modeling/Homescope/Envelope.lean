import Homescope.Observation
import Homescope.Packet

/-! From the observation at the gateway to the reading at the API
(`common/src/observation_envelope.rs`, `common/src/reading.rs`). Times are
nanoseconds since the epoch; the range of the timestamp type, JSON and base64
are parameters. -/

namespace Homescope

abbrev DateTime := Int

/-- Nanoseconds in `ms` milliseconds. -/
def milliseconds (ms : Nat) : Int := 1000000 * ms

structure ObservationEnvelope where
  deviceAddr : DeviceAddr
  rssi : Dbm
  receivedAt : DateTime
  packet : List Byte
  deriving DecidableEq

/-- The fields of an envelope as JSON carries them. -/
structure EnvelopeJson where
  deviceAddr : String
  rssi : BitVec 8
  receivedAt : DateTime
  packet : String
  deriving DecidableEq

/-- The text formats that an envelope travels in. -/
structure TextFormat where
  toVec : EnvelopeJson → List Byte
  fromSlice : List Byte → Option EnvelopeJson
  base64Encode : List Byte → String
  base64Decode : String → Option (List Byte)

structure TextFormat.Lawful (format : TextFormat) : Prop where
  fromSlice_toVec (json) : format.fromSlice (format.toVec json) = some json
  base64Decode_encode (bytes) : format.base64Decode (format.base64Encode bytes) = some bytes

namespace ObservationEnvelope

/-- `none` is the panic of a subtraction that leaves the range of the type. -/
def fromObservation (inRange : DateTime → Bool) (observation : SensorObservation)
    (now : DateTime) : Option ObservationEnvelope :=
  let receivedAt := now - milliseconds observation.ageMs.toNat
  if inRange receivedAt then
    some { deviceAddr := observation.deviceAddr, rssi := observation.rssi, receivedAt,
           packet := observation.packet }
  else none

variable (format : TextFormat)

def serialize (envelope : ObservationEnvelope) : List Byte :=
  format.toVec
    { deviceAddr := envelope.deviceAddr.encodeHex
      rssi := envelope.rssi.repr
      receivedAt := envelope.receivedAt
      packet := format.base64Encode envelope.packet }

def deserialize (payload : List Byte) : Option ObservationEnvelope := do
  let json ← format.fromSlice payload
  let deviceAddr ← (DeviceAddr.fromStr json.deviceAddr).toOption
  let packet ← format.base64Decode json.packet
  return { deviceAddr, rssi := ⟨json.rssi⟩, receivedAt := json.receivedAt, packet }

theorem deserialize_serialize {format : TextFormat} (h : format.Lawful)
    (envelope : ObservationEnvelope) :
    deserialize format (envelope.serialize format) = some envelope := by
  simp [deserialize, serialize, h.fromSlice_toVec, DeviceAddr.fromStr_encodeHex,
    h.base64Decode_encode, Except.toOption]

end ObservationEnvelope

structure SensorReading where
  deviceAddr : DeviceAddr
  seq : Word
  rssi : Dbm
  receivedAt : DateTime
  battery : Option Millivolts
  temperature : Option CentiCelsius
  relativeHumidity : Option CentiPercent
  deriving DecidableEq

def SensorReading.openEnvelope (aead : Aead) (value : ObservationEnvelope)
    (cipher : PacketCipher) : Except SensorPacket.DecodeError SensorReading :=
  match SensorPacket.parse value.packet with
  | .error e => .error (.header e)
  | .ok packet =>
    match packet.decode aead cipher with
    | .error e => .error e
    | .ok metrics =>
      .ok { deviceAddr := value.deviceAddr
            seq := packet.seq
            rssi := value.rssi
            receivedAt := value.receivedAt
            battery := metrics.battery
            temperature := metrics.temperature
            relativeHumidity := metrics.relativeHumidity }

end Homescope
