import Homescope.Wire

/-! Measurements, each an id byte and a little-endian value
(`common/src/measurement.rs`). -/

namespace Homescope

inductive MeasurementId
  | battery
  | temperature
  | humidity
  deriving DecidableEq, Repr

structure MeasurementIdUnknownError where
  id : Byte
  deriving DecidableEq, Repr

namespace MeasurementId

def toByte : MeasurementId → Byte
  | battery => 0x01
  | temperature => 0x02
  | humidity => 0x03

def tryFrom (value : Byte) : Except MeasurementIdUnknownError MeasurementId :=
  if value = 0x01 then .ok battery
  else if value = 0x02 then .ok temperature
  else if value = 0x03 then .ok humidity
  else .error ⟨value⟩

theorem tryFrom_toByte (k : MeasurementId) : tryFrom k.toByte = .ok k := by
  cases k <;> rfl

end MeasurementId

inductive Measurement
  | battery (value : Millivolts)
  | temperature (value : CentiCelsius)
  | humidity (value : CentiPercent)
  deriving DecidableEq, Repr

namespace Measurement

inductive DecodeError
  | truncated (e : Truncated)
  | unknownId (e : MeasurementIdUnknownError)
  deriving DecidableEq, Repr

def variantCount : Nat := 3

def idLen : Nat := 1

def maxEncodedLen : Nat :=
  max (max (1 + Wire.size Millivolts) (1 + Wire.size CentiCelsius)) (1 + Wire.size CentiPercent)

def id : Measurement → MeasurementId
  | battery _ => .battery
  | temperature _ => .temperature
  | humidity _ => .humidity

/-- The arm of `decode` for one variant. -/
def decodeValue {U : Type} [Wire U] (wrap : U → Measurement) (rest : List Byte) :
    Except DecodeError (Measurement × Nat) :=
  match Wire.decode rest with
  | .error e => .error (.truncated e)
  | .ok value => .ok (wrap value, Wire.size U + idLen)

/-- Trailing bytes after the value are ignored. -/
def decode : List Byte → Except DecodeError (Measurement × Nat)
  | [] => .error (.truncated .mk)
  | id :: rest =>
    match MeasurementId.tryFrom id with
    | .error e => .error (.unknownId e)
    | .ok .battery => decodeValue battery rest
    | .ok .temperature => decodeValue temperature rest
    | .ok .humidity => decodeValue humidity rest

def encodeValue : Measurement → List Byte → Except BufferTooSmall (List Byte × Nat)
  | battery value => Wire.encode value
  | temperature value => Wire.encode value
  | humidity value => Wire.encode value

def encode (m : Measurement) : List Byte → Except BufferTooSmall (List Byte × Nat)
  | [] => .error .mk
  | _ :: payload =>
    match m.encodeValue payload with
    | .error e => .error e
    | .ok (payload, n) => .ok (m.id.toByte :: payload, idLen + n)

def valueBytes : Measurement → List Byte
  | battery value => Wire.bytes value
  | temperature value => Wire.bytes value
  | humidity value => Wire.bytes value

/-- The encoding of a measurement. -/
def bytes (m : Measurement) : List Byte := m.id.toByte :: m.valueBytes

theorem bytes_length (m : Measurement) : m.bytes.length = maxEncodedLen := by
  cases m <;> rfl

theorem decodeValue_bytes {U : Type} [Wire U] (wrap : U → Measurement) (value : U)
    (rest : List Byte) :
    decodeValue wrap (Wire.bytes value ++ rest) = .ok (wrap value, Wire.size U + idLen) := by
  rw [decodeValue, Wire.decode_bytes]

theorem decode_bytes (m : Measurement) (rest : List Byte) :
    decode (m.bytes ++ rest) = .ok (m, maxEncodedLen) := by
  cases m with
  | battery value => exact decodeValue_bytes battery value rest
  | temperature value => exact decodeValue_bytes temperature value rest
  | humidity value => exact decodeValue_bytes humidity value rest

theorem encodeValue_append (m : Measurement) {front : List Byte} (h : front.length = 2)
    (rest : List Byte) : m.encodeValue (front ++ rest) = .ok (m.valueBytes ++ rest, 2) := by
  cases m <;> exact Wire.encode_append h rest

theorem encode_append (m : Measurement) {front : List Byte} (h : front.length = maxEncodedLen)
    (rest : List Byte) : m.encode (front ++ rest) = .ok (m.bytes ++ rest, maxEncodedLen) := by
  obtain ⟨b, front, rfl⟩ := List.exists_cons_of_length_eq_add_one h
  rw [List.cons_append, encode, encodeValue_append m (Nat.succ.inj h)]
  rfl

end Measurement

end Homescope
