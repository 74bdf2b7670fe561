import Homescope.Commands
import Homescope.Envelope
import Homescope.KeyColumn
import Homescope.KeyedRows
import Mathlib.Logic.Function.Basic

/-! The API's device registry over its database (`api/src/devices/registry.rs`,
`store.rs`, `api/src/db.rs`, `api/src/ingest.rs`). A request is a program whose
commands are the atomic steps on the database and on the cache. -/

namespace Homescope

open Commands Commands.Prog

inductive SqlxError
  | duplicateDeviceAddr
  | rowNotFound
  | failed
  deriving DecidableEq, Repr

inductive KeyGenError
  | failed
  deriving DecidableEq, Repr

structure Device where
  deviceAddr : DeviceAddr
  name : String
  keyValidFrom : DateTime
  cipher : PacketCipher
  deriving DecidableEq

/-- A row of `devices` behind its primary key. -/
structure DeviceRow where
  name : String
  key : Option (List Byte)
  keyValidFrom : DateTime
  deriving DecidableEq

structure DeviceRecord where
  deviceAddr : DeviceAddr
  name : String
  key : Option (List Byte)
  keyValidFrom : DateTime
  deriving DecidableEq

inductive InsertDeviceError
  | duplicateDeviceAddr (name : String)
  | db (e : SqlxError)
  deriving DecidableEq, Repr

inductive DeviceError
  | alreadyExists (deviceAddr : DeviceAddr) (name : String)
  | notFound
  | keyGen (e : KeyGenError)
  | db (e : SqlxError)
  deriving DecidableEq

/-- What a `TIMESTAMPTZ` column keeps of a time: the microseconds since 2000. -/
def timestamptz (time : DateTime) : DateTime :=
  let epoch : DateTime := 946684800000000000
  epoch + 1000 * (time - epoch).tdiv 1000

/-- A row of `readings`, with the key that its packet was opened with, which the
table does not keep. -/
structure StoredReading where
  deviceAddr : DeviceAddr
  reading : SensorReading
  openedWith : DeviceKey
  deriving DecidableEq

namespace StoredReading

def ofReading (reading : SensorReading) (addr : DeviceAddr) (openedWith : DeviceKey) :
    StoredReading :=
  ⟨addr, { reading with receivedAt := timestamptz reading.receivedAt }, openedWith⟩

/-- The columns that are unique together. -/
def triple (r : StoredReading) : DeviceAddr × Word × DateTime :=
  (r.deviceAddr, r.reading.seq, r.reading.receivedAt)

end StoredReading

structure ApiStore where
  devices : DeviceAddr → Option DeviceRow
  readings : List StoredReading
  cache : DeviceAddr → Option Device

inductive ApiCmd
  | generateKey
  | generateNonce
  | insertRow (name : String) (addr : DeviceAddr) (key : SealedDeviceKey)
  | selectName (addr : DeviceAddr)
  | updateKey (addr : DeviceAddr) (key : SealedDeviceKey)
  | cacheInsert (addr : DeviceAddr) (device : Device)
  | cacheGet (addr : DeviceAddr)
  | insertReading (reading : SensorReading) (addr : DeviceAddr) (openedWith : DeviceKey)

abbrev ApiCmd.Answer : ApiCmd → Type
  | generateKey => Except KeyGenError DeviceKey
  | generateNonce => XNonce
  | insertRow .. => Except SqlxError DeviceRecord
  | selectName _ => Except SqlxError String
  | updateKey .. => Except SqlxError (Option DeviceRecord)
  | cacheInsert .. => Unit
  | cacheGet _ => Option Device
  | insertReading .. => Except SqlxError Unit

abbrev ApiM (α : Type) := Prog ApiCmd ApiCmd.Answer α

def DeviceKey.generate : ApiM (Except KeyGenError DeviceKey) := perform ApiCmd.generateKey

def XNonce.generate : ApiM XNonce := perform ApiCmd.generateNonce

namespace Store

def insertRow (name : String) (addr : DeviceAddr) (key : SealedDeviceKey) :
    ApiM (Except SqlxError DeviceRecord) := perform (ApiCmd.insertRow name addr key)

def selectName (addr : DeviceAddr) : ApiM (Except SqlxError String) :=
  perform (ApiCmd.selectName addr)

def isDuplicateDeviceAddr (err : SqlxError) : Bool := err = .duplicateDeviceAddr

def insertDevice (name : String) (addr : DeviceAddr) (key : SealedDeviceKey) :
    ApiM (Except InsertDeviceError DeviceRecord) := do
  match ← insertRow name addr key with
  | .ok row => return .ok row
  | .error err =>
    if isDuplicateDeviceAddr err then
      match ← selectName addr with
      | .ok name => return .error (.duplicateDeviceAddr name)
      | .error err => return .error (.db err)
    else return .error (.db err)

def updateKey (addr : DeviceAddr) (key : SealedDeviceKey) :
    ApiM (Except SqlxError (Option DeviceRecord)) := perform (ApiCmd.updateKey addr key)

def insertReading (reading : SensorReading) (addr : DeviceAddr) (openedWith : DeviceKey) :
    ApiM (Except SqlxError Unit) := perform (ApiCmd.insertReading reading addr openedWith)

end Store

namespace DeviceRegistry

def get (addr : DeviceAddr) : ApiM (Option Device) := perform (ApiCmd.cacheGet addr)

def insert (addr : DeviceAddr) (device : Device) : ApiM Unit := perform (ApiCmd.cacheInsert addr device)

variable (kekAead : Aead) (ring : KekRing)

/-- The device that a row stands for, when its key opens. -/
def deviceOf (addr : DeviceAddr) (row : DeviceRow) : Option Device :=
  match openKeyColumn kekAead row.key addr ring with
  | .error _ => none
  | .ok key => some
    { deviceAddr := addr, name := row.name, keyValidFrom := row.keyValidFrom,
      cipher := ⟨key, addr⟩ }

def load (devices : DeviceAddr → Option DeviceRow) (addr : DeviceAddr) : Option Device :=
  (devices addr).bind (deviceOf kekAead ring addr)

/-- `none` is a panic. -/
def provision (addr : DeviceAddr) (name : String) :
    ApiM (Option (Except DeviceError (Device × DeviceKey))) := do
  match ← DeviceKey.generate with
  | .error e => return some (.error (.keyGen e))
  | .ok key =>
    let nonce ← XNonce.generate
    match SealedDeviceKey.sealWithNonce kekAead ring key addr nonce with
    | none => return none
    | some sealedKey =>
      match ← Store.insertDevice name addr sealedKey with
      | .error (.db e) => return some (.error (.db e))
      | .error (.duplicateDeviceAddr name) => return some (.error (.alreadyExists addr name))
      | .ok device =>
        let registeredDevice : Device :=
          { deviceAddr := device.deviceAddr, name := device.name,
            keyValidFrom := device.keyValidFrom, cipher := ⟨key, addr⟩ }
        insert addr registeredDevice
        return some (.ok (registeredDevice, key))

def rotateKey (addr : DeviceAddr) : ApiM (Option (Except DeviceError (Device × DeviceKey))) := do
  match ← DeviceKey.generate with
  | .error e => return some (.error (.keyGen e))
  | .ok key =>
    let nonce ← XNonce.generate
    match SealedDeviceKey.sealWithNonce kekAead ring key addr nonce with
    | none => return none
    | some sealedKey =>
      match ← Store.updateKey addr sealedKey with
      | .error e => return some (.error (.db e))
      | .ok none => return some (.error .notFound)
      | .ok (some device) =>
        let newDevice : Device :=
          { deviceAddr := device.deviceAddr, name := device.name,
            keyValidFrom := device.keyValidFrom, cipher := ⟨key, addr⟩ }
        insert addr newDevice
        return some (.ok (newDevice, key))

end DeviceRegistry

/-- Without the logging of unknown devices and errors. -/
def handleEnvelope (aead : Aead) (envelope : ObservationEnvelope) : ApiM Unit := do
  match ← DeviceRegistry.get envelope.deviceAddr with
  | none => return
  | some device =>
    match SensorReading.openEnvelope aead envelope device.cipher with
    | .error _ => return
    | .ok reading =>
      let _ ← Store.insertReading reading device.deviceAddr device.cipher.key
      return

namespace ApiStore

def setRow (s : ApiStore) (addr : DeviceAddr) (row : DeviceRow) : ApiStore :=
  { s with devices := Function.update s.devices addr (some row) }

/-- `ON CONFLICT DO NOTHING`. -/
def insertReading (s : ApiStore) (r : StoredReading) : ApiStore :=
  { s with readings := KeyedRows.insertNew StoredReading.triple s.readings r }

end ApiStore

/-- What the database and the cache may do with a command. A statement fails
without an effect, or takes effect with the database's own `NOW()`. -/
def apiStep (s : ApiStore) : (c : ApiCmd) → c.Answer → ApiStore → Prop
  | .generateKey, _, t => t = s
  | .generateNonce, _, t => t = s
  | .insertRow name addr key, a, t => match a with
    | .error err => (err = .duplicateDeviceAddr → (s.devices addr).isSome = true) ∧ t = s
    | .ok record => s.devices addr = none ∧ ∃ now,
      record = ⟨addr, name, some key.bytes, now⟩ ∧ t = s.setRow addr ⟨name, some key.bytes, now⟩
  | .selectName addr, a, t => match a with
    | .error _ => t = s
    | .ok name => (∃ row, s.devices addr = some row ∧ row.name = name) ∧ t = s
  | .updateKey addr key, a, t => match a with
    | .error _ => t = s
    | .ok none => s.devices addr = none ∧ t = s
    | .ok (some record) => ∃ row now, s.devices addr = some row ∧
      record = ⟨addr, row.name, some key.bytes, now⟩ ∧
        t = s.setRow addr ⟨row.name, some key.bytes, now⟩
  | .cacheInsert addr device, _, t =>
    t = { s with cache := Function.update s.cache addr (some device) }
  | .cacheGet addr, a, t => a = s.cache addr ∧ t = s
  | .insertReading reading addr openedWith, a, t => match a with
    | .error _ => t = s
    | .ok _ => (s.devices addr).isSome = true ∧ 
      t = s.insertReading (.ofReading reading addr openedWith)

end Homescope
