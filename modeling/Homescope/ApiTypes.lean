import Homescope.DeviceKey

/-! What the API and the provisioning tool send each other (`api-types`). -/

namespace Homescope

/-- Nanoseconds since the epoch. -/
abbrev Timestamp := Int

structure ProvisionDevicePayload where
  name : String
  deviceAddr : DeviceAddr

structure DeviceKeyResponse where
  deviceAddr : DeviceAddr
  name : String
  keyValidFrom : Timestamp
  key : String

/-- `unknown` stands for a status that the reader does not know, and is never
sent. -/
inductive DeviceKeyStatus
  | missing
  | invalid
  | kekUnavailable
  | unopenable
  | ok
  | unknown
  deriving DecidableEq, Repr

structure DeviceSummary where
  deviceAddr : DeviceAddr
  name : String
  keyStatus : DeviceKeyStatus
  keyValidFrom : Timestamp
  lastSeen : Option Timestamp
  deriving DecidableEq

inductive ApiErrorCode
  | internalError
  | invalidBody
  | invalidParams
  | notFound
  | methodNotAllowed
  | unauthorized
  | deviceAlreadyExists
  | deviceNotFound
  | unknown
  deriving DecidableEq, Repr

end Homescope
