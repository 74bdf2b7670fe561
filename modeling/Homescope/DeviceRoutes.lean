import Homescope.Provisioning
import Homescope.Summary

/-! The device routes of the API (`api/src/devices/routes.rs`, `api/src/http`)
and the tool's client for them (`provision/src/api_client.rs`). -/

namespace Homescope

open Commands

/-- The `details` of an error are left out: the tool's commands do not read them. -/
structure ApiError where
  status : Nat
  code : ApiErrorCode
  message : String
  deriving DecidableEq, Repr

namespace ApiError

def internal : ApiError := ⟨500, .internalError, "internal server error"⟩

def unauthorized : ApiError :=
  ⟨401, .unauthorized, "you are not authorized to perform that operation"⟩

def notFound : ApiError := ⟨404, .notFound, "provided path not found"⟩

def methodNotAllowed : ApiError :=
  ⟨405, .methodNotAllowed, "http method is not available for that path"⟩

def invalidBody (text : String) : ApiError := ⟨400, .invalidBody, text⟩

def invalidParams (text : String) : ApiError := ⟨400, .invalidParams, text⟩

def ofDeviceError : DeviceError → ApiError
  | .alreadyExists deviceAddr name =>
    ⟨409, .deviceAlreadyExists, "device " ++ deviceAddr.encodeHex ++ " already exists as '" ++ name ++
      "' - rotate its key instead"⟩
  | .notFound => ⟨404, .deviceNotFound, "device not found"⟩
  | .db _ => internal
  | .keyGen _ => internal

/-- What the router, the token check and the extractors answer in a handler's
place. -/
inductive BeforeHandler : ApiError → Prop
  | unauthorized : BeforeHandler unauthorized
  | notFound : BeforeHandler notFound
  | methodNotAllowed : BeforeHandler methodNotAllowed
  | invalidBody (text : String) : BeforeHandler (invalidBody text)
  | invalidParams (text : String) : BeforeHandler (invalidParams text)

end ApiError

/-- A status with its body, or an error. -/
abbrev ApiResponse (α : Type) := Except ApiError (Nat × α)

def DeviceKeyResponse.ofDevice (device : Device) (key : DeviceKey) : DeviceKeyResponse where
  deviceAddr := device.deviceAddr
  name := device.name
  keyValidFrom := device.keyValidFrom
  key := key.toHex

namespace DeviceRoutes

variable (config : ApiConfig)

/-- As for the registry, `none` is a panic. -/
def provisionDevice (payload : ProvisionDevicePayload) :
    ApiM (Option (ApiResponse DeviceKeyResponse)) := do
  match ← DeviceRegistry.provision config.kekAead config.ring payload.deviceAddr payload.name with
  | none => return none
  | some (.error err) => return some (.error (.ofDeviceError err))
  | some (.ok (device, key)) => return some (.ok (201, .ofDevice device key))

def rotateDeviceKey (deviceAddr : DeviceAddr) : ApiM (Option (ApiResponse DeviceKeyResponse)) := do
  match ← DeviceRegistry.rotateKey config.kekAead config.ring deviceAddr with
  | none => return none
  | some (.error err) => return some (.error (.ofDeviceError err))
  | some (.ok (device, key)) => return some (.ok (200, .ofDevice device key))

/-- What the handler of a rotation does after its statement. -/
def afterUpdate (addr : DeviceAddr) (key : DeviceKey) :
    Except SqlxError (Option DeviceRecord) → ApiM (Option (ApiResponse DeviceKeyResponse))
  | .error e => .ret (some (.error (.ofDeviceError (.db e))))
  | .ok none => .ret (some (.error (.ofDeviceError .notFound)))
  | .ok (some r) =>
    let device : Device := ⟨r.deviceAddr, r.name, r.keyValidFrom, ⟨key, addr⟩⟩
    .cmd (.cacheInsert addr device) fun _ => .ret (some (.ok (200, .ofDevice device key)))

theorem rotateDeviceKey_eq (addr : DeviceAddr) :
    rotateDeviceKey config addr = .cmd .generateKey fun key => match key with
      | .error e => .ret (some (.error (.ofDeviceError (.keyGen e))))
      | .ok key => .cmd .generateNonce fun nonce =>
        match SealedDeviceKey.sealWithNonce config.kekAead config.ring key addr nonce with
        | none => .ret none
        | some sealedKey => .cmd (.updateKey addr sealedKey) (afterUpdate addr key) := by
  refine congrArg (Prog.cmd ApiCmd.generateKey) (funext fun key => ?_)
  cases key with
  | error e => rfl
  | ok key =>
    refine congrArg (Prog.cmd ApiCmd.generateNonce) (funext fun nonce => ?_)
    simp only [Prog.bind]
    cases SealedDeviceKey.sealWithNonce config.kekAead config.ring key addr nonce with
    | none => rfl
    | some sealedKey =>
      refine congrArg (Prog.cmd (ApiCmd.updateKey addr sealedKey)) (funext fun a => ?_)
      rcases a with e | _ | r <;> rfl

theorem provisionDevice_eq (payload : ProvisionDevicePayload) :
    provisionDevice config payload = .cmd .generateKey fun key => match key with
      | .error e => .ret (some (.error (.ofDeviceError (.keyGen e))))
      | .ok key => .cmd .generateNonce fun nonce =>
        match SealedDeviceKey.sealWithNonce config.kekAead config.ring key payload.deviceAddr
          nonce with
        | none => .ret none
        | some sealedKey => .cmd (.insertRow payload.name payload.deviceAddr sealedKey) fun a =>
          match a with
          | .error .duplicateDeviceAddr =>
            .cmd (.selectName payload.deviceAddr) fun a => match a with
              | .error e => .ret (some (.error (.ofDeviceError (.db e))))
              | .ok name =>
                .ret (some (.error (.ofDeviceError (.alreadyExists payload.deviceAddr name))))
          | .error err => .ret (some (.error (.ofDeviceError (.db err))))
          | .ok r =>
            let device : Device := ⟨r.deviceAddr, r.name, r.keyValidFrom, ⟨key, payload.deviceAddr⟩⟩
            .cmd (.cacheInsert payload.deviceAddr device)
              fun _ => .ret (some (.ok (201, .ofDevice device key))) := by
  refine congrArg (Prog.cmd ApiCmd.generateKey) (funext fun key => ?_)
  cases key with
  | error e => rfl
  | ok key =>
    refine congrArg (Prog.cmd ApiCmd.generateNonce) (funext fun nonce => ?_)
    simp only [Prog.bind]
    cases SealedDeviceKey.sealWithNonce config.kekAead config.ring key payload.deviceAddr nonce with
    | none => rfl
    | some sealedKey =>
      refine congrArg (Prog.cmd (ApiCmd.insertRow payload.name payload.deviceAddr sealedKey))
        (funext fun a => ?_)
      rcases a with err | r
      · cases err
        · refine congrArg (Prog.cmd (ApiCmd.selectName payload.deviceAddr)) (funext fun b => ?_)
          cases b <;> rfl
        · rfl
        · rfl
      · rfl

def summary (found : Except SqlxError (Option DeviceActivity)) :
    Except SqlxError (Option DeviceSummary) :=
  found.map fun activity => activity.map fun a => classify config.kekAead a config.ring

/-- `found` is what the activity query answers. -/
def getDevice (found : Except SqlxError (Option DeviceActivity)) : ApiResponse DeviceSummary :=
  match summary config found with
  | .error _ => .error .internal
  | .ok none => .error (.ofDeviceError .notFound)
  | .ok (some device) => .ok (200, device)

end DeviceRoutes

namespace ApiClient

/-- A body that cannot be read is an error of its own. -/
def handleResponse {α : Type} : ApiResponse α → Except ApiClientError α
  | .error e => .error (.rejected e.status e.code e.message)
  | .ok (_, body) => .ok body

def absentIfNotRegistered {α : Type} (result : Except ApiClientError α) :
    Except ApiClientError (Option α) :=
  match result with
  | .ok value => .ok (some value)
  | .error (.rejected _ .deviceNotFound _) => .ok none
  | .error err => .error err

/-- What the tool learns of a device is what the table holds. -/
theorem absentIfNotRegistered_getDevice {config : ApiConfig} {s : ApiStore} {addr : DeviceAddr}
    {found : Except SqlxError (Option DeviceActivity)}
    (hfound : ∀ a, found = .ok a → a = Store.activityByAddr s addr) {d : Option DeviceSummary}
    (h : absentIfNotRegistered (handleResponse (DeviceRoutes.getDevice config found)) = .ok d) :
    d.map DeviceSummary.keyValidFrom = (s.devices addr).map DeviceRow.keyValidFrom := by
  rcases found with e | a
  · cases h
  · cases hfound a rfl
    cases hrow : s.devices addr with
    | none =>
      simp only [Store.activityByAddr, hrow] at h
      cases h
      rfl
    | some row =>
      simp only [Store.activityByAddr, hrow] at h
      cases h
      rfl

theorem absentIfNotRegistered_beforeHandler {α : Type} {e : ApiError} (h : e.BeforeHandler)
    (d : Option α) : absentIfNotRegistered (handleResponse (.error e)) ≠ .ok d := by
  cases h <;> nofun

end ApiClient

end Homescope
