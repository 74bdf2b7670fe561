import Homescope.ApiUrl
import Homescope.InstallKey

/-! The commands of the tool that change a board (`provision/src/commands.rs`),
with the consent they ask for (`confirm.rs`) and the probe they choose. -/

namespace Homescope

open Commands ToolM

/-! ### Consent -/

namespace Confirm

inductive Policy
  | granted
  | ask
  | refuse
  deriving DecidableEq, Repr

def policy (assumeYes stdinIsTerminal : Bool) : Policy :=
  match assumeYes, stdinIsTerminal with
  | true, _ => .granted
  | false, true => .ask
  | false, false => .refuse

/-- `none` means that `--yes` has answered. -/
def ask (assumeYes : Bool) : ToolM ConfirmError (Option Text) := do
  match policy assumeYes (← ExceptT.lift (command .stdinIsTerminal)) with
  | .granted => return none
  | .refuse => throw .noTty
  | .ask =>
    call (command .stderrLine) .io
    let answer ← call (command .readLine) .io
    return some (trim answer.toList)

def decideYesNo (answer : Text) : Except ConfirmError Unit :=
  if answer.map toAsciiLowercase = ['y'] ∨ answer.map toAsciiLowercase = ['y', 'e', 's'] then .ok ()
  else .error .aborted

def decideTyped (answer expected : Text) : Except ConfirmError Unit :=
  if answer = expected then .ok () else .error .aborted

def yesNo (assumeYes : Bool) : ToolM ConfirmError Unit := do
  match ← ask assumeYes with
  | none => return
  | some answer => ofExcept (decideYesNo answer) id

def typed (expected : Text) (assumeYes : Bool) : ToolM ConfirmError Unit := do
  match ← ask assumeYes with
  | none => return
  | some answer => ofExcept (decideTyped answer expected) id

end Confirm

/-! ### The probe -/

inductive Connection
  | attached
  | locked (probe : DebugProbeInfo)

namespace Chip

def chosenProbes (serial : Option String) (all : List DebugProbeInfo) : List DebugProbeInfo :=
  match serial with
  | some wanted => all.filter fun probe => probe.serialNumber = some wanted
  | none => all

def connect (serial : Option String) : ToolM ConnectError Connection := do
  let probes := chosenProbes serial (← ExceptT.lift (command .listAll))
  match probes with
  | [] => throw (serial.elim ConnectError.noProbe ConnectError.noSuchProbe)
  | [probe] =>
    match ← attempt (command (.attach probe false)) with
    | .ok _ => return .attached
    | .error .missingPermissions => return .locked probe
    | .error err => throw (ConnectError.probe err)
  | _ => throw (ConnectError.ambiguousProbe probes)

def eraseToUnlock (probe : DebugProbeInfo) : ToolM ConnectError Unit :=
  call (command (.attach probe true)) .probe

end Chip

/-! ### The mint -/

namespace ApiClientError

/-- Whether the API may have carried out the request despite this failure. -/
def mayHaveCommitted : ApiClientError → Bool
  | rejected _ _ _ => false
  | transportError => true
  | responseDeserializationError _ => true

end ApiClientError

/-- What the registry says happened, when a mint failed without answering. -/
inductive Mint
  | committed
  | untouched
  | unknown
  deriving DecidableEq, Repr

def classifyMint (before now : Option Timestamp) : Mint :=
  match before, now with
  | none, some _ => .committed
  | some before, some now => if before < now then .committed else .untouched
  | none, none => .untouched
  | some _, none => .unknown

namespace Provision

def mintKey (deviceAddr : DeviceAddr) (epochBefore : Option Timestamp) (retryCommand : String)
    (request : Prog ToolCmd ToolCmd.Answer (Except ApiClientError DeviceKeyResponse)) :
    ToolM Anyhow DeviceKeyResponse := do
  match ← attempt request with
  | .ok response => return response
  | .error err =>
    if !err.mayHaveCommitted then throw (.api err)
    let outcome ← attempt (command (.apiDevice deviceAddr))
    match outcome with
    | .error _ => throw (.mintUnknown deviceAddr retryCommand err)
    | .ok found =>
      match classifyMint epochBefore (found.map DeviceSummary.keyValidFrom) with
      | .untouched => throw (.mintUntouched err)
      | .committed => throw (.mintCommitted deviceAddr retryCommand err)
      | .unknown => throw (.mintUnknown deviceAddr retryCommand err)

/-- What the tool reports once the follow-up is answered. -/
def mintError (deviceAddr : DeviceAddr) (epochBefore : Option Timestamp) (retryCommand : String)
    (err : ApiClientError) : Except ApiClientError (Option DeviceSummary) → Anyhow
  | .error _ => .mintUnknown deviceAddr retryCommand err
  | .ok found =>
    match classifyMint epochBefore (found.map DeviceSummary.keyValidFrom) with
    | .untouched => .mintUntouched err
    | .committed => .mintCommitted deviceAddr retryCommand err
    | .unknown => .mintUnknown deviceAddr retryCommand err

/-- What the tool does with the answer to the request. -/
def afterPost (deviceAddr : DeviceAddr) (epochBefore : Option Timestamp) (retryCommand : String) :
    Except ApiClientError DeviceKeyResponse →
      Prog ToolCmd ToolCmd.Answer (Except Anyhow DeviceKeyResponse)
  | .ok response => .ret (.ok response)
  | .error err =>
    if !err.mayHaveCommitted then .ret (.error (.api err))
    else .cmd (.apiDevice deviceAddr) fun outcome =>
      .ret (.error (mintError deviceAddr epochBefore retryCommand err outcome))

theorem mintKey_run (deviceAddr : DeviceAddr) (epochBefore : Option Timestamp)
    (retryCommand : String)
    (request : Prog ToolCmd ToolCmd.Answer (Except ApiClientError DeviceKeyResponse)) :
    (mintKey deviceAddr epochBefore retryCommand request).run =
      request >>= afterPost deviceAddr epochBefore retryCommand := by
  refine (Prog.bind_assoc request _ _).trans (congrArg (request >>= ·) (funext fun r => ?_))
  rcases r with err | response
  · cases err with
    | rejected status code message => rfl
    | _ =>
      refine congrArg (Prog.cmd (ToolCmd.apiDevice deviceAddr)) (funext fun outcome => ?_)
      rcases outcome with e | found
      · rfl
      · simp only [mintError, Prog.bind, pure, ExceptT.bindCont]
        cases classifyMint epochBefore (found.map DeviceSummary.keyValidFrom) <;> rfl
  · rfl

/-! ### The commands -/

inductive Action
  | provision
  | rotate (name : String)

/-- Every action asks in the same cases; only the question differs. -/
def confirmRecord (record : RecordHeader) (_action : Action) (assumeYes : Bool) :
    ToolM ConfirmError Unit :=
  match record with
  | .blank => pure ()
  | .malformed _ => Confirm.yesNo assumeYes
  | .present => Confirm.yesNo assumeYes

def chooseFirmware (name : Option String) : ToolM Anyhow Artifact :=
  call (command (.chooseFirmware name)) .io

def optionalFirmware (name : Option String) : ToolM Anyhow (Option Artifact) :=
  match name with
  | none => return none
  | some name => some <$> chooseFirmware (some name)

def checkAuthBeforeUnlock (unlock : Bool) : ToolM Anyhow Unit :=
  if unlock then call (command .checkAuth) .api else pure ()

def connect (serial : Option String) (unlock assumeYes : Bool) : ToolM Anyhow Unit := do
  match ← call (Chip.connect serial).run .connect with
  | .attached => if unlock then throw .deviceAlreadyUnlocked
  | .locked probe =>
    if !unlock then throw .deviceLocked
    call (Confirm.typed "ERASE".toList assumeYes).run .confirm
    call (Chip.eraseToUnlock probe).run .connect

/-- The arguments that `provision` and `rotate` share. -/
structure Args where
  firmware : Option String
  serial : Option String
  logs : Nat
  assumeYes : Bool
  unlock : Bool

/-- What both commands do up to the registry's view of the board. -/
def lookUp (args : Args) : ToolM Anyhow (Option Artifact × ChipState × Option DeviceSummary) := do
  let firmware ← optionalFirmware args.firmware
  let _ ← call (command .resolveClient) .io
  checkAuthBeforeUnlock args.unlock
  connect args.serial args.unlock args.assumeYes
  let state ← call (Chip.readState).run .probe
  let registered ← call (command (.apiDevice state.deviceAddr)) .api
  return (firmware, state, registered)

/-- What both commands do from the consent on. -/
def mintAndInstall (args : Args) (firmware : Option Artifact) (state : ChipState) (action : Action)
    (epochBefore : Option Timestamp) (retryCommand : String)
    (request : Prog ToolCmd ToolCmd.Answer (Except ApiClientError DeviceKeyResponse)) :
    ToolM Anyhow Unit := do
  call (confirmRecord state.record action args.assumeYes).run .confirm
  call (Chip.halt).run .probe
  let response ← mintKey state.deviceAddr epochBefore retryCommand request
  installKey state.record response firmware args.logs retryCommand

def provision (args : Args) (name : String) : ToolM Anyhow Unit := do
  let (firmware, state, registered) ← lookUp args
  if let some existing := registered then
    throw (.alreadyRegistered state.deviceAddr existing.name)
  mintAndInstall args firmware state .provision none "provision"
    (command (.apiProvision { name, deviceAddr := state.deviceAddr }))

def rotateKey (args : Args) : ToolM Anyhow Unit := do
  let (firmware, state, registered) ← lookUp args
  match registered with
  | none => throw (.notRegistered state.deviceAddr)
  | some existing =>
    if existing.keyStatus = .kekUnavailable then stderrLine
    mintAndInstall args firmware state (.rotate existing.name) (some existing.keyValidFrom) "rotate"
      (command (.apiRotateKey state.deviceAddr))

/-- What `flash` does once it knows the board. -/
def reflash (artifact : Artifact) (logs : Nat) : ToolM Anyhow Unit := do
  let before ← call (Chip.readUicrWords).run .probe
  flashImage artifact
  let after ← call (Chip.readUicrWords).run .probe
  if after ≠ before then throw .recordChanged
  call (Chip.reset).run .probe
  reportBoot artifact logs

def flash (firmware serial : Option String) (logs : Nat) : ToolM Anyhow Unit := do
  let artifact ← chooseFirmware firmware
  match ← call (Chip.connect serial).run .connect with
  | .locked _ => throw .deviceLocked
  | .attached =>
    let state ← call (Chip.readState).run .probe
    if state.record ≠ .present then stderrLine
    reflash artifact logs

end Provision

end Homescope
