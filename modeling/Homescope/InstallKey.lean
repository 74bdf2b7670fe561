import Homescope.Chip

/-! Everything the tool does after the API issued a key
(`provision/src/commands.rs`, `install_key` and what it calls). -/

namespace Homescope

open Commands

/-- What a command of the tool fails with. `installFailed` is the context that
`install_key` adds to whatever went wrong inside it. -/
inductive Anyhow
  | fromHex (error : FromHexError)
  | writeRecord (error : WriteRecordError)
  | flash (error : FlashImageError)
  | eraseStorage (error : EraseStorageError)
  | probe (error : ProbeError)
  | io (error : IoError)
  | connect (error : ConnectError)
  | confirm (error : ConfirmError)
  | api (error : ApiClientError)
  | deviceLocked
  | deviceAlreadyUnlocked
  | alreadyRegistered (deviceAddr : DeviceAddr) (name : String)
  | notRegistered (deviceAddr : DeviceAddr)
  | recordChanged
  | mintUntouched (error : ApiClientError)
  | mintCommitted (deviceAddr : DeviceAddr) (retryCommand : String) (error : ApiClientError)
  | mintUnknown (deviceAddr : DeviceAddr) (retryCommand : String) (error : ApiClientError)
  | installFailed (deviceAddr : DeviceAddr) (name retryCommand : String) (cause : Anyhow)

namespace Provision

open ToolM

/-- A method of `Chip` that touches the UICR record. -/
def eraseUicrRecord : ToolM WriteRecordError Unit := ExceptT.mk (command .eraseUicrRecord)

def writeUicrRecord (key : DeviceKey) : ToolM WriteRecordError Unit :=
  ExceptT.mk (command (.writeUicrRecord key))

def stderrLine : ToolM Anyhow Unit := call (command .stderrLine) .io

def flashImage (artifact : Artifact) : ToolM Anyhow Unit := call (Chip.flash artifact).run .flash

/-- `logs` is the number of seconds to read for, none if it is zero. -/
def reportBoot (artifact : Artifact) (logs : Nat) : ToolM Anyhow Unit := do
  if logs = 0 then return
  call (command (.readImage artifact)) .io
  stderrLine
  match ← attempt (Chip.streamLogs logs).run with
  | .error _ => stderrLine
  | .ok summary =>
    if summary.frames = 0 then
      let _ ← attempt (Chip.coreStatus).run
      stderrLine
    else if summary.errors ≠ [] then
      stderrLine

/-- The erase is decided from the header alone. -/
def replaceRecord (record : RecordHeader) (key : DeviceKey) : ToolM Anyhow Unit := do
  if !record.isBlank then
    call eraseUicrRecord.run .writeRecord
  call (writeUicrRecord key).run .writeRecord

def installFirmware (firmware : Option Artifact) (logs : Nat) : ToolM Anyhow Unit := do
  if let some artifact := firmware then
    flashImage artifact
    if let some (start, stop) := artifact.storage then
      call (Chip.eraseStorage start stop).run .eraseStorage
  call (Chip.reset).run .probe
  if let some artifact := firmware then
    reportBoot artifact logs

/-- The closure of `install_key`, up to the context of its errors. -/
def install (record : RecordHeader) (key : DeviceKey) (firmware : Option Artifact) (logs : Nat) :
    ToolM Anyhow Unit := do
  replaceRecord record key
  installFirmware firmware logs

def installKey (record : RecordHeader) (response : DeviceKeyResponse) (firmware : Option Artifact)
    (logs : Nat) (retryCommand : String) : ToolM Anyhow Unit := do
  let key ← ofExcept (DeviceKey.fromHex response.key) .fromHex
  call (install record key firmware logs).run
    (.installFailed response.deviceAddr response.name retryCommand)

/-- A command of the tool with its record methods carried out by the probe. -/
def onProbe {ε α : Type} (f : ToolM ε α) : ToolM ε α := ExceptT.mk (f.run.expand Chip.record)

theorem onProbe_bind {ε α β : Type} (x : ToolM ε α) (f : α → ToolM ε β) :
    onProbe (x >>= f) = onProbe x >>= fun a => onProbe (f a) := by
  refine (Prog.expand_bind x.run _).trans ?_
  refine congrArg (fun g => x.run.expand Chip.record >>= g) (funext fun r => ?_)
  cases r <;> rfl

theorem onProbe_call {ε ε' α : Type} (p : Prog ToolCmd ToolCmd.Answer (Except ε' α))
    (wrap : ε' → ε) : onProbe (call p wrap) = call (p.expand Chip.record) wrap :=
  Prog.expand_bind p _

theorem onProbe_replaceRecord (record : RecordHeader) (key : DeviceKey) :
    onProbe (replaceRecord record key) = (do
      if !record.isBlank then
        call (Chip.eraseUicrRecord).run .writeRecord
      call (Chip.writeUicrRecord key).run .writeRecord) := by
  have herase : eraseUicrRecord.run.expand Chip.record = (Chip.eraseUicrRecord).run :=
    Prog.expand_perform _
  have hwrite : (writeUicrRecord key).run.expand Chip.record = (Chip.writeUicrRecord key).run :=
    Prog.expand_perform _
  rw [replaceRecord]
  cases record.isBlank
  · simp only [Bool.not_false, if_true, onProbe_bind, onProbe_call, herase, hwrite]
  · simp only [Bool.not_true, Bool.false_eq_true, if_false, onProbe_call, hwrite]

end Provision

end Homescope
