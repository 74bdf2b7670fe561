import Homescope.ApiTypes
import Homescope.Commands
import Homescope.Flash
import Homescope.UicrRecord

/-! What the provisioning tool does to its surroundings: the probe and the
board behind it, the API, the operator and the files. Every answer may be an
error. -/

namespace Homescope

open Commands

inductive ProbeError
  | failed
  | missingPermissions
  deriving DecidableEq, Repr

inductive IoError
  | failed
  deriving DecidableEq, Repr

inductive NvmcError
  | probe (error : ProbeError)
  | timeout
  deriving DecidableEq, Repr

structure Mismatch where
  address : Nat
  expected : Word
  actual : Word
  deriving DecidableEq, Repr

inductive WriteRecordError
  | probe (error : ProbeError)
  | nvmc (error : NvmcError)
  | verificationFailed (mismatch : Mismatch)
  deriving DecidableEq, Repr

inductive EraseStorageError
  | notPageAligned (start stop : Nat)
  | probe (error : ProbeError)
  | nvmc (error : NvmcError)
  | stillSet (mismatch : Mismatch)
  deriving DecidableEq, Repr

/-- `chip::FlashError`. -/
inductive FlashImageError
  | nothingBeneath (appStart : Nat)
  | probe (error : ProbeError)
  | download
  deriving DecidableEq, Repr

structure DebugProbeInfo where
  identifier : String
  serialNumber : Option String
  deriving DecidableEq, Repr

inductive ConnectError
  | noProbe
  | ambiguousProbe (probes : List DebugProbeInfo)
  | noSuchProbe (serial : String)
  | probe (error : ProbeError)
  deriving DecidableEq, Repr

inductive ConfirmError
  | aborted
  | noTty
  | io (error : IoError)
  deriving DecidableEq, Repr

inductive ApiClientError
  | rejected (status : Nat) (code : ApiErrorCode) (message : String)
  | transportError
  | responseDeserializationError (status : Nat)
  deriving DecidableEq, Repr

/-- A stored image: `storage` is what its symbols declare. -/
structure Artifact where
  id : String
  name : String
  appStart : Nat
  storage : Option (Nat × Nat)
  deriving DecidableEq, Repr

/-- `logs::Summary`. -/
structure LogSummary where
  frames : Nat
  channels : Nat
  bytes : Nat
  errors : List String

structure ChipState where
  deviceAddr : DeviceAddr
  record : RecordHeader

/-- The commands up to `reset` go through the probe. `pollReady` stands for
the whole polling loop on `NVMC_READY`, which changes nothing. The two
commands on the UICR record are methods of `Chip`; their programs over the
others are in `Chip`. -/
inductive ToolCmd
  | listAll
  | attach (probe : DebugProbeInfo) (allowEraseAll : Bool)
  | openCore
  | readWord32 (address : Nat)
  | read32 (address len : Nat)
  | writeWord32 (address : Nat) (word : Word)
  | flush
  | pollReady
  | eraseUicrRecord
  | writeUicrRecord (key : DeviceKey)
  | downloadFile (artifact : Artifact)
  | streamLogs (window : Nat)
  | coreStatus
  | halt
  | reset
  | chooseFirmware (name : Option String)
  | readImage (artifact : Artifact)
  | resolveClient
  | checkAuth
  | apiDevice (deviceAddr : DeviceAddr)
  | apiProvision (payload : ProvisionDevicePayload)
  | apiRotateKey (deviceAddr : DeviceAddr)
  | stdinIsTerminal
  | stderrLine
  | readLine

@[reducible] def ToolCmd.Answer : ToolCmd → Type
  | listAll => List DebugProbeInfo
  | attach _ _ => Except ProbeError Unit
  | openCore => Except ProbeError Unit
  | readWord32 _ => Except ProbeError Word
  | read32 _ _ => Except ProbeError (List Word)
  | writeWord32 _ _ => Except ProbeError Unit
  | flush => Except ProbeError Unit
  | pollReady => Except NvmcError Unit
  | eraseUicrRecord => Except WriteRecordError Unit
  | writeUicrRecord _ => Except WriteRecordError Unit
  | downloadFile _ => Except FlashImageError Unit
  | streamLogs _ => Except IoError LogSummary
  | coreStatus => Except ProbeError String
  | halt => Except ProbeError Unit
  | reset => Except ProbeError Unit
  | chooseFirmware _ => Except IoError Artifact
  | readImage _ => Except IoError Unit
  | resolveClient => Except IoError String
  | checkAuth => Except ApiClientError Unit
  | apiDevice _ => Except ApiClientError (Option DeviceSummary)
  | apiProvision _ => Except ApiClientError DeviceKeyResponse
  | apiRotateKey _ => Except ApiClientError DeviceKeyResponse
  | stdinIsTerminal => Bool
  | stderrLine => Except IoError Unit
  | readLine => Except IoError String

abbrev ToolM (ε α : Type) := ExceptT ε (Prog ToolCmd ToolCmd.Answer) α

namespace ToolM

def command (c : ToolCmd) : Prog ToolCmd ToolCmd.Answer c.Answer := .perform c

/-- `?`, with the error as the caller reports it. -/
def call {ε ε' α : Type} (p : Prog ToolCmd ToolCmd.Answer (Except ε' α)) (wrap : ε' → ε) :
    ToolM ε α :=
  ExceptT.mk (do return (← p).mapError wrap)

/-- The result of a call, its error included. -/
def attempt {ε ε' α : Type} (p : Prog ToolCmd ToolCmd.Answer (Except ε' α)) :
    ToolM ε (Except ε' α) :=
  ExceptT.mk (do return .ok (← p))

def ofExcept {ε ε' α : Type} (result : Except ε' α) (wrap : ε' → ε) : ToolM ε α :=
  ExceptT.mk (pure (result.mapError wrap))

section Rules

variable {ε ε' α σ : Type} {D : Device ToolCmd ToolCmd.Answer σ} {I : σ → Prop} {s : σ}
  {P : ToolCmd → Prop} {p : Prog ToolCmd ToolCmd.Answer (Except ε' α)} {wrap : ε' → ε}

theorem call_safe {Q : Except ε α → σ → Prop}
    (h : Safe D I p (fun r t => Q (r.mapError wrap) t) s) : Safe D I (call p wrap).run Q s :=
  Safe.bind (h.result.mono (fun _ h => h) (fun _ _ h => h))

theorem attempt_safe {Q : Except ε (Except ε' α) → σ → Prop}
    (h : Safe D I p (fun r t => Q (.ok r) t) s) : Safe D I (attempt p).run Q s :=
  Safe.bind (h.result.mono (fun _ h => h) (fun _ _ h => h))

theorem call_only {R : Except ε α → Prop} (h : p.Only P (fun r => R (r.mapError wrap))) :
    (call p wrap).run.Only P R :=
  Prog.Only.bind h (fun _ h => h)

theorem attempt_only {R : Except ε (Except ε' α) → Prop} (h : p.Only P (fun r => R (.ok r))) :
    (attempt p).run.Only P R :=
  Prog.Only.bind h (fun _ h => h)

/-- A program issues only commands of `P`, whatever it returns. -/
theorem bind_only {β : Type} {x : ToolM ε α} {f : α → ToolM ε β} (h : x.run.Only P fun _ => True)
    (hf : ∀ a, (f a).run.Only P fun _ => True) : (x >>= f).run.Only P fun _ => True := by
  apply Prog.Only.bindExcept
  refine h.mono fun r _ => ?_
  cases r with
  | ok a => exact hf a
  | error e => trivial

end Rules

end ToolM

end Homescope
