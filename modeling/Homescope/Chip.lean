import Homescope.Tool

/-! The board as the tool sees it (`provision/src/chip.rs`,
`provision/src/chip/nvmc.rs` and `memory.rs`). -/

namespace Homescope

open Commands

def nvmcConfig : Nat := 0x4001E504
def nvmcEraseUicr : Nat := 0x4001E514
def eraseUicr : Word := 1
def nvmcErasePage : Nat := 0x4001E508

def ficrDeviceAddr : Nat := 0x100000A4
def uicrCustomer : Nat := 0x10001080

inductive NvmcMode
  | readOnly
  | writeEnabled
  | eraseEnabled
  deriving DecidableEq, Repr

def NvmcMode.word : NvmcMode → Word
  | readOnly => 0
  | writeEnabled => 1
  | eraseEnabled => 2

namespace Nvmc

open ToolM

def setMode (mode : NvmcMode) : ToolM ProbeError Unit :=
  ExceptT.mk (command (.writeWord32 nvmcConfig mode.word))

def flush : ToolM ProbeError Unit := ExceptT.mk (command .flush)

/-- The mode is restored whatever happened, and the closure's own error comes
first. -/
def finish {α : Type} (closureResult : Except NvmcError α) : ToolM NvmcError α := do
  let restored ← attempt (setMode .readOnly).run
  let flushed ← attempt flush.run
  let value ← ofExcept closureResult id
  ofExcept restored .probe
  ofExcept flushed .probe
  return value

def withMode {α : Type} (mode : NvmcMode) (f : ToolM NvmcError α) : ToolM NvmcError α := do
  call (setMode mode).run .probe
  let closureResult ← attempt f.run
  finish closureResult

def withWriteEnabled {α : Type} (f : ToolM NvmcError α) : ToolM NvmcError α :=
  withMode .writeEnabled f

def withEraseEnabled {α : Type} (f : ToolM NvmcError α) : ToolM NvmcError α :=
  withMode .eraseEnabled f

def writeWord (address : Nat) (word : Word) : ToolM NvmcError Unit := do
  call (command (.writeWord32 address word)) .probe
  ExceptT.mk (command .pollReady)

def writeWords : Nat → List Word → ToolM NvmcError Unit
  | _, [] => pure ()
  | address, word :: words => do
    writeWord address word
    writeWords (address + 4) words

def eraseUicr : ToolM NvmcError Unit := writeWord nvmcEraseUicr Homescope.eraseUicr

def erasePage (address : Nat) : ToolM NvmcError Unit :=
  writeWord nvmcErasePage (BitVec.ofNat 32 address)

def erasePages : List Nat → ToolM NvmcError Unit
  | [] => pure ()
  | page :: pages => do
    erasePage page
    erasePages pages

end Nvmc

namespace Chip

open ToolM

def chunkSize : Nat := 128

/-- The first word of a chunk that was read back differently. -/
def firstMismatch (address : Nat) : List Word → List Word → Option Mismatch
  | actual :: actuals, expected :: expecteds =>
    if actual ≠ expected then some ⟨address, expected, actual⟩
    else firstMismatch (address + 4) actuals expecteds
  | _, _ => none

/-- `words.chunks(CHUNK_SIZE)`, with one more round than there are words. -/
def chunks : Nat → List Word → List (List Word)
  | 0, _ => []
  | n + 1, words =>
    if words.isEmpty then [] else words.take chunkSize :: chunks n (words.drop chunkSize)

def findMismatchIn (address : Nat) : List (List Word) → ToolM ProbeError (Option Mismatch)
  | [] => pure none
  | chunk :: rest => do
    let buf ← ExceptT.mk (command (.read32 address chunk.length))
    match firstMismatch address buf chunk with
    | some mismatch => pure (some mismatch)
    | none => findMismatchIn (address + chunk.length * 4) rest

def findMismatch (address : Nat) (words : List Word) : ToolM ProbeError (Option Mismatch) :=
  findMismatchIn address (chunks (words.length + 1) words)

def openCore {ε : Type} (wrap : ProbeError → ε) : ToolM ε Unit := call (command .openCore) wrap

def readUicrHeader : ToolM ProbeError RecordHeader := do
  let headerWord ← ExceptT.mk (command (.readWord32 uicrCustomer))
  return UicrRecord.decodeHeader headerWord

def readDeviceAddr : ToolM ProbeError DeviceAddr := do
  let buf ← ExceptT.mk (command (.read32 ficrDeviceAddr 2))
  return DeviceAddr.fromFicr (buf.getD 0 0) (buf.getD 1 0)

def readState : ToolM ProbeError ChipState := do
  openCore id
  let record ← readUicrHeader
  let deviceAddr ← readDeviceAddr
  return { record, deviceAddr }

def eraseUicrRecord : ToolM WriteRecordError Unit := do
  openCore .probe
  call (Nvmc.withEraseEnabled Nvmc.eraseUicr).run .nvmc
  let mismatch ← call (findMismatch uicrCustomer (List.replicate 9 erased)).run .probe
  match mismatch with
  | some mismatch => throw (.verificationFailed mismatch)
  | none => pure ()

/-- The key words go first and the header last. -/
def writeUicrRecord (key : DeviceKey) : ToolM WriteRecordError Unit := do
  let record := List.ofFn (UicrRecord.encode key)
  openCore .probe
  call (Nvmc.withWriteEnabled do
    Nvmc.writeWords (uicrCustomer + 4) (record.drop 1)
    Nvmc.writeWord uicrCustomer (record.headD 0)).run .nvmc
  let mismatch ← call (findMismatch uicrCustomer record).run .probe
  match mismatch with
  | some mismatch => throw (.verificationFailed mismatch)
  | none => pure ()

def readUicrWords : ToolM ProbeError (List Word) := do
  openCore id
  ExceptT.mk (command (.read32 uicrCustomer 9))

def flash (artifact : Artifact) : ToolM FlashImageError Unit := do
  if 0 < artifact.appStart then
    openCore .probe
    let beneath ← call (command (.readWord32 0)) .probe
    if beneath = erased then throw (.nothingBeneath artifact.appStart)
  ExceptT.mk (command (.downloadFile artifact))

/-- The pages of `(start..end).step_by(PAGE_SIZE)`. -/
def storagePages (start stop : Nat) : List Nat :=
  (List.range ((stop - start + pageSize - 1) / pageSize)).map (start + · * pageSize)

def eraseStorage (start stop : Nat) : ToolM EraseStorageError Unit := do
  if start ≥ stop ∨ start % pageSize ≠ 0 ∨ stop % pageSize ≠ 0 then
    throw (.notPageAligned start stop)
  openCore .probe
  call (Nvmc.withEraseEnabled (Nvmc.erasePages (storagePages start stop))).run .nvmc
  let mismatch ← call (findMismatch start (List.replicate ((stop - start) / 4) erased)).run .probe
  match mismatch with
  | some mismatch => throw (.stillSet mismatch)
  | none => pure ()

def streamLogs (window : Nat) : ToolM IoError LogSummary := ExceptT.mk (command (.streamLogs window))

def coreStatus : ToolM ProbeError String := ExceptT.mk (command .coreStatus)

def halt : ToolM ProbeError Unit := ExceptT.mk (command .halt)

def reset : ToolM ProbeError Unit := ExceptT.mk (command .reset)

/-- The two record commands as what they do through the probe. -/
def record : (c : ToolCmd) → Prog ToolCmd ToolCmd.Answer c.Answer
  | .eraseUicrRecord => (eraseUicrRecord).run
  | .writeUicrRecord key => (writeUicrRecord key).run
  | c => .perform c

end Chip

end Homescope
