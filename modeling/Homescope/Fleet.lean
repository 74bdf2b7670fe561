import Homescope.ReadingPath
import Homescope.Reflash

/-! Boards, the tool that works on them and the packets that they seal. The
UICR record is what firmware makes of it, and replacing it is one step. -/

namespace Homescope

open Commands ToolM

inductive Core
  | off
  | on (key : DeviceKey) (region : Storage) (mode : Mode)

/-- The firmware's own halt is the end of it, until the next boot. -/
def Core.ofMode (key : DeviceKey) (region : Storage) : Mode → Core
  | .off => .off
  | mode => .on key region mode

/-- `firmware` is the counter region that the firmware on the board declares.
`linked` says that the tool's probe session is alive, and `halted` that it holds
the core. No code reads the last two: the keys that the API minted for this board
and the seqs that its firmware was given under each key. -/
structure Node where
  addr : DeviceAddr
  board : Board
  record : Option DeviceKey
  firmware : Option Storage
  core : Core
  linked : Bool
  halted : Bool
  minted : List DeviceKey
  used : DeviceKey → List Word

namespace Node

def sensor (s : Node) (key : DeviceKey) (mode : Mode) : Sensor := ⟨s.board.memory, mode, s.used key⟩

/-- `ERASEALL`. -/
def wiped (s : Node) : Node :=
  { s with
    board := ⟨0, fun _ => erased⟩, record := none, firmware := none, core := .off, halted := false }

def restarted (s : Node) : Node := { s with core := .off, halted := false }

/-- The session ends, and the core runs on. -/
def released (s : Node) : Node := { s with linked := false, halted := false }

def powerCut (s : Node) : Node := { s with core := .off, linked := false, halted := false }

end Node

/-- A command that leaves the board as it is. -/
def ToolCmd.Looks : ToolCmd → Prop
  | .attach _ _ => False
  | .writeWord32 _ _ => False
  | .eraseUicrRecord => False
  | .writeUicrRecord _ => False
  | .downloadFile _ => False
  | .halt => False
  | .reset => False
  | .apiProvision _ => False
  | .apiRotateKey _ => False
  | _ => True

/-- An image leaves the storage region as it is. -/
def Memory.SameRegion (storage : Storage) (m m' : Memory) : Prop :=
  ∀ slot : Slot, m' (slot.addr storage) = m (slot.addr storage)

/-- What the tool's commands do to a board. The API answers a mint with a key
that is `Fresh`, and every image that is flashed declares `storage`. What the
commands that only look answer is left open. A download runs on the core, so
from its first write on the firmware there is stopped. -/
inductive NodeStep (storage : Storage) (Fresh : DeviceKey → Prop) :
    Node → (c : ToolCmd) → c.Answer → Node → Prop
  | look {s : Node} {c : ToolCmd} {a : c.Answer} (hc : c.Looks) : NodeStep storage Fresh s c a s
  | attach {s : Node} {probe : DebugProbeInfo} {allowEraseAll : Bool} :
      NodeStep storage Fresh s (.attach probe allowEraseAll) (.ok ()) { s with linked := true }
  | attachFailed {s : Node} {probe : DebugProbeInfo} {allowEraseAll : Bool} {e : ProbeError} :
      NodeStep storage Fresh s (.attach probe allowEraseAll) (.error e) s
  | unlock {s : Node} {probe : DebugProbeInfo} :
      NodeStep storage Fresh s (.attach probe true) (.ok ()) { s.wiped with linked := true }
  | unlockFailed {s : Node} {probe : DebugProbeInfo} {e : ProbeError} :
      NodeStep storage Fresh s (.attach probe true) (.error e) s.wiped
  | write {s : Node} {address : Nat} {word : Word} (hl : s.linked = true) :
      NodeStep storage Fresh s (.writeWord32 address word) (.ok ())
        { s with board := s.board.writeWord32 address word }
  | writeFailed {s : Node} {address : Nat} {word : Word} {board : Board} {e : ProbeError}
      (hb : board = s.board ∨ s.linked = true ∧ board = s.board.writeWord32 address word) :
      NodeStep storage Fresh s (.writeWord32 address word) (.error e) { s with board }
  | eraseRecord {s : Node} {config : Word} (hl : s.linked = true) :
      NodeStep storage Fresh s .eraseUicrRecord (.ok ())
        { s with board.config := config, record := none }
  | eraseRecordFailed {s : Node} {config : Word} {record : Option DeviceKey} {e : WriteRecordError}
      (hr : record = s.record ∨ s.linked = true ∧ record = none) :
      NodeStep storage Fresh s .eraseUicrRecord (.error e)
        { s with board.config := config, record }
  | writeRecord {s : Node} {key : DeviceKey} {config : Word} (hl : s.linked = true) :
      NodeStep storage Fresh s (.writeUicrRecord key) (.ok ())
        { s with board.config := config, record := some key }
  | writeRecordFailed {s : Node} {key : DeviceKey} {config : Word} {record : Option DeviceKey}
      {e : WriteRecordError}
      (hr : record = s.record ∨ s.linked = true ∧ (record = none ∨ record = some key)) :
      NodeStep storage Fresh s (.writeUicrRecord key) (.error e)
        { s with board.config := config, record }
  | download {s : Node} {artifact : Artifact} {board : Board} (hl : s.linked = true)
      (hregion : artifact.region = some storage)
      (hsame : s.board.memory.SameRegion storage board.memory) :
      NodeStep storage Fresh s (.downloadFile artifact) (.ok ())
        { s with board, firmware := some storage, core := .off, halted := true }
  | downloadFailed {s : Node} {artifact : Artifact} {board : Board} {firmware : Option Storage}
      {core : Core} {halted : Bool} {e : FlashImageError}
      (hsame : s.board.memory.SameRegion storage board.memory)
      (hf : firmware = s.firmware ∨ firmware = none ∨
        firmware = some storage ∧ artifact.region = some storage)
      (hc : core = .off ∨ core = s.core ∧ board.memory = s.board.memory) :
      NodeStep storage Fresh s (.downloadFile artifact) (.error e)
        { s with board, firmware, core, halted }
  | halt {s : Node} (hl : s.linked = true) :
      NodeStep storage Fresh s .halt (.ok ()) { s with halted := true }
  | haltFailed {s : Node} {halted : Bool} {e : ProbeError} :
      NodeStep storage Fresh s .halt (.error e) { s with halted }
  | reset {s : Node} (hl : s.linked = true) : NodeStep storage Fresh s .reset (.ok ()) s.restarted
  | resetFailed {s t : Node} {e : ProbeError} (ht : t = s ∨ t = s.restarted) :
      NodeStep storage Fresh s .reset (.error e) t
  | provision {s : Node} {payload : ProvisionDevicePayload} {response : DeviceKeyResponse}
      {key : DeviceKey} (hkey : response.key = key.toHex) (hfresh : Fresh key) :
      NodeStep storage Fresh s (.apiProvision payload) (.ok response)
        { s with minted := key :: s.minted }
  | provisionFailed {s : Node} {payload : ProvisionDevicePayload} {e : ApiClientError} :
      NodeStep storage Fresh s (.apiProvision payload) (.error e) s
  | rotate {s : Node} {deviceAddr : DeviceAddr} {response : DeviceKeyResponse}
      {key : DeviceKey} (hkey : response.key = key.toHex) (hfresh : Fresh key) :
      NodeStep storage Fresh s (.apiRotateKey deviceAddr) (.ok response)
        { s with minted := key :: s.minted }
  | rotateFailed {s : Node} {deviceAddr : DeviceAddr} {e : ApiClientError} :
      NodeStep storage Fresh s (.apiRotateKey deviceAddr) (.error e) s

/-- A run of the tool. -/
inductive ToolRun
  | provision (args : Provision.Args) (name : String)
  | rotateKey (args : Provision.Args)
  | flash (firmware serial : Option String) (logs : Nat)

def ToolRun.program : ToolRun → Prog ToolCmd ToolCmd.Answer (Except Anyhow Unit)
  | provision args name => (Provision.provision args name).run
  | rotateKey args => (Provision.rotateKey args).run
  | flash firmware serial logs => (Provision.flash firmware serial logs).run

structure Sealed where
  key : DeviceKey
  seq : Word
  packet : List Byte

/-- `tools` holds what is left of the run of the tool on each board. -/
structure Fleet (ι : Type) where
  nodes : ι → Node
  tools : ι → Option (Prog ToolCmd ToolCmd.Answer (Except Anyhow Unit))
  sealed : List Sealed

namespace Fleet

variable {ι : Type} [DecidableEq ι]

def set (s : Fleet ι) (i : ι) (node : Node) : Fleet ι :=
  { s with nodes := Function.update s.nodes i node }

def setTool (s : Fleet ι) (i : ι)
    (tool : Option (Prog ToolCmd ToolCmd.Answer (Except Anyhow Unit))) : Fleet ι :=
  { s with tools := Function.update s.tools i tool }

/-- A key that was not minted before, for any board. -/
def Fresh (s : Fleet ι) (key : DeviceKey) : Prop := ∀ i, key ∉ (s.nodes i).minted

end Fleet

/-- One step of one board, of the tool on it or of its firmware. A run of the
tool may stop between any two commands, and the cable of a board or its power
may fail at any time. The firmware boots with a usable record only, and `Mode.Room` keeps its
ceilings below `2 ^ 32`. -/
inductive FleetStep {ι : Type} [DecidableEq ι] (env : Surroundings) (storage : Storage) :
    Fleet ι → Fleet ι → Prop
  | start {s : Fleet ι} {i : ι} (h : s.tools i = none) (run : ToolRun) :
      FleetStep env storage s (s.setTool i (some run.program))
  | command {s : Fleet ι} {i : ι} {c : ToolCmd} {k} {a : c.Answer} {node : Node}
      (h : s.tools i = some (.cmd c k)) (hn : NodeStep storage s.Fresh (s.nodes i) c a node) :
      FleetStep env storage s ((s.set i node).setTool i (some (k a)))
  | stop {s : Fleet ι} {i : ι} :
      FleetStep env storage s ((s.set i (s.nodes i).released).setTool i none)
  | unplug {s : Fleet ι} {i : ι} : FleetStep env storage s (s.set i (s.nodes i).released)
  | powerCut {s : Fleet ι} {i : ι} : FleetStep env storage s (s.set i (s.nodes i).powerCut)
  | boot {s : Fleet ι} {i : ι} {key : DeviceKey} {region : Storage}
      (hoff : (s.nodes i).core = .off) (hrun : (s.nodes i).halted = false)
      (hfirmware : (s.nodes i).firmware = some region) (hrecord : (s.nodes i).record = some key) :
      FleetStep env storage s (s.set i { s.nodes i with
        core := .on key region (.booting (SeqCounter.load region).run) })
  | sensor {s : Fleet ι} {i : ι} {key : DeviceKey} {region : Storage} {mode mode' : Mode}
      {m : Memory} (hon : (s.nodes i).core = .on key region mode)
      (hrun : (s.nodes i).halted = false) (hroom : mode.Room)
      (h : SensorStep region ((s.nodes i).sensor key mode) ⟨m, mode', (s.nodes i).used key⟩) :
      FleetStep env storage s (s.set i { s.nodes i with
        board.memory := m, core := Core.ofMode key region mode' })
  | build {s : Fleet ι} {i : ι} {key : DeviceKey} {region : Storage} {mode mode' : Mode}
      {m : Memory} {seq : Word} (measurements : List Measurement)
      (hon : (s.nodes i).core = .on key region mode) (hrun : (s.nodes i).halted = false)
      (hroom : mode.Room)
      (h : SensorStep region ((s.nodes i).sensor key mode)
        ⟨m, mode', seq :: (s.nodes i).used key⟩) :
      FleetStep env storage s
        { s.set i { s.nodes i with
            board.memory := m, core := Core.ofMode key region mode'
            used := Function.update (s.nodes i).used key (seq :: (s.nodes i).used key) } with
          sealed := (ReadingPath.sensor env ⟨key, (s.nodes i).addr⟩ seq measurements).elim s.sealed
            fun packet => ⟨key, seq, packet⟩ :: s.sealed }

end Homescope
