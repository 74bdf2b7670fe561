import Homescope.InstallKey

/-! A board on the bench: what the probe's commands do to its memory, and
which key the header of its UICR record was last written for. -/

namespace Homescope

open Commands

/-- `config` is the register `NVMC.CONFIG`. -/
structure Board where
  config : Word
  memory : Memory

def uicrStart : Nat := 0x10001000
def uicrStop : Nat := 0x10002000
def flashStop : Nat := 0x100000

/-- Code flash and UICR, the memory that the NVMC programs. -/
def NonVolatile (address : Nat) : Prop :=
  address < flashStop ∨ (uicrStart ≤ address ∧ address < uicrStop)

instance (address : Nat) : Decidable (NonVolatile address) :=
  inferInstanceAs (Decidable (_ ∨ _))

namespace Memory

def words (m : Memory) (address len : Nat) : List Word :=
  (List.range len).map fun i => m (address + 4 * i)

def record (m : Memory) : RecordWords := fun i => m (uicrCustomer + 4 * (i : Nat))

end Memory

namespace Board

/-- A word that the probe writes: to a register of the NVMC, or to the memory
that the NVMC programs while writing is enabled. -/
def writeWord32 (b : Board) (address : Nat) (word : Word) : Board :=
  if address = nvmcConfig then
    { b with config := word }
  else if address = nvmcEraseUicr then
    if b.config = NvmcMode.eraseEnabled.word ∧ word = eraseUicr then
      { b with memory := b.memory.erase uicrStart uicrStop }
    else b
  else if address = nvmcErasePage then
    if b.config = NvmcMode.eraseEnabled.word ∧ word.toNat < flashStop then
      let page := word.toNat - word.toNat % pageSize
      { b with memory := b.memory.erase page (page + pageSize) }
    else b
  else if b.config = NvmcMode.writeEnabled.word ∧ NonVolatile address then
    { b with memory := b.memory.program address word }
  else b

end Board

/-- What each command may do to the board. A write that reports an error took
place or did not. Downloading an image uses the NVMC, and leaves the UICR
record alone. -/
def boardStep : Device ToolCmd ToolCmd.Answer Board
  | b, .readWord32 address, answer, b' =>
    b' = b ∧ ∀ word, answer = .ok word → word = b.memory address
  | b, .read32 address len, answer, b' =>
    b' = b ∧ ∀ words, answer = .ok words → words = b.memory.words address len
  | b, .writeWord32 address word, .ok _, b' => b' = b.writeWord32 address word
  | b, .writeWord32 address word, .error _, b' => b' = b ∨ b' = b.writeWord32 address word
  | b, .downloadFile _, _, b' => b'.memory.record = b.memory.record
  | b, .halt, _, b' => b'.memory = b.memory
  | b, .reset, _, b' => b'.memory = b.memory
  | b, _, _, b' => b' = b

/-- A command of the probe that answers with an error. -/
def ToolCmd.Failed : (c : ToolCmd) → c.Answer → Prop
  | .openCore, .error _ => True
  | .readWord32 _, .error _ => True
  | .read32 _ _, .error _ => True
  | .writeWord32 _ _, .error _ => True
  | .flush, .error _ => True
  | .pollReady, .error _ => True
  | .downloadFile _, .error _ => True
  | .halt, .error _ => True
  | .reset, .error _ => True
  | _, _ => False

/-- `writer` is the key of the attempt that last wrote the header. -/
structure Bench where
  board : Board
  writer : Option DeviceKey

def Bench.record (s : Bench) : RecordWords := s.board.memory.record

/-- A command writes the header of the record. -/
def WritesHeader (b b' : Board) : Prop := b.memory.record 0 = erased ∧ b'.memory.record 0 ≠ erased

instance (b b' : Board) : Decidable (WritesHeader b b') := inferInstanceAs (Decidable (_ ∧ _))

/-- The board under an attempt with a key. The probe fails only if `faults`,
and the header is written only if `allowed`. -/
def benchStep (faults allowed : Prop) (key : Option DeviceKey) : Device ToolCmd ToolCmd.Answer Bench :=
  fun s c a t => boardStep s.board c a t.board ∧ (c.Failed a → faults) ∧
    (WritesHeader s.board t.board → allowed) ∧
    t.writer = if WritesHeader s.board t.board then key else s.writer

/-- The word that a probe writes, and the writer of the header it is. -/
def Bench.write (s : Bench) (key : Option DeviceKey) (address : Nat) (word : Word) : Bench :=
  ⟨s.board.writeWord32 address word,
    if WritesHeader s.board (s.board.writeWord32 address word) then key else s.writer⟩

/-- A probe that never fails, on a chip whose NVMC is `ready`. -/
def Bench.answer (ready : Bool) (key : Option DeviceKey) (s : Bench) :
    (c : ToolCmd) → c.Answer × Bench
  | .listAll => ([], s)
  | .attach _ _ => (.ok (), s)
  | .openCore => (.ok (), s)
  | .readWord32 address => (.ok (s.board.memory address), s)
  | .read32 address len => (.ok (s.board.memory.words address len), s)
  | .writeWord32 address word => (.ok (), s.write key address word)
  | .flush => (.ok (), s)
  | .pollReady => (if ready then .ok () else .error .timeout, s)
  | .eraseUicrRecord => (.ok (), s)
  | .writeUicrRecord _ => (.ok (), s)
  | .downloadFile _ => (.ok (), s)
  | .streamLogs _ => (.error .failed, s)
  | .coreStatus => (.error .failed, s)
  | .halt => (.ok (), s)
  | .reset => (.ok (), s)
  | .chooseFirmware _ => (.error .failed, s)
  | .readImage _ => (.ok (), s)
  | .resolveClient => (.error .failed, s)
  | .checkAuth => (.ok (), s)
  | .apiDevice _ => (.error .transportError, s)
  | .apiProvision _ => (.error .transportError, s)
  | .apiRotateKey _ => (.error .transportError, s)
  | .stdinIsTerminal => (false, s)
  | .stderrLine => (.ok (), s)
  | .readLine => (.error .failed, s)

/-! ### Programming words -/

namespace Memory

def programWords (m : Memory) : Nat → List Word → Memory
  | _, [] => m
  | address, word :: words => (m.program address word).programWords (address + 4) words

theorem programWords_outside {a x : Nat} {words : List Word} (m : Memory)
    (h : x < a ∨ a + 4 * words.length ≤ x) : m.programWords a words x = m x := by
  induction words generalizing m a with
  | nil => rfl
  | cons word words ih =>
    simp only [List.length_cons] at h
    rw [programWords, ih _ (by omega), program_other _ _ (by omega)]

theorem programWords_inside {a i : Nat} {words : List Word} (m : Memory) (h : i < words.length) :
    m.programWords a words (a + 4 * i) = m (a + 4 * i) &&& words[i] := by
  induction words generalizing m a i with
  | nil => exact absurd h (Nat.not_lt_zero i)
  | cons word words ih =>
    rw [programWords]
    cases i with
    | zero => rw [programWords_outside _ (Or.inl (by omega)), Nat.mul_zero, Nat.add_zero, program_same]; rfl
    | succ i =>
      have ha : a + 4 * (i + 1) = a + 4 + 4 * i := by omega
      rw [ha, ih _ (Nat.lt_of_succ_lt_succ h), program_other _ _ (by omega)]
      rfl

end Memory

end Homescope
