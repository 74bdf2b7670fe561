import Homescope.Elf
import Homescope.ToolOnly
import Homescope.Bench
import Homescope.SeqResume

/-! Flashing a board under its key (`provision/src/commands.rs`, `flash`). The
image is written wherever it says, and the firmware in it counts in the region
that it declares; nothing compares the two with what the board counts in. -/

namespace Homescope

open Commands ToolM

/-- A command that leaves the memory as it is. -/
def ToolCmd.Passive : ToolCmd → Prop
  | .writeWord32 _ _ => False
  | .eraseUicrRecord => False
  | .writeUicrRecord _ => False
  | .downloadFile _ => False
  | _ => True

instance (c : ToolCmd) : Decidable c.Passive := by
  cases c <;> unfold ToolCmd.Passive <;> infer_instance

theorem boardStep.memory_of_passive {c : ToolCmd} {a : c.Answer} {b b' : Board}
    (h : boardStep b c a b') (hc : c.Passive) : b'.memory = b.memory := by
  cases c with
  | writeWord32 => exact hc.elim
  | eraseUicrRecord => exact hc.elim
  | writeUicrRecord => exact hc.elim
  | downloadFile => exact hc.elim
  | readWord32 => exact congrArg Board.memory h.1
  | read32 => exact congrArg Board.memory h.1
  | halt => exact h
  | reset => exact h
  | _ => exact congrArg Board.memory h

/-- The words that an image puts on the pages it touches; the other pages keep
theirs. -/
def Memory.download (m : Memory) (content : Nat → Option Word) : Memory :=
  fun address => (content address).getD (m address)

/-- What was flashed, over which memory, and the seqs issued until then. -/
structure Reflashed where
  artifact : Artifact
  memory : Memory
  issued : List Word

inductive Flashed
  | not
  | failed
  | done (w : Reflashed)

/-- A board that runs a sensor. Once an image is written `sensor` is the
firmware in it, with the seqs that it issued itself. -/
structure Field where
  config : Word
  sensor : Sensor
  flashed : Flashed

def Field.board (s : Field) : Board := ⟨s.config, s.sensor.flash⟩

/-- What the tool's commands do. `content` says what each image puts on flash.
A reset is a power cut to the counter, which may happen at any time. -/
def reflashStep (content : Artifact → Nat → Option Word) : Device ToolCmd ToolCmd.Answer Field
  | s, .downloadFile artifact, .ok _, t =>
    t = ⟨s.config, ⟨s.sensor.flash.download (content artifact), .off, []⟩,
      .done ⟨artifact, s.sensor.flash, s.sensor.issued⟩⟩
  | _, .downloadFile _, .error _, t => t.flashed = .failed
  | s, c, a, t => boardStep s.board c a t.board ∧ t.sensor.mode = s.sensor.mode ∧
      t.sensor.issued = s.sensor.issued ∧ t.flashed = s.flashed

def Artifact.region (artifact : Artifact) : Option Storage :=
  artifact.storage.map fun range => ⟨range.1, range.2⟩

/-- A run of the tool and the firmware on the board, in any order: until the
image is written the firmware that counts in `running`, and then the one in
the image. -/
inductive FieldStep {α : Type} (running : Storage) (content : Artifact → Nat → Option Word) :
    Prog ToolCmd ToolCmd.Answer α × Field → Prog ToolCmd ToolCmd.Answer α × Field → Prop
  | command {p q} {s t : Field} (h : Step (reflashStep content) (p, s) (q, t)) :
      FieldStep running content (p, s) (q, t)
  | running {p} {s : Field} {sensor : Sensor} (h : SensorStep running s.sensor sensor)
      (hnot : s.flashed = .not) : FieldStep running content (p, s) (p, { s with sensor })
  | flashed {p} {s : Field} {sensor : Sensor} {w : Reflashed} {region : Storage}
      (hdone : s.flashed = .done w) (hregion : w.artifact.region = some region)
      (h : SensorStep region s.sensor sensor) :
      FieldStep running content (p, s) (p, { s with sensor })

abbrev FieldRun {α : Type} (running : Storage) (content : Artifact → Nat → Option Word) :
    Prog ToolCmd ToolCmd.Answer α × Field → Prog ToolCmd ToolCmd.Answer α × Field → Prop :=
  Relation.ReflTransGen (FieldStep running content)

/-! ### The flash command writes the image and nothing else -/

/-- `broken` is where a second image or any other write leads. -/
inductive Phase
  | running
  | failed
  | written
  | broken

def phaseStep : Device ToolCmd ToolCmd.Answer Phase
  | s, .downloadFile _, .ok _, t => t = match s with
    | .running => .written
    | _ => .broken
  | _, .downloadFile _, .error _, t => t = .failed
  | s, c, _, t => t = if c.Passive then s else .broken

abbrev PassiveOnly {α : Type} (p : Prog ToolCmd ToolCmd.Answer α) : Prop :=
  p.Only ToolCmd.Passive fun _ => True

theorem connect_passive (serial : Option String) : PassiveOnly (Chip.connect serial).run :=
  connect_issues trivial (fun _ => trivial) serial

theorem readState_passive : PassiveOnly (Chip.readState).run :=
  readState_issues trivial (fun _ => trivial) fun _ _ => trivial

theorem readUicrWords_passive : PassiveOnly (Chip.readUicrWords).run :=
  readUicrWords_issues trivial fun _ _ => trivial

theorem reportBoot_passive (artifact : Artifact) (logs : Nat) :
    PassiveOnly (Provision.reportBoot artifact logs).run :=
  reportBoot_issues trivial (fun _ => trivial) trivial artifact trivial logs

section Phases

variable {α β : Type} {s : Phase}

theorem PassiveOnly.phase {p : Prog ToolCmd ToolCmd.Answer α} (h : PassiveOnly p)
    (hs : s ≠ .broken) : Safe phaseStep (· ≠ .broken) p (fun _ t => t = s) s := by
  have hkeep : ∀ (u : Phase) (c : ToolCmd) (a : c.Answer) (t : Phase), c.Passive →
      phaseStep u c a t → u = s → t = s := by
    rintro u c a t hc ht rfl
    cases c with
    | downloadFile => exact hc.elim
    | _ => exact ht.trans (if_pos hc)
  exact (Safe.ofOnly (I := (· = s)) h hkeep rfl).mono (fun t ht => ht ▸ hs) fun _ t ht => ht.2

theorem PassiveOnly.bind_phase {ε : Type} {x : ToolM ε α} {f : α → ToolM ε β} (h : PassiveOnly x.run)
    (hs : s ≠ .broken) (hf : ∀ a, Safe phaseStep (· ≠ .broken) (f a).run
      (fun r t => r.isOk = true → t = .written) s) :
    Safe phaseStep (· ≠ .broken) (x >>= f).run (fun r t => r.isOk = true → t = .written) s := by
  apply Safe.bindExcept
  refine (h.phase hs).mono (fun _ h => h) ?_
  rintro r _ rfl
  cases r with
  | ok a => exact hf a
  | error e => exact ⟨hs, nofun⟩

theorem chipFlash_phase (artifact : Artifact) :
    Safe phaseStep (· ≠ .broken) (Chip.flash artifact).run
      (fun r t => r.isOk = true → t = .written) .running := by
  have hdownload : Safe phaseStep (· ≠ .broken)
      (ExceptT.mk (command (.downloadFile artifact)) : ToolM FlashImageError Unit).run
      (fun r t => r.isOk = true → t = .written) .running := by
    refine ⟨nofun, ?_⟩
    rintro (e | _) t ht
    · obtain rfl : t = .failed := ht
      exact ⟨nofun, nofun⟩
    · obtain rfl : t = .written := ht
      exact ⟨nofun, fun _ => rfl⟩
  rw [Chip.flash]
  by_cases h : 0 < artifact.appStart
  · simp only [h, if_true]
    refine PassiveOnly.bind_phase (Issues.call (Issues.command trivial)) nofun fun _ => ?_
    refine PassiveOnly.bind_phase (Issues.call (Issues.command trivial)) nofun fun beneath => ?_
    by_cases hb : beneath = erased
    · simp only [hb, if_true]
      exact ⟨nofun, nofun⟩
    · simp only [hb, if_false]
      exact hdownload
  · simp only [h, if_false]
    exact hdownload

theorem reflash_phase (artifact : Artifact) (logs : Nat) :
    Safe phaseStep (· ≠ .broken) (Provision.reflash artifact logs).run
      (fun r t => r.isOk = true → t = .written) .running := by
  refine PassiveOnly.bind_phase (Issues.call readUicrWords_passive) nofun fun before => ?_
  apply Safe.bindExcept
  refine call_safe ((chipFlash_phase artifact).result.mono (fun _ h => h) ?_)
  rintro (e | _) t ⟨ht, hwritten⟩
  · exact ⟨ht, nofun⟩
  · obtain rfl : t = .written := hwritten rfl
    refine PassiveOnly.bind_phase (Issues.call readUicrWords_passive) ht fun after => ?_
    dsimp only
    by_cases h : after ≠ before
    · rw [if_pos h]
      exact ⟨ht, nofun⟩
    · rw [if_neg h]
      refine PassiveOnly.bind_phase (Issues.call (Issues.command trivial)) ht fun _ => ?_
      exact ((reportBoot_passive artifact logs).phase ht).mono (fun _ h => h) fun _ _ h _ => h

/-- The command writes an image before it succeeds, and nothing else. -/
theorem flash_phase (firmware serial : Option String) (logs : Nat) :
    Safe phaseStep (· ≠ .broken) (Provision.flash firmware serial logs).run
      (fun r t => r.isOk = true → t = .written) .running := by
  refine PassiveOnly.bind_phase (Issues.call (Issues.command trivial)) nofun fun artifact => ?_
  refine PassiveOnly.bind_phase (Issues.call (connect_passive serial)) nofun fun connection => ?_
  cases connection with
  | locked probe => exact ⟨nofun, nofun⟩
  | attached =>
    refine PassiveOnly.bind_phase (Issues.call readState_passive) nofun fun state => ?_
    dsimp only
    by_cases h : state.record ≠ .present
    · rw [if_pos h]
      exact PassiveOnly.bind_phase (Issues.call (Issues.command trivial)) nofun fun _ =>
        reflash_phase artifact logs
    · rw [if_neg h]
      exact reflash_phase artifact logs

end Phases

/-! ### The first seq of the flashed firmware -/

def Flashed.phase : Flashed → Phase
  | not => .running
  | failed => .failed
  | done _ => .written

section Runs

variable {running : Storage} {content : Artifact → Nat → Option Word} {s t : Field}

theorem reflashStep.passive {c : ToolCmd} {a : c.Answer} (h : reflashStep content s c a t)
    (hc : c.Passive) : t.sensor = s.sensor ∧ t.flashed = s.flashed := by
  have hsame : boardStep s.board c a t.board ∧ t.sensor.mode = s.sensor.mode ∧
      t.sensor.issued = s.sensor.issued ∧ t.flashed = s.flashed := by
    cases c with
    | downloadFile => exact hc.elim
    | _ => exact h
  obtain ⟨hboard, hmode, hissued, hflashed⟩ := hsame
  refine ⟨?_, hflashed⟩
  have hflash : t.sensor.flash = s.sensor.flash := hboard.memory_of_passive hc
  obtain ⟨config, ⟨flash, mode, issued⟩, flashed⟩ := t
  cases hflash
  cases hmode
  cases hissued
  rfl

/-- The state of a flash run that found the sensor in `before`. -/
structure Field.Inv {ε α : Type} (running : Storage) (content : Artifact → Nat → Option Word)
    (before : Sensor) (p : Prog ToolCmd ToolCmd.Answer (Except ε α)) (s : Field) : Prop where
  phase : Safe phaseStep (· ≠ .broken) p (fun r t => r.isOk = true → t = .written) s.flashed.phase
  not : s.flashed = .not → Relation.ReflTransGen (SensorStep running) before s.sensor
  done : ∀ w, s.flashed = .done w →
    (∃ mode, Relation.ReflTransGen (SensorStep running) before ⟨w.memory, mode, w.issued⟩) ∧
      ∀ region, w.artifact.region = some region → Relation.ReflTransGen (SensorStep region)
        ⟨w.memory.download (content w.artifact), .off, []⟩ s.sensor

theorem Field.Inv.command {ε α : Type} {before : Sensor} {c : ToolCmd} {a : c.Answer}
    {k : c.Answer → Prog ToolCmd ToolCmd.Answer (Except ε α)} (h : reflashStep content s c a t)
    (hs : Field.Inv running content before (.cmd c k) s) :
    Field.Inv running content before (k a) t := by
  by_cases hc : c.Passive
  · obtain ⟨hsensor, hflashed⟩ := h.passive hc
    have hphase : phaseStep s.flashed.phase c a t.flashed.phase := by
      rw [hflashed]
      cases c with
      | downloadFile => exact hc.elim
      | _ => exact (if_pos hc).symm
    refine ⟨hs.phase.2 a _ hphase, fun hnot => ?_, fun w hw => ?_⟩
    · rw [hsensor]
      exact hs.not (hflashed ▸ hnot)
    · rw [hsensor]
      exact hs.done w (hflashed ▸ hw)
  · cases c with
    | downloadFile artifact =>
      rcases a with e | _
      · have hfailed : t.flashed = .failed := h
        refine ⟨?_, fun hnot => ?_, fun w hw => ?_⟩
        · rw [hfailed]
          exact hs.phase.2 _ _ rfl
        · rw [hfailed] at hnot
          cases hnot
        · rw [hfailed] at hw
          cases hw
      · obtain rfl : t = _ := h
        have hnext := hs.phase.2 (.ok ()) _ rfl
        cases hflashed : s.flashed with
        | not =>
          rw [hflashed] at hnext
          refine ⟨hnext, nofun, fun w hw => ?_⟩
          obtain rfl := Flashed.done.inj hw
          exact ⟨⟨_, hs.not hflashed⟩, fun region _ => .refl⟩
        | failed =>
          rw [hflashed] at hnext
          exact absurd rfl hnext.now
        | done w =>
          rw [hflashed] at hnext
          exact absurd rfl hnext.now
    | writeWord32 => exact absurd rfl (hs.phase.2 a .broken (if_neg hc).symm).now
    | eraseUicrRecord => exact absurd rfl (hs.phase.2 a .broken (if_neg hc).symm).now
    | writeUicrRecord => exact absurd rfl (hs.phase.2 a .broken (if_neg hc).symm).now
    | _ => exact absurd trivial hc

theorem Field.Inv.step {ε α : Type} {before : Sensor}
    {p q : Prog ToolCmd ToolCmd.Answer (Except ε α)} (h : FieldStep running content (p, s) (q, t))
    (hs : Field.Inv running content before p s) : Field.Inv running content before q t := by
  cases h with
  | command h =>
    cases h with
    | cmd h => exact hs.command h
  | running h hnot =>
    refine ⟨hs.phase, fun _ => (hs.not hnot).tail h, fun w hw => ?_⟩
    cases hnot.symm.trans hw
  | flashed hdone hregion h =>
    refine ⟨hs.phase, fun hnot => ?_, fun w hw => ?_⟩
    · cases hdone.symm.trans hnot
    · obtain rfl := Flashed.done.inj (hdone.symm.trans hw)
      refine ⟨(hs.done _ hdone).1, fun region hregion' => ?_⟩
      obtain rfl := Option.some.inj (hregion.symm.trans hregion')
      exact ((hs.done _ hdone).2 _ hregion).tail h

/-- A flash run that succeeds has written an image over the memory of the
running sensor. The first seq that the firmware in it issues is above those
issued before if and only if its region, as the image leaves it, has a record
above them where the scan looks. -/
theorem flash_first_above_iff {firmware serial : Option String} {logs : Nat}
    (hs : s.flashed = .not)
    (h : FieldRun running content ((Provision.flash firmware serial logs).run, s) (.ret (.ok ()), t)) :
    ∃ w, t.flashed = .done w ∧
      (∃ mode, Relation.ReflTransGen (SensorStep running) s.sensor ⟨w.memory, mode, w.issued⟩) ∧
      ∀ region, w.artifact.region = some region →
        Relation.ReflTransGen (SensorStep region)
          ⟨w.memory.download (content w.artifact), .off, []⟩ t.sensor ∧
        (w.issued ≠ [] →
          (FirstAbove region w.issued (w.memory.download (content w.artifact)) ↔
            Resumes region w.issued (w.memory.download (content w.artifact)))) := by
  have hstart : Field.Inv running content s.sensor (Provision.flash firmware serial logs).run s := by
    refine ⟨?_, fun _ => .refl, fun w hw => ?_⟩
    · rw [hs]
      exact flash_phase firmware serial logs
    · cases hs.symm.trans hw
  have hinv : Field.Inv running content s.sensor (.ret (.ok ())) t :=
    invariant_run (I := fun c => Field.Inv running content s.sensor c.1 c.2) h
      (fun _ _ hst hi => Field.Inv.step hst hi) hstart
  cases hflashed : t.flashed with
  | not =>
    have hphase := hinv.phase.2 rfl
    rw [hflashed] at hphase
    cases hphase
  | failed =>
    have hphase := hinv.phase.2 rfl
    rw [hflashed] at hphase
    cases hphase
  | done w =>
    obtain ⟨hbefore, hafter⟩ := hinv.done w hflashed
    exact ⟨w, rfl, hbefore, fun region hregion => ⟨hafter region hregion, fun hne => firstAbove_iff hne⟩⟩

end Runs

/-- An image that keeps to the region of the running firmware and puts nothing
there leaves it covered. -/
theorem Recorded.download {storage : Storage} {m : Memory} {issued : List Word}
    {content : Nat → Option Word} (h : Recorded storage m issued) (hne : issued ≠ [])
    (hout : ∀ slot : Slot, content (slot.addr storage) = none) :
    Resumes storage issued (m.download content) := by
  obtain ⟨l, hl, hlt, hi⟩ := h
  have hstored : l.Stored storage (m.download content) := by
    intro slot
    rw [Memory.download, hout slot]
    exact hl slot
  exact Covered.resumes (Recorded.covered ⟨l, hstored, hlt, hi⟩ hne) hne

/-! ### A board that is flashed -/

def sampleRegion : Storage := ⟨0xFE000, 0x100000⟩

def otherRegion : Storage := ⟨0xFC000, 0xFE000⟩

/-- The board's flash after a boot and one packet on an erased chip. -/
def sampleMemory : Memory :=
  ((SeqCounter.next sampleRegion ⟨0, 0, Page.A.start⟩).run.run flashRun
    ((SeqCounter.load sampleRegion).run.run flashRun fun _ => erased).2).2

def sampleField : Field := ⟨0, ⟨sampleMemory, .ready ⟨1, 1024, ⟨1, by decide⟩⟩, [0]⟩, .not⟩

theorem sampleField_reached :
    SensorRun sampleRegion ⟨fun _ => erased, .off, []⟩ sampleField.sensor := by
  have hboot : ((SeqCounter.load sampleRegion).run.run flashRun fun _ => erased).1 =
      .ok ⟨0, 0, Page.A.start⟩ := by decide +kernel
  have hcall : ((SeqCounter.next sampleRegion ⟨0, 0, Page.A.start⟩).run.run flashRun
      ((SeqCounter.load sampleRegion).run.run flashRun fun _ => erased).2).1 =
        .ok (0, ⟨1, 1024, ⟨1, by decide⟩⟩) := by decide +kernel
  exact SensorRun.bootAndCall hboot hcall (Or.inr (by decide))

def sampleArtifact (region : Storage) : Artifact :=
  ⟨"0123456789ab", "sensor", 0, some (region.start, region.stop)⟩

/-- The image's only segment lies at the start of the first page. -/
def sampleContent (_ : Artifact) (address : Nat) : Option Word :=
  if address < pageSize then some (if address = 0 then 0xAAAAAAAA else erased) else none

/-- A probe and a board that do what they are told. -/
def fieldRun (artifact : Artifact) (s : Field) : (c : ToolCmd) → c.Answer × Field
  | .listAll => ([⟨"probe", none⟩], s)
  | .attach _ _ => (.ok (), s)
  | .openCore => (.ok (), s)
  | .readWord32 address => (.ok (s.sensor.flash address), s)
  | .read32 address len => (.ok (s.sensor.flash.words address len), s)
  | .writeWord32 _ _ => (.error .failed, s)
  | .flush => (.ok (), s)
  | .pollReady => (.ok (), s)
  | .eraseUicrRecord => (.ok (), s)
  | .writeUicrRecord _ => (.ok (), s)
  | .downloadFile artifact =>
    (.ok (), ⟨s.config, ⟨s.sensor.flash.download (sampleContent artifact), .off, []⟩,
      .done ⟨artifact, s.sensor.flash, s.sensor.issued⟩⟩)
  | .streamLogs _ => (.error .failed, s)
  | .coreStatus => (.error .failed, s)
  | .halt => (.ok (), s)
  | .reset => (.ok (), s)
  | .chooseFirmware _ => (.ok artifact, s)
  | .readImage _ => (.ok (), s)
  | .resolveClient => (.error .failed, s)
  | .checkAuth => (.ok (), s)
  | .apiDevice _ => (.error .transportError, s)
  | .apiProvision _ => (.error .transportError, s)
  | .apiRotateKey _ => (.error .transportError, s)
  | .stdinIsTerminal => (false, s)
  | .stderrLine => (.ok (), s)
  | .readLine => (.error .failed, s)

theorem fieldRun_step (artifact : Artifact) (s : Field) (c : ToolCmd) :
    reflashStep sampleContent s c (fieldRun artifact s c).1 (fieldRun artifact s c).2 := by
  cases c with
  | readWord32 address =>
    refine ⟨⟨rfl, fun word h => ?_⟩, rfl, rfl, rfl⟩
    cases h
    rfl
  | read32 address len =>
    refine ⟨⟨rfl, fun words h => ?_⟩, rfl, rfl, rfl⟩
    cases h
    rfl
  | writeWord32 address word => exact ⟨.inl rfl, rfl, rfl, rfl⟩
  | downloadFile artifact => rfl
  | _ => exact ⟨rfl, rfl, rfl, rfl⟩

def sampleFlashed (region : Storage) : Except Anyhow Unit × Field :=
  (Provision.flash none none 0).run.run (fieldRun (sampleArtifact region)) sampleField

theorem sampleFlashed_reached {region : Storage} (h : (sampleFlashed region).1 = .ok ()) :
    FieldRun sampleRegion sampleContent ((Provision.flash none none 0).run, sampleField)
      (.ret (.ok ()), (sampleFlashed region).2) := by
  have hsteps := Prog.run_steps (fieldRun_step (sampleArtifact region))
    (Provision.flash none none 0).run sampleField
  rw [sampleFlashed] at h
  rw [h] at hsteps
  exact hsteps.lift id fun _ _ hst => .command hst

theorem sampleFlashed_ok (region : Storage) (h : (sampleFlashed region).1.isOk = true) :
    (sampleFlashed region).1 = .ok () := by
  cases hr : (sampleFlashed region).1 with
  | ok _ => rfl
  | error e =>
    rw [hr] at h
    cases h

/-- The image declares the region that the board counts in. -/
theorem flash_first_above_iff_same :
    ∃ w, (sampleFlashed sampleRegion).2.flashed = .done w ∧
      (∃ mode, Relation.ReflTransGen (SensorStep sampleRegion) sampleField.sensor
        ⟨w.memory, mode, w.issued⟩) ∧
      ∀ region, w.artifact.region = some region →
        Relation.ReflTransGen (SensorStep region)
          ⟨w.memory.download (sampleContent w.artifact), .off, []⟩
          (sampleFlashed sampleRegion).2.sensor ∧
        (w.issued ≠ [] →
          (FirstAbove region w.issued (w.memory.download (sampleContent w.artifact)) ↔
            Resumes region w.issued (w.memory.download (sampleContent w.artifact)))) :=
  flash_first_above_iff rfl
    (sampleFlashed_reached (sampleFlashed_ok sampleRegion (by decide +kernel)))

/-- One load segment of a word at `0`, and the symbols of `otherRegion`. -/
def sampleElf : List Byte :=
  [0x7F, 0x45, 0x4C, 0x46, 0x01, 0x01, 0x01, 0x00, 0x00, 0x00, 0x00, 0x00, 0x00, 0x00, 0x00, 0x00,
    0x02, 0x00, 0x28, 0x00, 0x01, 0x00, 0x00, 0x00, 0x00, 0x00, 0x00, 0x00, 0x34, 0x00, 0x00, 0x00,
    0xA8, 0x00, 0x00, 0x00, 0x00, 0x00, 0x00, 0x00, 0x34, 0x00, 0x20, 0x00, 0x01, 0x00, 0x28, 0x00,
    0x03, 0x00, 0x02, 0x00, 0x01, 0x00, 0x00, 0x00, 0x54, 0x00, 0x00, 0x00, 0x00, 0x00, 0x00, 0x00,
    0x00, 0x00, 0x00, 0x00, 0x04, 0x00, 0x00, 0x00, 0x04, 0x00, 0x00, 0x00, 0x05, 0x00, 0x00, 0x00,
    0x04, 0x00, 0x00, 0x00, 0xAA, 0xAA, 0xAA, 0xAA, 0x00, 0x00, 0x00, 0x00, 0x00, 0x00, 0x00, 0x00,
    0x00, 0x00, 0x00, 0x00, 0x00, 0x00, 0x00, 0x00, 0x01, 0x00, 0x00, 0x00, 0x00, 0xC0, 0x0F, 0x00,
    0x00, 0x00, 0x00, 0x00, 0x10, 0x00, 0xF1, 0xFF, 0x11, 0x00, 0x00, 0x00, 0x00, 0xE0, 0x0F, 0x00,
    0x00, 0x00, 0x00, 0x00, 0x10, 0x00, 0xF1, 0xFF, 0x00, 0x5F, 0x5F, 0x73, 0x74, 0x6F, 0x72, 0x61,
    0x67, 0x65, 0x5F, 0x73, 0x74, 0x61, 0x72, 0x74, 0x00, 0x5F, 0x5F, 0x73, 0x74, 0x6F, 0x72, 0x61,
    0x67, 0x65, 0x5F, 0x65, 0x6E, 0x64, 0x00, 0x00, 0x00, 0x00, 0x00, 0x00, 0x00, 0x00, 0x00, 0x00,
    0x00, 0x00, 0x00, 0x00, 0x00, 0x00, 0x00, 0x00, 0x00, 0x00, 0x00, 0x00, 0x00, 0x00, 0x00, 0x00,
    0x00, 0x00, 0x00, 0x00, 0x00, 0x00, 0x00, 0x00, 0x01, 0x00, 0x00, 0x00, 0x00, 0x00, 0x00, 0x00,
    0x00, 0x00, 0x00, 0x00, 0x02, 0x00, 0x00, 0x00, 0x00, 0x00, 0x00, 0x00, 0x00, 0x00, 0x00, 0x00,
    0x58, 0x00, 0x00, 0x00, 0x30, 0x00, 0x00, 0x00, 0x02, 0x00, 0x00, 0x00, 0x01, 0x00, 0x00, 0x00,
    0x01, 0x00, 0x00, 0x00, 0x10, 0x00, 0x00, 0x00, 0x00, 0x00, 0x00, 0x00, 0x03, 0x00, 0x00, 0x00,
    0x00, 0x00, 0x00, 0x00, 0x00, 0x00, 0x00, 0x00, 0x88, 0x00, 0x00, 0x00, 0x1F, 0x00, 0x00, 0x00,
    0x00, 0x00, 0x00, 0x00, 0x00, 0x00, 0x00, 0x00, 0x01, 0x00, 0x00, 0x00, 0x00, 0x00, 0x00, 0x00]

def sampleParse (_ : List Byte) : Option Elf.File :=
  some ⟨[⟨Elf.ptLoad, 4, 0⟩], [⟨Elf.shnAbs, some Elf.storageStart, 0xFC000⟩,
    ⟨Elf.shnAbs, some Elf.storageEnd, 0xFE000⟩]⟩

def Flashed.written : Flashed → Option Reflashed
  | done w => some w
  | _ => none

/-- An image for another region is flashed, and its firmware starts at `0`
under a key that has sealed a packet with `0`. -/
theorem not_flash_first_above :
    ¬∀ (s t : Field) (w : Reflashed) (region : Storage),
      SensorRun sampleRegion ⟨fun _ => erased, .off, []⟩ s.sensor → s.flashed = .not →
      FieldRun sampleRegion sampleContent ((Provision.flash none none 0).run, s) (.ret (.ok ()), t) →
      t.flashed = .done w →
      Elf.read sampleParse sampleElf = .ok ⟨w.artifact.appStart, w.artifact.storage⟩ →
      w.artifact.region = some region → w.issued ≠ [] →
      FirstAbove region w.issued (w.memory.download (sampleContent w.artifact)) := by
  intro hall
  have hok := sampleFlashed_ok otherRegion (by decide +kernel)
  have heval : ((sampleFlashed otherRegion).2.flashed.written.map fun w =>
      (w.artifact, w.issued,
        (SeqCounter.best otherRegion (w.memory.download (sampleContent w.artifact))).1,
        decide (SeqCounter.Writable otherRegion (w.memory.download (sampleContent w.artifact))))) =
      some (sampleArtifact otherRegion, [0], 0, true) := by decide +kernel
  obtain ⟨w, hw, heval⟩ := Option.map_eq_some_iff.mp heval
  simp only [Prod.mk.injEq, decide_eq_true_eq] at heval
  obtain ⟨hartifact, hissued, hbest, hwritable⟩ := heval
  have hflashed : (sampleFlashed otherRegion).2.flashed = .done w := by
    cases hf : (sampleFlashed otherRegion).2.flashed with
    | done w' =>
      rw [hf] at hw
      rw [Option.some.inj hw]
    | not =>
      rw [hf] at hw
      cases hw
    | failed =>
      rw [hf] at hw
      cases hw
  have hread : Elf.read sampleParse sampleElf = .ok ⟨w.artifact.appStart, w.artifact.storage⟩ := by
    rw [hartifact]
    decide +kernel
  have hregion : w.artifact.region = some otherRegion := by
    rw [hartifact]
    rfl
  have hfirst := hall sampleField _ w otherRegion sampleField_reached rfl
    (sampleFlashed_reached hok) hflashed hread hregion (by rw [hissued]; exact List.cons_ne_nil _ _)
  obtain ⟨t, ht, hseq⟩ := SensorStep.first (by decide) hwritable
  rw [hbest] at hseq
  have hlt := hfirst t ht 0 (by rw [hseq]; rfl) 0 (by rw [hissued]; exact List.mem_singleton_self _)
  exact BitVec.lt_irrefl _ hlt

end Homescope
