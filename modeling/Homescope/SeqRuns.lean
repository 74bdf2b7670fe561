import Homescope.SeqSpec

/-! Runs of a sensor: boots, calls of `next`, driver errors and power cuts in
any order. Every seq issued is larger than those before it, and the flash
always holds a record above all of them. -/

namespace Homescope

open Commands

/-- What the firmware is doing with its counter. `issuing` keeps the counter
that an error goes back to. -/
inductive Mode
  | off
  | booting (p : Prog FlashCmd FlashCmd.Answer (Except Stop SeqCounter))
  | ready (c : SeqCounter)
  | issuing (c : SeqCounter) (p : Prog FlashCmd FlashCmd.Answer (Except Stop (Word × SeqCounter)))

/-- `issued` lists every seq that a call returned, the newest first. -/
structure Sensor where
  flash : Memory
  mode : Mode
  issued : List Word

inductive SensorStep (storage : Storage) : Sensor → Sensor → Prop
  | boot {m : Memory} {w : List Word} :
      SensorStep storage ⟨m, .off, w⟩ ⟨m, .booting (SeqCounter.load storage).run, w⟩
  | load {m m' : Memory} {w : List Word} {p q}
      (h : Step flashStep (p, m) (q, m')) :
      SensorStep storage ⟨m, .booting p, w⟩ ⟨m', .booting q, w⟩
  | loaded {m : Memory} {w : List Word} {c : SeqCounter} :
      SensorStep storage ⟨m, .booting (.ret (.ok c)), w⟩ ⟨m, .ready c, w⟩
  | loadFailed {m : Memory} {w : List Word} {e : Stop} :
      SensorStep storage ⟨m, .booting (.ret (.error e)), w⟩ ⟨m, .off, w⟩
  | call {m : Memory} {w : List Word} {c : SeqCounter} :
      SensorStep storage ⟨m, .ready c, w⟩ ⟨m, .issuing c (SeqCounter.next storage c).run, w⟩
  | next {m m' : Memory} {w : List Word} {c : SeqCounter} {p q}
      (h : Step flashStep (p, m) (q, m')) :
      SensorStep storage ⟨m, .issuing c p, w⟩ ⟨m', .issuing c q, w⟩
  | issue {m : Memory} {w : List Word} {c c' : SeqCounter} {seq : Word} :
      SensorStep storage ⟨m, .issuing c (.ret (.ok (seq, c'))), w⟩ ⟨m, .ready c', seq :: w⟩
  | nextFailed {m : Memory} {w : List Word} {c : SeqCounter} {e : FlashError} :
      SensorStep storage ⟨m, .issuing c (.ret (.error (.flash e))), w⟩ ⟨m, .ready c, w⟩
  | nextPanicked {m : Memory} {w : List Word} {c : SeqCounter} :
      SensorStep storage ⟨m, .issuing c (.ret (.error .panic)), w⟩ ⟨m, .off, w⟩
  | powerCut {m : Memory} {w : List Word} {mode : Mode} :
      SensorStep storage ⟨m, mode, w⟩ ⟨m, .off, w⟩

/-- The reserved ceiling stays below `2 ^ 32` if `next` is called now. -/
def Mode.Room : Mode → Prop
  | .ready c => c.Room
  | _ => True

/-- A run in which the reserved ceiling stays below `2 ^ 32`. -/
abbrev SensorRun (storage : Storage) : Sensor → Sensor → Prop :=
  Relation.ReflTransGen (fun s t => SensorStep storage s t ∧ s.mode.Room)

/-- The log's ceilings cover every issued seq. -/
def Recorded (storage : Storage) (m : Memory) (issued : List Word) : Prop :=
  ∃ l : Log, l.Stored storage m ∧ l.count < 2 ^ 22 ∧ ∀ seq ∈ issued, seq.toNat < l.count * 1024

/-- What holds between any two flash operations of each mode. -/
def Mode.Inv (storage : Storage) (m : Memory) (issued : List Word) : Mode → Prop
  | .off => Recorded storage m issued
  | .booting p => ∃ l : Log, l.Stored storage m ∧ l.count < 2 ^ 22 ∧
      (∀ seq ∈ issued, seq.toNat < l.count * 1024) ∧ Safe flashStep (· = m) p
        (SeqCounter.Reads m ⟨ceiling l.count, ceiling l.count, .ofCount l.count⟩) m
  | .ready c => ∃ R, c.After R ∧ Kept storage R m ∧ ∀ seq ∈ issued, seq < c.nextSeq
  | .issuing c p => ∃ R, c.After R ∧ Safe flashStep (Kept storage R) p
      (SeqCounter.Issued storage R c) m ∧ ∀ seq ∈ issued, seq < c.nextSeq

def Sensor.Inv (storage : Storage) (s : Sensor) : Prop :=
  s.mode.Inv storage s.flash s.issued ∧ s.issued.Pairwise (· > ·)

theorem Kept.recorded {storage : Storage} {m : Memory} {issued : List Word} {R : Nat}
    {c : SeqCounter} (h : Kept storage R m) (hc : c.After R) (hi : ∀ seq ∈ issued, seq < c.nextSeq) :
    Recorded storage m issued := by
  obtain ⟨l, hl, hb, hlt⟩ := h
  refine ⟨l, hl, hlt, fun seq hseq => ?_⟩
  have hle := hb.le
  have hn := hc.nextSeq_le
  have hh := BitVec.lt_def.mp (hi seq hseq)
  omega

/-- A power cut leaves the record of every issued seq. -/
theorem Mode.Inv.recorded {storage : Storage} {m : Memory} {issued : List Word} {mode : Mode}
    (h : mode.Inv storage m issued) : Recorded storage m issued := by
  cases mode with
  | off => exact h
  | booting p =>
    obtain ⟨l, hl, hlt, hi, -⟩ := h
    exact ⟨l, hl, hlt, hi⟩
  | ready c =>
    obtain ⟨R, hc, hk, hi⟩ := h
    exact hk.recorded hc hi
  | issuing c p =>
    obtain ⟨R, hc, hs, hi⟩ := h
    exact hs.now.recorded hc hi

theorem Sensor.inv_step {storage : Storage} {s t : Sensor} (h : SensorStep storage s t)
    (hroom : s.mode.Room) (hs : s.Inv storage) : t.Inv storage := by
  obtain ⟨hmode, hpair⟩ := hs
  cases h with
  | boot =>
    obtain ⟨l, hl, hlt, hi⟩ := hmode
    exact ⟨⟨l, hl, hlt, hi, SeqCounter.load_safe hl hlt⟩, hpair⟩
  | load h =>
    obtain ⟨l, hl, hlt, hi, hs⟩ := hmode
    have hs' := hs.step h
    obtain rfl := hs'.now
    exact ⟨⟨l, hl, hlt, hi, hs'⟩, hpair⟩
  | loaded =>
    obtain ⟨l, hl, hlt, hi, -, -, hc⟩ := hmode
    obtain rfl := hc _ rfl
    refine ⟨⟨l.count, SeqCounter.after_load hlt, kept_of_count hl rfl hlt, fun seq hseq => ?_⟩, hpair⟩
    rw [BitVec.lt_def, ceiling_toNat hlt]
    exact hi seq hseq
  | loadFailed => exact ⟨Mode.Inv.recorded hmode, hpair⟩
  | call =>
    obtain ⟨R, hc, hk, hi⟩ := hmode
    exact ⟨⟨R, hc, SeqCounter.next_safe hk hc hroom, hi⟩, hpair⟩
  | next h =>
    obtain ⟨R, hc, hs, hi⟩ := hmode
    exact ⟨⟨R, hc, hs.step h, hi⟩, hpair⟩
  | issue =>
    obtain ⟨R, hc, ⟨-, rfl, R', -, -, hnext, hc', hk'⟩, hi⟩ := hmode
    refine ⟨⟨R', hc', hk', fun seq hseq => ?_⟩, List.pairwise_cons.mpr ⟨hi, hpair⟩⟩
    rw [BitVec.lt_def, hnext]
    rcases List.mem_cons.mp hseq with rfl | hseq
    · exact Nat.lt_succ_self _
    · exact Nat.lt_succ_of_lt (BitVec.lt_def.mp (hi seq hseq))
  | nextFailed =>
    obtain ⟨R, hc, ⟨hk, -⟩, hi⟩ := hmode
    exact ⟨⟨R, hc, hk, hi⟩, hpair⟩
  | nextPanicked =>
    obtain ⟨R, hc, ⟨-, hno⟩, -⟩ := hmode
    exact hno.elim
  | powerCut => exact ⟨Mode.Inv.recorded hmode, hpair⟩

/-- A record above every issued seq, once there is one. -/
theorem Recorded.exists_record {storage : Storage} {m : Memory} {issued : List Word}
    (h : Recorded storage m issued) (hne : issued ≠ []) :
    ∃ slot : Slot, isValidRecord (m (slot.addr storage)) = true ∧
      ∀ seq ∈ issued, seq < m (slot.addr storage) := by
  obtain ⟨l, hl, hlt, hi⟩ := h
  obtain ⟨seq, hseq⟩ := List.exists_mem_of_ne_nil issued hne
  obtain ⟨R, hR⟩ : ∃ R, l.count = R + 1 := ⟨l.count - 1, by have := hi seq hseq; omega⟩
  have hw : m ((Slot.ofCount R).addr storage) = ceiling l.count := by
    rw [hl, Log.word_last hR, hR]
  refine ⟨.ofCount R, ?_, fun seq hseq => ?_⟩
  · rw [hw]
    exact isValidRecord_ceiling (by omega) hlt
  · rw [hw, BitVec.lt_def, ceiling_toNat hlt]
    exact hi seq hseq

/-! ### Runs without a failure -/

/-- A driver that never fails. -/
def flashRun (m : Memory) : (c : FlashCmd) → c.Answer × Memory
  | .read a => (.ok (m a), m)
  | .write a w => (.ok (), m.program a w)
  | .erase a b => (.ok (), m.erase a b)

theorem flashRun_step (m : Memory) (c : FlashCmd) :
    flashStep m c (flashRun m c).1 (flashRun m c).2 := by
  cases c
  · exact ⟨rfl, rfl⟩
  · rfl
  · rfl

theorem SensorRun.load {storage : Storage} {m m' : Memory} {w : List Word} {p q}
    (h : Steps flashStep (p, m) (q, m')) :
    SensorRun storage ⟨m, .booting p, w⟩ ⟨m', .booting q, w⟩ :=
  Relation.ReflTransGen.lift (fun c : _ × Memory => Sensor.mk c.2 (.booting c.1) w)
    (fun _ _ hs => ⟨.load hs, trivial⟩) _ _ h

theorem SensorRun.next {storage : Storage} {m m' : Memory} {w : List Word} {c : SeqCounter} {p q}
    (h : Steps flashStep (p, m) (q, m')) :
    SensorRun storage ⟨m, .issuing c p, w⟩ ⟨m', .issuing c q, w⟩ :=
  Relation.ReflTransGen.lift (fun d : _ × Memory => Sensor.mk d.2 (.issuing c d.1) w)
    (fun _ _ hs => ⟨.next hs, trivial⟩) _ _ h

/-- A boot and a call without a driver error. -/
theorem SensorRun.bootAndCall {storage : Storage} {m : Memory} {w : List Word} {c c' : SeqCounter}
    {seq : Word} (hboot : ((SeqCounter.load storage).run.run flashRun m).1 = .ok c)
    (hcall : ((SeqCounter.next storage c).run.run flashRun
      ((SeqCounter.load storage).run.run flashRun m).2).1 = .ok (seq, c')) (hroom : c.Room) :
    SensorRun storage ⟨m, .off, w⟩ ⟨((SeqCounter.next storage c).run.run flashRun
      ((SeqCounter.load storage).run.run flashRun m).2).2, .ready c', seq :: w⟩ := by
  have hload := Prog.run_steps flashRun_step (SeqCounter.load storage).run m
  have hnext := Prog.run_steps flashRun_step (SeqCounter.next storage c).run
    ((SeqCounter.load storage).run.run flashRun m).2
  rw [hboot] at hload
  rw [hcall] at hnext
  refine .head ⟨.boot, trivial⟩ ((SensorRun.load hload).trans ?_)
  refine .head ⟨.loaded, trivial⟩ (.head ⟨.call, hroom⟩ ((SensorRun.next hnext).trans ?_))
  exact .single ⟨.issue, trivial⟩

/-- What a boot and a call leave of an erased region. -/
def calledFlash : Memory :=
  ((SeqCounter.next ⟨0, 8192⟩ ⟨0, 0, Page.A.start⟩).run.run flashRun
    ((SeqCounter.load ⟨0, 8192⟩).run.run flashRun fun _ => erased).2).2

/-- A power cut, a boot and a call: it goes on at the ceiling that is reserved. -/
theorem SensorRun.twoBoots : ∃ t, SensorRun ⟨0, 8192⟩ ⟨fun _ => erased, .off, []⟩ t ∧
    t.issued = [1024, 0] := by
  have hboot : ((SeqCounter.load ⟨0, 8192⟩).run.run flashRun fun _ => erased).1 =
      .ok ⟨0, 0, Page.A.start⟩ := by
    decide +kernel
  have hcall : ((SeqCounter.next ⟨0, 8192⟩ ⟨0, 0, Page.A.start⟩).run.run flashRun
      ((SeqCounter.load ⟨0, 8192⟩).run.run flashRun fun _ => erased).2).1 =
        .ok (0, ⟨1, 1024, ⟨1, by decide⟩⟩) := by
    decide +kernel
  have hagain : ((SeqCounter.load ⟨0, 8192⟩).run.run flashRun calledFlash).1 =
      .ok ⟨1024, 1024, ⟨1, by decide⟩⟩ := by
    decide +kernel
  have hnext : ((SeqCounter.next ⟨0, 8192⟩ ⟨1024, 1024, ⟨1, by decide⟩⟩).run.run flashRun
      ((SeqCounter.load ⟨0, 8192⟩).run.run flashRun calledFlash).2).1 =
        .ok (1024, ⟨1025, 2048, ⟨2, by decide⟩⟩) := by
    decide +kernel
  have hfirst : SensorRun ⟨0, 8192⟩ ⟨fun _ => erased, .off, []⟩
      ⟨calledFlash, .ready ⟨1, 1024, ⟨1, by decide⟩⟩, [0]⟩ :=
    SensorRun.bootAndCall hboot hcall (.inr (by decide))
  have hsecond := SensorRun.bootAndCall (w := [0]) hagain hnext (.inr (by decide))
  exact ⟨_, (hfirst.tail ⟨.powerCut, .inl (by decide)⟩).trans hsecond, rfl⟩

/-- From an erased region, every issued seq is larger than every earlier one,
across all boots, and the flash holds a valid record above all of them. -/
theorem issued_increasing_recorded {storage : Storage} {m : Memory} {t : Sensor}
    (hm : ∀ slot : Slot, m (slot.addr storage) = erased)
    (hrun : SensorRun storage ⟨m, .off, []⟩ t) :
    t.issued.Pairwise (· > ·) ∧ (t.issued ≠ [] →
      ∃ slot : Slot, isValidRecord (t.flash (slot.addr storage)) = true ∧
        ∀ seq ∈ t.issued, seq < t.flash (slot.addr storage)) := by
  have hinit : Sensor.Inv storage ⟨m, .off, []⟩ :=
    ⟨⟨.fresh, Log.stored_fresh hm, by decide, fun _ h => by cases h⟩, List.Pairwise.nil⟩
  have hinv := invariant_run hrun (fun _ _ h => Sensor.inv_step h.1 h.2) hinit
  exact ⟨hinv.2, fun hne => hinv.1.recorded.exists_record hne⟩

theorem issued_increasing_recorded_twoBoots : ∃ t,
    SensorRun ⟨0, 8192⟩ ⟨fun _ => erased, .off, []⟩ t ∧ t.issued = [1024, 0] ∧
    t.issued.Pairwise (· > ·) ∧
    ∃ slot : Slot, isValidRecord (t.flash (slot.addr ⟨0, 8192⟩)) = true ∧
      ∀ seq ∈ t.issued, seq < t.flash (slot.addr ⟨0, 8192⟩) := by
  obtain ⟨t, hrun, hissued⟩ := SensorRun.twoBoots
  obtain ⟨hincreasing, hrecorded⟩ := issued_increasing_recorded (fun _ => rfl) hrun
  exact ⟨t, hrun, hissued, hincreasing, hrecorded (by rw [hissued]; decide)⟩
end Homescope
