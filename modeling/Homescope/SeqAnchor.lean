import Homescope.SeqResume

/-! The counter's runs over a region that it did not write: from any words, as
long as no ceiling passes `2 ^ 32`, every seq is larger than those before it
and the boot scan finds a record above them all. -/

namespace Homescope

open Commands SeqCounter

section Anchor

variable {storage : Storage} {m : Memory} {c : SeqCounter} {s : Slot} {w : Word}

/-- The counter has yet to find or write a record, or it stands right behind
the leading record of its ceiling. -/
def Anchored (storage : Storage) (c : SeqCounter) (m : Memory) : Prop :=
  (c.reservedUntil = 0 ∧ c.nextSlot = Page.A.start) ∨
    ∃ s, c.nextSlot = s.next ∧ Holding storage s c.reservedUntil m

theorem Holding.valid (h : Holding storage s w m) : isValidRecord w = true := by
  rw [← h.2]
  exact h.1.valid

/-- The ceiling after a valid one, or the first. -/
theorem isValidRecord_add (h : w = 0 ∨ isValidRecord w = true)
    (hw : w.toNat + reservationBlock.toNat < 2 ^ 32) :
    isValidRecord (w + reservationBlock) = true := by
  have hres : reservationBlock.toNat = 1024 := rfl
  have hmod : w.toNat % 1024 = 0 := by
    rcases h with rfl | h
    · rfl
    · have hm : w % reservationBlock = 0 := by
        simpa using (Bool.and_eq_true_iff.mp h).2
      have hn := congrArg BitVec.toNat hm
      rwa [BitVec.toNat_umod, hres] at hn
  have hadd : (w + reservationBlock).toNat = w.toNat + 1024 := BitVec.toNat_add_of_lt hw
  have hne : w + reservationBlock ≠ 0 := fun h0 => by
    have hn := congrArg BitVec.toNat h0
    rw [hadd] at hn
    exact absurd hn (Nat.succ_ne_zero _)
  have hmod' : (w + reservationBlock) % reservationBlock = 0 := by
    apply BitVec.eq_of_toNat_eq
    rw [BitVec.toNat_umod, hadd, hres]
    change (w.toNat + 1024) % 1024 = 0
    omega
  rw [isValidRecord, hmod']
  simpa using hne

namespace Anchored

theorem valid (h : Anchored storage c m) :
    c.reservedUntil = 0 ∨ isValidRecord c.reservedUntil = true := by
  rcases h with ⟨h, -⟩ | ⟨s, -, h⟩
  · exact .inl h
  · exact .inr h.valid

/-- The counter's slot, once it holds a valid record, leads its page. -/
theorem holding (h : Anchored storage c m) (hm : m (c.nextSlot.addr storage) = w)
    (hw : isValidRecord w = true) : Holding storage c.nextSlot w m := by
  refine ⟨fun t hpage hoffset => ?_, hm⟩
  rcases Nat.lt_or_eq_of_le hoffset with hlt | heq
  · rcases h with ⟨-, hslot⟩ | ⟨s, hslot, hs⟩
    · rw [hslot] at hlt
      exact absurd hlt (Nat.not_lt_zero _)
    · rw [hslot] at hpage hlt
      rcases s.next_cases with ⟨hsame, hnext, -⟩ | ⟨-, hstart⟩
      · exact hs.1 t (hpage.trans hsame) (by omega)
      · rw [Slot.pageStarted_eq] at hstart
        split_ifs at hstart with hzero
        omega
  · obtain rfl := (Slot.eq_iff t c.nextSlot).mpr ⟨hpage, heq⟩
    exact (congrArg isValidRecord hm).trans hw

theorem erase (h : Anchored storage c m) {page : Page} (hp : c.nextSlot.pageStarted = some page) :
    Anchored storage c (m.erase (page.byteRange storage).1 (page.byteRange storage).2) := by
  rcases h with h | ⟨s, hslot, hs⟩
  · exact .inl h
  · refine .inr ⟨s, hslot, ?_⟩
    have hstart := hs.startPage
    rwa [← hslot, startPage, hp] at hstart

theorem program (h : Anchored storage c m) (word : Word) :
    Anchored storage c (m.program (c.nextSlot.addr storage) word) := by
  rcases h with h | ⟨s, hslot, hs⟩
  · exact .inl h
  · refine .inr ⟨s, hslot, ?_⟩
    rw [hslot]
    exact hs.program word

end Anchored

/-- What a reservation leaves: the counter behind its new ceiling. -/
def Reserved (storage : Storage) (c : SeqCounter) (newCeiling : Word) (r : Except Stop SeqCounter)
    (m : Memory) : Prop :=
  ∀ c', r = .ok c' → c' = ⟨c.nextSeq, newCeiling, c.nextSlot.next⟩ ∧ Anchored storage c' m

theorem advanceReservation_anchored (h : Anchored storage c m)
    (hroom : c.reservedUntil.toNat + reservationBlock.toNat < 2 ^ 32) :
    Safe flashStep (Anchored storage c) (advanceReservation storage c).run
      (Reserved storage c (c.reservedUntil + reservationBlock)) m := by
  have hvalid := isValidRecord_add h.valid hroom
  rw [advanceReservation]
  dsimp only
  clear hroom
  generalize c.reservedUntil + reservationBlock = newCeiling at hvalid ⊢
  have hwrite : ∀ m, Anchored storage c m → Safe flashStep (Anchored storage c)
      (do
        write storage c.nextSlot newCeiling
        let val ← read storage c.nextSlot
        assertEq newCeiling val
        return { c with reservedUntil := newCeiling, nextSlot := c.nextSlot.next } :
          FlashM SeqCounter).run
      (Reserved storage c newCeiling) m := by
    intro m hm
    have hm' := hm.program newCeiling
    apply Safe.bindExcept
    apply write_safe hm hm'
    · apply Safe.bindExcept
      apply read_safe hm'
      · apply Safe.bindExcept
        apply assertEq_safe hm'
        · intro hval
          refine ⟨hm', fun c' he => ?_⟩
          cases he
          exact ⟨rfl, .inr ⟨c.nextSlot, rfl, hm'.holding hval.symm hvalid⟩⟩
        · exact fun _ => ⟨hm', by rintro _ ⟨⟩⟩
      · exact fun e => ⟨hm', by rintro _ ⟨⟩⟩
    · exact fun e t ht => ⟨ht, by rintro _ ⟨⟩⟩
  cases hp : c.nextSlot.pageStarted with
  | none => exact hwrite m h
  | some page =>
    apply Safe.bindExcept
    apply erase_safe h (h.erase hp)
    · exact hwrite _ (h.erase hp)
    · exact fun e t ht => ⟨ht, by rintro _ ⟨⟩⟩

/-- What a call leaves: the next seq, under a ceiling that is kept. -/
def Counted (storage : Storage) (c : SeqCounter) (r : Except Stop (Word × SeqCounter)) (m : Memory) :
    Prop :=
  ∀ seq c', r = .ok (seq, c') → seq = c.nextSeq ∧ c'.nextSeq.toNat = seq.toNat + 1 ∧
    c'.nextSeq ≤ c'.reservedUntil ∧ Anchored storage c' m

theorem next_anchored (h : Anchored storage c m) (hle : c.nextSeq ≤ c.reservedUntil)
    (hroom : c.Room) :
    Safe flashStep (Anchored storage c) (next storage c).run (Counted storage c) m := by
  have hle' := BitVec.le_def.mp hle
  have hun := c.reservedUntil.isLt
  have hres : reservationBlock.toNat = 1024 := rfl
  rw [next]
  by_cases hout : c.reservedUntil ≤ c.nextSeq
  · have heq := BitVec.le_def.mp hout
    have hbelow : c.reservedUntil.toNat + reservationBlock.toNat < 2 ^ 32 := by
      rcases hroom with hh | hh
      · exact absurd (BitVec.lt_def.mp hh) (by omega)
      · exact hh
    simp only [hout, if_true]
    apply Safe.bindExcept
    apply (advanceReservation_anchored h hbelow).result.mono (fun _ h => h)
    rintro (e | c') t ⟨ht, hadv⟩
    · exact ⟨ht, by rintro _ _ ⟨⟩⟩
    · obtain ⟨rfl, hc'⟩ := hadv c' rfl
      have hadd := BitVec.toNat_add_of_lt hbelow
      have hnext : (c.nextSeq + 1).toNat = c.nextSeq.toNat + 1 := by
        rw [BitVec.toNat_add_of_lt (by change _ + 1 < _; omega)]
        rfl
      refine ⟨ht, fun seq c'' he => ?_⟩
      cases he
      refine ⟨rfl, hnext, BitVec.le_def.mpr ?_, hc'⟩
      dsimp only
      omega
  · have hlt : c.nextSeq.toNat < c.reservedUntil.toNat := by
      have hh : ¬c.reservedUntil.toNat ≤ c.nextSeq.toNat := fun hh => hout (BitVec.le_def.mpr hh)
      omega
    have hnext : (c.nextSeq + 1).toNat = c.nextSeq.toNat + 1 := by
      rw [BitVec.toNat_add_of_lt (by change _ + 1 < _; omega)]
      rfl
    simp only [hout, if_false]
    refine ⟨h, fun seq c' he => ?_⟩
    cases he
    exact ⟨rfl, hnext, BitVec.le_def.mpr (by rw [hnext]; exact hlt), h⟩

end Anchor

/-! ### Runs -/

section Runs

variable {storage : Storage} {m : Memory} {issued : List Word}

/-- The boot scan finds a record above every issued seq. -/
def Above (storage : Storage) (issued : List Word) (m : Memory) : Prop :=
  ∀ seq ∈ issued, seq < (best storage m).1

/-- What holds of the issued seqs between any two flash operations of each mode,
whatever the region held at first. -/
def Mode.Counting (storage : Storage) (m : Memory) (issued : List Word) : Mode → Prop
  | .off => Above storage issued m
  | .booting p => Above storage issued m ∧ Safe flashStep (· = m) p (fun r t => t = m ∧ ∀ c,
      r = .ok c → c = resumed storage m ∧ storage.stop - storage.start = totalSlots * 4) m
  | .ready c => (∀ seq ∈ issued, seq < c.nextSeq) ∧ c.nextSeq ≤ c.reservedUntil ∧
      Anchored storage c m
  | .issuing c p => (∀ seq ∈ issued, seq < c.nextSeq) ∧ c.nextSeq ≤ c.reservedUntil ∧
      Safe flashStep (Anchored storage c) p (Counted storage c) m

theorem Above.nil : Above storage [] m := nofun

theorem Above.congr {m' : Memory} (h : Above storage issued m)
    (hm : ∀ s : Slot, m' (s.addr storage) = m (s.addr storage)) : Above storage issued m' := by
  have hbest : best storage m' = best storage m := by
    simp only [best, hm]
  intro seq hseq
  rw [hbest]
  exact h seq hseq

theorem Anchored.above {c : SeqCounter} (h : Anchored storage c m)
    (hi : ∀ seq ∈ issued, seq < c.nextSeq) (hle : c.nextSeq ≤ c.reservedUntil) :
    Above storage issued m := by
  intro seq hseq
  have hlt := BitVec.lt_def.mp (hi seq hseq)
  have hle' := BitVec.le_def.mp hle
  rcases h with ⟨hzero, -⟩ | ⟨s, -, hs⟩
  · rw [hzero] at hle'
    exact absurd (Nat.lt_of_lt_of_le hlt hle') (Nat.not_lt_zero _)
  · have hbest := BitVec.le_def.mp (best_spec.1 s hs.1)
    rw [hs.2] at hbest
    exact BitVec.lt_def.mpr (by omega)

theorem Mode.Counting.above {mode : Mode} (h : mode.Counting storage m issued) :
    Above storage issued m := by
  cases mode with
  | off => exact h
  | booting p => exact h.1
  | ready c => exact h.2.2.above h.1 h.2.1
  | issuing c p => exact h.2.2.now.above h.1 h.2.1

theorem resumed_anchored : Anchored storage (resumed storage m) m := by
  by_cases h : (best storage m).1 = 0
  · exact .inl ⟨h, if_pos h⟩
  · exact .inr ⟨(best storage m).2, if_neg h, holding_best h⟩

def Sensor.Counting (storage : Storage) (s : Sensor) : Prop :=
  s.mode.Counting storage s.flash s.issued ∧ s.issued.Nodup

theorem Sensor.counting_step {s t : Sensor} (h : SensorStep storage s t) (hroom : s.mode.Room)
    (hs : s.Counting storage) : t.Counting storage := by
  obtain ⟨hmode, hnodup⟩ := hs
  cases h with
  | boot => exact ⟨⟨hmode, load_reads storage _⟩, hnodup⟩
  | load h =>
    have hstep := hmode.2.step h
    obtain rfl := hstep.now
    exact ⟨⟨hmode.1, hstep⟩, hnodup⟩
  | loaded =>
    obtain ⟨habove, -, -, hc⟩ := hmode
    have hready : Mode.Counting storage _ _ (.ready (resumed storage _)) :=
      ⟨habove, BitVec.le_refl _, resumed_anchored⟩
    rw [← (hc _ rfl).1] at hready
    exact ⟨hready, hnodup⟩
  | loadFailed => exact ⟨hmode.1, hnodup⟩
  | call =>
    obtain ⟨hi, hle, hc⟩ := hmode
    exact ⟨⟨hi, hle, next_anchored hc hle hroom⟩, hnodup⟩
  | next h =>
    obtain ⟨hi, hle, hp⟩ := hmode
    exact ⟨⟨hi, hle, hp.step h⟩, hnodup⟩
  | issue =>
    obtain ⟨hi, -, -, hret⟩ := hmode
    obtain ⟨rfl, hnext, hle, hc⟩ := hret _ _ rfl
    refine ⟨⟨fun seq hseq => BitVec.lt_def.mpr ?_, hle, hc⟩, List.nodup_cons.mpr ⟨fun hmem => ?_, hnodup⟩⟩
    · rw [hnext]
      rcases List.mem_cons.mp hseq with rfl | hseq
      · exact Nat.lt_succ_self _
      · exact Nat.lt_succ_of_lt (BitVec.lt_def.mp (hi seq hseq))
    · exact BitVec.lt_irrefl _ (hi _ hmem)
  | nextFailed =>
    obtain ⟨hi, hle, hp⟩ := hmode
    exact ⟨⟨hi, hle, hp.now⟩, hnodup⟩
  | nextPanicked => exact ⟨Mode.Counting.above hmode, hnodup⟩
  | powerCut => exact ⟨Mode.Counting.above hmode, hnodup⟩

end Runs

end Homescope
