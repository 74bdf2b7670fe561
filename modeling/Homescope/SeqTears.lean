import Homescope.SeqResume

/-! Power cuts in the middle of programming a ceiling. The word that is left
has some of the bits cleared that had to be. The boot scan passes over it
unless its low ten bits are among them; then it is a record, and a larger one
than the ceiling unless it is the ceiling. -/

namespace Homescope

open Commands

/-- What is left of `old` when programming `data` over it is cut short: no bit
is set, and no bit is cleared that `data` has. -/
def Torn (old data torn : Word) : Prop := old &&& torn = torn ∧ old &&& data &&& torn = old &&& data

instance (old data torn : Word) : Decidable (Torn old data torn) :=
  inferInstanceAs (Decidable (_ ∧ _))

/-- The firmware is about to program a word. -/
def Sensor.Writing (s : Sensor) (a : Nat) (data : Word) : Prop :=
  ∃ c k, s.mode = .issuing c (.cmd (.write a data) k)

/-- The power is cut while a word is programmed. -/
def Tear (data torn : Word) (s t : Sensor) : Prop :=
  ∃ a, s.Writing a data ∧ Torn (s.flash a) data torn ∧
    t = ⟨s.flash.set a torn, .off, s.issued⟩

/-- A torn word that no boot takes for another ceiling. -/
def Mild (data torn : Word) : Prop := isValidRecord torn = false ∨ torn = data

instance (data torn : Word) : Decidable (Mild data torn) := inferInstanceAs (Decidable (_ ∨ _))

/-- The seq of a boot and a first call, over a driver that does not fail. -/
def FirstSeq (storage : Storage) (m : Memory) (seq : Word) : Prop :=
  ∃ c c' m', SeqCounter.eval (SeqCounter.load storage) m = (.ok c, m) ∧
    SeqCounter.eval (SeqCounter.next storage c) m = (.ok (seq, c'), m')

/-- The boot over `torn` succeeds, goes on above every issued seq, and skips at
most one block more than one over `clean`. -/
def Harmless (storage : Storage) (issued : List Word) (clean torn : Memory) : Prop :=
  ∃ seq cleanSeq, FirstSeq storage torn seq ∧ FirstSeq storage clean cleanSeq ∧
    (∀ old ∈ issued, old < seq) ∧ seq.toNat ≤ cleanSeq.toNat + reservationBlock.toNat

/-- A run with power cuts anywhere, also while a word is programmed. -/
abbrev TornRun (storage : Storage) : Sensor → Sensor → Prop :=
  Relation.ReflTransGen fun s t => SensorStep storage s t ∨ ∃ data torn, Tear data torn s t

/-- A run in which the reserved ceiling stays below `2 ^ 32` and every torn
word is mild. -/
abbrev MildRun (storage : Storage) : Sensor → Sensor → Prop :=
  Relation.ReflTransGen fun s t => SensorStep storage s t ∧ s.mode.Room ∨
    ∃ data torn, Tear data torn s t ∧ Mild data torn

/-! ### A slot with a torn word -/

/-- The log has `R` ceilings, and the slot of the next one is free but for a
torn word that the scan passes over and that the ceiling fits into. -/
def Vacant (storage : Storage) (R : Nat) (m : Memory) : Prop :=
  ∃ l : Log, l.count = R ∧ R < 2 ^ 22 ∧ l.Ready ∧
    l.Stored storage (m.set ((Slot.ofCount R).addr storage) erased) ∧
    isValidRecord (m ((Slot.ofCount R).addr storage)) = false ∧
    m ((Slot.ofCount R).addr storage) &&& ceiling (R + 1) = ceiling (R + 1)

section Slots

variable {storage : Storage} {R : Nat} {m : Memory} {l : Log}

theorem Log.Stored.vacant (hl : l.Stored storage m) (hr : l.Ready) (hc : l.count = R)
    (hR : R < 2 ^ 22) : Vacant storage R m := by
  have hempty : m ((Slot.ofCount R).addr storage) = erased := by
    rw [hl, ← hc, Log.word_next hr]
  refine ⟨l, hc, hR, hr, ?_, hempty ▸ isValidRecord_erased, ?_⟩
  · rwa [m.set_eq_self hempty]
  · rw [hempty, erased, BitVec.allOnes_and]

namespace Vacant

theorem update (h : Vacant storage R m) {torn : Word} (hinvalid : isValidRecord torn = false)
    (hfits : torn &&& ceiling (R + 1) = ceiling (R + 1)) :
    Vacant storage R (m.set ((Slot.ofCount R).addr storage) torn) := by
  obtain ⟨l, hc, hR, hr, hl, -, -⟩ := h
  refine ⟨l, hc, hR, hr, ?_, ?_, ?_⟩
  · rwa [Memory.set_set]
  · rwa [Memory.set_same]
  · rwa [Memory.set_same]

/-- The scan does not see the torn word. -/
theorem scan_eq (hr : l.Ready)
    (hl : l.Stored storage (m.set ((Slot.ofCount l.count).addr storage) erased))
    (hinvalid : isValidRecord (m ((Slot.ofCount l.count).addr storage)) = false) (slots : List Slot)
    (best : Word × Slot) : scan (fun s => m (s.addr storage)) slots best = scan l.word slots best := by
  refine scan_congr (fun s (hs : s ≠ .ofCount l.count) => ?_) ?_ hinvalid slots best
  · rw [← hl s, Memory.set_other _ _ fun h => hs (Slot.addr_inj.mp h)]
  · rw [Log.word_next hr]
    exact isValidRecord_erased

/-- Programming the ceiling leaves nothing of the torn word. -/
theorem program (h : Vacant storage R m) : ∃ l : Log, l.count = R + 1 ∧ l.Behind R ∧
    l.Stored storage (m.program ((Slot.ofCount R).addr storage) (ceiling (R + 1))) := by
  obtain ⟨l, hc, hR, hr, hl, -, hfits⟩ := h
  have hsame : m.program ((Slot.ofCount R).addr storage) (ceiling (R + 1)) =
      (m.set ((Slot.ofCount R).addr storage) erased).program
        ((Slot.ofCount R).addr storage) (ceiling (R + 1)) := by
    rw [Memory.program_eq_set, Memory.program_eq_set, Memory.set_set, Memory.set_same, hfits, erased,
      BitVec.allOnes_and]
  rw [hsame]
  exact SeqCounter.program_ceiling hl (Or.inl hc) fun _ => hr

/-- Nor does erasing the page that the ceiling starts. -/
theorem erase (h : Vacant storage R m) (hstart : R % 1024 = 0) : ∃ l : Log, l.count = R ∧ l.Ready ∧
    l.Stored storage (m.erase ((Page.after (R / 1024)).byteRange storage).1
      ((Page.after (R / 1024)).byteRange storage).2) := by
  obtain ⟨l, hc, hR, hr, hl, -, -⟩ := h
  have hmem : ((Page.after (R / 1024)).byteRange storage).1 ≤ (Slot.ofCount R).addr storage ∧
      (Slot.ofCount R).addr storage < ((Page.after (R / 1024)).byteRange storage).2 :=
    (Slot.addr_mem_byteRange _ _).mpr (Slot.ofCount_page R)
  have hsame : (m.set ((Slot.ofCount R).addr storage) erased).erase
      ((Page.after (R / 1024)).byteRange storage).1 ((Page.after (R / 1024)).byteRange storage).2 =
      m.erase ((Page.after (R / 1024)).byteRange storage).1
        ((Page.after (R / 1024)).byteRange storage).2 := by
    funext a
    by_cases ha : a = (Slot.ofCount R).addr storage
    · rw [ha, Memory.erase_inside _ hmem, Memory.erase_inside _ hmem]
    · rw [Memory.erase, Memory.erase, Memory.set_other _ _ ha]
  obtain ⟨hcount, hready⟩ := Log.Behind.erasePage (Or.inl hc) hstart
  exact ⟨_, hcount, hready, hsame ▸ hl.erasePage _⟩

end Vacant

end Slots

/-! ### The boot after a tear -/

section Boots

variable {storage : Storage} {R : Nat} {m : Memory} {seq seq' torn : Word}

theorem FirstSeq.unique (h : FirstSeq storage m seq) (h' : FirstSeq storage m seq') : seq = seq' := by
  obtain ⟨c, d, n, hload, hnext⟩ := h
  obtain ⟨c', d', n', hload', hnext'⟩ := h'
  obtain rfl : c = c' := by
    rw [hload] at hload'
    cases hload'
    rfl
  rw [hnext] at hnext'
  cases hnext'
  rfl

/-- The seq is the largest leading record. -/
theorem FirstSeq.eq_best (hsize : storage.stop - storage.start = totalSlots * 4)
    (h : FirstSeq storage m seq) : seq = (SeqCounter.best storage m).1 := by
  obtain ⟨c, c', m', hload, hnext⟩ := h
  rw [SeqCounter.eval_load_resumed hsize] at hload
  cases hload
  by_cases hw : SeqCounter.Writable storage m
  · rw [SeqCounter.Writable, SeqCounter.attempted, Memory.program_same] at hw
    rw [SeqCounter.eval_next (BitVec.le_refl _) hw] at hnext
    cases hnext
    rfl
  · rw [SeqCounter.eval_next_stall hw] at hnext
    cases hnext

/-- A boot over the region goes on after `R` ceilings. -/
def Boots (storage : Storage) (R : Nat) (m : Memory) : Prop :=
  Vacant storage R m ∨ ∃ l : Log, l.Stored storage m ∧ l.count = R ∧ R < 2 ^ 22

theorem Boots.load (hsize : storage.stop - storage.start = totalSlots * 4)
    (h : Boots storage R m) : SeqCounter.eval (SeqCounter.load storage) m =
      (.ok ⟨ceiling R, ceiling R, .ofCount R⟩, m) := by
  rcases h with ⟨l, rfl, hR, hr, hl, hinvalid, -⟩ | ⟨l, hl, rfl, hR⟩
  · exact SeqCounter.eval_load hsize (Vacant.scan_eq hr hl hinvalid) hR
  · have hword : (fun s : Slot => m (s.addr storage)) = l.word := funext hl
    exact SeqCounter.eval_load hsize (fun _ _ => by rw [hword]) hR

theorem Boots.resumed (hsize : storage.stop - storage.start = totalSlots * 4)
    (h : Boots storage R m) : SeqCounter.resumed storage m = ⟨ceiling R, ceiling R, .ofCount R⟩ := by
  have hload := h.load hsize
  rw [SeqCounter.eval_load_resumed hsize] at hload
  exact Except.ok.inj (Prod.mk.inj hload).1

theorem Boots.lt (h : Boots storage R m) : R < 2 ^ 22 := by
  rcases h with ⟨-, -, hR, -⟩ | ⟨-, -, -, hR⟩
  · exact hR
  · exact hR

theorem Log.Stored.firstSeq {l : Log} (hsize : storage.stop - storage.start = totalSlots * 4)
    (hl : l.Stored storage m) (hlt : l.count < 2 ^ 22) : FirstSeq storage m (ceiling l.count) := by
  obtain ⟨l', m', -, -, -, hnext⟩ := SeqCounter.eval_next_stored hl
    (c := ⟨ceiling l.count, ceiling l.count, .ofCount l.count⟩) (BitVec.le_refl _) rfl rfl
  exact ⟨_, _, _, Boots.load hsize (Or.inr ⟨l, hl, rfl, hlt⟩), hnext⟩

theorem Vacant.startPage (h : Vacant storage R m) :
    Vacant storage R (SeqCounter.startPage storage (.ofCount R) m) := by
  rw [SeqCounter.startPage, Slot.ofCount_pageStarted]
  by_cases hstart : R % 1024 = 0
  · obtain ⟨l, hc, hr, hl⟩ := h.erase hstart
    obtain ⟨-, -, hR, -⟩ := h
    rw [if_pos hstart]
    exact hl.vacant hr hc hR
  · rw [if_neg hstart]
    exact h

theorem Vacant.firstSeq (hsize : storage.stop - storage.start = totalSlots * 4)
    (h : Vacant storage R m) : FirstSeq storage m (ceiling R) := by
  obtain ⟨-, -, -, -, -, -, hfits⟩ := h.startPage
  rw [← ceiling_succ] at hfits
  have hnext := SeqCounter.eval_next (c := ⟨ceiling R, ceiling R, .ofCount R⟩) (BitVec.le_refl _) hfits
  exact ⟨_, _, _, Boots.load hsize (Or.inl h), hnext⟩

/-- The slots before the next one on its page are taken. -/
theorem Log.isValidRecord_before {l : Log} (hlt : l.count < 2 ^ 22) {s : Slot}
    (hp : s.page = (Slot.ofCount l.count).page) (ho : s.offset < (Slot.ofCount l.count).offset) :
    isValidRecord (l.word s) = true := by
  have hu := l.used_le
  by_cases hfull : l.used < 1024
  · obtain ⟨hpage, hoffset⟩ := (eq_next_of_lt hfull).mp rfl
    rw [hoffset] at ho
    have hcount : l.filled * 1024 + l.used < 2 ^ 22 := hlt
    rw [word_current (hp.trans hpage), if_pos ho]
    exact isValidRecord_ceiling (Nat.succ_pos _) (lt_of_le_of_lt (Nat.add_lt_add_left ho _) hcount)
  · obtain ⟨-, hoffset⟩ := (eq_next_of_full (l := l) (by omega)).mp rfl
    rw [hoffset] at ho
    exact absurd ho (Nat.not_lt_zero _)

/-- A torn word that is a record leads its page. -/
theorem Vacant.leads (h : Vacant storage R m) (hvalid : isValidRecord torn = true) :
    Leads (fun s => m.set ((Slot.ofCount R).addr storage) torn (s.addr storage)) (.ofCount R) := by
  obtain ⟨l, rfl, hR, hr, hl, -, -⟩ := h
  intro s hp ho
  dsimp only
  by_cases hs : s = .ofCount l.count
  · rw [hs, Memory.set_same]
    exact hvalid
  · have hne : s.addr storage ≠ (Slot.ofCount l.count).addr storage := fun h => hs (Slot.addr_inj.mp h)
    have hlt : s.offset < (Slot.ofCount l.count).offset :=
      lt_of_le_of_ne ho fun h => hs ((Slot.eq_iff _ _).mpr ⟨hp, h⟩)
    have hword := hl s
    rw [Memory.set_other _ _ hne] at hword
    rw [Memory.set_other _ _ hne, hword]
    exact Log.isValidRecord_before hR hp hlt

theorem isValidRecord_toNat {w : Word} (h : isValidRecord w = true) : w.toNat % 1024 = 0 := by
  simp only [isValidRecord, Bool.and_eq_true, beq_iff_eq] at h
  have hmod := congrArg BitVec.toNat h.2
  rw [BitVec.toNat_umod] at hmod
  exact hmod

/-- A tear over a vacant slot is harmless exactly if the torn word is mild. -/
theorem Vacant.harmless_iff {issued : List Word}
    (hsize : storage.stop - storage.start = totalSlots * 4) (h : Vacant storage R m)
    (hR : R + 1 < 2 ^ 22) (hissued : ∀ old ∈ issued, old.toNat < R * 1024)
    (htorn : torn &&& ceiling (R + 1) = ceiling (R + 1)) :
    Harmless storage issued m (m.set ((Slot.ofCount R).addr storage) torn) ↔
      Mild (ceiling (R + 1)) torn := by
  have hclean := h.firstSeq hsize
  have hceiling : (ceiling R).toNat = R * 1024 := ceiling_toNat (by omega)
  have hnext : (ceiling (R + 1)).toNat = (R + 1) * 1024 := ceiling_toNat hR
  have hblock : reservationBlock.toNat = 1024 := rfl
  constructor
  · rintro ⟨seq, cleanSeq, hfirst, hclean', -, hskip⟩
    obtain rfl := hclean.unique hclean'
    by_contra hmild
    obtain ⟨hvalid, hne⟩ := not_or.mp hmild
    have hvalid' : isValidRecord torn = true := by simpa using hvalid
    have hle := SeqCounter.best_spec.1 _ (h.leads hvalid')
    rw [Memory.set_same, ← hfirst.eq_best hsize, BitVec.le_def] at hle
    have hsub : (ceiling (R + 1)).toNat ≤ torn.toNat := by
      rw [← htorn, BitVec.toNat_and]
      exact Nat.and_le_left
    have hmod := isValidRecord_toNat hvalid'
    have hne' : torn.toNat ≠ (ceiling (R + 1)).toNat := fun h => hne (BitVec.eq_of_toNat_eq h)
    omega
  · rintro (hinvalid | rfl)
    · refine ⟨_, _, (h.update hinvalid htorn).firstSeq hsize, hclean, fun old hold => ?_, by omega⟩
      rw [BitVec.lt_def, hceiling]
      exact hissued old hold
    · have hfits : m ((Slot.ofCount R).addr storage) &&& ceiling (R + 1) = ceiling (R + 1) := by
        obtain ⟨-, -, -, -, -, -, hfits⟩ := h
        exact hfits
      obtain ⟨l, hc, -, hl⟩ := h.program
      rw [Memory.program_eq_set, hfits] at hl
      have hfirst := hl.firstSeq hsize (by omega)
      rw [hc] at hfirst
      refine ⟨_, _, hfirst, hclean, fun old hold => ?_, by omega⟩
      rw [BitVec.lt_def, hnext]
      exact lt_of_lt_of_le (hissued old hold) (Nat.mul_le_mul_right _ (Nat.le_succ R))

end Boots

/-! ### A call over a torn slot -/

namespace SeqCounter

variable {storage : Storage} {R : Nat} {c : SeqCounter} {m : Memory}

/-- What the region holds under a counter that reserved `R` ceilings. It finds
a torn word only where it has to reserve next. -/
def Held (storage : Storage) (R : Nat) (c : SeqCounter) (m : Memory) : Prop :=
  Kept storage R m ∨ Vacant storage R m ∧ c.reservedUntil ≤ c.nextSeq

theorem advanceReservation_vacant (h : Vacant storage R m) (hout : c.reservedUntil ≤ c.nextSeq)
    (hc : c.reservedUntil = ceiling R) (hs : c.nextSlot = .ofCount R) (hR : R + 1 < 2 ^ 22) :
    Safe flashStep (Held storage R c) (advanceReservation storage c).run (Advanced storage R c) m := by
  rw [advanceReservation, hs, Slot.ofCount_pageStarted]
  by_cases hstart : R % 1024 = 0
  · obtain ⟨l, hcount, hready, hl⟩ := h.erase hstart
    have herased := kept_of_count hl hcount (by omega)
    simp only [hstart, if_true]
    apply Safe.bindExcept
    apply erase_safe (Or.inr ⟨h, hout⟩) (Or.inl herased)
    · rw [← hs]
      exact writeCeiling_safe (Or.inl herased) (fun _ h => Or.inl h)
        (program_ceiling hl (Or.inl hcount) fun _ => hready) hc hs hR
    · exact fun e t ht => ⟨ht, trivial⟩
  · simp only [hstart, if_false]
    rw [← hs]
    exact writeCeiling_safe (Or.inr ⟨h, hout⟩) (fun _ h => Or.inl h) h.program hc hs hR

theorem next_held (h : Held storage R c m) (ha : After R c) (hroom : c.Room) :
    Safe flashStep (Held storage R c) (next storage c).run (Issued storage R c) m := by
  rcases h with h | ⟨h, hout⟩
  · exact (next_safe h ha hroom).mono (fun _ h => Or.inl h) fun _ _ h => h
  · exact next_reserving_safe (advanceReservation_vacant h hout ha.reservedUntil_eq ha.nextSlot_eq
      (ha.room hroom hout).2) ha hroom hout

/-- Only the next ceiling is ever programmed, over a vacant slot or over
itself. -/
def WritesCeiling (storage : Storage) (R : Nat) (m : Memory) (cmd : FlashCmd) : Prop :=
  ∀ a data, cmd = .write a data → a = (Slot.ofCount R).addr storage ∧ data = ceiling (R + 1) ∧
    R + 1 < 2 ^ 22 ∧ (Vacant storage R m ∨ ∃ l : Log, l.Stored storage m ∧ l.count = R + 1)

theorem writeCeiling_guarded (hm : Vacant storage R m ∨ ∃ l : Log, l.Stored storage m ∧ l.count = R + 1)
    (hR : R + 1 < 2 ^ 22) : Guarded flashStep (WritesCeiling storage R)
      (do
        write storage (.ofCount R) (ceiling (R + 1))
        let val ← read storage (.ofCount R)
        assertEq (ceiling (R + 1)) val
        return { c with reservedUntil := ceiling (R + 1), nextSlot := (Slot.ofCount R).next } :
          FlashM SeqCounter).run (fun _ _ => True) m := by
  apply Guarded.bindExcept
  refine ⟨fun a data he => ?_, fun a t _ => ?_⟩
  · obtain ⟨rfl, rfl⟩ := FlashCmd.write.inj he
    exact ⟨rfl, rfl, hR, hm⟩
  cases a with
  | error e => trivial
  | ok _ =>
    apply Guarded.bindExcept
    refine ⟨nofun, fun a t _ => ?_⟩
    cases a with
    | error e => trivial
    | ok val =>
      apply Guarded.bindExcept
      unfold assertEq
      by_cases h : ceiling (R + 1) = val
      · rw [if_pos h]
        trivial
      · rw [if_neg h]
        trivial

theorem advanceReservation_guarded (h : Kept storage R m ∨ Vacant storage R m)
    (hc : c.reservedUntil = ceiling R) (hs : c.nextSlot = .ofCount R) (hR : R + 1 < 2 ^ 22) :
    Guarded flashStep (WritesCeiling storage R) (advanceReservation storage c).run
      (fun _ _ => True) m := by
  rw [advanceReservation, hs, hc, ceiling_succ, Slot.ofCount_pageStarted]
  by_cases hstart : R % 1024 = 0
  · have herased : Vacant storage R (m.erase ((Page.after (R / 1024)).byteRange storage).1
        ((Page.after (R / 1024)).byteRange storage).2) := by
      rcases h with ⟨l, hl, hb, -⟩ | h
      · obtain ⟨hcount, hready⟩ := hb.erasePage hstart
        exact (hl.erasePage _).vacant hready hcount (by omega)
      · obtain ⟨l, hcount, hready, hl⟩ := h.erase hstart
        exact hl.vacant hready hcount (by omega)
    simp only [hstart, if_true]
    apply Guarded.bindExcept
    refine ⟨by rintro _ _ ⟨⟩, fun a t ht => ?_⟩
    cases a with
    | error e => trivial
    | ok _ =>
      obtain rfl : t = _ := ht
      exact writeCeiling_guarded (Or.inl herased) hR
  · simp only [hstart, if_false]
    refine writeCeiling_guarded ?_ hR
    rcases h with ⟨l, hl, hcount | ⟨hcount, -⟩, -⟩ | h
    · exact Or.inl (hl.vacant (Log.ready_of_not_start (by rwa [hcount])) hcount (by omega))
    · exact Or.inr ⟨l, hl, hcount⟩
    · exact Or.inl h

theorem next_guarded (h : Held storage R c m) (ha : After R c) (hroom : c.Room) :
    Guarded flashStep (WritesCeiling storage R) (next storage c).run (fun _ _ => True) m := by
  rw [next]
  by_cases hout : c.reservedUntil ≤ c.nextSeq
  · simp only [hout, if_true]
    apply Guarded.bindExcept
    refine (advanceReservation_guarded (h.imp_right And.left) ha.reservedUntil_eq ha.nextSlot_eq
      (ha.room hroom hout).2).mono fun r t _ => ?_
    cases r <;> trivial
  · simp only [hout, if_false]
    trivial

end SeqCounter

/-! ### Runs with tears -/

section Runs

variable {storage : Storage} {m : Memory} {issued : List Word} {data torn : Word} {s t : Sensor}

/-- A boot over the region goes on above every issued seq. -/
def Resumable (storage : Storage) (m : Memory) (issued : List Word) : Prop :=
  ∃ R, Boots storage R m ∧ ∀ old ∈ issued, old.toNat < R * 1024

/-- What holds between any two flash operations of each mode. A counter that
was loaded knows that the region has the right size. -/
def Mode.Spared (storage : Storage) (m : Memory) (issued : List Word) : Mode → Prop
  | .off => Resumable storage m issued
  | .booting p => Resumable storage m issued ∧ Safe flashStep (· = m) p (fun r t => t = m ∧ ∀ c,
      r = .ok c → c = SeqCounter.resumed storage m ∧
        storage.stop - storage.start = totalSlots * 4) m
  | .ready c => storage.stop - storage.start = totalSlots * 4 ∧
      ∃ R, c.After R ∧ SeqCounter.Held storage R c m ∧ ∀ old ∈ issued, old < c.nextSeq
  | .issuing c p => storage.stop - storage.start = totalSlots * 4 ∧
      ∃ R, c.After R ∧ Safe flashStep (SeqCounter.Held storage R c) p
          (SeqCounter.Issued storage R c) m ∧
        Guarded flashStep (SeqCounter.WritesCeiling storage R) p (fun _ _ => True) m ∧
        ∀ old ∈ issued, old < c.nextSeq

def Sensor.Spared (storage : Storage) (s : Sensor) : Prop := s.mode.Spared storage s.flash s.issued

theorem issued_below {R : Nat} {c : SeqCounter} (hc : c.After R)
    (hi : ∀ old ∈ issued, old < c.nextSeq) : ∀ old ∈ issued, old.toNat < R * 1024 :=
  fun old hold => lt_of_lt_of_le (BitVec.lt_def.mp (hi old hold)) hc.nextSeq_le

theorem SeqCounter.Held.resumable {R : Nat} {c : SeqCounter} (h : SeqCounter.Held storage R c m)
    (hc : c.After R) (hi : ∀ old ∈ issued, old < c.nextSeq) : Resumable storage m issued := by
  rcases h with hk | ⟨hv, -⟩
  · obtain ⟨l, hl, hlt, hl'⟩ := hk.recorded hc hi
    exact ⟨l.count, Or.inr ⟨l, hl, rfl, hlt⟩, hl'⟩
  · exact ⟨R, Or.inl hv, issued_below hc hi⟩

theorem Mode.Spared.resumable {mode : Mode} (h : mode.Spared storage m issued) :
    Resumable storage m issued := by
  cases mode with
  | off => exact h
  | booting p => exact h.1
  | ready c =>
    obtain ⟨-, R, hc, hk, hi⟩ := h
    exact hk.resumable hc hi
  | issuing c p =>
    obtain ⟨-, R, hc, hs, -, hi⟩ := h
    exact hs.now.resumable hc hi

theorem Sensor.Spared.step (h : SensorStep storage s t) (hroom : s.mode.Room)
    (hs : s.Spared storage) : t.Spared storage := by
  cases h with
  | boot => exact ⟨hs, SeqCounter.load_reads storage _⟩
  | load h =>
    have hstep := hs.2.step h
    obtain rfl := hstep.now
    exact ⟨hs.1, hstep⟩
  | loaded =>
    obtain ⟨⟨R, hR, hi⟩, -, -, hc⟩ := hs
    obtain ⟨hresumed, hsize⟩ := hc _ rfl
    have hceiling : (ceiling R).toNat = R * 1024 := ceiling_toNat hR.lt
    obtain rfl := hresumed.trans (hR.resumed hsize)
    refine ⟨hsize, R, ⟨rfl, rfl, hceiling.le, hR.lt⟩, ?_, fun old hold => ?_⟩
    · rcases hR with hv | ⟨l, hl, hcount, hlt⟩
      · exact Or.inr ⟨hv, BitVec.le_refl _⟩
      · exact Or.inl (kept_of_count hl hcount hlt)
    · rw [BitVec.lt_def, hceiling]
      exact hi old hold
  | loadFailed => exact hs.1
  | call =>
    obtain ⟨hsize, R, hc, hk, hi⟩ := hs
    exact ⟨hsize, R, hc, SeqCounter.next_held hk hc hroom, SeqCounter.next_guarded hk hc hroom, hi⟩
  | next h =>
    obtain ⟨hsize, R, hc, hs, hg, hi⟩ := hs
    exact ⟨hsize, R, hc, hs.step h, hg.step h, hi⟩
  | issue =>
    obtain ⟨hsize, R, hc, ⟨-, rfl, R', -, -, hnext, hc', hk'⟩, -, hi⟩ := hs
    refine ⟨hsize, R', hc', Or.inl hk', fun old hold => ?_⟩
    rw [BitVec.lt_def, hnext]
    rcases List.mem_cons.mp hold with rfl | hold
    · exact Nat.lt_succ_self _
    · exact Nat.lt_succ_of_lt (BitVec.lt_def.mp (hi old hold))
  | nextFailed =>
    obtain ⟨hsize, R, hc, ⟨hk, -⟩, -, hi⟩ := hs
    exact ⟨hsize, R, hc, hk, hi⟩
  | nextPanicked =>
    obtain ⟨-, R, hc, ⟨-, hno⟩, -⟩ := hs
    exact hno.elim
  | powerCut => exact Mode.Spared.resumable hs

/-- What a tear finds: the ceiling being programmed over a vacant slot, or over
itself. -/
theorem Sensor.Spared.tear (hs : s.Spared storage) (h : Tear data torn s t) :
    storage.stop - storage.start = totalSlots * 4 ∧ ∃ R, R + 1 < 2 ^ 22 ∧ data = ceiling (R + 1) ∧
      (∀ old ∈ s.issued, old.toNat < R * 1024) ∧ t.mode = .off ∧ t.issued = s.issued ∧
      t.flash = s.flash.set ((Slot.ofCount R).addr storage) torn ∧
      (Vacant storage R s.flash ∧ torn &&& data = data ∨ torn = data ∧ t.flash = s.flash ∧
        ∃ l : Log, l.Stored storage s.flash ∧ l.count = R + 1) := by
  obtain ⟨flash, mode, issued⟩ := s
  obtain ⟨a, ⟨c, k, hmode⟩, htorn, rfl⟩ := h
  obtain rfl : mode = _ := hmode
  obtain ⟨hsize, R, hc, -, hg, hi⟩ := hs
  obtain ⟨rfl, rfl, hR, hslot⟩ := hg.1 _ _ rfl
  refine ⟨hsize, R, hR, rfl, issued_below hc hi, rfl, rfl, rfl, ?_⟩
  obtain ⟨hleft, hbits⟩ := htorn
  rcases hslot with hv | ⟨l, hl, hcount⟩
  · refine Or.inl ⟨hv, ?_⟩
    obtain ⟨-, -, -, -, -, -, hfits⟩ := hv
    rwa [hfits, BitVec.and_comm] at hbits
  · dsimp only at hl hleft hbits
    have hold : flash ((Slot.ofCount R).addr storage) = ceiling (R + 1) := by
      rw [hl, Log.word_last hcount]
    have heq : torn = ceiling (R + 1) := by
      rw [hold, BitVec.and_self] at hbits
      rw [hold] at hleft
      exact hleft.symm.trans hbits
    exact Or.inr ⟨heq, flash.set_eq_self (hold.trans heq.symm), l, hl, hcount⟩

theorem Sensor.Spared.mild (hs : s.Spared storage) (h : Tear data torn s t) (hmild : Mild data torn) :
    t.Spared storage := by
  obtain ⟨-, R, hR, rfl, hi, hoff, hissued, hflash, hslot⟩ := hs.tear h
  obtain ⟨flash, mode, issued⟩ := t
  obtain rfl : mode = .off := hoff
  obtain rfl : issued = s.issued := hissued
  obtain rfl : flash = s.flash.set _ torn := hflash
  have hnext : ∀ old ∈ s.issued, old.toNat < (R + 1) * 1024 := fun old hold =>
    lt_of_lt_of_le (hi old hold) (Nat.mul_le_mul_right _ (Nat.le_succ R))
  rcases hslot with ⟨hv, hfits⟩ | ⟨-, hsame, l, hl, hcount⟩
  · rcases hmild with hinvalid | rfl
    · exact ⟨R, Or.inl (hv.update hinvalid hfits), hi⟩
    · obtain ⟨l, hcount, -, hl⟩ := hv.program
      obtain ⟨-, -, -, -, -, -, hfits'⟩ := hv
      rw [Memory.program_eq_set, hfits'] at hl
      exact ⟨R + 1, Or.inr ⟨l, hl, hcount, hR⟩, hnext⟩
  · refine ⟨R + 1, Or.inr ⟨l, ?_, hcount, hR⟩, hnext⟩
    dsimp only at hsame ⊢
    rwa [hsame]

theorem spared_of_mildRun (hm : ∀ slot : Slot, m (slot.addr storage) = erased)
    (hrun : MildRun storage ⟨m, .off, []⟩ s) : s.Spared storage := by
  have hinit : Sensor.Spared storage ⟨m, .off, []⟩ :=
    ⟨0, Or.inr ⟨.fresh, Log.stored_fresh hm, rfl, by decide⟩, nofun⟩
  refine invariant_run hrun (fun s t h hs => ?_) hinit
  rcases h with ⟨h, hroom⟩ | ⟨data, torn, h, hmild⟩
  · exact hs.step h hroom
  · exact hs.mild h hmild

/-- In a run whose tears were mild so far, the next one is harmless exactly if
it is mild. -/
theorem tear_harmless_iff (hm : ∀ slot : Slot, m (slot.addr storage) = erased)
    (hrun : MildRun storage ⟨m, .off, []⟩ s) (h : Tear data torn s t) :
    Harmless storage s.issued s.flash t.flash ↔ Mild data torn := by
  have hs := spared_of_mildRun hm hrun
  obtain ⟨hsize, R, hR, rfl, hi, -, -, hflash, ⟨hv, hfits⟩ | ⟨rfl, hsame, l, hl, hcount⟩⟩ := hs.tear h
  · rw [hflash]
    exact hv.harmless_iff hsize hR hi hfits
  · have hfirst := hl.firstSeq hsize (hcount ▸ hR)
    rw [hcount] at hfirst
    refine iff_of_true ⟨_, _, hsame ▸ hfirst, hfirst, fun old hold => ?_, Nat.le_add_right _ _⟩
      (Or.inr rfl)
    rw [BitVec.lt_def, ceiling_toNat hR]
    exact lt_of_lt_of_le (hi old hold) (Nat.mul_le_mul_right _ (Nat.le_succ R))

theorem SensorRun.mildRun (h : SensorRun storage s t) : MildRun storage s t := by
  induction h with
  | refl => exact .refl
  | tail _ hst ih => exact ih.tail (Or.inl hst)

theorem SensorRun.tornRun (h : SensorRun storage s t) : TornRun storage s t := by
  induction h with
  | refl => exact .refl
  | tail _ hst ih => exact ih.tail (Or.inl hst.1)

end Runs

/-- The first call on an erased region, about to program the first ceiling. -/
theorem exists_firstWrite : ∃ k, SensorRun ⟨0, 8192⟩ ⟨fun _ => erased, .off, []⟩
    ⟨fun _ => erased, .issuing ⟨0, 0, Page.A.start⟩ (.cmd (.write 0 1024) k), []⟩ := by
  have hboot : Boots ⟨0, 8192⟩ 0 fun _ => erased :=
    Or.inr ⟨.fresh, Log.stored_fresh fun _ => rfl, rfl, by decide⟩
  have hload := Prog.run_steps flashRun_step (SeqCounter.load ⟨0, 8192⟩).run fun _ => erased
  have heval : (SeqCounter.load ⟨0, 8192⟩).run.run flashRun (fun _ => erased) =
      (.ok ⟨0, 0, Page.A.start⟩, fun _ => erased) := hboot.load rfl
  rw [heval] at hload
  have hsame : Memory.erase (fun _ => erased) 0 4096 = fun _ => erased := by
    funext a
    exact ite_self _
  have hready : SensorRun ⟨0, 8192⟩ ⟨fun _ => erased, .off, []⟩
      ⟨fun _ => erased, .ready ⟨0, 0, Page.A.start⟩, []⟩ :=
    .head ⟨.boot, trivial⟩ ((SensorRun.load hload).tail ⟨.loaded, trivial⟩)
  have hcall : SensorRun ⟨0, 8192⟩ ⟨fun _ => erased, .off, []⟩ ⟨fun _ => erased,
      .issuing ⟨0, 0, Page.A.start⟩ (SeqCounter.next ⟨0, 8192⟩ ⟨0, 0, Page.A.start⟩).run, []⟩ :=
    hready.tail ⟨.call, Or.inr (by decide)⟩
  obtain ⟨k, k', hk, hk'⟩ : ∃ k k', (SeqCounter.next ⟨0, 8192⟩ ⟨0, 0, Page.A.start⟩).run =
      .cmd (.erase 0 4096) k ∧ k (.ok ()) = .cmd (.write 0 1024) k' := ⟨_, _, rfl, rfl⟩
  have hstep : Step flashStep (.cmd (.erase 0 4096) k, fun _ => erased)
      (k (.ok ()), fun _ => erased) := .cmd hsame.symm
  rw [hk] at hcall
  rw [hk'] at hstep
  exact ⟨k', hcall.tail ⟨.next hstep, trivial⟩⟩

/-- The first ceiling, torn while its low bits were not all cleared. -/
theorem tear_harmless_iff_first : ∃ s t, Tear 1024 0xFFFFFC01 s t ∧
    (Harmless ⟨0, 8192⟩ s.issued s.flash t.flash ↔ Mild 1024 0xFFFFFC01) := by
  obtain ⟨k, hrun⟩ := exists_firstWrite
  have htorn : Torn erased 1024 0xFFFFFC01 := by decide
  have htear : Tear 1024 0xFFFFFC01 ⟨fun _ => erased,
      .issuing ⟨0, 0, Page.A.start⟩ (.cmd (.write 0 1024) k), []⟩ _ := ⟨0, ⟨_, k, rfl⟩, htorn, rfl⟩
  exact ⟨_, _, htear, tear_harmless_iff (fun _ => rfl) hrun.mildRun htear⟩

/-- Only the low ten bits of the first ceiling were cleared. -/
theorem not_tear_harmless : ¬∀ s t data torn,
    TornRun ⟨0, 8192⟩ ⟨fun _ => erased, .off, []⟩ s → Tear data torn s t →
      Harmless ⟨0, 8192⟩ s.issued s.flash t.flash := by
  intro hall
  obtain ⟨k, hrun⟩ := exists_firstWrite
  have htorn : Torn erased 1024 0xFFFFFC00 := by decide
  have hharmless := hall _ _ 1024 0xFFFFFC00 hrun.tornRun ⟨0, ⟨_, k, rfl⟩, htorn, rfl⟩
  have hvacant : Vacant ⟨0, 8192⟩ 0 fun _ => erased :=
    (Log.stored_fresh fun _ => rfl).vacant (nofun) rfl (by decide)
  have hnone : ∀ old ∈ ([] : List Word), old.toNat < 0 * 1024 := nofun
  have hfits : (0xFFFFFC00 : Word) &&& ceiling (0 + 1) = ceiling (0 + 1) := by decide
  exact absurd ((hvacant.harmless_iff rfl (by decide) hnone hfits).mp hharmless) (by decide)

end Homescope
