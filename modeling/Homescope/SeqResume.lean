import Homescope.SeqLimit
import Mathlib.Data.List.TakeWhile

/-! The counter over a region it did not write: whatever the words are, the
boot scan goes on from the largest of the records that its two pages begin
with, and keeps that record until a larger one is written. -/

namespace Homescope

open Commands

/-! ### The largest leading record -/

/-- The slot and those before it on its page hold valid records. -/
def Leads (word : Slot → Word) (s : Slot) : Prop :=
  ∀ t : Slot, t.page = s.page → t.offset ≤ s.offset → isValidRecord (word t) = true

theorem Leads.valid {word : Slot → Word} {s : Slot} (h : Leads word s) :
    isValidRecord (word s) = true := h s rfl (Nat.le_refl _)

theorem Slot.eq_getElem {page : Page} {s : Slot} (h : s.page = page) :
    ∃ hs : s.offset < page.slots.length, page.slots[s.offset] = s := by
  refine ⟨page.length_slots ▸ s.offset_lt, ?_⟩
  rw [Page.getElem_slots, Slot.eq_iff, Page.slot_page, Page.slot_offset]
  exact ⟨h.symm, rfl⟩

theorem mem_takeWhile_valid {word : Slot → Word} {page : Page} {s : Slot} :
    s ∈ page.slots.takeWhile (fun t => isValidRecord (word t)) ↔ s.page = page ∧ Leads word s := by
  constructor
  · intro hs
    obtain ⟨i, hi, rfl⟩ := List.mem_iff_getElem.mp hs
    have hlen : i < page.slots.length :=
      lt_of_lt_of_le hi (List.takeWhile_prefix _).length_le
    have hget : ∀ j (hj : j < (page.slots.takeWhile (fun t => isValidRecord (word t))).length),
        (page.slots.takeWhile (fun t => isValidRecord (word t)))[j] =
          page.slot ⟨j, page.length_slots ▸ lt_of_lt_of_le hj
            (List.takeWhile_prefix _).length_le⟩ := by
      intro j hj
      rw [← Page.getElem_slots page (lt_of_lt_of_le hj (List.takeWhile_prefix _).length_le)]
      exact (List.takeWhile_prefix _).getElem hj
    rw [hget i hi]
    refine ⟨Page.slot_page _ _, fun t hpage hoffset => ?_⟩
    rw [Page.slot_page] at hpage
    rw [Page.slot_offset] at hoffset
    have ht := hget t.offset (lt_of_le_of_lt hoffset hi)
    rw [(Slot.eq_iff t (page.slot ⟨t.offset, t.offset_lt⟩)).mpr
      ⟨hpage.trans (Page.slot_page _ _).symm, (Page.slot_offset page ⟨_, t.offset_lt⟩).symm⟩, ← ht]
    have hmem := List.getElem_mem (lt_of_le_of_lt hoffset hi)
    exact List.mem_takeWhile_imp (p := fun t => isValidRecord (word t)) hmem
  · rintro ⟨rfl, hs⟩
    obtain ⟨hlt, hget⟩ := Slot.eq_getElem (s := s) rfl
    have hall : ∀ t ∈ s.page.slots.take (s.offset + 1), isValidRecord (word t) = true := by
      intro t ht
      obtain ⟨j, hj, rfl⟩ := List.mem_iff_getElem.mp ht
      have hj' : j < s.offset + 1 := lt_of_lt_of_le hj (List.length_take_le _ _)
      rw [List.getElem_take, Page.getElem_slots]
      refine hs _ (Page.slot_page _ _) ?_
      rw [Page.slot_offset]
      exact Nat.le_of_lt_succ hj'
    rw [← List.take_append_drop (s.offset + 1) s.page.slots,
      List.takeWhile_append_of_pos hall]
    have hmem : s.page.slots[s.offset] ∈ s.page.slots.take (s.offset + 1) :=
      List.mem_take_iff_getElem.mpr ⟨s.offset, by omega, rfl⟩
    rw [hget] at hmem
    exact List.mem_append_left _ hmem

theorem foldl_pick_spec (word : Slot → Word) (slots : List Slot) (best : Word × Slot) :
    best.1 ≤ (slots.foldl (pick word) best).1 ∧
      (∀ s ∈ slots, word s ≤ (slots.foldl (pick word) best).1) ∧
      (slots.foldl (pick word) best = best ∨ ∃ s ∈ slots, slots.foldl (pick word) best = (word s, s)) := by
  induction slots generalizing best with
  | nil => exact ⟨BitVec.le_refl _, nofun, .inl rfl⟩
  | cons slot slots ih =>
    obtain ⟨hle, hall, hfrom⟩ := ih (pick word best slot)
    have hpick : best.1 ≤ (pick word best slot).1 ∧ word slot ≤ (pick word best slot).1 ∧
        (pick word best slot = best ∨ pick word best slot = (word slot, slot)) := by
      rw [pick]
      by_cases h : best.1 < word slot
      · rw [if_pos h]
        exact ⟨BitVec.le_of_lt h, BitVec.le_refl _, .inr rfl⟩
      · rw [if_neg h]
        exact ⟨BitVec.le_refl _, BitVec.not_lt.mp h, .inl rfl⟩
    rw [List.foldl_cons]
    refine ⟨BitVec.le_trans hpick.1 hle, fun s hs => ?_, ?_⟩
    · rcases List.mem_cons.mp hs with rfl | hs
      · exact BitVec.le_trans hpick.2.1 hle
      · exact hall s hs
    · rcases hfrom with h | ⟨s, hs, h⟩
      · rcases hpick.2.2 with hp | hp
        · exact .inl (h.trans hp)
        · exact .inr ⟨slot, List.mem_cons_self, h.trans hp⟩
      · exact .inr ⟨s, List.mem_cons_of_mem slot hs, h⟩

namespace SeqCounter

variable {storage : Storage} {m : Memory}

/-- What the scan of both pages finds. -/
def best (storage : Storage) (m : Memory) : Word × Slot :=
  Page.all.foldl (fun best page => scan (fun s => m (s.addr storage)) page.slots best)
    (0, Page.A.start)

/-- The counter that a boot makes of the region. -/
def resumed (storage : Storage) (m : Memory) : SeqCounter :=
  ⟨(best storage m).1, (best storage m).1,
    if (best storage m).1 = 0 then Page.A.start else (best storage m).2.next⟩

theorem best_spec :
    (∀ s, Leads (fun t => m (t.addr storage)) s → m (s.addr storage) ≤ (best storage m).1) ∧
      ((best storage m).1 ≠ 0 → Leads (fun t => m (t.addr storage)) (best storage m).2 ∧
        m ((best storage m).2.addr storage) = (best storage m).1) := by
  have hA := foldl_pick_spec (fun s => m (s.addr storage))
    (Page.A.slots.takeWhile fun s => isValidRecord (m (s.addr storage))) (0, Page.A.start)
  have hB := foldl_pick_spec (fun s => m (s.addr storage))
    (Page.B.slots.takeWhile fun s => isValidRecord (m (s.addr storage)))
    (scan (fun s => m (s.addr storage)) Page.A.slots (0, Page.A.start))
  change _ ≤ (best storage m).1 ∧ (∀ s ∈ _, _ ≤ (best storage m).1) ∧
    (best storage m = _ ∨ ∃ s ∈ _, best storage m = _) at hB
  obtain ⟨-, hallA, hfromA⟩ := hA
  obtain ⟨hleB, hallB, hfromB⟩ := hB
  refine ⟨fun s hs => ?_, fun hne => ?_⟩
  · cases hp : s.page with
    | A => exact BitVec.le_trans (hallA s (mem_takeWhile_valid.mpr ⟨hp, hs⟩)) hleB
    | B => exact hallB s (mem_takeWhile_valid.mpr ⟨hp, hs⟩)
  · rcases hfromB with h | ⟨s, hs, h⟩
    · rcases hfromA with h' | ⟨s, hs, h'⟩
      · rw [h, scan, h'] at hne
        exact absurd rfl hne
      · rw [h, scan, h']
        exact ⟨(mem_takeWhile_valid.mp hs).2, rfl⟩
    · rw [h]
      exact ⟨(mem_takeWhile_valid.mp hs).2, rfl⟩

/-- A boot reads the region and nothing else; it fails on a region of another
size. -/
theorem load_reads (storage : Storage) (m : Memory) :
    Safe flashStep (· = m) (load storage).run
      (fun r t => t = m ∧ ∀ c, r = .ok c →
        c = resumed storage m ∧ storage.stop - storage.start = totalSlots * 4) m := by
  rw [load]
  apply Safe.bindExcept
  apply assertEq_safe (I := (· = m)) rfl
  · intro hsize
    apply Safe.bindExcept
    apply (scanPages_safe m Page.all (0, Page.A.start)).mono (fun _ h => h)
    rintro r t ⟨rfl, hr⟩
    cases r with
    | ok found =>
      refine ⟨rfl, rfl, fun c hc => ⟨?_, hsize⟩⟩
      obtain rfl : found = best storage t := hr found rfl
      cases hc
      rfl
    | error e => exact ⟨rfl, rfl, by rintro _ ⟨⟩⟩
  · exact fun _ => ⟨rfl, rfl, by rintro _ ⟨⟩⟩

end SeqCounter

/-! ### What a boot's first reservation does -/

theorem Slot.next_cases (s : Slot) :
    s.next.page = s.page ∧ s.next.offset = s.offset + 1 ∧ s.next.pageStarted = none ∨
      s.next.page ≠ s.page ∧ s.next.pageStarted = some s.next.page := by
  have hs : (s : Nat) < 2048 := s.isLt
  have hn : (s.next : Nat) = (s + 1) % 2048 := rfl
  have hw := wordsPerPage_eq
  have ho : ∀ t : Slot, t.offset = (t : Nat) % 1024 := fun _ => rfl
  have hA : ∀ t : Slot, (t : Nat) < 1024 → t.page = .A := fun t ht => if_pos ht
  have hB : ∀ t : Slot, ¬(t : Nat) < 1024 → t.page = .B := fun t ht => if_neg ht
  rw [Slot.pageStarted_eq, ho s, ho s.next]
  by_cases hlast : ((s : Nat) + 1) % 1024 = 0
  · refine .inr ⟨?_, if_pos (by omega)⟩
    by_cases h : (s : Nat) < 1024
    · rw [hA s h, hB s.next (by omega)]
      decide
    · rw [hB s h, hA s.next (by omega)]
      decide
  · refine .inl ⟨?_, by omega, if_neg (by omega)⟩
    by_cases h : (s : Nat) < 1024
    · rw [hA s h, hA s.next (by omega)]
    · rw [hB s h, hB s.next (by omega)]

/-- The slot leads its page and holds `w`. -/
def Holding (storage : Storage) (s : Slot) (w : Word) (m : Memory) : Prop :=
  Leads (fun t => m (t.addr storage)) s ∧ m (s.addr storage) = w

namespace Holding

variable {storage : Storage} {s : Slot} {w : Word} {m m' : Memory}

theorem congr (h : Holding storage s w m)
    (hm : ∀ t : Slot, t.page = s.page → t.offset ≤ s.offset →
      m' (t.addr storage) = m (t.addr storage)) : Holding storage s w m' := by
  refine ⟨fun t hp ho => ?_, (hm s rfl (Nat.le_refl _)).trans h.2⟩
  exact (congrArg isValidRecord (hm t hp ho)).trans (h.1 t hp ho)

theorem erase (h : Holding storage s w m) {page : Page} (hp : page ≠ s.page) :
    Holding storage s w (m.erase (page.byteRange storage).1 (page.byteRange storage).2) := by
  refine h.congr fun t ht _ => Memory.erase_outside _ fun hin => hp ?_
  exact ((t.addr_mem_byteRange page).mp hin).symm.trans ht

theorem program (h : Holding storage s w m) (word : Word) :
    Holding storage s w (m.program (s.next.addr storage) word) := by
  refine h.congr fun t ht ho => Memory.program_other _ _ fun he => ?_
  obtain rfl := Slot.addr_inj.mp he
  rcases s.next_cases with ⟨-, hnext, -⟩ | ⟨hpage, -⟩
  · omega
  · exact hpage ht

theorem startPage (h : Holding storage s w m) :
    Holding storage s w (SeqCounter.startPage storage s.next m) := by
  rw [SeqCounter.startPage]
  rcases s.next_cases with ⟨-, -, hstart⟩ | ⟨hpage, hstart⟩
  · rw [hstart]
    exact h
  · rw [hstart]
    exact h.erase hpage

end Holding

namespace SeqCounter

variable {storage : Storage} {m : Memory} {c : SeqCounter} {s : Slot} {w : Word}

theorem holding_best (h : (best storage m).1 ≠ 0) :
    Holding storage (best storage m).2 (best storage m).1 m := best_spec.2 h

/-- A reservation after a leading record leaves that record. -/
theorem advanceReservation_holding (hc : c.nextSlot = s.next) (h : Holding storage s w m) :
    Safe flashStep (Holding storage s w) (advanceReservation storage c).run
      (fun r _ => ∀ c', r = .ok c' → c'.nextSeq = c.nextSeq) m := by
  obtain ⟨nextSeq, reservedUntil, slot⟩ := c
  have hprogram : ∀ m word, Holding storage s w m →
      Holding storage s w (m.program (slot.addr storage) word) := by
    intro m word hm
    rw [show slot = s.next from hc]
    exact hm.program word
  have hstart : slot.pageStarted = none ∨ ∃ page, slot.pageStarted = some page ∧ page ≠ s.page := by
    rw [show slot = s.next from hc]
    rcases s.next_cases with ⟨-, -, hstart⟩ | ⟨hpage, hstart⟩
    · exact .inl hstart
    · exact .inr ⟨_, hstart, hpage⟩
  clear hc
  have hrest : ∀ newCeiling m, Holding storage s w m → Safe flashStep (Holding storage s w)
      (do
        write storage slot newCeiling
        let val ← read storage slot
        assertEq newCeiling val
        return { nextSeq := nextSeq, reservedUntil := newCeiling, nextSlot := slot.next } :
          FlashM SeqCounter).run
      (fun r _ => ∀ c', r = .ok c' → c'.nextSeq = nextSeq) m := by
    intro newCeiling m hm
    have hm' := hprogram m newCeiling hm
    apply Safe.bindExcept
    apply write_safe hm hm'
    · apply Safe.bindExcept
      apply read_safe hm'
      · apply Safe.bindExcept
        apply assertEq_safe hm'
        · intro _
          refine ⟨hm', fun c' he => ?_⟩
          cases he
          rfl
        · exact fun _ => ⟨hm', nofun⟩
      · exact fun e => ⟨hm', nofun⟩
    · exact fun e t ht => ⟨ht, nofun⟩
  rw [advanceReservation]
  rcases hstart with hnone | ⟨page, hsome, hpage⟩
  · simp only [hnone]
    exact hrest _ m h
  · simp only [hsome]
    apply Safe.bindExcept
    apply erase_safe h (h.erase hpage)
    · exact hrest _ _ (h.erase hpage)
    · exact fun e t ht => ⟨ht, nofun⟩

theorem next_holding (hc : c.nextSlot = s.next) (h : Holding storage s w m) :
    Safe flashStep (Holding storage s w) (next storage c).run
      (fun r _ => ∀ seq c', r = .ok (seq, c') → seq = c.nextSeq) m := by
  rw [next]
  by_cases hout : c.reservedUntil ≤ c.nextSeq
  · simp only [hout, if_true]
    apply Safe.bindExcept
    apply (advanceReservation_holding hc h).result.mono (fun _ h => h)
    rintro (e | c') t ⟨ht, hseq⟩
    · exact ⟨ht, by rintro _ _ ⟨⟩⟩
    · refine ⟨ht, fun seq c'' he => ?_⟩
      cases he
      exact hseq c' rfl
  · simp only [hout, if_false]
    refine ⟨h, fun seq c' he => ?_⟩
    cases he
    rfl

end SeqCounter

namespace SeqCounter

variable {storage : Storage} {m : Memory}

/-- The region after the first reservation of a boot, whether or not the slot
took the ceiling. -/
def attempted (storage : Storage) (m : Memory) : Memory :=
  (startPage storage (resumed storage m).nextSlot m).program
    ((resumed storage m).nextSlot.addr storage) ((resumed storage m).reservedUntil + reservationBlock)

/-- The slot after the largest leading record can take the next ceiling. -/
def Writable (storage : Storage) (m : Memory) : Prop :=
  attempted storage m ((resumed storage m).nextSlot.addr storage) =
    (resumed storage m).reservedUntil + reservationBlock

instance (storage : Storage) (m : Memory) : Decidable (Writable storage m) :=
  inferInstanceAs (Decidable (_ = _))

/-- A boot that panics on the ceiling it read back. -/
def Stalls (storage : Storage) (m m' : Memory) : Prop :=
  ¬Writable storage m ∧ m' = attempted storage m

theorem attempted_of_stall (h : ¬Writable storage m) :
    (resumed storage m).nextSlot.pageStarted = none ∧ attempted storage m =
      m.program ((resumed storage m).nextSlot.addr storage)
        ((resumed storage m).reservedUntil + reservationBlock) := by
  cases hp : (resumed storage m).nextSlot.pageStarted with
  | none =>
    refine ⟨rfl, ?_⟩
    rw [attempted, startPage, hp]
  | some page =>
    refine absurd ?_ h
    have hpage : (resumed storage m).nextSlot.page = page := by
      rw [Slot.pageStarted_eq] at hp
      split_ifs at hp
      exact Option.some.inj hp
    rw [Writable, attempted, startPage, hp, Memory.program_erased]
    exact Memory.erase_inside _ ((Slot.addr_mem_byteRange _ page).mpr hpage)

theorem next_stuck (h : ¬Writable storage m) {t : Memory} (ht : t = m ∨ t = attempted storage m) :
    Safe flashStep (fun t => t = m ∨ t = attempted storage m)
      (next storage (resumed storage m)).run (fun r _ => ∀ a, r ≠ .ok a) t := by
  obtain ⟨hstart, hattempted⟩ := attempted_of_stall h
  have hle : (resumed storage m).reservedUntil ≤ (resumed storage m).nextSeq := BitVec.le_refl _
  have hne : (resumed storage m).reservedUntil + reservationBlock ≠
      attempted storage m ((resumed storage m).nextSlot.addr storage) := fun he => h he.symm
  have hwrite : t.program ((resumed storage m).nextSlot.addr storage)
      ((resumed storage m).reservedUntil + reservationBlock) = attempted storage m := by
    rcases ht with rfl | rfl
    · exact hattempted.symm
    · funext a
      rw [hattempted]
      by_cases ha : a = (resumed storage m).nextSlot.addr storage
      · rw [ha, Memory.program_same, Memory.program_same, BitVec.and_assoc, BitVec.and_self]
      · rw [Memory.program_other _ _ ha]
  rw [next]
  simp only [hle, if_true]
  apply Safe.bindExcept
  rw [advanceReservation]
  simp only [hstart]
  generalize (resumed storage m).reservedUntil + reservationBlock = newCeiling at hne hwrite ⊢
  apply Safe.bindExcept
  apply write_safe ht (.inr hwrite)
  · rw [hwrite]
    apply Safe.bindExcept
    apply read_safe (.inr rfl)
    · apply Safe.bindExcept
      apply assertEq_safe (.inr rfl)
      · exact fun he => absurd he hne
      · exact fun _ => ⟨.inr rfl, .inr rfl, by rintro _ ⟨⟩⟩
    · exact fun e => ⟨.inr rfl, .inr rfl, by rintro _ ⟨⟩⟩
  · exact fun e t ht => ⟨ht, ht, by rintro _ ⟨⟩⟩

end SeqCounter

open SeqCounter

/-! ### What the region has to hold -/

section Resumes

variable {storage : Storage} {m : Memory} {issued : List Word}

/-- A page begins with valid records, the last of them above every issued seq. -/
def Covered (storage : Storage) (issued : List Word) (m : Memory) : Prop :=
  ∃ s : Slot, Leads (fun t => m (t.addr storage)) s ∧ ∀ seq ∈ issued, seq < m (s.addr storage)

/-- Wherever boots that stall leave the region, a boot that does not finds it
covered. `load` accepts no region of another size. -/
def Resumes (storage : Storage) (issued : List Word) (m : Memory) : Prop :=
  storage.stop - storage.start = totalSlots * 4 →
    ∀ m', Relation.ReflTransGen (Stalls storage) m m' → Writable storage m' →
      Covered storage issued m'

/-- Whatever the firmware does over the region, the first seq it issues is
above all those issued before. -/
def FirstAbove (storage : Storage) (issued : List Word) (m : Memory) : Prop :=
  ∀ t, Relation.ReflTransGen (SensorStep storage) ⟨m, .off, []⟩ t →
    ∀ first, t.issued.getLast? = some first → ∀ seq ∈ issued, seq < first

theorem covered_iff (hne : issued ≠ []) :
    Covered storage issued m ↔ ∀ seq ∈ issued, seq < (best storage m).1 := by
  obtain ⟨hmax, hbest⟩ : (∀ s, Leads (fun t => m (t.addr storage)) s →
      m (s.addr storage) ≤ (best storage m).1) ∧ ((best storage m).1 ≠ 0 → _) := best_spec
  constructor
  · rintro ⟨s, hs, habove⟩ seq hseq
    exact BitVec.lt_def.mpr
      (lt_of_lt_of_le (BitVec.lt_def.mp (habove seq hseq)) (BitVec.le_def.mp (hmax s hs)))
  · intro habove
    obtain ⟨seq, hseq⟩ := List.exists_mem_of_ne_nil issued hne
    have h0 : (best storage m).1 ≠ 0 := fun h0 => by
      have hlt := habove seq hseq
      rw [h0] at hlt
      exact BitVec.not_lt_zero hlt
    refine ⟨(best storage m).2, (hbest h0).1, fun seq hseq => ?_⟩
    rw [(hbest h0).2]
    exact habove seq hseq

theorem Holding.covered {s : Slot} {w : Word} (h : Holding storage s w m)
    (habove : ∀ seq ∈ issued, seq < w) : Covered storage issued m :=
  ⟨s, h.1, fun seq hseq => h.2.symm ▸ habove seq hseq⟩

/-- A boot over a covered region goes on after its largest record. -/
theorem Covered.holding (h : Covered storage issued m) (hne : issued ≠ []) :
    ∃ s, (resumed storage m).nextSlot = s.next ∧
      Holding storage s (resumed storage m).nextSeq m ∧
      ∀ seq ∈ issued, seq < (resumed storage m).nextSeq := by
  have habove := (covered_iff hne).mp h
  obtain ⟨seq, hseq⟩ := List.exists_mem_of_ne_nil issued hne
  have h0 : (best storage m).1 ≠ 0 := fun h0 => by
    have hlt := habove seq hseq
    rw [h0] at hlt
    exact BitVec.not_lt_zero hlt
  exact ⟨(best storage m).2, if_neg h0, holding_best h0, habove⟩

theorem Covered.attempted (h : Covered storage issued m) (hne : issued ≠ []) :
    Covered storage issued (attempted storage m) := by
  obtain ⟨s, hslot, hs, habove⟩ := h.holding hne
  rw [SeqCounter.attempted, hslot]
  exact (hs.startPage.program _).covered habove

theorem Covered.resumes (h : Covered storage issued m) (hne : issued ≠ []) :
    Resumes storage issued m := by
  intro _ m' hstalls _
  exact invariant_run hstalls (fun _ _ hst hm => hst.2 ▸ Covered.attempted hm hne) h

theorem Resumes.stall (h : Resumes storage issued m) (hm : ¬Writable storage m) :
    Resumes storage issued (SeqCounter.attempted storage m) :=
  fun hsize m' hstalls => h hsize m' (.head ⟨hm, rfl⟩ hstalls)

/-! ### Runs up to the first seq -/

/-- A counter above every issued seq whose record is kept, or one that cannot
reserve. -/
def Going (storage : Storage) (issued : List Word) (c : SeqCounter) (m : Memory) : Prop :=
  (∃ s, c.nextSlot = s.next ∧ (∀ seq ∈ issued, seq < c.nextSeq) ∧ Holding storage s c.nextSeq m) ∨
    ∃ m₀, ¬Writable storage m₀ ∧ Resumes storage issued m₀ ∧ c = resumed storage m₀ ∧
      (m = m₀ ∨ m = SeqCounter.attempted storage m₀)

def Mode.Resuming (storage : Storage) (issued : List Word) (m : Memory) : Mode → Prop
  | .off => Resumes storage issued m
  | .booting p => Resumes storage issued m ∧ Safe flashStep (· = m) p (fun r t => t = m ∧ ∀ c,
      r = .ok c → c = resumed storage m ∧ storage.stop - storage.start = totalSlots * 4) m
  | .ready c => Going storage issued c m
  | .issuing c p => Safe flashStep (Going storage issued c) p
      (fun r _ => ∀ seq c', r = .ok (seq, c') → ∀ old ∈ issued, old < seq) m

theorem Going.resumes {c : SeqCounter} (h : Going storage issued c m) (hne : issued ≠ []) :
    Resumes storage issued m := by
  rcases h with ⟨s, -, habove, hs⟩ | ⟨m₀, hstall, hm₀, -, rfl | rfl⟩
  · exact (hs.covered habove).resumes hne
  · exact hm₀
  · exact hm₀.stall hstall

theorem Going.call {c : SeqCounter} (h : Going storage issued c m) :
    (Mode.issuing c (next storage c).run).Resuming storage issued m := by
  rcases h with ⟨s, hslot, habove, hs⟩ | ⟨m₀, hstall, hm₀, rfl, hm⟩
  · refine (next_holding hslot hs).mono (fun t ht => .inl ⟨s, hslot, habove, ht⟩) ?_
    intro r t hr seq c' he old hold
    rw [hr seq c' he]
    exact habove old hold
  · refine (next_stuck hstall hm).mono (fun t ht => .inr ⟨m₀, hstall, hm₀, rfl, ht⟩) ?_
    exact fun r t hr seq c' he => absurd he (hr _)

theorem resumed_going (h : Resumes storage issued m) (hne : issued ≠ [])
    (hsize : storage.stop - storage.start = totalSlots * 4) :
    Going storage issued (resumed storage m) m := by
  by_cases hw : Writable storage m
  · obtain ⟨s, hslot, hs, habove⟩ := (h hsize m .refl hw).holding hne
    exact .inl ⟨s, hslot, habove, hs⟩
  · exact .inr ⟨m, hw, h, rfl, .inl rfl⟩

theorem Mode.Resuming.resumes {mode : Mode} (h : mode.Resuming storage issued m)
    (hne : issued ≠ []) : Resumes storage issued m := by
  cases mode with
  | off => exact h
  | booting p => exact h.1
  | ready c => exact Going.resumes h hne
  | issuing c p => exact (Safe.now h).resumes hne

/-- The firmware has issued nothing yet and resumes, or its first seq was above
every one issued before. -/
def Sensor.Resuming (storage : Storage) (issued : List Word) (s : Sensor) : Prop :=
  s.issued = [] ∧ s.mode.Resuming storage issued s.flash ∨
    ∃ first, s.issued.getLast? = some first ∧ ∀ seq ∈ issued, seq < first

theorem Sensor.Resuming.step {s t : Sensor} (h : SensorStep storage s t) (hne : issued ≠ [])
    (hs : s.Resuming storage issued) : t.Resuming storage issued := by
  rcases hs with ⟨hnone, hs⟩ | ⟨first, hlast, habove⟩
  · cases h with
    | boot => exact .inl ⟨hnone, hs, load_reads storage _⟩
    | load h =>
      have hstep := hs.2.step h
      obtain rfl := hstep.now
      exact .inl ⟨hnone, hs.1, hstep⟩
    | loaded =>
      obtain ⟨hm, -, -, hc⟩ := hs
      obtain ⟨hresumed, hsize⟩ := hc _ rfl
      have hgoing := resumed_going hm hne hsize
      rw [← hresumed] at hgoing
      exact .inl ⟨hnone, hgoing⟩
    | loadFailed => exact .inl ⟨hnone, hs.1⟩
    | call => exact .inl ⟨hnone, Going.call hs⟩
    | next h => exact .inl ⟨hnone, hs.step h⟩
    | issue =>
      obtain rfl := hnone
      exact .inr ⟨_, rfl, hs.2 _ _ rfl⟩
    | nextFailed => exact .inl ⟨hnone, hs.1⟩
    | nextPanicked => exact .inl ⟨hnone, Going.resumes hs.1 hne⟩
    | powerCut => exact .inl ⟨hnone, Mode.Resuming.resumes hs hne⟩
  · refine .inr ⟨first, ?_, habove⟩
    cases h with
    | issue =>
      change List.getLast? (_ :: _) = some first
      rw [List.getLast?_cons, hlast]
      rfl
    | _ => exact hlast

end Resumes

/-! ### Runs that reach every such region -/

namespace SeqCounter

variable {storage : Storage} {m m' : Memory}

theorem eval_bind_error {α β : Type} {x : FlashM α} {f : α → FlashM β} {e : Stop}
    (h : eval x m = (.error e, m')) : eval (x >>= f) m = (.error e, m') := by
  have hx : x.run.run flashRun m = (.error e, m') := h
  have hb : (x >>= f).run = x.run >>= ExceptT.bindCont f := rfl
  rw [eval, hb, Prog.run_bind, hx]
  rfl

theorem eval_assertEq_ne {α : Type} [DecidableEq α] {a b : α} (h : a ≠ b) (m : Memory) :
    eval (assertEq a b) m = (.error .panic, m) := by
  rw [assertEq, if_neg h]
  rfl

theorem eval_load_resumed (hsize : storage.stop - storage.start = totalSlots * 4) (m : Memory) :
    eval (load storage) m = (.ok (resumed storage m), m) := by
  have hassert : eval (assertEq (storage.stop - storage.start) (totalSlots * 4)) m = (.ok (), m) := by
    rw [hsize]
    exact eval_assertEq _ m
  have hpages : eval (scanPages storage Page.all (0, Page.A.start)) m = (.ok (best storage m), m) := by
    rw [Page.all, scanPages, eval_bind (eval_scanSlots m _ _), scanPages,
      eval_bind (eval_scanSlots m _ _), scanPages]
    rfl
  rw [load, eval_bind hassert, eval_bind hpages]
  rfl

theorem eval_next_stall (h : ¬Writable storage m) :
    eval (next storage (resumed storage m)) m = (.error .panic, attempted storage m) := by
  obtain ⟨hstart, hattempted⟩ := attempted_of_stall h
  have hle : (resumed storage m).reservedUntil ≤ (resumed storage m).nextSeq := BitVec.le_refl _
  have hne : (resumed storage m).reservedUntil + reservationBlock ≠
      attempted storage m ((resumed storage m).nextSlot.addr storage) := fun he => h he.symm
  have hadvance : eval (advanceReservation storage (resumed storage m)) m =
      (.error .panic, attempted storage m) := by
    rw [advanceReservation]
    simp only [hstart]
    generalize (resumed storage m).reservedUntil + reservationBlock = newCeiling at hattempted hne ⊢
    rw [eval_bind (eval_write _ _ _), eval_bind (eval_read _ _), ← hattempted,
      eval_bind_error (eval_assertEq_ne hne _)]
  rw [next]
  simp only [hle, if_true]
  rw [eval_bind_error hadvance]

end SeqCounter

section Reached

variable {storage : Storage} {m m' : Memory} {issued : List Word}

theorem SensorStep.stall (hsize : storage.stop - storage.start = totalSlots * 4)
    (h : Stalls storage m m') :
    Relation.ReflTransGen (SensorStep storage) ⟨m, .off, []⟩ ⟨m', .off, []⟩ := by
  obtain ⟨hw, rfl⟩ := h
  have hnext := Prog.run_steps flashRun_step (SeqCounter.next storage (resumed storage m)).run m
  have heval : (SeqCounter.next storage (resumed storage m)).run.run flashRun m =
      (.error .panic, attempted storage m) := eval_next_stall hw
  rw [heval] at hnext
  exact (SensorStep.boot_eval (eval_load_resumed hsize m)).trans
    (.head .call ((SensorRun.next hnext).steps.tail .nextPanicked))

theorem SensorStep.stalls (hsize : storage.stop - storage.start = totalSlots * 4)
    (h : Relation.ReflTransGen (Stalls storage) m m') :
    Relation.ReflTransGen (SensorStep storage) ⟨m, .off, []⟩ ⟨m', .off, []⟩ := by
  induction h with
  | refl => exact .refl
  | tail _ hst ih => exact ih.trans (SensorStep.stall hsize hst)

theorem SensorStep.first (hsize : storage.stop - storage.start = totalSlots * 4)
    (hw : Writable storage m) : ∃ t, Relation.ReflTransGen (SensorStep storage) ⟨m, .off, []⟩ t ∧
      t.issued = [(best storage m).1] := by
  have hle : (resumed storage m).reservedUntil ≤ (resumed storage m).nextSeq := BitVec.le_refl _
  rw [Writable, attempted, Memory.program_same] at hw
  exact ⟨_, (SensorStep.boot_eval (eval_load_resumed hsize m)).trans
    (SensorStep.call_eval (eval_next hle hw)), rfl⟩

/-- The first seq over any region is above those issued before exactly where
the scan finds a record above them. -/
theorem firstAbove_iff (hne : issued ≠ []) :
    FirstAbove storage issued m ↔ Resumes storage issued m := by
  constructor
  · intro hfirst hsize m' hstalls hw
    obtain ⟨t, ht, hissued⟩ := SensorStep.first hsize hw
    refine (covered_iff hne).mpr (hfirst t ((SensorStep.stalls hsize hstalls).trans ht) _ ?_)
    rw [hissued]
    rfl
  · intro hresumes t ht first hlast
    have hinv : t.Resuming storage issued :=
      invariant_run ht (fun _ _ hst hs => hs.step hst hne) (.inl ⟨rfl, hresumes⟩)
    rcases hinv with ⟨hnone, -⟩ | ⟨first', hlast', habove⟩
    · rw [hnone] at hlast
      cases hlast
    · obtain rfl : first' = first := Option.some.inj (hlast'.symm.trans hlast)
      exact habove

/-- The region that the running firmware wrote is covered. -/
theorem Recorded.covered (h : Recorded storage m issued) (hne : issued ≠ []) :
    Covered storage issued m := by
  obtain ⟨l, hl, hlt, hi⟩ := h
  obtain ⟨seq, hseq⟩ := List.exists_mem_of_ne_nil issued hne
  have hpos : 0 < l.count := by
    have := hi seq hseq
    omega
  refine (covered_iff hne).mpr fun seq hseq => ?_
  have hbest : best storage m = (ceiling l.count, .ofCount (l.count - 1)) := by
    rw [best, show (fun s : Slot => m (s.addr storage)) = l.word from funext hl, Page.all,
      List.foldl_cons, List.foldl_cons, List.foldl_nil, Log.scan_pages hlt, if_pos hpos]
  rw [hbest, BitVec.lt_def, ceiling_toNat hlt]
  exact hi seq hseq

end Reached

end Homescope
