import Homescope.SeqScan

/-! What each function of the counter does to a region that holds a log,
whatever the flash driver answers and wherever the power is cut. -/

namespace Homescope

open Commands

variable {storage : Storage}

theorem Slot.addr_inj {s t : Slot} : s.addr storage = t.addr storage ↔ s = t := by
  rw [Fin.ext_iff]
  simp only [Slot.addr]
  omega

theorem Slot.addr_mem_byteRange (s : Slot) (page : Page) :
    ((page.byteRange storage).1 ≤ s.addr storage ∧
      s.addr storage < (page.byteRange storage).2) ↔ s.page = page := by
  have hs : (s : Nat) < 2048 := s.isLt
  have hw := wordsPerPage_eq
  have hps : pageSize = 4096 := rfl
  by_cases h : (s : Nat) < wordsPerPage
  · rw [Slot.page, if_pos h]
    cases page
    · simp only [Page.byteRange, Slot.addr, Page.start_A, iff_true]; omega
    · simp only [Page.byteRange, Slot.addr, Page.start_B, reduceCtorEq, iff_false]; omega
  · rw [Slot.page, if_neg h]
    cases page
    · simp only [Page.byteRange, Slot.addr, Page.start_A, reduceCtorEq, iff_false]; omega
    · simp only [Page.byteRange, Slot.addr, Page.start_B, iff_true]; omega

namespace Log

/-- The storage region holds the log. -/
def Stored (storage : Storage) (l : Log) (m : Memory) : Prop :=
  ∀ s : Slot, m (s.addr storage) = l.word s

theorem Stored.erasePage {l : Log} {m : Memory} (h : l.Stored storage m) (page : Page) :
    (l.erasePage page).Stored storage
      (m.erase (page.byteRange storage).1 (page.byteRange storage).2) := by
  intro s
  rw [word_erasePage]
  by_cases hp : s.page = page
  · rw [if_pos hp, Memory.erase_inside _ ((s.addr_mem_byteRange page).mpr hp)]
  · rw [if_neg hp, Memory.erase_outside _ (fun hh => hp ((s.addr_mem_byteRange page).mp hh)), h s]

theorem Stored.reserve {l : Log} {m : Memory} (h : l.Stored storage m) (hl : l.Ready) :
    l.reserve.Stored storage
      (m.program ((Slot.ofCount l.count).addr storage) (ceiling (l.count + 1))) := by
  intro s
  rw [word_reserve hl]
  by_cases hs : s = .ofCount l.count
  · rw [if_pos hs, hs, Memory.program_erased _ _ (by rw [h, word_next hl])]
  · rw [if_neg hs, Memory.program_other _ _ (fun hh => hs (Slot.addr_inj.mp hh)), h s]

/-- Writing the last ceiling over itself changes nothing. -/
theorem Stored.rewrite {R : Nat} {l : Log} {m : Memory} (h : l.Stored storage m)
    (hl : l.count = R + 1) :
    m.program ((Slot.ofCount R).addr storage) (ceiling (R + 1)) = m := by
  funext a
  by_cases ha : a = (Slot.ofCount R).addr storage
  · rw [ha, Memory.program_same, h, word_last hl, BitVec.and_self]
  · rw [Memory.program_other _ _ ha]

theorem stored_fresh {m : Memory} (h : ∀ s : Slot, m (s.addr storage) = erased) :
    fresh.Stored storage m := by
  intro s
  rw [h s, word_fresh]

end Log

/-- The region holds every ceiling of a counter that reserved `R`, and perhaps
the one it tried to reserve next. -/
def Kept (storage : Storage) (R : Nat) (m : Memory) : Prop :=
  ∃ l : Log, l.Stored storage m ∧ l.Behind R ∧ l.count < 2 ^ 22

theorem kept_of_count {R : Nat} {l : Log} {m : Memory} (hl : l.Stored storage m) (hc : l.count = R)
    (hR : R < 2 ^ 22) : Kept storage R m :=
  ⟨l, hl, Or.inl hc, hc ▸ hR⟩

namespace SeqCounter

section Driver

variable {I : Memory → Prop} {slot : Slot} {m : Memory}

theorem read_safe {Q : Except Stop Word → Memory → Prop} (hI : I m)
    (hok : Q (.ok (m (slot.addr storage))) m) (herr : ∀ e, Q (.error (.flash e)) m) :
    Safe flashStep I (read storage slot).run Q m := by
  refine ⟨hI, fun a t hd => ?_⟩
  cases a with
  | ok w => obtain ⟨rfl, rfl⟩ := hd; exact ⟨hI, hok⟩
  | error e => obtain rfl : t = m := hd; exact ⟨hI, herr e⟩

theorem write_safe {Q : Except Stop Unit → Memory → Prop} {w : Word} (hI : I m)
    (hI' : I (m.program (slot.addr storage) w))
    (hok : Q (.ok ()) (m.program (slot.addr storage) w))
    (herr : ∀ e t, I t → Q (.error (.flash e)) t) :
    Safe flashStep I (write storage slot w).run Q m := by
  refine ⟨hI, fun a t hd => ?_⟩
  cases a with
  | ok w => obtain rfl : t = _ := hd; exact ⟨hI', hok⟩
  | error e => rcases hd with rfl | rfl <;> exact ⟨‹I _›, herr e _ ‹_›⟩

theorem erase_safe {Q : Except Stop Unit → Memory → Prop} {page : Page} (hI : I m)
    (hI' : I (m.erase (page.byteRange storage).1 (page.byteRange storage).2))
    (hok : Q (.ok ()) (m.erase (page.byteRange storage).1 (page.byteRange storage).2))
    (herr : ∀ e t, I t → Q (.error (.flash e)) t) :
    Safe flashStep I (erase storage page).run Q m := by
  refine ⟨hI, fun a t hd => ?_⟩
  cases a with
  | ok w => obtain rfl : t = _ := hd; exact ⟨hI', hok⟩
  | error e => rcases hd with rfl | rfl <;> exact ⟨‹I _›, herr e _ ‹_›⟩

end Driver

theorem assertEq_safe {α : Type} [DecidableEq α] {I : Memory → Prop} {m : Memory} {a b : α}
    {Q : Except Stop Unit → Memory → Prop} (hI : I m) (hok : a = b → Q (.ok ()) m)
    (herr : a ≠ b → Q (.error .panic) m) : Safe flashStep I (assertEq a b).run Q m := by
  unfold assertEq
  by_cases h : a = b
  · rw [if_pos h]
    exact ⟨hI, hok h⟩
  · rw [if_neg h]
    exact ⟨hI, herr h⟩

/-! ### The boot scan -/

/-- A read-only function that returns `a` unless the driver or an assertion
fails. -/
def Reads {α : Type} (m : Memory) (a : α) (r : Except Stop α) (m' : Memory) : Prop :=
  m' = m ∧ ∀ b, r = .ok b → b = a

theorem scanSlots_safe (m : Memory) (slots : List Slot) (best : Word × Slot) :
    Safe flashStep (· = m) (scanSlots storage slots best).run
      (Reads m (scan (fun s => m (s.addr storage)) slots best)) m := by
  induction slots generalizing best with
  | nil => exact ⟨rfl, rfl, fun b hb => by cases hb; rfl⟩
  | cons slot slots ih =>
    apply Safe.bindExcept
    apply read_safe (I := (· = m)) rfl
    · by_cases hv : isValidRecord (m (slot.addr storage)) = true
      · simp only [hv, Bool.not_true, Bool.false_eq_true, if_false]
        rw [scan_cons_valid hv, pick]
        by_cases hb : best.1 < m (slot.addr storage)
        · simp only [hb, if_true]
          exact ih _
        · simp only [hb, if_false]
          exact ih _
      · simp only [hv, Bool.not_false, if_true]
        rw [scan_cons_invalid (by simpa using hv)]
        exact ⟨rfl, rfl, fun b hb => by cases hb; rfl⟩
    · exact fun e => ⟨rfl, rfl, fun b hb => by cases hb⟩

theorem scanPages_safe (m : Memory) (pages : List Page) (best : Word × Slot) :
    Safe flashStep (· = m) (scanPages storage pages best).run
      (Reads m (pages.foldl (fun best page => scan (fun s => m (s.addr storage)) page.slots best)
        best)) m := by
  induction pages generalizing best with
  | nil => exact ⟨rfl, rfl, fun b hb => by cases hb; rfl⟩
  | cons page pages ih =>
    rw [scanPages]
    apply Safe.bindExcept
    apply (scanSlots_safe m page.slots best).mono (fun _ h => h)
    rintro r t ⟨rfl, hr⟩
    cases r with
    | ok b =>
      rw [List.foldl_cons, ← hr b rfl]
      exact ih b
    | error e => exact ⟨rfl, rfl, fun b hb => by cases hb⟩

/-- The counter that goes on after `R` reserved ceilings. -/
structure After (R : Nat) (c : SeqCounter) : Prop where
  reservedUntil_eq : c.reservedUntil = ceiling R
  nextSlot_eq : c.nextSlot = .ofCount R
  nextSeq_le : c.nextSeq.toNat ≤ R * 1024
  lt : R < 2 ^ 22

/-- A boot goes on after every ceiling in the log, with the next block to
reserve. -/
theorem load_safe {l : Log} {m : Memory} (hl : l.Stored storage m) (hc : l.count < 2 ^ 22) :
    Safe flashStep (· = m) (load storage).run
      (Reads m ⟨ceiling l.count, ceiling l.count, .ofCount l.count⟩) m := by
  have hword : (fun s : Slot => m (s.addr storage)) = l.word := funext hl
  rw [load]
  apply Safe.bindExcept
  apply assertEq_safe (I := (· = m)) rfl
  · intro _
    apply Safe.bindExcept
    apply (scanPages_safe m Page.all (0, Page.A.start)).mono (fun _ h => h)
    rintro r t ⟨rfl, hr⟩
    cases r with
    | ok best =>
      refine ⟨rfl, rfl, fun b hb => ?_⟩
      have hbest := hr best rfl
      simp only [Page.all, List.foldl_cons, List.foldl_nil, hword, Log.scan_pages hc] at hbest
      cases hb
      by_cases h0 : 0 < l.count
      · have hne : ceiling l.count ≠ 0 := fun h => absurd ((ceiling_eq_zero hc).mp h) (by omega)
        simp only [hbest, h0, if_true, hne, if_false, Slot.ofCount_next,
          Nat.sub_add_cancel (Nat.one_le_of_lt h0)]
      · have hz : l.count = 0 := by omega
        simp only [hbest, hz, Nat.lt_irrefl, if_false, if_true]
        rfl
    | error e => exact ⟨rfl, rfl, fun b hb => by cases hb⟩
  · exact fun _ => ⟨rfl, rfl, fun b hb => by cases hb⟩

theorem after_load {l : Log} (hc : l.count < 2 ^ 22) :
    After l.count ⟨ceiling l.count, ceiling l.count, .ofCount l.count⟩ :=
  ⟨rfl, rfl, (ceiling_toNat hc).le, hc⟩

/-! ### Reserving and issuing -/

section Advance

variable {R : Nat} {c : SeqCounter}

/-- What a reservation leaves behind: one more ceiling, or an error that lost
none. It never ends in a failed assertion. -/
def Advanced (storage : Storage) (R : Nat) (c : SeqCounter) :
    Except Stop SeqCounter → Memory → Prop
  | .ok c', m => c' = ⟨c.nextSeq, ceiling (R + 1), .ofCount (R + 1)⟩ ∧
      Kept storage (R + 1) m
  | .error .panic, _ => False
  | .error (.flash _), _ => True

/-- Programming the next ceiling into a log adds it, or finds it there. -/
theorem program_ceiling {l : Log} {m : Memory} (hl : l.Stored storage m) (hb : l.Behind R)
    (hr : l.count = R → l.Ready) : ∃ l' : Log, l'.count = R + 1 ∧ l'.Behind R ∧
      l'.Stored storage (m.program ((Slot.ofCount R).addr storage) (ceiling (R + 1))) := by
  rcases hb with hcount | ⟨hcount, hst⟩
  · refine ⟨l.reserve, by rw [Log.reserve_count, hcount], Log.reserve_behind hcount, ?_⟩
    simpa only [hcount] using hl.reserve (hr hcount)
  · exact ⟨l, hcount, Or.inr ⟨hcount, hst⟩, by rwa [hl.rewrite hcount]⟩

/-- The write and the read-back, where the write leaves a log with the next
ceiling. -/
theorem writeCeiling_safe {I : Memory → Prop} {m : Memory} (hbefore : I m)
    (hI : ∀ t, Kept storage R t → I t) (hwritten : ∃ l : Log, l.count = R + 1 ∧ l.Behind R ∧
      l.Stored storage (m.program ((Slot.ofCount R).addr storage) (ceiling (R + 1))))
    (hc : c.reservedUntil = ceiling R) (hs : c.nextSlot = .ofCount R) (hR : R + 1 < 2 ^ 22) :
    Safe flashStep I
      (do
        write storage c.nextSlot (c.reservedUntil + reservationBlock)
        let val ← read storage c.nextSlot
        assertEq (c.reservedUntil + reservationBlock) val
        return { c with reservedUntil := c.reservedUntil + reservationBlock,
                        nextSlot := c.nextSlot.next } : FlashM SeqCounter).run
      (Advanced storage R c) m := by
  rw [hc, hs, ceiling_succ]
  obtain ⟨l, hcount, hb, hl⟩ := hwritten
  have hafter : I (m.program ((Slot.ofCount R).addr storage) (ceiling (R + 1))) :=
    hI _ ⟨l, hl, hb, hcount ▸ hR⟩
  apply Safe.bindExcept
  apply write_safe hbefore hafter
  · apply Safe.bindExcept
    apply read_safe hafter
    · have hval := hl (.ofCount R)
      rw [Log.word_last hcount] at hval
      rw [hval]
      apply Safe.bindExcept
      apply assertEq_safe hafter
      · intro _
        refine ⟨hafter, ?_, kept_of_count hl hcount hR⟩
        rw [Slot.ofCount_next]
      · exact fun h => absurd rfl h
    · exact fun e => ⟨hafter, trivial⟩
  · exact fun e t ht => ⟨ht, trivial⟩

theorem advanceReservation_safe {m : Memory} (h : Kept storage R m)
    (hc : c.reservedUntil = ceiling R) (hs : c.nextSlot = .ofCount R) (hR : R + 1 < 2 ^ 22) :
    Safe flashStep (Kept storage R) (advanceReservation storage c).run (Advanced storage R c) m := by
  have hkept := h
  obtain ⟨l, hl, hb, hlt⟩ := h
  rw [advanceReservation, hs, Slot.ofCount_pageStarted]
  by_cases hstart : R % 1024 = 0
  · obtain ⟨hcount, hready⟩ := hb.erasePage hstart
    have hl' := hl.erasePage (.after (R / 1024))
    have herased := kept_of_count hl' hcount (by omega)
    simp only [hstart, if_true]
    apply Safe.bindExcept
    apply erase_safe hkept herased
    · rw [← hs]
      exact writeCeiling_safe herased (fun _ h => h)
        (program_ceiling hl' (Or.inl hcount) fun _ => hready) hc hs hR
    · exact fun e t ht => ⟨ht, trivial⟩
  · simp only [hstart, if_false]
    rw [← hs]
    refine writeCeiling_safe hkept (fun _ h => h) (program_ceiling hl hb fun hcount => ?_) hc hs hR
    exact Log.ready_of_not_start (by rwa [hcount])

end Advance

/-- The next seq fits under the reserved ceiling, or one more ceiling fits
below `2 ^ 32`. -/
def Room (c : SeqCounter) : Prop :=
  c.nextSeq < c.reservedUntil ∨ c.reservedUntil.toNat + reservationBlock.toNat < 2 ^ 32

/-- What a call leaves behind: the next seq under a ceiling that is kept, or
an error that lost none. -/
def Issued (storage : Storage) (R : Nat) (c : SeqCounter) :
    Except Stop (Word × SeqCounter) → Memory → Prop
  | .ok (seq, c'), m => seq = c.nextSeq ∧ ∃ R', R ≤ R' ∧ seq.toNat < R' * 1024 ∧
      c'.nextSeq.toNat = seq.toNat + 1 ∧ After R' c' ∧ Kept storage R' m
  | .error .panic, _ => False
  | .error (.flash _), _ => True

theorem after_succ {c : SeqCounter} {S : Nat} (hS : c.nextSeq.toNat < S * 1024) (hlt : S < 2 ^ 22) :
    (c.nextSeq + 1).toNat = c.nextSeq.toNat + 1 ∧ After S ⟨c.nextSeq + 1, ceiling S, .ofCount S⟩ := by
  have hnext : (c.nextSeq + 1).toNat = c.nextSeq.toNat + 1 := by
    rw [BitVec.toNat_add_of_lt (by change _ + 1 < _; omega)]
    rfl
  exact ⟨hnext, rfl, rfl, by dsimp only; omega, hlt⟩

theorem After.room {R : Nat} {c : SeqCounter} (ha : After R c) (hroom : c.Room)
    (hout : c.reservedUntil ≤ c.nextSeq) : c.nextSeq = ceiling R ∧ R + 1 < 2 ^ 22 := by
  have hle := ha.nextSeq_le
  have hun : c.reservedUntil.toNat = R * 1024 := by rw [ha.reservedUntil_eq, ceiling_toNat ha.lt]
  have hres : reservationBlock.toNat = 1024 := rfl
  have hh := BitVec.le_def.mp hout
  refine ⟨?_, ?_⟩
  · apply BitVec.eq_of_toNat_eq
    rw [ceiling_toNat ha.lt]
    omega
  · rcases hroom with hlt | hlt
    · exact absurd (BitVec.lt_def.mp hlt) (by omega)
    · omega

/-- A call that reserves. -/
theorem next_reserving_safe {I : Memory → Prop} {R : Nat} {c : SeqCounter} {m : Memory}
    (h : Safe flashStep I (advanceReservation storage c).run (Advanced storage R c) m)
    (ha : After R c) (hroom : c.Room) (hout : c.reservedUntil ≤ c.nextSeq) :
    Safe flashStep I (next storage c).run (Issued storage R c) m := by
  obtain ⟨hseq, hR⟩ := ha.room hroom hout
  have hseq' : c.nextSeq.toNat = R * 1024 := by rw [hseq, ceiling_toNat ha.lt]
  rw [next]
  simp only [hout, if_true]
  apply Safe.bindExcept
  apply h.result.mono (fun _ h => h)
  rintro (e | c') t ⟨hk, hadv⟩
  · refine ⟨hk, ?_⟩
    cases e <;> exact hadv
  · obtain ⟨rfl, hk'⟩ := hadv
    obtain ⟨hnext, hafter⟩ := after_succ (c := c) (S := R + 1) (by omega) hR
    exact ⟨hk, rfl, R + 1, by omega, by dsimp only; omega, hnext, hafter, hk'⟩

theorem next_safe {R : Nat} {c : SeqCounter} {m : Memory} (h : Kept storage R m) (ha : After R c)
    (hroom : c.Room) :
    Safe flashStep (Kept storage R) (next storage c).run (Issued storage R c) m := by
  by_cases hout : c.reservedUntil ≤ c.nextSeq
  · exact next_reserving_safe (advanceReservation_safe h ha.reservedUntil_eq ha.nextSlot_eq
      (ha.room hroom hout).2) ha hroom hout
  · have hlt : c.nextSeq.toNat < R * 1024 := by
      rw [← ceiling_toNat ha.lt, ← ha.reservedUntil_eq]
      exact BitVec.lt_def.mp (BitVec.not_le.mp hout)
    obtain ⟨hnext, hafter⟩ := after_succ hlt ha.lt
    rw [← ha.reservedUntil_eq, ← ha.nextSlot_eq] at hafter
    rw [next]
    simp only [hout, if_false]
    exact ⟨h, rfl, R, Nat.le_refl R, hlt, hnext, hafter, h⟩

end SeqCounter

end Homescope
