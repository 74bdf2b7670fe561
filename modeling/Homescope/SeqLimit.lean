import Homescope.SeqRuns

/-! The counter at its last block. `reserved_until + RESERVATION_BLOCK` wraps to
the word `0`, which reads back as written and which no boot scan accepts, so a
boot after it starts the last block again. -/

namespace Homescope

open Commands

namespace SeqCounter

variable {storage : Storage}

/-- What a function of the counter does when the driver never fails. -/
def eval {α : Type} (x : FlashM α) (m : Memory) : Except Stop α × Memory := x.run.run flashRun m

theorem eval_bind {α β : Type} {x : FlashM α} {f : α → FlashM β} {m m' : Memory} {a : α}
    (h : eval x m = (.ok a, m')) : eval (x >>= f) m = eval (f a) m' := by
  have hx : x.run.run flashRun m = (.ok a, m') := h
  have hb : (x >>= f).run = x.run >>= ExceptT.bindCont f := rfl
  rw [eval, hb, Prog.run_bind, hx]
  rfl

theorem eval_read (slot : Slot) (m : Memory) :
    eval (read storage slot) m = (.ok (m (slot.addr storage)), m) := rfl

theorem eval_write (slot : Slot) (w : Word) (m : Memory) :
    eval (write storage slot w) m = (.ok (), m.program (slot.addr storage) w) := rfl

theorem eval_erase (page : Page) (m : Memory) : eval (erase storage page) m =
    (.ok (), m.erase (page.byteRange storage).1 (page.byteRange storage).2) := rfl

theorem eval_assertEq {α : Type} [DecidableEq α] (a : α) (m : Memory) :
    eval (assertEq a a) m = (.ok (), m) := by
  rw [assertEq, if_pos rfl]
  rfl

theorem eval_scanSlots (m : Memory) (slots : List Slot) (best : Word × Slot) :
    eval (scanSlots storage slots best) m =
      (.ok (scan (fun s => m (s.addr storage)) slots best), m) := by
  induction slots generalizing best with
  | nil => rfl
  | cons slot slots ih =>
    rw [scanSlots, eval_bind (eval_read slot m)]
    by_cases hv : isValidRecord (m (slot.addr storage)) = true
    · rw [scan_cons_valid hv, pick]
      simp only [hv, Bool.not_true, Bool.false_eq_true, if_false]
      by_cases hb : best.1 < m (slot.addr storage)
      · rw [if_pos hb, if_pos hb, ih]
      · rw [if_neg hb, if_neg hb, ih]
    · have hv' : isValidRecord (m (slot.addr storage)) = false := by simpa using hv
      rw [scan_cons_invalid hv', hv']
      rfl

/-- A boot over a region whose valid records are those of a log. -/
theorem eval_load {l : Log} {m : Memory} (hsize : storage.stop - storage.start = totalSlots * 4)
    (hscan : ∀ page best, scan (fun s => m (s.addr storage)) page best = scan l.word page best)
    (hl : l.count < 2 ^ 22) :
    eval (load storage) m = (.ok ⟨ceiling l.count, ceiling l.count, .ofCount l.count⟩, m) := by
  have hassert : eval (assertEq (storage.stop - storage.start) (totalSlots * 4)) m = (.ok (), m) := by
    rw [hsize]
    exact eval_assertEq _ m
  have hpages : eval (scanPages storage Page.all (0, Page.A.start)) m =
      (.ok (if 0 < l.count then (ceiling l.count, .ofCount (l.count - 1)) else (0, Page.A.start)),
        m) := by
    rw [Page.all, scanPages, eval_bind (eval_scanSlots m _ _), scanPages,
      eval_bind (eval_scanSlots m _ _), scanPages, hscan, hscan, Log.scan_pages hl]
    rfl
  rw [load, eval_bind hassert, eval_bind hpages]
  by_cases h0 : 0 < l.count
  · have hne : ceiling l.count ≠ 0 := fun h => absurd ((ceiling_eq_zero hl).mp h) (by omega)
    simp only [h0, if_true, hne, if_false, Slot.ofCount_next, Nat.sub_add_cancel (Nat.one_le_of_lt h0)]
    rfl
  · have hz : l.count = 0 := by omega
    simp only [hz, Nat.lt_irrefl, if_false, if_true]
    rfl

/-- The region once the page that a slot starts is erased. -/
def startPage (storage : Storage) (slot : Slot) (m : Memory) : Memory :=
  match slot.pageStarted with
  | some page => m.erase (page.byteRange storage).1 (page.byteRange storage).2
  | none => m

theorem eval_advanceReservation {c : SeqCounter} {m : Memory}
    (hw : (startPage storage c.nextSlot m (c.nextSlot.addr storage) &&&
      (c.reservedUntil + reservationBlock)) = c.reservedUntil + reservationBlock) :
    eval (advanceReservation storage c) m =
      (.ok ⟨c.nextSeq, c.reservedUntil + reservationBlock, c.nextSlot.next⟩,
        (startPage storage c.nextSlot m).program (c.nextSlot.addr storage)
          (c.reservedUntil + reservationBlock)) := by
  rw [advanceReservation]
  simp only [startPage] at hw ⊢
  cases hp : c.nextSlot.pageStarted with
  | none =>
    simp only [hp] at hw ⊢
    rw [eval_bind (eval_write _ _ _), eval_bind (eval_read _ _), Memory.program_same, hw, eval_bind (eval_assertEq _ _)]
    rfl
  | some page =>
    simp only [hp] at hw ⊢
    rw [eval_bind (eval_erase _ _), eval_bind (eval_write _ _ _), eval_bind (eval_read _ _),
      Memory.program_same, hw, eval_bind (eval_assertEq _ _)]
    rfl

theorem eval_next {c : SeqCounter} {m : Memory} (hout : c.reservedUntil ≤ c.nextSeq)
    (hw : (startPage storage c.nextSlot m (c.nextSlot.addr storage) &&&
      (c.reservedUntil + reservationBlock)) = c.reservedUntil + reservationBlock) :
    eval (next storage c) m =
      (.ok (c.nextSeq, ⟨c.nextSeq + 1, c.reservedUntil + reservationBlock, c.nextSlot.next⟩),
        (startPage storage c.nextSlot m).program (c.nextSlot.addr storage)
          (c.reservedUntil + reservationBlock)) := by
  rw [next]
  simp only [hout, if_true]
  rw [eval_bind (eval_advanceReservation hw)]
  rfl

/-- Starting the page of the next ceiling loses none. -/
theorem startPage_stored {l : Log} {m : Memory} (hl : l.Stored storage m) :
    ∃ l' : Log, l'.Stored storage (startPage storage (.ofCount l.count) m) ∧ l'.count = l.count ∧
      l'.Ready := by
  rw [startPage, Slot.ofCount_pageStarted]
  by_cases hstart : l.count % 1024 = 0
  · have hb : l.Behind l.count := Or.inl rfl
    obtain ⟨hcount, hready⟩ := hb.erasePage hstart
    rw [if_pos hstart]
    exact ⟨_, hl.erasePage _, hcount, hready⟩
  · rw [if_neg hstart]
    exact ⟨l, hl, rfl, Log.ready_of_not_start hstart⟩

/-- A call that reserves, from a region that holds a log. -/
theorem eval_next_stored {l : Log} {m : Memory} (hl : l.Stored storage m) {c : SeqCounter}
    (hout : c.reservedUntil ≤ c.nextSeq) (hc : c.reservedUntil = ceiling l.count)
    (hs : c.nextSlot = .ofCount l.count) :
    ∃ (l' : Log) (m' : Memory), l'.Stored storage m' ∧ l'.count = l.count ∧ l'.Ready ∧
      eval (next storage c) m =
        (.ok (c.nextSeq, ⟨c.nextSeq + 1, ceiling (l.count + 1), .ofCount (l.count + 1)⟩),
          m'.program ((Slot.ofCount l.count).addr storage) (ceiling (l.count + 1))) := by
  obtain ⟨l', hl', hcount, hready⟩ := startPage_stored hl
  have hempty : startPage storage (.ofCount l.count) m ((Slot.ofCount l.count).addr storage) =
      erased := by
    rw [hl', ← hcount, Log.word_next hready]
  have hkept : (startPage storage c.nextSlot m (c.nextSlot.addr storage) &&&
      (c.reservedUntil + reservationBlock)) = c.reservedUntil + reservationBlock := by
    rw [hs, hempty, erased, BitVec.allOnes_and]
  refine ⟨l', _, hl', hcount, hready, ?_⟩
  rw [eval_next hout hkept, hs, hc, ceiling_succ, Slot.ofCount_next]

end SeqCounter

/-! ### Runs at the last block -/

/-- A word that no scan accepts, where there was another such word, leaves what the scan finds. -/
theorem scan_congr {word word' : Slot → Word} {slot : Slot}
    (hother : ∀ s, s ≠ slot → word' s = word s) (hold : isValidRecord (word slot) = false)
    (hnew : isValidRecord (word' slot) = false) (slots : List Slot) (best : Word × Slot) :
    scan word' slots best = scan word slots best := by
  induction slots generalizing best with
  | nil => rfl
  | cons s slots ih =>
    by_cases hs : s = slot
    · rw [hs, scan_cons_invalid hold, scan_cons_invalid hnew]
    · have hw := hother s hs
      by_cases hv : isValidRecord (word s) = true
      · rw [scan_cons_valid hv, scan_cons_valid (hw ▸ hv), pick, pick, hw, ih]
      · have hv' : isValidRecord (word s) = false := by simpa using hv
        rw [scan_cons_invalid hv', scan_cons_invalid (hw ▸ hv')]

section Runs

variable {storage : Storage} {m m' : Memory} {w : List Word} {c c' : SeqCounter} {seq : Word}

theorem SensorRun.steps {s t : Sensor} (h : SensorRun storage s t) :
    Relation.ReflTransGen (SensorStep storage) s t :=
  h.lift id fun _ _ hs => hs.1

theorem SensorStep.boot_eval (h : SeqCounter.eval (SeqCounter.load storage) m = (.ok c, m')) :
    Relation.ReflTransGen (SensorStep storage) ⟨m, .off, w⟩ ⟨m', .ready c, w⟩ := by
  have hload := Prog.run_steps flashRun_step (SeqCounter.load storage).run m
  have hh : (SeqCounter.load storage).run.run flashRun m = (.ok c, m') := h
  rw [hh] at hload
  exact .head .boot ((SensorRun.load hload).steps.tail .loaded)

theorem SensorStep.call_eval (h : SeqCounter.eval (SeqCounter.next storage c) m = (.ok (seq, c'), m')) :
    Relation.ReflTransGen (SensorStep storage) ⟨m, .ready c, w⟩ ⟨m', .ready c', seq :: w⟩ := by
  have hnext := Prog.run_steps flashRun_step (SeqCounter.next storage c).run m
  have hh : (SeqCounter.next storage c).run.run flashRun m = (.ok (seq, c'), m') := h
  rw [hh] at hnext
  exact .head .call ((SensorRun.next hnext).steps.tail .issue)

end Runs

/-- A call at the last block leaves a region whose scan finds that block again. -/
theorem issue_twice {storage : Storage} {l : Log} {m : Memory} {w : List Word} {c : SeqCounter}
    (hsize : storage.stop - storage.start = totalSlots * 4) (hl : l.Stored storage m)
    (hlast : l.count + 1 = 2 ^ 22)
    (hc : c = ⟨ceiling l.count, ceiling l.count, .ofCount l.count⟩) :
    ∃ t, Relation.ReflTransGen (SensorStep storage) ⟨m, .ready c, w⟩ t ∧ ¬t.issued.Nodup := by
  subst hc
  obtain ⟨l', m', hl', hcount, hready, hcall⟩ :=
    SeqCounter.eval_next_stored hl (c := ⟨ceiling l.count, ceiling l.count, .ofCount l.count⟩)
      (BitVec.le_refl _) rfl rfl
  have hzero : ceiling (l.count + 1) = 0 := by rw [hlast]; decide
  have hempty : m' ((Slot.ofCount l.count).addr storage) = erased := by
    rw [hl', ← hcount, Log.word_next hready]
  have hnew : m'.program ((Slot.ofCount l.count).addr storage) (ceiling (l.count + 1))
      ((Slot.ofCount l.count).addr storage) = 0 := by
    rw [Memory.program_erased _ _ hempty, hzero]
  have hscan : ∀ slots best, scan (fun s => m'.program ((Slot.ofCount l.count).addr storage)
      (ceiling (l.count + 1)) (s.addr storage)) slots best = scan l'.word slots best := by
    have hother : ∀ s, s ≠ Slot.ofCount l.count → m'.program ((Slot.ofCount l.count).addr storage)
        (ceiling (l.count + 1)) (s.addr storage) = l'.word s := fun s hs => by
      rw [Memory.program_other _ _ (fun hh => hs (Slot.addr_inj.mp hh)), hl' s]
    refine scan_congr hother ?_ ?_
    · rw [← hl', hempty]
      exact isValidRecord_erased
    · rw [hnew]
      rfl
  have hboot := SeqCounter.eval_load hsize hscan (by omega)
  rw [hcount] at hboot
  -- the last block lies at the end of a page, so no erase comes between
  have hstart : SeqCounter.startPage storage (.ofCount l.count) = id := by
    funext m
    rw [SeqCounter.startPage, Slot.ofCount_pageStarted, if_neg (by omega)]
    rfl
  have hkept : (SeqCounter.startPage storage (.ofCount l.count)
      (m'.program ((Slot.ofCount l.count).addr storage) (ceiling (l.count + 1)))
        ((Slot.ofCount l.count).addr storage) &&& (ceiling l.count + reservationBlock)) =
      ceiling l.count + reservationBlock := by
    rw [hstart, id, hnew, ceiling_succ, hzero, BitVec.and_self]
  have hagain := SeqCounter.eval_next
    (c := ⟨ceiling l.count, ceiling l.count, .ofCount l.count⟩) (BitVec.le_refl _) hkept
  refine ⟨_, (SensorStep.call_eval hcall).trans (.head .powerCut
    ((SensorStep.boot_eval hboot).trans (SensorStep.call_eval hagain))), ?_⟩
  simp

theorem Sensor.Inv.initial {storage : Storage} {m : Memory}
    (hm : ∀ slot : Slot, m (slot.addr storage) = erased) : Sensor.Inv storage ⟨m, .off, []⟩ :=
  ⟨⟨.fresh, Log.stored_fresh hm, by decide, fun _ h => by cases h⟩, List.Pairwise.nil⟩

/-- As long as every call finds room below `2 ^ 32` no seq is issued twice, and
a call that finds none leads to one that is. -/
theorem issued_nodup {storage : Storage} {m : Memory} {t : Sensor}
    (hm : ∀ slot : Slot, m (slot.addr storage) = erased)
    (hrun : SensorRun storage ⟨m, .off, []⟩ t) :
    t.issued.Nodup ∧ ∀ c, t.mode = .ready c → storage.stop - storage.start = totalSlots * 4 →
      ¬c.Room → ∃ u, Relation.ReflTransGen (SensorStep storage) t u ∧ ¬u.issued.Nodup := by
  have hinv := invariant_run hrun (fun _ _ h => Sensor.inv_step h.1 h.2) (Sensor.Inv.initial hm)
  refine ⟨hinv.2.imp fun h => (BitVec.ne_of_lt h).symm, fun c hc hsize hroom => ?_⟩
  obtain ⟨flash, mode, issued⟩ := t
  obtain rfl : mode = .ready c := hc
  obtain ⟨⟨R, hafter, ⟨l, hl, hb, hlt⟩, -⟩, -⟩ := hinv
  obtain ⟨hout, hfull⟩ := not_or.mp hroom
  have hR := hafter.lt
  have hle := hafter.nextSeq_le
  have hun : c.reservedUntil.toNat = R * 1024 := by rw [hafter.reservedUntil_eq, ceiling_toNat hR]
  have hres : reservationBlock.toNat = 1024 := rfl
  rw [BitVec.lt_def] at hout
  have hcount : l.count = R := by rcases hb with h | ⟨h, -⟩ <;> omega
  have hnext : c.nextSeq = ceiling R := by
    apply BitVec.eq_of_toNat_eq
    rw [ceiling_toNat hR]
    omega
  refine issue_twice hsize hl (by omega) ?_
  obtain ⟨nextSeq, reservedUntil, nextSlot⟩ := c
  simp only [hcount, SeqCounter.mk.injEq]
  exact ⟨hnext, hafter.reservedUntil_eq, hafter.nextSlot_eq⟩

theorem issued_nodup_twoBoots : ∃ t, SensorRun ⟨0, 8192⟩ ⟨fun _ => erased, .off, []⟩ t ∧
    t.issued = [1024, 0] ∧ t.issued.Nodup ∧ ∀ c, t.mode = .ready c → ¬c.Room →
      ∃ u, Relation.ReflTransGen (SensorStep ⟨0, 8192⟩) t u ∧ ¬u.issued.Nodup := by
  obtain ⟨t, hrun, hissued⟩ := SensorRun.twoBoots
  obtain ⟨hnodup, hlimit⟩ := issued_nodup (fun _ => rfl) hrun
  exact ⟨t, hrun, hissued, hnodup, fun c hc hroom => hlimit c hc rfl hroom⟩

/-- A boot, one call and a power cut for every ceiling. -/
theorem exists_run_count {storage : Storage} {m : Memory}
    (hsize : storage.stop - storage.start = totalSlots * 4)
    (hm : ∀ slot : Slot, m (slot.addr storage) = erased) {k : Nat} (hk : k < 2 ^ 22) :
    ∃ (l : Log) (m' : Memory) (w : List Word), l.Stored storage m' ∧ l.count = k ∧
      Relation.ReflTransGen (SensorStep storage) ⟨m, .off, []⟩ ⟨m', .off, w⟩ := by
  induction k with
  | zero => exact ⟨.fresh, m, [], Log.stored_fresh hm, rfl, .refl⟩
  | succ k ih =>
    obtain ⟨l, m', w, hl, hcount, hrun⟩ := ih (by omega)
    have hboot := SeqCounter.eval_load hsize (m := m') (l := l)
      (fun slots best => by rw [show (fun s : Slot => m' (s.addr storage)) = l.word from funext hl])
      (by omega)
    obtain ⟨l', m'', hl', hcount', hready, hcall⟩ :=
      SeqCounter.eval_next_stored hl (c := ⟨ceiling l.count, ceiling l.count, .ofCount l.count⟩)
        (BitVec.le_refl _) rfl rfl
    rw [← hcount'] at hcall hboot
    refine ⟨l'.reserve, _, ceiling l'.count :: w, hl'.reserve hready, by rw [Log.reserve_count, hcount', hcount], ?_⟩
    exact hrun.trans ((SensorStep.boot_eval hboot).trans
      ((SensorStep.call_eval hcall).tail .powerCut))

/-- The last block is issued again after a power cut. -/
theorem not_issued_nodup :
    ¬∀ t, Relation.ReflTransGen (SensorStep ⟨0, 8192⟩) ⟨fun _ => erased, .off, []⟩ t →
      t.issued.Nodup := by
  intro hall
  have hsize : (⟨0, 8192⟩ : Storage).stop - (⟨0, 8192⟩ : Storage).start = totalSlots * 4 := by decide
  obtain ⟨l, m, w, hl, hcount, hrun⟩ := exists_run_count (m := fun _ => erased)
    (k := 2 ^ 22 - 1) hsize (fun _ => rfl) (by decide)
  have hboot := SeqCounter.eval_load hsize (m := m) (l := l)
    (fun slots best => by
      rw [show (fun s : Slot => m (s.addr ⟨0, 8192⟩)) = l.word from funext hl])
    (by omega)
  obtain ⟨t, ht, hdup⟩ := issue_twice (w := w) hsize hl (by omega) rfl
  exact hdup (hall t (hrun.trans ((SensorStep.boot_eval hboot).trans ht)))

end Homescope
