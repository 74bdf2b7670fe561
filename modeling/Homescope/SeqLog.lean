import Homescope.SeqCounter

/-! What the counter's storage region holds: the ceilings reserved so far, laid
out in order around the two pages. The log is the abstract state; the region's
words are computed from it. -/

namespace Homescope

/-- The `k`-th ceiling ever reserved. It stays below `2 ^ 32` as long as `k`
stays below `2 ^ 22`. -/
def ceiling (k : Nat) : Word := BitVec.ofNat 32 (k * 1024)

theorem ceiling_toNat {k : Nat} (h : k < 2 ^ 22) : (ceiling k).toNat = k * 1024 := by
  rw [ceiling, BitVec.toNat_ofNat]
  omega

theorem ceiling_succ (k : Nat) : ceiling k + reservationBlock = ceiling (k + 1) := by
  apply BitVec.eq_of_toNat_eq
  rw [BitVec.toNat_add, ceiling, ceiling, BitVec.toNat_ofNat, BitVec.toNat_ofNat]
  change (k * 1024 % 4294967296 + 1024) % 4294967296 = (k + 1) * 1024 % 4294967296
  omega

theorem ceiling_lt_ceiling {j k : Nat} (h : j < k) (hk : k < 2 ^ 22) : ceiling j < ceiling k := by
  have hj : j < 2 ^ 22 := by omega
  rw [BitVec.lt_def, ceiling_toNat hk, ceiling_toNat hj]
  omega

theorem ceiling_eq_zero {k : Nat} (hk : k < 2 ^ 22) : ceiling k = 0 ↔ k = 0 := by
  rw [← BitVec.toNat_inj, ceiling_toNat hk]
  change k * 1024 = 0 ↔ k = 0
  omega

theorem isValidRecord_ceiling {k : Nat} (h : 0 < k) (hk : k < 2 ^ 22) :
    isValidRecord (ceiling k) = true := by
  have hne : ceiling k ≠ 0 := fun he => absurd ((ceiling_eq_zero hk).mp he) (by omega)
  have hmod : ceiling k % reservationBlock = 0 := by
    apply BitVec.eq_of_toNat_eq
    rw [BitVec.toNat_umod, ceiling_toNat hk]
    change k * 1024 % 1024 = 0
    omega
  rw [isValidRecord, hmod]
  simpa using hne

theorem isValidRecord_erased : isValidRecord erased = false := by decide

/-! ### Slots by page and offset -/

namespace Slot

def offset (s : Slot) : Nat := s % wordsPerPage

theorem offset_lt (s : Slot) : s.offset < 1024 := Nat.mod_lt _ (by decide)

theorem val_eq (s : Slot) : (s : Nat) = s.page.start + s.offset := by
  have hs : (s : Nat) < 2048 := s.isLt
  have hw := wordsPerPage_eq
  by_cases h : (s : Nat) < wordsPerPage
  · rw [page, if_pos h, offset, Page.start_A, hw]; omega
  · rw [page, if_neg h, offset, Page.start_B, hw]; omega

theorem eq_iff (s t : Slot) : s = t ↔ s.page = t.page ∧ s.offset = t.offset := by
  refine ⟨fun h => h ▸ ⟨rfl, rfl⟩, fun h => Fin.ext ?_⟩
  rw [val_eq s, val_eq t, h.1, h.2]

theorem pageStarted_eq (s : Slot) :
    s.pageStarted = if s.offset = 0 then some s.page else none := by
  have h : s.page.start = s ↔ s.offset = 0 := by
    rw [Fin.ext_iff]
    have hh := s.val_eq
    omega
  simp only [pageStarted, h]

end Slot

namespace Page

theorem slot_page (page : Page) (i : Fin wordsPerPage) : (page.slot i).page = page := by
  have hi : (i : Nat) < 1024 := i.isLt
  have hw := wordsPerPage_eq
  cases page
  · exact if_pos (by simp only [slot, start_A]; omega)
  · exact if_neg (by simp only [slot, start_B]; omega)

theorem slot_offset (page : Page) (i : Fin wordsPerPage) : (page.slot i).offset = i := by
  have hi : (i : Nat) < 1024 := i.isLt
  cases page
  · simp only [Slot.offset, slot, start_A, wordsPerPage_eq]; omega
  · simp only [Slot.offset, slot, start_B, wordsPerPage_eq]; omega

/-- The page that holds the records after `k` pages have been filled. -/
def after (k : Nat) : Page := if k % 2 = 0 then .A else .B

theorem after_succ_ne (k : Nat) : after (k + 1) ≠ after k := by
  by_cases h : k % 2 = 0
  · have hs : ¬(k + 1) % 2 = 0 := by omega
    simp [after, h, hs]
  · have hs : (k + 1) % 2 = 0 := by omega
    simp [after, h, hs]

theorem after_add_two (k : Nat) : after (k + 1 + 1) = after k := by
  simp only [after, Nat.add_assoc, Nat.add_mod_right]

theorem eq_after_succ {page : Page} {k : Nat} : page = after (k + 1) ↔ page ≠ after k := by
  have h := after_succ_ne k
  cases page <;> cases h1 : after k <;> cases h2 : after (k + 1) <;> simp_all

end Page

/-- The slot that the ceiling after the `k`-th goes to. -/
def Slot.ofCount (k : Nat) : Slot := ⟨k % totalSlots, Nat.mod_lt _ (by decide)⟩

namespace Slot

theorem ofCount_offset (k : Nat) : (ofCount k).offset = k % 1024 := by
  have ht := totalSlots_eq
  have hw := wordsPerPage_eq
  simp only [offset, ofCount, ht, hw]
  omega

theorem ofCount_page (k : Nat) : (ofCount k).page = .after (k / 1024) := by
  have ht := totalSlots_eq
  have hw := wordsPerPage_eq
  have hk : (ofCount k : Nat) = k % 2048 := rfl
  by_cases h : k / 1024 % 2 = 0
  · rw [page, Page.after, if_pos h, if_pos (by omega)]
  · rw [page, Page.after, if_neg h, if_neg (by omega)]

theorem ofCount_next (k : Nat) : (ofCount k).next = ofCount (k + 1) := by
  apply Fin.ext
  exact Nat.mod_add_mod k totalSlots 1

theorem ofCount_pageStarted (k : Nat) :
    (ofCount k).pageStarted = if k % 1024 = 0 then some (.after (k / 1024)) else none := by
  rw [pageStarted_eq, ofCount_offset, ofCount_page]

end Slot

/-! ### The log -/

/-- `filled` pages have been filled and `used` slots of the next one are
taken. `stale` says whether the last filled page still has its records. -/
structure Log where
  filled : Nat
  used : Nat
  stale : Bool
  used_le : used ≤ 1024
  empty : used = 0 → filled = 0

namespace Log

def count (l : Log) : Nat := l.filled * 1024 + l.used

def fresh : Log := ⟨0, 0, false, by decide, fun _ => rfl⟩

def word (l : Log) (s : Slot) : Word :=
  if s.page = .after l.filled then
    if s.offset < l.used then ceiling (l.filled * 1024 + s.offset + 1) else erased
  else if l.stale = true ∧ 0 < l.filled then
    ceiling ((l.filled - 1) * 1024 + s.offset + 1)
  else
    erased

/-- The page of the next slot is erased. -/
def Ready (l : Log) : Prop := l.used = 1024 → l.stale = false

def reserve (l : Log) : Log :=
  if h : l.used < 1024 then
    ⟨l.filled, l.used + 1, l.stale, h, fun h0 => absurd h0 (by omega)⟩
  else
    ⟨l.filled + 1, 1, true, by decide, fun h0 => absurd h0 (by decide)⟩

/-- The page that does not hold the last ceiling has been erased. -/
def forget (l : Log) : Log := { l with stale := false }

/-- One of the pages has been erased. -/
def erasePage (page : Page) (l : Log) : Log :=
  if page = .after l.filled then
    if l.stale = true ∧ 0 < l.filled then ⟨l.filled - 1, 1024, false, by decide, by simp⟩ else fresh
  else
    l.forget

theorem reserve_count (l : Log) : l.reserve.count = l.count + 1 := by
  have h := l.used_le
  unfold reserve
  split
  · simp only [count]; omega
  · simp only [count]; omega

theorem word_current {l : Log} {s : Slot} (h : s.page = .after l.filled) :
    l.word s = if s.offset < l.used then ceiling (l.filled * 1024 + s.offset + 1) else erased :=
  if_pos h

theorem word_previous {l : Log} {s : Slot} (h : s.page = .after (l.filled + 1)) :
    l.word s = if l.stale = true ∧ 0 < l.filled then
      ceiling ((l.filled - 1) * 1024 + s.offset + 1) else erased :=
  if_neg (Page.eq_after_succ.mp h)

theorem reserve_of_lt {l : Log} (h : l.used < 1024) :
    l.reserve.filled = l.filled ∧ l.reserve.used = l.used + 1 ∧ l.reserve.stale = l.stale := by
  simp [reserve, h]

theorem reserve_of_full {l : Log} (h : l.used = 1024) :
    l.reserve.filled = l.filled + 1 ∧ l.reserve.used = 1 ∧ l.reserve.stale = true := by
  simp [reserve, h]

theorem eq_next_of_lt {l : Log} (h : l.used < 1024) {s : Slot} :
    s = .ofCount l.count ↔ s.page = .after l.filled ∧ s.offset = l.used := by
  have hd : l.count / 1024 = l.filled := by unfold count; omega
  have hm : l.count % 1024 = l.used := by unfold count; omega
  rw [Slot.eq_iff, Slot.ofCount_page, Slot.ofCount_offset, hd, hm]

theorem eq_next_of_full {l : Log} (h : l.used = 1024) {s : Slot} :
    s = .ofCount l.count ↔ s.page = .after (l.filled + 1) ∧ s.offset = 0 := by
  have hd : l.count / 1024 = l.filled + 1 := by unfold count; omega
  have hm : l.count % 1024 = 0 := by unfold count; omega
  rw [Slot.eq_iff, Slot.ofCount_page, Slot.ofCount_offset, hd, hm]

/-- A reservation changes the next slot and no other. -/
theorem word_reserve {l : Log} (h : l.Ready) (s : Slot) :
    l.reserve.word s = if s = .ofCount l.count then ceiling (l.count + 1) else l.word s := by
  have ho := s.offset_lt
  have hu := l.used_le
  by_cases hlt : l.used < 1024
  · obtain ⟨hf', hu', hs'⟩ := reserve_of_lt hlt
    by_cases hp : s.page = .after l.filled
    · rw [word_current (hf'.symm ▸ hp), word_current hp, hf', hu']
      simp only [eq_next_of_lt hlt, hp, true_and]
      split_ifs
      all_goals first | omega | exact congrArg ceiling (by unfold count; omega) | rfl
    · have hp' := Page.eq_after_succ.mpr hp
      rw [word_previous (hf'.symm ▸ hp'), word_previous hp', hf', hs',
        if_neg (fun he => hp ((eq_next_of_lt hlt).mp he).1)]
  · have hfull : l.used = 1024 := by omega
    have hst : l.stale = false := h hfull
    obtain ⟨hf', hu', hs'⟩ := reserve_of_full hfull
    by_cases hp : s.page = .after l.filled
    · have hp' : s.page = .after (l.reserve.filled + 1) := by rw [hf', hp, Page.after_add_two]
      rw [if_neg (fun he => Page.eq_after_succ.mp ((eq_next_of_full hfull).mp he).1 hp),
        word_previous hp', word_current hp, hf', hs', if_pos (by simp), if_pos (by omega)]
      rfl
    · have hp' := Page.eq_after_succ.mpr hp
      rw [word_current (hf'.symm ▸ hp'), word_previous hp', hf', hu', hst]
      simp only [eq_next_of_full hfull, hp', true_and, Bool.false_eq_true, false_and,
        if_false]
      split_ifs
      all_goals first | omega | exact congrArg ceiling (by unfold count; omega) | rfl

theorem word_fresh (s : Slot) : fresh.word s = erased := by
  simp [word, fresh]

/-- Erasing a page changes the slots of that page and no other. -/
theorem word_erasePage (l : Log) (page : Page) (s : Slot) :
    (l.erasePage page).word s = if s.page = page then erased else l.word s := by
  by_cases hpage : page = .after l.filled
  · by_cases hst : l.stale = true ∧ 0 < l.filled
    · obtain ⟨k, hk⟩ : ∃ k, l.filled = k + 1 := ⟨l.filled - 1, by omega⟩
      simp only [erasePage, hpage, hst, and_self, if_true]
      by_cases hp : s.page = .after l.filled
      · rw [if_pos hp, word_previous (by simpa [hk] using hp), if_neg (by simp)]
      · have hp' := Page.eq_after_succ.mpr hp
        have hp'' : s.page = .after k := by rw [hp', hk, Page.after_add_two]
        rw [if_neg hp, word_previous hp', if_pos hst, word_current (by simpa [hk] using hp''),
          if_pos s.offset_lt]
    · simp only [erasePage, hpage, hst, if_true, if_false, word_fresh]
      by_cases hp : s.page = .after l.filled
      · rw [if_pos hp]
      · rw [if_neg hp, word_previous (Page.eq_after_succ.mpr hp), if_neg hst]
  · simp only [erasePage, hpage, if_false]
    by_cases hp : s.page = .after l.filled
    · rw [if_neg (fun h => hpage (h.symm.trans hp)), word_current (l := l.forget) hp, word_current hp]
      rfl
    · have hp' := Page.eq_after_succ.mpr hp
      have hs : s.page = page := hp'.trans (Page.eq_after_succ.mpr hpage).symm
      rw [if_pos hs]
      exact (word_previous (l := l.forget) hp').trans (if_neg (by simp [forget]))

/-! ### The log against the counter -/

/-- The log under a counter that reserved `R` ceilings: they are all there, or
one more is, written by an attempt that then failed. The ceiling before that
one is then still on the other page. -/
def Behind (R : Nat) (l : Log) : Prop :=
  l.count = R ∨ l.count = R + 1 ∧ (l.used = 1 → 0 < l.filled → l.stale = true)

theorem Behind.le {R : Nat} {l : Log} (h : l.Behind R) : R ≤ l.count := by
  rcases h with h | h <;> omega

/-- Erasing the page that the next ceiling starts loses no ceiling that the
counter reserved. -/
theorem Behind.erasePage {R : Nat} {l : Log} (h : l.Behind R) (hR : R % 1024 = 0) :
    (l.erasePage (.after (R / 1024))).count = R ∧ (l.erasePage (.after (R / 1024))).Ready := by
  have hu := l.used_le
  have he := l.empty
  rcases h with h | ⟨h, hst⟩
  · by_cases h0 : l.used = 0
    · have hf := he h0
      have hr : R = 0 := by rw [← h, count, hf, h0]
      subst hr
      simp [Log.erasePage, hf, fresh, count, Ready]
    · have hf : l.used = 1024 ∧ R / 1024 = l.filled + 1 := by unfold count at h; omega
      rw [hf.2, Log.erasePage, if_neg (Page.after_succ_ne l.filled)]
      exact ⟨h, fun _ => rfl⟩
  · unfold count at h
    have hf : l.used = 1 ∧ R / 1024 = l.filled ∧ R = l.filled * 1024 := by omega
    rw [hf.2.1, Log.erasePage, if_pos rfl]
    by_cases h0 : 0 < l.filled
    · rw [if_pos ⟨hst hf.1 h0, h0⟩]
      refine ⟨?_, fun _ => rfl⟩
      rw [hf.2.2, count, Nat.sub_mul, one_mul, Nat.sub_add_cancel (Nat.le_mul_of_pos_left 1024 h0)]
    · rw [if_neg (fun hh => h0 hh.2)]
      refine ⟨?_, fun _ => rfl⟩
      rw [hf.2.2, Nat.eq_zero_of_not_pos h0]
      rfl

/-- A page started by the next ceiling that has a slot taken is not full. -/
theorem ready_of_not_start {l : Log} (h : l.count % 1024 ≠ 0) : l.Ready := by
  intro hu
  exact absurd (by unfold count; omega) h

theorem reserve_behind {R : Nat} {l : Log} (h : l.count = R) :
    l.reserve.Behind R := by
  right
  refine ⟨by rw [reserve_count, h], fun h1 h0 => ?_⟩
  have hu := l.used_le
  have he := l.empty
  by_cases hlt : l.used < 1024
  · obtain ⟨hf', hu', -⟩ := reserve_of_lt hlt
    omega
  · exact (reserve_of_full (by omega)).2.2

theorem word_next {l : Log} (h : l.Ready) : l.word (.ofCount l.count) = erased := by
  have hu := l.used_le
  by_cases hlt : l.used < 1024
  · obtain ⟨hp, ho⟩ := (eq_next_of_lt hlt).mp rfl
    rw [word_current hp, ho, if_neg (by omega)]
  · have hfull : l.used = 1024 := by omega
    obtain ⟨hp, -⟩ := (eq_next_of_full hfull).mp rfl
    rw [word_previous hp, h hfull, if_neg (by simp)]

/-- The last ceiling is in the slot before the next one. -/
theorem word_last {R : Nat} {l : Log} (h : l.count = R + 1) : l.word (.ofCount R) = ceiling (R + 1) := by
  have hu := l.used_le
  have he := l.empty
  unfold count at h
  have hd : R / 1024 = l.filled := by omega
  have hp : (Slot.ofCount R).page = .after l.filled := by rw [Slot.ofCount_page, hd]
  have hR : l.filled * 1024 + R % 1024 + 1 = R + 1 := by rw [← hd, Nat.div_add_mod']
  rw [word_current hp, Slot.ofCount_offset, if_pos (by omega), hR]

end Log

end Homescope
