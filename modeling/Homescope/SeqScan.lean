import Homescope.SeqLog
import Mathlib.Data.List.Induction

/-! The boot scan as a fold over the valid records at the front of each page,
and what it finds in a region that holds a log: the last ceiling and its
slot. -/

namespace Homescope

/-- The better of the best record so far and the one in a slot. -/
def pick (word : Slot → Word) (best : Word × Slot) (slot : Slot) : Word × Slot :=
  if best.1 < word slot then (word slot, slot) else best

/-- What the scan of one page makes of the best record so far. -/
def scan (word : Slot → Word) (slots : List Slot) (best : Word × Slot) : Word × Slot :=
  (slots.takeWhile (fun slot => isValidRecord (word slot))).foldl (pick word) best

theorem scan_cons_invalid {word : Slot → Word} {slot : Slot} (h : isValidRecord (word slot) = false)
    (slots : List Slot) (best : Word × Slot) : scan word (slot :: slots) best = best := by
  simp [scan, h]

theorem scan_cons_valid {word : Slot → Word} {slot : Slot} (h : isValidRecord (word slot) = true)
    (slots : List Slot) (best : Word × Slot) :
    scan word (slot :: slots) best = scan word slots (pick word best slot) := by
  simp [scan, h]

theorem pick_pick {word : Slot → Word} {prev slot : Slot} (h : word prev < word slot)
    (best : Word × Slot) : pick word (pick word best prev) slot = pick word best slot := by
  unfold pick
  by_cases h1 : best.1 < word prev
  · rw [if_pos h1, if_pos h, if_pos (BitVec.lt_trans h1 h)]
  · rw [if_neg h1]

theorem Page.length_slots (page : Page) : page.slots.length = wordsPerPage := by
  rw [slots_eq, List.length_map, List.length_finRange]

theorem Page.getElem_slots (page : Page) {i : Nat} (h : i < page.slots.length) :
    page.slots[i] = page.slot ⟨i, page.length_slots ▸ h⟩ := by
  simp only [slots_eq, List.getElem_map, List.getElem_finRange, Fin.cast_mk]

theorem takeWhile_eq_take {α : Type} {p : α → Bool} {xs : List α} {n : Nat}
    (hlt : ∀ i (h : i < xs.length), i < n → p xs[i] = true)
    (hge : ∀ h : n < xs.length, p xs[n] = false) : xs.takeWhile p = xs.take n := by
  have htake : ∀ x ∈ xs.take n, p x = true := by
    intro x hx
    obtain ⟨i, hi, rfl⟩ := List.mem_iff_getElem.mp hx
    simp only [List.length_take] at hi
    simpa using hlt i (by omega) (by omega)
  have hdrop : (xs.drop n).takeWhile p = [] := by
    by_cases h : n < xs.length
    · rw [List.drop_eq_getElem_cons h, List.takeWhile_cons_of_neg (by simp [hge h])]
    · rw [List.drop_eq_nil_of_le (by omega), List.takeWhile_nil]
  rw [← List.take_append_drop n xs, List.takeWhile_append_of_pos htake, hdrop, List.append_nil,
    List.take_append_drop]

/-- Of a run of successive ceilings, the last is the best. -/
theorem foldl_pick_ceilings {word : Slot → Word} {best : Word × Slot} {b : Nat}
    {slots : List Slot} (hb : b + slots.length < 2 ^ 22)
    (hw : ∀ i (h : i < slots.length), word slots[i] = ceiling (b + i + 1)) :
    slots.foldl (pick word) best = match slots.getLast? with
      | none => best
      | some slot => pick word best slot := by
  induction slots using List.reverseRecOn with
  | nil => rfl
  | append_singleton slots slot ih =>
    simp only [List.length_append, List.length_singleton] at hb hw
    have hlast : word slot = ceiling (b + slots.length + 1) := by
      simpa using hw slots.length (by omega)
    have hfirst : ∀ i (h : i < slots.length), word slots[i] = ceiling (b + i + 1) := by
      intro i hi
      simpa [List.getElem_append_left hi] using hw i (by omega)
    rw [List.foldl_append, List.foldl_cons, List.foldl_nil, ih (by omega) hfirst,
      List.getLast?_concat]
    cases he : slots.getLast? with
    | none => rfl
    | some prev =>
      obtain ⟨ys, hys⟩ := List.getLast?_eq_some_iff.mp he
      have hlen : slots.length = ys.length + 1 := by simp [hys]
      have hprev : word prev = ceiling (b + ys.length + 1) := by
        simpa [hys] using hfirst ys.length (by omega)
      have hlt : word prev < word slot := by
        rw [hprev, hlast]
        exact ceiling_lt_ceiling (by omega) (by omega)
      exact pick_pick hlt best

namespace Log

/-- How many ceilings a page starts with, and how many came before them. -/
def onPage (l : Log) (page : Page) : Nat × Nat :=
  if page = .after l.filled then (l.filled * 1024, l.used)
  else if l.stale = true ∧ 0 < l.filled then ((l.filled - 1) * 1024, 1024)
  else (0, 0)

theorem word_slot {l : Log} {page : Page} (i : Fin wordsPerPage) :
    l.word (page.slot i) = if (i : Nat) < (l.onPage page).2 then
      ceiling ((l.onPage page).1 + i + 1) else erased := by
  have hi : (i : Nat) < 1024 := i.isLt
  simp only [word, onPage, Page.slot_page, Page.slot_offset]
  by_cases hp : page = .after l.filled
  · simp only [hp, if_true]
  · by_cases hst : l.stale = true ∧ 0 < l.filled
    · simp only [hp, hst, and_self, if_true, if_false, hi]
    · simp only [hp, hst, if_false, Nat.not_lt_zero]

theorem onPage_le (l : Log) (page : Page) :
    (l.onPage page).2 ≤ 1024 ∧ (l.onPage page).1 + (l.onPage page).2 ≤ l.count := by
  have hu := l.used_le
  unfold onPage count
  split_ifs with hp hst
  · exact ⟨hu, Nat.le_refl _⟩
  · exact ⟨Nat.le_refl _, by dsimp only; omega⟩
  · exact ⟨by decide, Nat.zero_le _⟩

theorem onPage_slot {l : Log} {page : Page} {i : Fin wordsPerPage} (h : 0 < (l.onPage page).2) :
    page.slot i = .ofCount ((l.onPage page).1 + i) := by
  have hi : (i : Nat) < 1024 := i.isLt
  have key : ∀ k : Nat, (k * 1024 + (i : Nat)) / 1024 = k ∧ (k * 1024 + (i : Nat)) % 1024 = i := by
    omega
  rw [Slot.eq_iff, Page.slot_page, Page.slot_offset, Slot.ofCount_page, Slot.ofCount_offset]
  unfold onPage at h ⊢
  split_ifs at h ⊢ with hp hst
  · exact ⟨by rw [(key _).1, hp], (key _).2.symm⟩
  · obtain ⟨k, hk⟩ : ∃ k, l.filled = k + 1 := ⟨l.filled - 1, by omega⟩
    refine ⟨?_, (key _).2.symm⟩
    rw [(key _).1, Page.eq_after_succ.mpr hp, hk, Page.after_add_two, Nat.add_sub_cancel]
  · exact absurd h (Nat.lt_irrefl 0)

/-- The scan of a page finds the last ceiling there. -/
theorem scan_page {l : Log} (hl : l.count < 2 ^ 22) (page : Page) (best : Word × Slot) :
    scan l.word page.slots best = if 0 < (l.onPage page).2 then
      pick l.word best (.ofCount ((l.onPage page).1 + ((l.onPage page).2 - 1))) else best := by
  obtain ⟨h1, h2⟩ := l.onPage_le page
  have hlen : page.slots.length = 1024 := page.length_slots
  have hword : ∀ i (h : i < page.slots.length), l.word page.slots[i] =
      if i < (l.onPage page).2 then ceiling ((l.onPage page).1 + i + 1) else erased := by
    intro i hi
    rw [page.getElem_slots hi, word_slot]
  have htake : page.slots.takeWhile (fun slot => isValidRecord (l.word slot)) =
      page.slots.take (l.onPage page).2 := by
    apply takeWhile_eq_take
    · intro i hi hlt
      rw [hword i hi, if_pos hlt]
      exact isValidRecord_ceiling (by omega) (by omega)
    · intro hi
      rw [hword _ hi, if_neg (by omega)]
      exact isValidRecord_erased
  rw [scan, htake, foldl_pick_ceilings (b := (l.onPage page).1)]
  · by_cases h0 : 0 < (l.onPage page).2
    · have hlast : (page.slots.take (l.onPage page).2).getLast? =
          some (.ofCount ((l.onPage page).1 + ((l.onPage page).2 - 1))) := by
        rw [List.getLast?_eq_getElem?, List.length_take, hlen, Nat.min_eq_left h1,
          List.getElem?_take_of_lt (by omega), List.getElem?_eq_getElem (by omega), page.getElem_slots,
          onPage_slot h0]
      rw [if_pos h0, hlast]
    · rw [if_neg h0, Nat.eq_zero_of_not_pos h0, List.take_zero]
      rfl
  · rw [List.length_take, hlen]; omega
  · intro i hi
    simp only [List.length_take] at hi
    rw [List.getElem_take, hword i (by omega), if_pos (by omega)]

theorem word_last_onPage {l : Log} {page : Page} (h : 0 < (l.onPage page).2) :
    l.word (.ofCount ((l.onPage page).1 + ((l.onPage page).2 - 1))) =
      ceiling ((l.onPage page).1 + (l.onPage page).2) := by
  have hle := (l.onPage_le page).1
  have hi : (l.onPage page).2 - 1 < wordsPerPage := by rw [wordsPerPage_eq]; omega
  have hn : (l.onPage page).1 + ((l.onPage page).2 - 1) + 1 =
      (l.onPage page).1 + (l.onPage page).2 := by omega
  rw [← onPage_slot (i := ⟨_, hi⟩) h, word_slot, if_pos (Nat.sub_one_lt (by omega)), hn]

theorem scan_current {l : Log} (hl : l.count < 2 ^ 22) (h0 : 0 < l.count) {page : Page}
    (hp : page = .after l.filled) {best : Word × Slot} (hb : best.1 < ceiling l.count) :
    scan l.word page.slots best = (ceiling l.count, .ofCount (l.count - 1)) := by
  have he := l.empty
  have hon : l.onPage page = (l.filled * 1024, l.used) := if_pos hp
  have hu : 0 < l.used := by unfold count at h0; omega
  have hn : l.filled * 1024 + (l.used - 1) = l.count - 1 := by unfold count; omega
  have hw := word_last_onPage (show 0 < (l.onPage page).2 by rw [hon]; exact hu)
  rw [scan_page hl]
  simp only [hon, hu, if_true, hn] at hw ⊢
  rw [pick, hw]
  exact if_pos hb

/-- The other page's records are all smaller than the last ceiling. -/
theorem scan_other {l : Log} (hl : l.count < 2 ^ 22) {page : Page} (hp : page ≠ .after l.filled)
    (best : Word × Slot) :
    scan l.word page.slots best = best ∨
      best.1 < (scan l.word page.slots best).1 ∧
        (scan l.word page.slots best).1 < ceiling l.count := by
  have he := l.empty
  rw [scan_page hl]
  by_cases h0 : 0 < (l.onPage page).2
  · have hlt : (l.onPage page).1 + (l.onPage page).2 < l.count := by
      unfold count
      rw [onPage, if_neg hp] at h0 ⊢
      split_ifs at h0 ⊢ with hst
      · have hf := hst.2
        dsimp only
        omega
      · exact absurd h0 (Nat.lt_irrefl 0)
    rw [if_pos h0, pick, word_last_onPage h0]
    split_ifs with hb
    · exact Or.inr ⟨hb, ceiling_lt_ceiling hlt hl⟩
    · exact Or.inl rfl
  · rw [if_neg h0]
    exact Or.inl rfl

/-- The scan of both pages finds the last ceiling. -/
theorem scan_pages {l : Log} (hl : l.count < 2 ^ 22) :
    scan l.word Page.B.slots (scan l.word Page.A.slots (0, Page.A.start)) =
      if 0 < l.count then (ceiling l.count, .ofCount (l.count - 1)) else (0, Page.A.start) := by
  by_cases h0 : 0 < l.count
  · have hpos : (0 : Word) < ceiling l.count := by
      have hh := ceiling_lt_ceiling h0 hl
      exact hh
    rw [if_pos h0]
    by_cases hp : Page.A = .after l.filled
    · rw [scan_current hl h0 hp hpos]
      have hB : Page.B ≠ .after l.filled := fun h => by rw [← h] at hp; cases hp
      rcases scan_other hl hB (ceiling l.count, .ofCount (l.count - 1)) with h | h
      · exact h
      · exact absurd (BitVec.lt_trans h.1 h.2) (BitVec.lt_irrefl _)
    · have hB : Page.B = .after l.filled := by cases hf : Page.after l.filled <;> simp_all
      apply scan_current hl h0 hB
      rcases scan_other hl hp (0, Page.A.start) with h | h
      · rw [h]; exact hpos
      · exact h.2
  · have hnone : ∀ page, ¬0 < (l.onPage page).2 := by
      intro page hh
      have hle := (l.onPage_le page).2
      omega
    rw [if_neg h0, scan_page hl, if_neg (hnone _), scan_page hl, if_neg (hnone _)]

end Log

end Homescope
