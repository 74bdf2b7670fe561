import Mathlib.Data.List.Basic

/-! Scanning a growing buffer with a judge of its first position: the judge
waits for more input, takes an item off the front, or drops a hopeless prefix. -/

namespace Scanning

universe u v

inductive Verdict (β : Type v)
  | wait
  | take (item : β) (n : Nat)
  | drop (n : Nat)

variable {α : Type u} {β : Type v}

/-- The judge that drops one element where the given one may drop several. -/
def single (judge : List α → Verdict β) (s : List α) : Verdict β :=
  match judge s with
  | .drop _ => .drop 1
  | verdict => verdict

/-- A judge that later input cannot contradict, and that drops only positions
which it would drop one by one. -/
structure Lawful (judge : List α → Verdict β) : Prop where
  take_le {s b n} : judge s = .take b n → 0 < n ∧ n ≤ s.length
  drop_le {s n} : judge s = .drop n → 0 < n ∧ n ≤ s.length
  take_append {s b n} (t) : judge s = .take b n → judge (s ++ t) = .take b n
  drop_append {s n} (t) : judge s = .drop n → ∃ m, judge (s ++ t) = .drop m
  skipped {s n i} : judge s = .drop n → 0 < i → i < n → ∃ m, judge (s.drop i) = .drop m

/-- Scanning `s` emits `bs` and waits with `r` left in the buffer. -/
inductive Scans (judge : List α → Verdict β) : List α → List β → List α → Prop
  | wait {s} (h : judge s = .wait) : Scans judge s [] s
  | take {s b n bs r} (h : judge s = .take b n) (hs : Scans judge (s.drop n) bs r) :
      Scans judge s (b :: bs) r
  | drop {s n bs r} (h : judge s = .drop n) (hs : Scans judge (s.drop n) bs r) :
      Scans judge s bs r

variable {judge : List α → Verdict β}

theorem single_take {s : List α} {b : β} {n : Nat} :
    single judge s = .take b n ↔ judge s = .take b n := by
  simp only [single]
  split <;> simp_all

theorem single_drop {s : List α} {n : Nat} :
    single judge s = .drop n ↔ n = 1 ∧ ∃ m, judge s = .drop m := by
  simp only [single]
  split <;> simp_all [eq_comm]

theorem single_wait {s : List α} : single judge s = .wait ↔ judge s = .wait := by
  simp only [single]
  split <;> simp_all

theorem Scans.unique {s r q : List α} {bs cs : List β} (h : Scans judge s bs r)
    (h' : Scans judge s cs q) : bs = cs ∧ r = q := by
  induction h generalizing cs q with
  | wait h =>
    cases h' with
    | wait => exact ⟨rfl, rfl⟩
    | take h'' => simp [h] at h''
    | drop h'' => simp [h] at h''
  | take h _ ih =>
    cases h' with
    | wait h'' => simp [h] at h''
    | take h'' hs =>
      cases h.symm.trans h''
      obtain ⟨rfl, rfl⟩ := ih hs
      exact ⟨rfl, rfl⟩
    | drop h'' => simp [h] at h''
  | drop h _ ih =>
    cases h' with
    | wait h'' => simp [h] at h''
    | take h'' => simp [h] at h''
    | drop h'' hs =>
      cases h.symm.trans h''
      exact ih hs

/-- The buffer left by a scan waits for more. -/
theorem Scans.waits {s r : List α} {bs : List β} (h : Scans judge s bs r) :
    judge r = .wait := by
  induction h with
  | wait h => exact h
  | take _ _ ih => exact ih
  | drop _ _ ih => exact ih

/-- A run of positions that are all dropped can be skipped at once. -/
theorem Scans.skip {s r : List α} {bs : List β} {n : Nat}
    (hdrop : ∀ i < n, ∃ m, judge (s.drop i) = .drop m)
    (h : Scans (single judge) (s.drop n) bs r) : Scans (single judge) s bs r := by
  induction n generalizing s with
  | zero => simpa using h
  | succ n ih =>
    have hfirst := hdrop 0 (Nat.succ_pos n)
    rw [List.drop_zero] at hfirst
    refine Scans.drop (single_drop.mpr ⟨rfl, hfirst⟩) (ih ?_ ?_)
    · intro i hi
      rw [List.drop_drop]
      exact hdrop (1 + i) (by omega)
    · rwa [List.drop_drop, Nat.add_comm]

/-- Skipping emits what dropping one element at a time emits. -/
theorem Scans.toSingle (hj : Lawful judge) {s r : List α} {bs : List β}
    (h : Scans judge s bs r) : Scans (single judge) s bs r := by
  induction h with
  | wait h => exact .wait (single_wait.mpr h)
  | take h _ ih => exact .take (single_take.mpr h) ih
  | @drop s n bs r h _ ih =>
    refine Scans.skip ?_ ih
    intro i hi
    rcases Nat.eq_zero_or_pos i with rfl | hpos
    · exact ⟨n, h⟩
    · exact hj.skipped h hpos hi

/-- The scan of a longer buffer goes on where the scan of its prefix waited. -/
theorem Scans.append (hj : Lawful judge) {s r q t : List α} {bs cs : List β}
    (h : Scans (single judge) s bs r) (h' : Scans (single judge) (r ++ t) cs q) :
    Scans (single judge) (s ++ t) (bs ++ cs) q := by
  induction h with
  | wait h => exact h'
  | take h _ ih =>
    have hs := single_take.mp h
    refine .take (single_take.mpr (hj.take_append t hs)) ?_
    rw [List.drop_append_of_le_length (hj.take_le hs).2]
    exact ih h'
  | drop h _ ih =>
    obtain ⟨rfl, m, hs⟩ := single_drop.mp h
    have hlen := hj.drop_le hs
    refine .drop (single_drop.mpr ⟨rfl, hj.drop_append t hs⟩) ?_
    rw [List.drop_append_of_le_length (by omega)]
    exact ih h'

/-- An item at position `g` of the buffer is emitted when nothing taken before
it reaches over `g`. -/
theorem Scans.emits {s r : List α} {bs : List β} {b : β} {g n : Nat}
    (hitem : judge (s.drop g) = .take b n) (hwait : ∀ i < g, judge (s.drop i) ≠ .wait)
    (hcover : ∀ i < g, ∀ c m, judge (s.drop i) = .take c m → i + m ≤ g)
    (h : Scans (single judge) s bs r) : b ∈ bs := by
  -- Along the scan `g` is the distance left to the item.
  induction h generalizing g with
  | wait h =>
    have hs := single_wait.mp h
    rcases Nat.eq_zero_or_pos g with rfl | hg
    · simp [hs] at hitem
    · exact absurd hs (hwait 0 hg)
  | @take s c k bs r h _ ih =>
    have hs := single_take.mp h
    rcases Nat.eq_zero_or_pos g with rfl | hg
    · rw [List.drop_zero, hs] at hitem
      cases hitem
      exact List.mem_cons_self
    · have hk := hcover 0 hg c k hs
      refine List.mem_cons_of_mem _ (ih (g := g - k) ?_ ?_ ?_)
      · rwa [List.drop_drop, Nat.add_sub_cancel' (by omega)]
      · intro i hi
        rw [List.drop_drop]
        exact hwait (k + i) (by omega)
      · intro i hi d m hd
        rw [List.drop_drop] at hd
        have := hcover (k + i) (by omega) d m hd
        omega
  | drop h _ ih =>
    obtain ⟨rfl, m, hs⟩ := single_drop.mp h
    rcases Nat.eq_zero_or_pos g with rfl | hg
    · simp [hs] at hitem
    · refine ih (g := g - 1) ?_ ?_ ?_
      · rwa [List.drop_drop, Nat.add_sub_cancel' hg]
      · intro i hi
        rw [List.drop_drop]
        exact hwait (1 + i) (by omega)
      · intro i hi d m hd
        rw [List.drop_drop] at hd
        have := hcover (1 + i) (by omega) d m hd
        omega

end Scanning
