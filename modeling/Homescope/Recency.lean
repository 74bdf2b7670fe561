import Mathlib.Data.List.Dedup

/-! The keys of a history of accesses in the order of their last access, which
is what a cache that evicts the least recently used key keeps a front of. A
history lists its accesses newest first. -/

namespace Recency

variable {K V : Type*} [DecidableEq K]

/-- Every key once, with its last access. -/
def recency : List (K × V) → List (K × V)
  | [] => []
  | x :: history => x :: (recency history).filter (fun y => y.1 ≠ x.1)

/-- The accesses after the last one to `k`. -/
def since (k : K) (history : List (K × V)) : List (K × V) := history.takeWhile (fun y => y.1 ≠ k)

/-- The last access to `k`. -/
def last (k : K) (history : List (K × V)) : Option (K × V) := history.find? (fun y => y.1 = k)

omit [DecidableEq K] in
theorem takeWhile_filter {p q : K × V → Bool} (h : ∀ x, q x = false → p x = true)
    (xs : List (K × V)) : (xs.filter p).takeWhile q = (xs.takeWhile q).filter p := by
  induction xs with
  | nil => rfl
  | cons x xs ih =>
    by_cases hp : p x = true
    · by_cases hq : q x = true
      · simp [hp, hq, ih]
      · simp [hp, hq]
    · have hq : q x = true := by
        by_contra hq
        exact hp (h x (by simpa using hq))
      simp [hp, hq, ih]

omit [DecidableEq K] in
theorem find?_filter {p q : K × V → Bool} (h : ∀ x, q x = true → p x = true)
    (xs : List (K × V)) : (xs.filter p).find? q = xs.find? q := by
  induction xs with
  | nil => rfl
  | cons x xs ih =>
    by_cases hp : p x = true
    · by_cases hq : q x = true
      · simp [hp, hq]
      · simp [hp, hq, ih]
    · have hq : ¬q x = true := fun hq => hp (h x hq)
      simp [hp, hq, ih]

theorem mem_keys_recency {k : K} {history : List (K × V)} :
    k ∈ (recency history).map Prod.fst ↔ k ∈ history.map Prod.fst := by
  induction history with
  | nil => rfl
  | cons x history ih =>
    simp only [List.mem_map] at ih
    simp only [recency, List.map_cons, List.mem_cons, List.mem_map, List.mem_filter]
    by_cases hk : k = x.1
    · simp [hk]
    · simp only [hk, false_or, ← ih]
      constructor
      · rintro ⟨y, ⟨hy, -⟩, rfl⟩
        exact ⟨y, hy, rfl⟩
      · rintro ⟨y, hy, rfl⟩
        exact ⟨y, ⟨hy, by simpa using hk⟩, rfl⟩

theorem nodup_keys_recency (history : List (K × V)) :
    ((recency history).map Prod.fst).Nodup := by
  induction history with
  | nil => exact List.nodup_nil
  | cons x history ih =>
    rw [recency, List.map_cons, List.nodup_cons]
    refine ⟨?_, ih.sublist (List.filter_sublist.map _)⟩
    intro hx
    obtain ⟨y, hy, hyx⟩ := List.mem_map.mp hx
    simp [hyx] at hy

/-- What comes before `k` in the recency list was accessed after it. -/
theorem since_recency (k : K) (history : List (K × V)) :
    since k (recency history) = recency (since k history) := by
  induction history with
  | nil => rfl
  | cons x history ih =>
    by_cases hk : x.1 = k
    · simp [since, recency, hk]
    · have hfilter := takeWhile_filter (p := fun y => decide (y.1 ≠ x.1))
        (q := fun y => decide (y.1 ≠ k)) (fun y hy => by
          have hy' : y.1 = k := by simpa using hy
          simp [hy', Ne.symm hk]) (recency history)
      simp only [since] at ih ⊢
      simp only [recency, List.takeWhile_cons, hk, ne_eq, not_false_eq_true, decide_true, if_true]
      simp only [ne_eq] at hfilter ih
      rw [hfilter, ih]

theorem last_recency (k : K) (history : List (K × V)) :
    last k (recency history) = last k history := by
  induction history with
  | nil => rfl
  | cons x history ih =>
    by_cases hk : x.1 = k
    · simp [last, recency, hk]
    · have hfilter := find?_filter (p := fun y => decide (y.1 ≠ x.1))
        (q := fun y => decide (y.1 = k)) (fun y hy => by
          have hy' : y.1 = k := by simpa using hy
          simp [hy', Ne.symm hk]) (recency history)
      simp only [last] at ih ⊢
      simp only [recency, List.find?_cons, hk, decide_false]
      simp only [ne_eq] at hfilter ⊢
      rw [hfilter, ih]

/-- As many keys as the history has distinct ones. -/
theorem length_recency (history : List (K × V)) :
    (recency history).length = (history.map Prod.fst).dedup.length := by
  have hperm : ((recency history).map Prod.fst).Perm (history.map Prod.fst).dedup := by
    rw [List.perm_ext_iff_of_nodup (nodup_keys_recency history) (List.nodup_dedup _)]
    intro k
    rw [mem_keys_recency, List.mem_dedup]
  rw [← List.length_map Prod.fst, hperm.length_eq]

theorem last_take (k : K) (n : Nat) (xs : List (K × V)) :
    last k (xs.take n) = if (since k xs).length < n then last k xs else none := by
  induction xs generalizing n with
  | nil => simp [last]
  | cons x xs ih =>
    cases n with
    | zero => simp [last]
    | succ n =>
      by_cases hk : x.1 = k
      · simp [last, since, hk]
      · have hsince : since k (x :: xs) = x :: since k xs := by simp [since, hk]
        have hlast : ∀ ys : List (K × V), last k (x :: ys) = last k ys := by simp [last, hk]
        rw [List.take_succ_cons, hlast, hlast, hsince, ih, List.length_cons]
        simp only [Nat.add_lt_add_iff_right]

/-- The last access to `k` is among the `n` most recent keys as long as fewer
than `n` other keys came after it. -/
theorem last_take_recency (k : K) (n : Nat) (history : List (K × V)) :
    last k ((recency history).take n) =
      if ((since k history).map Prod.fst).dedup.length < n then last k history else none := by
  rw [last_take, since_recency, length_recency, last_recency]

theorem filter_ne_of_not_mem {k : K} {xs : List (K × V)}
    (h : k ∉ xs.map Prod.fst) : xs.filter (fun y => y.1 ≠ k) = xs := by
  rw [List.filter_eq_self]
  intro y hy
  have hne : y.1 ≠ k := fun he => h (List.mem_map.mpr ⟨y, hy, he⟩)
  simpa using hne

/-- Moving a key to the front drops it further back, or drops the last key. -/
theorem take_filter_ne {k : K} {xs : List (K × V)} (h : (xs.map Prod.fst).Nodup) (n : Nat) :
    (xs.filter (fun y => y.1 ≠ k)).take n =
      if k ∈ (xs.take (n + 1)).map Prod.fst then (xs.take (n + 1)).filter (fun y => y.1 ≠ k)
      else xs.take n := by
  induction xs generalizing n with
  | nil => simp
  | cons x xs ih =>
    rw [List.map_cons, List.nodup_cons] at h
    by_cases hk : x.1 = k
    · have hnot : k ∉ xs.map Prod.fst := hk ▸ h.1
      have hnot' : k ∉ (xs.take n).map Prod.fst := fun hm =>
        hnot (List.map_subset _ (List.take_subset n xs) hm)
      rw [List.take_succ_cons, List.map_cons, if_pos (by simp [hk]), List.filter_cons_of_neg (by simp [hk]),
        List.filter_cons_of_neg (by simp [hk]), filter_ne_of_not_mem hnot, filter_ne_of_not_mem hnot']
    · cases n with
      | zero => simp [Ne.symm hk]
      | succ n =>
        have hh := ih h.2 n
        rw [List.filter_cons_of_pos (by simp [hk]), List.take_succ_cons, hh, List.take_succ_cons,
          List.map_cons, List.filter_cons_of_pos (by simp [hk])]
        simp only [List.mem_cons, Ne.symm hk, false_or]
        split <;> rfl

/-- The front of the recency list after one more access. -/
theorem take_recency_cons (x : K × V) (n : Nat) (history : List (K × V)) :
    (recency (x :: history)).take (n + 1) =
      x :: if x.1 ∈ ((recency history).take (n + 1)).map Prod.fst then
        ((recency history).take (n + 1)).filter (fun y => y.1 ≠ x.1) else (recency history).take n := by
  rw [recency, List.take_succ_cons, take_filter_ne (nodup_keys_recency history)]

end Recency
