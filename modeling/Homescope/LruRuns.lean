import Homescope.LruCache

/-! The cache against a list of its keys, over any operations. -/

namespace Recency

variable {K V : Type*} [DecidableEq K]

/-- A lookup in the list of the most recent keys, newest first. -/
def access (kept : List (K × V)) (key : K) : Option V × List (K × V) :=
  match last key kept with
  | none => (none, kept)
  | some (_, value) => (some value, (key, value) :: kept.filter (fun y => y.1 ≠ key))

/-- An insertion into the list, which is not to grow beyond `n` keys. -/
def store (n : Nat) (kept : List (K × V)) (key : K) (value : V) : Option V × List (K × V) :=
  match last key kept with
  | some (_, replaced) => (some replaced, (key, value) :: kept.filter (fun y => y.1 ≠ key))
  | none => (none, (key, value) :: if kept.length < n then kept else kept.dropLast)

theorem last_eq_none {key : K} {kept : List (K × V)} :
    last key kept = none ↔ key ∉ kept.map Prod.fst := by
  simp only [last, List.find?_eq_none, decide_eq_true_eq, List.mem_map, not_exists, not_and]

theorem fst_of_last {key : K} {kept : List (K × V)} {y : K × V} (h : last key kept = some y) :
    y.1 = key ∧ key ∈ kept.map Prod.fst := by
  have hy : y.1 = key := by simpa using List.find?_some h
  exact ⟨hy, List.mem_map.mpr ⟨y, List.mem_of_find?_eq_some h, hy⟩⟩

/-- The front of the recency list of a history, and what a lookup adds to the history. -/
theorem access_take_recency {n : Nat} (history : List (K × V)) (key : K) :
    (access ((recency history).take n) key).2 =
      (recency (match (access ((recency history).take n) key).1 with
        | none => history
        | some v => (key, v) :: history)).take n := by
  cases hlast : last key ((recency history).take n) with
  | none => simp only [access, hlast]
  | some y =>
    obtain ⟨-, hmem⟩ := fst_of_last hlast
    obtain ⟨m, rfl⟩ : ∃ m, n = m + 1 := by
      cases n with
      | zero => simp at hmem
      | succ m => exact ⟨m, rfl⟩
    simp only [access, hlast, take_recency_cons, if_pos hmem]

theorem store_take_recency {n : Nat} (hn : 0 < n) (history : List (K × V)) (key : K) (value : V) :
    (store n ((recency history).take n) key value).2 =
      (recency ((key, value) :: history)).take n := by
  obtain ⟨m, rfl⟩ : ∃ m, n = m + 1 := ⟨n - 1, by omega⟩
  cases hlast : last key ((recency history).take (m + 1)) with
  | some y =>
    obtain ⟨-, hmem⟩ := fst_of_last hlast
    simp only [store, hlast, take_recency_cons, if_pos hmem]
  | none =>
    have hnot := last_eq_none.mp hlast
    simp only [store, hlast, take_recency_cons, if_neg hnot, List.length_take]
    refine congrArg ((key, value) :: ·) ?_
    by_cases hroom : (recency history).length < m + 1
    · have hlen : min (m + 1) (recency history).length < m + 1 := by omega
      rw [if_pos hlen, List.take_of_length_le hroom.le, List.take_of_length_le (by omega)]
    · have hlen : ¬min (m + 1) (recency history).length < m + 1 := by omega
      rw [if_neg hlen, List.dropLast_eq_take, List.take_take, List.length_take]
      congr 1
      omega

end Recency

namespace Homescope

namespace LruCache

open Recency

variable {K V : Type} {n : Nat} [DecidableEq K]

inductive Op (K V : Type)
  | get (key : K)
  | insert (key : K) (value : V)

def step (c : LruCache K V n) : Op K V → Option V × LruCache K V n
  | .get key => c.get key
  | .insert key value => c.insert key value

/-- The results of the operations, and the cache after them. -/
def run (c : LruCache K V n) : List (Op K V) → List (Option V) × LruCache K V n
  | [] => ([], c)
  | op :: ops => ((c.step op).1 :: (run (c.step op).2 ops).1, (run (c.step op).2 ops).2)

def listStep (n : Nat) (kept : List (K × V)) : Op K V → Option V × List (K × V)
  | .get key => access kept key
  | .insert key value => store n kept key value

def listRun (n : Nat) (kept : List (K × V)) : List (Op K V) → List (Option V) × List (K × V)
  | [] => ([], kept)
  | op :: ops => ((listStep n kept op).1 :: (listRun n (listStep n kept op).2 ops).1,
      (listRun n (listStep n kept op).2 ops).2)

/-- The slots hold the list: packed at the front, in the order of their ticks. -/
def Keeps (c : LruCache K V n) (kept : List (K × V)) : Prop :=
  ∃ history, c.Refines history ∧ kept = (recency history).take n

theorem keeps_new : (new : LruCache K V n).Keeps [] := ⟨[], refines_new, by simp [recency]⟩

theorem access_fst (kept : List (K × V)) (key : K) :
    (access kept key).1 = (last key kept).map Prod.snd := by
  cases hlast : last key kept <;> simp [access, hlast]

theorem store_fst (kept : List (K × V)) (key : K) (value : V) :
    (store n kept key value).1 = (last key kept).map Prod.snd := by
  cases hlast : last key kept <;> simp [store, hlast]

theorem insert_fst {c : LruCache K V n} {history : List (K × V)} (hc : c.Refines history) (key : K)
    (value : V) : (c.insert key value).1 = (last key ((recency history).take n)).map Prod.snd := by
  obtain ⟨items, hpacked, hord⟩ := hc
  have hbump := hpacked.withTick (c.tick + 1)
  rw [insert]
  rcases hbump.findItem key with ⟨hfind, hnot⟩ | ⟨l₁, item, l₂, rfl, hfind⟩
  · rw [hord.last_eq_none hnot]
    simp only [hfind]
    rfl
  · have hmem : (key, item) ∈ l₁ ++ (key, item) :: l₂ := by simp
    rw [hord.last_eq (nodup_kept history n) hmem]
    simp only [hfind, hbump.valueAt]
    rfl

/-- One operation, before the tick wraps. -/
theorem step_keeps (hn : 0 < n) {c : LruCache K V n} {kept : List (K × V)} (hc : c.Keeps kept)
    (ht : c.tick.toNat + 1 < 2 ^ 64) (op : Op K V) :
    (c.step op).1 = (listStep n kept op).1 ∧
      (c.step op).2.Keeps (listStep n kept op).2 ∧
      (c.step op).2.tick.toNat = c.tick.toNat + 1 := by
  obtain ⟨history, hrefines, rfl⟩ := hc
  cases op with
  | get key =>
    obtain ⟨hfst, htick, hsnd⟩ := get_refines hrefines ht key
    rw [← access_fst] at hfst
    refine ⟨hfst, ⟨_, hsnd, ?_⟩, ?_⟩
    · rw [hfst]
      exact access_take_recency history key
    · exact (congrArg BitVec.toNat htick).trans (tick_succ ht)
  | insert key value =>
    obtain ⟨htick, hsnd⟩ := insert_refines hrefines hn ht key value
    refine ⟨(insert_fst hrefines key value).trans (store_fst _ key value).symm, ⟨_, hsnd, ?_⟩, ?_⟩
    · exact store_take_recency hn history key value
    · exact (congrArg BitVec.toNat htick).trans (tick_succ ht)

theorem run_keeps (hn : 0 < n) {c : LruCache K V n} {kept : List (K × V)} (hc : c.Keeps kept)
    (ops : List (Op K V)) (ht : c.tick.toNat + ops.length < 2 ^ 64) :
    (c.run ops).1 = (listRun n kept ops).1 ∧ (c.run ops).2.Keeps (listRun n kept ops).2 := by
  induction ops generalizing c kept with
  | nil => exact ⟨rfl, hc⟩
  | cons op ops ih =>
    rw [List.length_cons] at ht
    obtain ⟨hfst, hsnd, htick⟩ := step_keeps hn hc (by omega) op
    obtain ⟨hresults, hkeeps⟩ := ih hsnd (by omega)
    exact ⟨congrArg₂ List.cons hfst hresults, hkeeps⟩

/-- What the slots look like. -/
theorem Keeps.slots {c : LruCache K V n} {kept : List (K × V)} (hc : c.Keeps kept) :
    kept.length ≤ n ∧ (kept.map Prod.fst).Nodup ∧
      ∃ items, c.Packed items ∧ (items.map pair).Perm kept ∧ (items.map Prod.fst).Nodup ∧
        (items.map fun item => item.2.lastTick).Nodup := by
  obtain ⟨history, ⟨items, hpacked, hord⟩, rfl⟩ := hc
  have hkeys := hord.keys_perm.nodup_iff.mpr (nodup_kept history n)
  obtain ⟨sorted, hperm, hkept, hsort, -⟩ := hord
  refine ⟨List.length_take_le n _, nodup_kept history n, items, hpacked, ?_, hkeys, ?_⟩
  · rw [← hkept]
    exact (hperm.map pair).symm
  · refine ((hperm.map fun item => item.2.lastTick).nodup_iff).mp ?_
    refine List.pairwise_map.mpr (hsort.imp fun hlt heq => ?_)
    rw [heq] at hlt
    exact lt_irrefl _ hlt

/-- The cache is the list of the keys in the order of their last use, through any operations. -/
theorem run_refines_list (hn : 0 < n) (ops : List (Op K V)) (hops : ops.length < 2 ^ 64) :
    ((new : LruCache K V n).run ops).1 = (listRun n [] ops).1 ∧
      (listRun n ([] : List (K × V)) ops).2.length ≤ n ∧
      ((listRun n ([] : List (K × V)) ops).2.map Prod.fst).Nodup ∧
      ∃ items, ((new : LruCache K V n).run ops).2.Packed items ∧
        (items.map pair).Perm (listRun n [] ops).2 ∧ (items.map Prod.fst).Nodup ∧
        (items.map fun item => item.2.lastTick).Nodup := by
  have htick : (new : LruCache K V n).tick.toNat = 0 := rfl
  obtain ⟨hresults, hkeeps⟩ := run_keeps hn (keeps_new (K := K) (V := V)) ops (by omega)
  exact ⟨hresults, hkeeps.slots⟩

/-- A lookup saves a key, and the other one makes room. -/
theorem run_refines_list_two :
    ((new : LruCache Nat Nat 2).run
      [.insert 1 10, .insert 2 20, .get 1, .insert 3 30, .get 2, .get 1]).1 =
        [none, none, some 10, none, none, some 10] :=
  (run_refines_list (by decide) _ (by decide)).1.trans (by decide)

end LruCache

end Homescope
