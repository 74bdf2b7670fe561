import Homescope.Recency
import Mathlib.Algebra.Group.Nat.Defs
import Mathlib.Data.List.MinMax

/-! The receiver's cache (`firmware/receiver/src/lru_cache.rs`). It holds the
front of the recency list of its accesses until its tick wraps. -/

namespace Homescope

open Recency

structure LruCacheItem (V : Type) where
  lastTick : BitVec 64
  value : V
  deriving DecidableEq

structure LruCache (K V : Type) (n : Nat) where
  cache : List (Option (K × LruCacheItem V))
  len : Nat
  tick : BitVec 64
  deriving DecidableEq

namespace LruCache

variable {K V : Type} {n : Nat}

def new : LruCache K V n := ⟨List.replicate n none, 0, 0⟩

/-- What the reference into slot `i` is written to. -/
def modifyItem (self : LruCache K V n) (i : Nat) (f : LruCacheItem V → LruCacheItem V) :
    LruCache K V n :=
  { self with cache := self.cache.modify i (Option.map (Prod.map id f)) }

def valueAt (self : LruCache K V n) (i : Nat) : Option V :=
  self.cache[i]?.join.map (fun item => item.2.value)

/-- The slot that a new key evicts, the first of those with the smallest tick. -/
def oldest (self : LruCache K V n) : Option Nat :=
  ((self.cache.zipIdx.filterMap fun s => s.1.map fun item => (s.2, item.2.lastTick)).argmin
    fun s => s.2.toNat).map Prod.fst

variable [DecidableEq K]

/-- `find_item_mut`, with the slot in place of a reference into it. -/
def findItem (self : LruCache K V n) (key : K) : Option Nat :=
  (self.cache.take self.len).findIdx? (fun slot => slot.any (fun item => item.1 = key))

def get (self : LruCache K V n) (key : K) : Option V × LruCache K V n :=
  let self := { self with tick := self.tick + 1 }
  match self.findItem key with
  | none => (none, self)
  | some i => (self.valueAt i, self.modifyItem i fun item => { item with lastTick := self.tick })

def insert (self : LruCache K V n) (key : K) (value : V) : Option V × LruCache K V n :=
  let self := { self with tick := self.tick + 1 }
  match self.findItem key with
  | some i => (self.valueAt i, self.modifyItem i fun _ => ⟨self.tick, value⟩)
  | none =>
    let (index, len) := if n ≤ self.len then (self.oldest.getD 0, self.len)
      else (self.len, self.len + 1)
    (none, { self with cache := self.cache.set index (some (key, ⟨self.tick, value⟩)), len })

/-! ### The occupied slots -/

/-- The occupied slots are packed at the front. -/
structure Packed (c : LruCache K V n) (items : List (K × LruCacheItem V)) : Prop where
  cache_eq : c.cache = items.map some ++ List.replicate (n - items.length) none
  len_eq : c.len = items.length
  length_le : items.length ≤ n

omit [DecidableEq K] in
theorem packed_new : (new : LruCache K V n).Packed [] :=
  ⟨by simp [new], rfl, Nat.zero_le n⟩

omit [DecidableEq K] in
theorem Packed.withTick {c : LruCache K V n} {items : List (K × LruCacheItem V)}
    (h : c.Packed items) (tick : BitVec 64) :
    Packed (⟨c.cache, c.len, tick⟩ : LruCache K V n) items :=
  ⟨h.cache_eq, h.len_eq, h.length_le⟩

theorem modify_length_append {α : Type} (f : α → α) (x : α) (l₁ l₂ : List α) :
    (l₁ ++ x :: l₂).modify l₁.length f = l₁ ++ f x :: l₂ := by
  induction l₁ with
  | nil => rfl
  | cons y l₁ ih => simpa using ih

omit [DecidableEq K] in
theorem Packed.modifyItem {c : LruCache K V n} {l₁ l₂ : List (K × LruCacheItem V)} {k : K}
    {item : LruCacheItem V} (h : c.Packed (l₁ ++ (k, item) :: l₂))
    (f : LruCacheItem V → LruCacheItem V) :
    (c.modifyItem l₁.length f).Packed (l₁ ++ (k, f item) :: l₂) := by
  have hlen : (l₁ ++ (k, f item) :: l₂).length = (l₁ ++ (k, item) :: l₂).length := by simp
  refine ⟨?_, h.len_eq.trans hlen.symm, hlen ▸ h.length_le⟩
  have hmod := modify_length_append (Option.map (Prod.map id f)) (some (k, item)) (l₁.map some)
    (l₂.map some ++ List.replicate (n - (l₁ ++ (k, item) :: l₂).length) none)
  rw [List.length_map] at hmod
  simp only [LruCache.modifyItem, h.cache_eq, hlen, List.map_append, List.map_cons,
    List.append_assoc, List.cons_append, hmod]
  rfl

omit [DecidableEq K] in
theorem Packed.valueAt {c : LruCache K V n} {l₁ l₂ : List (K × LruCacheItem V)} {k : K}
    {item : LruCacheItem V} (h : c.Packed (l₁ ++ (k, item) :: l₂)) :
    c.valueAt l₁.length = some item.value := by
  simp [LruCache.valueAt, h.cache_eq]

theorem Packed.findItem {c : LruCache K V n} {items : List (K × LruCacheItem V)}
    (h : c.Packed items) (k : K) :
    (c.findItem k = none ∧ k ∉ items.map Prod.fst) ∨
      ∃ l₁ item l₂, items = l₁ ++ (k, item) :: l₂ ∧ c.findItem k = some l₁.length := by
  have hfind : c.findItem k = items.findIdx? (fun item => item.1 = k) := by
    rw [LruCache.findItem, h.cache_eq, h.len_eq, List.take_left' (by simp), List.findIdx?_map]
    rfl
  rw [hfind]
  cases he : items.findIdx? (fun item => item.1 = k) with
  | none =>
    refine .inl ⟨rfl, fun hk => ?_⟩
    obtain ⟨x, hx, rfl⟩ := List.mem_map.mp hk
    simpa using List.findIdx?_eq_none_iff.mp he x hx
  | some i =>
    obtain ⟨hi, hp, -⟩ := List.findIdx?_eq_some_iff_getElem.mp he
    have hk : items[i].1 = k := by simpa using hp
    refine .inr ⟨items.take i, items[i].2, items.drop (i + 1), ?_, by simp [hi.le]⟩
    rw [← hk, Prod.eta, ← List.drop_eq_getElem_cons hi, List.take_append_drop]

omit [DecidableEq K] in
/-- A full cache has an oldest item. -/
theorem Packed.oldest {c : LruCache K V n} {items : List (K × LruCacheItem V)}
    (h : c.Packed items) (hne : items ≠ []) :
    ∃ l₁ x l₂, items = l₁ ++ x :: l₂ ∧ c.oldest = some l₁.length ∧
      ∀ y ∈ items, x.2.lastTick.toNat ≤ y.2.lastTick.toNat := by
  have hslots : (c.cache.zipIdx.filterMap fun s => s.1.map fun item => (s.2, item.2.lastTick)) =
      items.zipIdx.map fun s => (s.2, s.1.2.lastTick) := by
    rw [h.cache_eq, List.zipIdx_append, List.filterMap_append]
    have hnone : ((List.replicate (n - items.length) (none : Option (K × LruCacheItem V))).zipIdx
        (0 + (items.map some).length)).filterMap
          (fun s => s.1.map fun item => (s.2, item.2.lastTick)) = [] := by
      rw [List.filterMap_eq_nil_iff]
      intro s hs
      have hs' := List.fst_mem_of_mem_zipIdx hs
      rw [(List.mem_replicate.mp hs').2]
      rfl
    rw [hnone, List.append_nil, List.zipIdx_map, List.filterMap_map]
    exact congrFun (List.filterMap_eq_map
      (f := fun s : (K × LruCacheItem V) × Nat => (s.2, s.1.2.lastTick))) items.zipIdx
  rw [LruCache.oldest, hslots]
  cases hmin : (items.zipIdx.map fun s => (s.2, s.1.2.lastTick)).argmin fun s => s.2.toNat with
  | none =>
    have hnil := List.argmin_eq_none.mp hmin
    exact absurd (by simpa using hnil) hne
  | some m =>
    obtain ⟨s, hs, rfl⟩ := List.mem_map.mp (List.argmin_mem hmin)
    obtain ⟨hi, hx⟩ := List.mem_zipIdx' hs
    refine ⟨items.take s.2, s.1, items.drop (s.2 + 1), ?_, by simp [hi.le], fun y hy => ?_⟩
    · rw [hx, ← List.drop_eq_getElem_cons hi, List.take_append_drop]
    · obtain ⟨j, hj, rfl⟩ := List.mem_iff_getElem.mp hy
      have hmem : (j, items[j].2.lastTick) ∈ items.zipIdx.map fun s => (s.2, s.1.2.lastTick) :=
        List.mem_map.mpr ⟨(items[j], j), List.mem_zipIdx_iff_getElem?.mpr (by simp), rfl⟩
      exact List.le_of_mem_argmin (f := fun s : Nat × BitVec 64 => s.2.toNat) hmem hmin

/-! ### The order of the ticks -/

def pair (x : K × LruCacheItem V) : K × V := (x.1, x.2.value)

/-- The items hold `kept`, which lists them by their ticks, newest first. -/
def Ordered (tick : BitVec 64) (items : List (K × LruCacheItem V)) (kept : List (K × V)) : Prop :=
  ∃ sorted : List (K × LruCacheItem V), sorted.Perm items ∧ sorted.map pair = kept ∧
    sorted.Pairwise (fun x y => y.2.lastTick.toNat < x.2.lastTick.toNat) ∧
    ∀ x ∈ sorted, x.2.lastTick.toNat ≤ tick.toNat

section Ordered

variable {tick tick' : BitVec 64} {items items' : List (K × LruCacheItem V)} {kept : List (K × V)}

omit [DecidableEq K] in
theorem Ordered.mono (h : Ordered tick items kept) (ht : tick.toNat ≤ tick'.toNat) :
    Ordered tick' items kept := by
  obtain ⟨sorted, hperm, hkept, hsort, hle⟩ := h
  exact ⟨sorted, hperm, hkept, hsort, fun x hx => (hle x hx).trans ht⟩

omit [DecidableEq K] in
/-- A new item in front of the others. -/
theorem Ordered.push (h : Ordered tick items kept) (ht : tick.toNat < tick'.toNat) (k : K) (v : V)
    (hitems : items'.Perm ((k, ⟨tick', v⟩) :: items)) : Ordered tick' items' ((k, v) :: kept) := by
  obtain ⟨sorted, hperm, rfl, hsort, hle⟩ := h
  refine ⟨(k, ⟨tick', v⟩) :: sorted, (hperm.cons _).trans hitems.symm, rfl, ?_, ?_⟩
  · exact List.pairwise_cons.mpr ⟨fun x hx => (hle x hx).trans_lt ht, hsort⟩
  · rintro x (_ | ⟨_, hx⟩)
    · exact Nat.le_refl _
    · exact (hle x hx).trans ht.le

theorem Ordered.filter_ne (h : Ordered tick items kept) (k : K) :
    Ordered tick (items.filter (fun x => x.1 ≠ k)) (kept.filter (fun y => y.1 ≠ k)) := by
  obtain ⟨sorted, hperm, rfl, hsort, hle⟩ := h
  refine ⟨sorted.filter (fun x => x.1 ≠ k), hperm.filter _, ?_, hsort.filter _, fun x hx =>
    hle x (List.mem_of_mem_filter hx)⟩
  rw [List.filter_map]
  rfl

omit [DecidableEq K] in
/-- The item with the smallest tick is the last one kept. -/
theorem Ordered.dropLast {l₁ l₂ : List (K × LruCacheItem V)} {x : K × LruCacheItem V}
    (h : Ordered tick (l₁ ++ x :: l₂) kept)
    (hx : ∀ y ∈ l₁ ++ x :: l₂, x.2.lastTick.toNat ≤ y.2.lastTick.toNat) :
    Ordered tick (l₁ ++ l₂) kept.dropLast := by
  obtain ⟨sorted, hperm, rfl, hsort, hle⟩ := h
  have hxs : x ∈ sorted := hperm.mem_iff.mpr (by simp)
  rcases List.eq_nil_or_concat' sorted with rfl | ⟨front, y, rfl⟩
  · cases hxs
  · rw [List.pairwise_append] at hsort
    obtain ⟨hfront, -, hlast⟩ := hsort
    have hxy : x = y := by
      rcases List.mem_append.mp hxs with hf | hy
      · have hlt := hlast x hf y (List.mem_singleton.mpr rfl)
        have hge := hx y (hperm.mem_iff.mp (by simp))
        omega
      · exact List.mem_singleton.mp hy
    subst hxy
    refine ⟨front, ?_, by simp, hfront, fun y hy => hle y (List.mem_append_left _ hy)⟩
    have hcons : (x :: front).Perm (x :: (l₁ ++ l₂)) :=
      (List.perm_append_singleton x front).symm.trans (hperm.trans List.perm_middle)
    exact hcons.cons_inv

omit [DecidableEq K] in
theorem map_fst_pair (items : List (K × LruCacheItem V)) :
    (items.map pair).map Prod.fst = items.map Prod.fst := by
  rw [List.map_map]
  rfl

omit [DecidableEq K] in
theorem Ordered.keys_perm (h : Ordered tick items kept) :
    (items.map Prod.fst).Perm (kept.map Prod.fst) := by
  obtain ⟨sorted, hperm, rfl, -, -⟩ := h
  rw [map_fst_pair]
  exact (hperm.map _).symm

/-- The value of a key that is kept. -/
theorem Ordered.last_eq (h : Ordered tick items kept) (hk : (kept.map Prod.fst).Nodup) {k : K}
    {item : LruCacheItem V} (hi : (k, item) ∈ items) : last k kept = some (k, item.value) := by
  obtain ⟨sorted, hperm, rfl, -, -⟩ := h
  have hmem : (k, item.value) ∈ sorted.map pair :=
    List.mem_map.mpr ⟨(k, item), hperm.mem_iff.mpr hi, rfl⟩
  cases hl : last k (sorted.map pair) with
  | none => simpa using List.find?_eq_none.mp hl _ hmem
  | some y =>
    have hy := List.mem_of_find?_eq_some hl
    have hyk : y.1 = k := by simpa using List.find?_some hl
    exact congrArg some (List.inj_on_of_nodup_map hk hy hmem hyk)

theorem Ordered.last_eq_none (h : Ordered tick items kept) {k : K} (hk : k ∉ items.map Prod.fst) :
    last k kept = none := by
  rw [last, List.find?_eq_none]
  intro y hy he
  have hyk : y.1 = k := by simpa using he
  exact hk (h.keys_perm.mem_iff.mpr (List.mem_map.mpr ⟨y, hy, hyk⟩))

end Ordered

/-! ### The cache holds the front of the recency list -/

def Refines (c : LruCache K V n) (history : List (K × V)) : Prop :=
  ∃ items, c.Packed items ∧ Ordered c.tick items ((recency history).take n)

theorem refines_new : (new : LruCache K V n).Refines [] :=
  ⟨[], packed_new, [], .refl _, by simp [recency], List.Pairwise.nil, fun x hx => by cases hx⟩

theorem nodup_kept (history : List (K × V)) (n : Nat) :
    (((recency history).take n).map Prod.fst).Nodup :=
  (nodup_keys_recency history).sublist ((List.take_sublist n _).map _)

section Refines

variable {history : List (K × V)} {tick tick' : BitVec 64} {items l₁ l₂ : List (K × LruCacheItem V)}
  {k : K} {item : LruCacheItem V}

/-- An access to a key that is kept. -/
theorem Ordered.refresh (h : Ordered tick (l₁ ++ (k, item) :: l₂) ((recency history).take n))
    (ht : tick.toNat < tick'.toNat) (v : V) :
    Ordered tick' (l₁ ++ (k, ⟨tick', v⟩) :: l₂) ((recency ((k, v) :: history)).take n) := by
  have hkeys := h.keys_perm.nodup_iff.mpr (nodup_kept history n)
  have hmem : k ∈ ((recency history).take n).map Prod.fst := h.keys_perm.mem_iff.mp (by simp)
  rw [List.map_append, List.map_cons, List.nodup_middle, List.nodup_cons, ← List.map_append] at hkeys
  have hfilter := h.filter_ne k
  have hrest := filter_ne_of_not_mem hkeys.1
  rw [List.filter_append, List.filter_cons_of_neg (by simp), ← List.filter_append, hrest] at hfilter
  have hpush := hfilter.push ht k v List.perm_middle
  obtain ⟨m, rfl⟩ : ∃ m, n = m + 1 := by
    cases n with
    | zero => simp at hmem
    | succ m => exact ⟨m, rfl⟩
  rwa [take_recency_cons, if_pos hmem]

/-- An access to a key that is not, with room for one more. -/
theorem Ordered.admit (h : Ordered tick items ((recency history).take n)) (hn : items.length < n)
    (hk : k ∉ items.map Prod.fst) (ht : tick.toNat < tick'.toNat) (v : V) :
    Ordered tick' (items ++ [(k, ⟨tick', v⟩)]) ((recency ((k, v) :: history)).take n) := by
  have hpush := h.push ht k v (List.perm_append_singleton _ _)
  have hlen := h.keys_perm.length_eq
  simp only [List.length_map, List.length_take] at hlen
  have hnot : k ∉ ((recency history).take n).map Prod.fst := fun hm =>
    hk (h.keys_perm.mem_iff.mpr hm)
  obtain ⟨m, rfl⟩ : ∃ m, n = m + 1 := ⟨n - 1, by omega⟩
  have htake : (recency history).take (m + 1) = (recency history).take m := by
    have hle : (recency history).length ≤ m := by omega
    rw [List.take_of_length_le hle, List.take_of_length_le (hle.trans (Nat.le_succ m))]
  rwa [take_recency_cons, if_neg hnot, ← htake]

/-- An access to a key that is not, in place of the oldest one. -/
theorem Ordered.evict {x : K × LruCacheItem V}
    (h : Ordered tick (l₁ ++ x :: l₂) ((recency history).take n)) (hn : (l₁ ++ x :: l₂).length = n)
    (hx : ∀ y ∈ l₁ ++ x :: l₂, x.2.lastTick.toNat ≤ y.2.lastTick.toNat)
    (hk : k ∉ (l₁ ++ x :: l₂).map Prod.fst) (ht : tick.toNat < tick'.toNat) (v : V) :
    Ordered tick' (l₁ ++ (k, ⟨tick', v⟩) :: l₂) ((recency ((k, v) :: history)).take n) := by
  have hlen := h.keys_perm.length_eq
  simp only [List.length_map, hn, List.length_take] at hlen
  have hnot : k ∉ ((recency history).take n).map Prod.fst := fun hm =>
    hk (h.keys_perm.mem_iff.mpr hm)
  have hpush := (h.dropLast hx).push ht k v List.perm_middle
  obtain ⟨m, rfl⟩ : ∃ m, n = m + 1 := ⟨n - 1, by simp at hn; omega⟩
  have htake : ((recency history).take (m + 1)).dropLast = (recency history).take m := by
    rw [List.dropLast_eq_take, List.length_take, ← hlen, List.take_take]
    simp
  rw [htake] at hpush
  rwa [take_recency_cons, if_neg hnot]

end Refines

/-- The next tick, before it wraps. -/
theorem tick_succ {tick : BitVec 64} (h : tick.toNat + 1 < 2 ^ 64) :
    (tick + 1).toNat = tick.toNat + 1 := by
  rw [BitVec.toNat_add_of_lt (by simpa using h)]
  rfl

variable {c : LruCache K V n} {history : List (K × V)}

/-- A lookup finds a key that is kept, and makes it the newest. -/
theorem get_refines (hc : c.Refines history) (ht : c.tick.toNat + 1 < 2 ^ 64) (key : K) :
    (c.get key).1 = (last key ((recency history).take n)).map Prod.snd ∧
      (c.get key).2.tick = c.tick + 1 ∧
      (c.get key).2.Refines (match (c.get key).1 with
        | none => history
        | some v => (key, v) :: history) := by
  obtain ⟨items, hpacked, hord⟩ := hc
  have hsucc := tick_succ ht
  have hbump := hpacked.withTick (c.tick + 1)
  rw [get]
  rcases hbump.findItem key with ⟨hfind, hnot⟩ | ⟨l₁, item, l₂, rfl, hfind⟩
  · rw [hord.last_eq_none hnot]
    simp only [hfind]
    exact ⟨rfl, trivial, items, hbump, hord.mono (by dsimp only; omega)⟩
  · have hvalue := hbump.valueAt
    have hmem : (key, item) ∈ l₁ ++ (key, item) :: l₂ := by simp
    rw [hord.last_eq (nodup_kept history n) hmem]
    simp only [hfind, hvalue]
    refine ⟨rfl, rfl, _, hbump.modifyItem _, ?_⟩
    exact hord.refresh (by dsimp only [modifyItem]; omega) item.value

/-- An insertion makes its key the newest, in place of the oldest one if the
cache is full. -/
theorem insert_refines (hc : c.Refines history) (hn : 0 < n) (ht : c.tick.toNat + 1 < 2 ^ 64)
    (key : K) (value : V) :
    (c.insert key value).2.tick = c.tick + 1 ∧
      (c.insert key value).2.Refines ((key, value) :: history) := by
  obtain ⟨items, hpacked, hord⟩ := hc
  have hsucc := tick_succ ht
  have hbump := hpacked.withTick (c.tick + 1)
  have hlt : c.tick.toNat < (c.tick + 1).toNat := by omega
  rw [insert]
  rcases hbump.findItem key with ⟨hfind, hnot⟩ | ⟨l₁, item, l₂, rfl, hfind⟩
  · simp only [hfind]
    refine ⟨trivial, ?_⟩
    by_cases hfull : n ≤ c.len
    · have hlen : items.length = n := le_antisymm hpacked.length_le (hpacked.len_eq ▸ hfull)
      obtain ⟨l₁, x, l₂, rfl, hold, hmin⟩ := hbump.oldest (by
        rintro rfl
        simp at hlen
        omega)
      simp only [hfull, if_true, hold, Option.getD_some]
      refine ⟨l₁ ++ (key, ⟨c.tick + 1, value⟩) :: l₂, ⟨?_, ?_, ?_⟩, hord.evict hlen hmin hnot hlt value⟩
      · rw [hpacked.cache_eq]
        simp
      · simpa using hpacked.len_eq
      · simpa using hpacked.length_le
    · have hlen : items.length < n := by
        have hh := hpacked.len_eq
        omega
      simp only [hfull, if_false]
      refine ⟨items ++ [(key, ⟨c.tick + 1, value⟩)], ⟨?_, ?_, ?_⟩, hord.admit hlen hnot hlt value⟩
      · obtain ⟨m, hm⟩ : ∃ m, n - items.length = m + 1 := ⟨n - items.length - 1, by omega⟩
        have hm' : n - (items.length + 1) = m := by omega
        rw [hpacked.cache_eq, hpacked.len_eq, hm, List.set_append_right _ _ (by simp)]
        simp [List.replicate_succ, hm']
      · simpa using hpacked.len_eq
      · rw [List.length_append]
        exact hlen
  · simp only [hfind]
    exact ⟨rfl, _, hbump.modifyItem _, hord.refresh hlt value⟩

end LruCache

end Homescope
