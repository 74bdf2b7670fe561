import Homescope.KeyedRows
import Mathlib.Data.List.Dedup
import Mathlib.Order.Bounds.Basic

/-! Half-open periods that run from each instant of a set to the next one, and
the window that finds the ends over rows in any order. -/

namespace Periods

section Next

variable {T : Type*} [LinearOrder T]

/-- `e` is the instant of `s` that follows `a`, if there is one. -/
def IsNext (s : Set T) (a : T) : Option T → Prop
  | none => ∀ b ∈ s, b ≤ a
  | some b => IsLeast {c ∈ s | a < c} b

/-- The period from `a` up to `e`, or without end. -/
def Covers (a : T) (e : Option T) (time : T) : Prop := a ≤ time ∧ ∀ b ∈ e, time < b

variable {s : Set T} {a x : T} {e e' : Option T}

theorem IsNext.unique (h : IsNext s a e) (h' : IsNext s a e') : e = e' := by
  cases e with
  | none =>
    cases e' with
    | none => rfl
    | some c => exact absurd h'.1.2 (not_lt.mpr (h c h'.1.1))
  | some b =>
    cases e' with
    | none => exact absurd h.1.2 (not_lt.mpr (h' b h.1.1))
    | some c => exact congrArg some (IsLeast.unique h h')

theorem IsNext.not_between (h : IsNext s a e) {b : T} (hb : b ∈ s) (hab : a < b)
    (hx : Covers a e x) : x < b := by
  cases e with
  | none => exact absurd hab (not_lt.mpr (h b hb))
  | some c => exact (hx.2 c rfl).trans_le (h.2 ⟨hb, hab⟩)

/-- The period that starts at `a` is the one of the instants whose latest
start is `a`. -/
theorem IsNext.covers_iff (h : IsNext s a e) (ha : a ∈ s) :
    Covers a e x ↔ IsGreatest {b ∈ s | b ≤ x} a := by
  constructor
  · intro hx
    refine ⟨⟨ha, hx.1⟩, ?_⟩
    rintro b ⟨hb, hbx⟩
    by_contra hab
    exact absurd (h.not_between hb (not_le.mp hab) hx) (not_lt.mpr hbx)
  · rintro ⟨⟨-, hax⟩, hgreatest⟩
    refine ⟨hax, ?_⟩
    rintro b rfl
    by_contra hbx
    have hle : b ≤ a := hgreatest ⟨h.1.1, not_lt.mp hbx⟩
    exact absurd h.1.2 (not_lt.mpr hle)

/-- What follows an instant also follows the new ones before its end. -/
theorem IsNext.of_covers (h : IsNext s a e) (hx : Covers a e x) : IsNext s x e := by
  cases e with
  | none => exact fun b hb => (h b hb).trans hx.1
  | some c =>
    refine ⟨⟨h.1.1, hx.2 c rfl⟩, ?_⟩
    rintro b ⟨hb, hxb⟩
    exact h.2 ⟨hb, hx.1.trans_lt hxb⟩

theorem isNext_insert_self : IsNext (insert x s) x e ↔ IsNext s x e := by
  have hset : {c ∈ insert x s | x < c} = {c ∈ s | x < c} := by
    ext c
    simp only [Set.mem_ofPred_eq, Set.mem_insert_iff]
    constructor
    · rintro ⟨rfl | hc, hlt⟩
      · exact absurd hlt (lt_irrefl c)
      · exact ⟨hc, hlt⟩
    · rintro ⟨hc, hlt⟩
      exact ⟨.inr hc, hlt⟩
  cases e with
  | none => simp only [IsNext, Set.mem_insert_iff, forall_eq_or_imp, le_refl, true_and]
  | some b => simp only [IsNext, hset]

/-- A new instant ends the period it falls into. -/
theorem IsNext.insert_of_covers (h : IsNext s a e) (hx : Covers a e x) (hne : a ≠ x) :
    IsNext (insert x s) a (some x) := by
  have hax : a < x := lt_of_le_of_ne hx.1 hne
  refine ⟨⟨Set.mem_insert x s, hax⟩, ?_⟩
  rintro b ⟨rfl | hb, hab⟩
  · exact le_rfl
  · exact (h.not_between hb hab hx).le

theorem IsNext.insert_of_not_covers (h : IsNext s a e) (hx : ¬Covers a e x) :
    IsNext (insert x s) a e := by
  cases e with
  | none =>
    have hxa : x < a := by
      refine not_le.mp fun hax => hx ⟨hax, ?_⟩
      rintro _ ⟨⟩
    rintro b (rfl | hb)
    · exact hxa.le
    · exact h b hb
  | some c =>
    refine ⟨⟨Set.mem_insert_of_mem x h.1.1, h.1.2⟩, ?_⟩
    rintro b ⟨rfl | hb, hab⟩
    · by_contra hcb
      refine hx ⟨hab.le, ?_⟩
      rintro _ ⟨⟩
      exact not_le.mp hcb
    · exact h.2 ⟨hb, hab⟩

end Next

section Lead

variable {α T : Type*} [LinearOrder T] {key : α → T}

/-- `lead(key)` over rows in order: each row with the key of the one after it. -/
def lead (key : α → T) : List α → List (α × Option T)
  | [] => []
  | a :: rows => (a, rows.head?.map key) :: lead key rows

omit [LinearOrder T] in
theorem map_fst_lead (rows : List α) : (lead key rows).map Prod.fst = rows := by
  induction rows with
  | nil => rfl
  | cons a rows ih => rw [lead, List.map_cons, ih]

theorem isNext_head? {a : α} {rows : List α}
    (h : (a :: rows).Pairwise fun p q => key p < key q) (earlier : Set T)
    (hearlier : ∀ b ∈ earlier, b ≤ key a) :
    IsNext (earlier ∪ {t | ∃ q ∈ a :: rows, key q = t}) (key a) (rows.head?.map key) := by
  obtain ⟨hfirst, hrest⟩ := List.pairwise_cons.mp h
  cases rows with
  | nil =>
    rintro b (hb | ⟨q, hq, rfl⟩)
    · exact hearlier b hb
    · rw [List.mem_singleton.mp hq]
  | cons c rows =>
    refine ⟨⟨.inr ⟨c, by simp, rfl⟩, hfirst c List.mem_cons_self⟩, ?_⟩
    rintro b ⟨hb | ⟨q, hq, rfl⟩, hlt⟩
    · exact absurd (hearlier b hb) (not_le.mpr hlt)
    · rcases List.mem_cons.mp hq with rfl | hq
      · exact absurd hlt (lt_irrefl _)
      · rcases List.mem_cons.mp hq with rfl | hq
        · exact le_rfl
        · exact ((List.pairwise_cons.mp hrest).1 q hq).le

/-- Over rows in strict order the window finds the next instant of them all. -/
theorem isNext_of_mem_lead {rows : List α} (h : rows.Pairwise fun p q => key p < key q)
    (earlier : Set T) (hearlier : ∀ b ∈ earlier, ∀ q ∈ rows, b ≤ key q) {x : α × Option T}
    (hx : x ∈ lead key rows) :
    IsNext (earlier ∪ {t | ∃ q ∈ rows, key q = t}) (key x.1) x.2 := by
  induction rows generalizing earlier with
  | nil => exact absurd hx List.not_mem_nil
  | cons a rows ih =>
    rcases List.mem_cons.mp hx with rfl | hx
    · exact isNext_head? h earlier fun b hb => hearlier b hb a List.mem_cons_self
    · obtain ⟨hfirst, hrest⟩ := List.pairwise_cons.mp h
      have hset : earlier ∪ {t | ∃ q ∈ a :: rows, key q = t} =
          insert (key a) earlier ∪ {t | ∃ q ∈ rows, key q = t} := by
        ext t
        simp only [Set.mem_union, Set.mem_ofPred_eq, Set.mem_insert_iff, List.mem_cons,
          exists_eq_or_imp, eq_comm (a := t)]
        tauto
      rw [hset]
      refine ih hrest (insert (key a) earlier) ?_ hx
      rintro b (rfl | hb) q hq
      · exact (hfirst q hq).le
      · exact hearlier b hb q (List.mem_cons_of_mem a hq)

end Lead

section Window

variable {α κ T : Type*} [DecidableEq κ] [LinearOrder T] (part : α → κ) (key : α → T)

/-- The rows of one partition in the order of their key. -/
def partition (rows : List α) (k : κ) : List α :=
  (rows.filter fun a => part a = k).mergeSort fun a b => key a ≤ key b

/-- `lead(key) OVER (PARTITION BY part ORDER BY key)`. -/
def leadOver (rows : List α) : List (α × Option T) :=
  (rows.map part).dedup.flatMap fun k => lead key (partition part key rows k)

/-- The instants of a partition. -/
def instants (rows : List α) (k : κ) : Set T := {t | ∃ a ∈ rows, part a = k ∧ key a = t}

variable {part key} {rows : List α}

theorem mem_partition {k : κ} {a : α} :
    a ∈ partition part key rows k ↔ a ∈ rows ∧ part a = k := by
  simp only [partition, List.mem_mergeSort, List.mem_filter, decide_eq_true_eq]

theorem map_fst_leadOver : (leadOver part key rows).map Prod.fst =
    (rows.map part).dedup.flatMap (partition part key rows) := by
  simp only [leadOver, List.map_flatMap, map_fst_lead]

theorem mem_map_fst_leadOver {a : α} :
    a ∈ (leadOver part key rows).map Prod.fst ↔ a ∈ rows := by
  simp only [map_fst_leadOver, List.mem_flatMap, List.mem_dedup, mem_partition]
  constructor
  · rintro ⟨-, -, ha, -⟩
    exact ha
  · intro ha
    exact ⟨part a, List.mem_map_of_mem ha, ha, rfl⟩

abbrev Keyed (part : α → κ) (key : α → T) (rows : List α) : Prop :=
  KeyedRows.Unique (fun a => (part a, key a)) rows

theorem Keyed.partition_nodup (h : Keyed part key rows) (k : κ) :
    (partition part key rows k).Nodup :=
  (List.mergeSort_perm _ _).nodup_iff.mpr (h.nodup.filter _)

theorem Keyed.partition_pairwise (h : Keyed part key rows) (k : κ) :
    (partition part key rows k).Pairwise fun a b => key a < key b := by
  have hsorted : (partition part key rows k).Pairwise fun a b => key a ≤ key b := by
    refine (List.pairwise_mergeSort ?_ ?_ _).imp of_decide_eq_true
    · intro a b c hab hbc
      exact decide_eq_true ((of_decide_eq_true hab).trans (of_decide_eq_true hbc))
    · intro a b
      simpa using le_total (key a) (key b)
  refine (hsorted.and (h.partition_nodup k)).imp_of_mem ?_
  intro a b ha hb hab
  refine lt_of_le_of_ne hab.1 fun hkey => hab.2 ?_
  obtain ⟨ha, hak⟩ := mem_partition.mp ha
  obtain ⟨hb, hbk⟩ := mem_partition.mp hb
  exact h.eq_of_key a ha b hb (Prod.ext (hak.trans hbk.symm) hkey)

/-- Every row once. -/
theorem Keyed.map_fst_leadOver_perm (h : Keyed part key rows) :
    ((leadOver part key rows).map Prod.fst).Perm rows := by
  have hnodup : ((leadOver part key rows).map Prod.fst).Nodup := by
    rw [map_fst_leadOver, List.nodup_flatMap]
    refine ⟨fun k _ => h.partition_nodup k, ?_⟩
    refine (List.nodup_dedup _).imp ?_
    intro k k' hne a ha ha'
    exact hne ((mem_partition.mp ha).2.symm.trans (mem_partition.mp ha').2)
  exact (List.perm_ext_iff_of_nodup hnodup h.nodup).mpr fun a => mem_map_fst_leadOver

theorem Keyed.leadOver_nodup (h : Keyed part key rows) : (leadOver part key rows).Nodup :=
  List.Nodup.of_map Prod.fst (h.map_fst_leadOver_perm.nodup_iff.mpr h.nodup)

theorem Keyed.isNext_of_mem (h : Keyed part key rows) {x : α × Option T}
    (hx : x ∈ leadOver part key rows) :
    IsNext (instants part key rows (part x.1)) (key x.1) x.2 := by
  obtain ⟨k, -, hlead⟩ := List.mem_flatMap.mp hx
  have hmem : x.1 ∈ partition part key rows k := by
    rw [← map_fst_lead (partition part key rows k)]
    exact List.mem_map_of_mem hlead
  have hnext := isNext_of_mem_lead (h.partition_pairwise k) ∅ (by simp) hlead
  simp only [Set.empty_union, mem_partition, and_assoc] at hnext
  rw [(mem_partition.mp hmem).2]
  exact hnext

/-- The window gives each row the instant that follows it in its partition. -/
theorem Keyed.mem_leadOver (h : Keyed part key rows) {a : α} {e : Option T} :
    (a, e) ∈ leadOver part key rows ↔
      a ∈ rows ∧ IsNext (instants part key rows (part a)) (key a) e := by
  constructor
  · intro ha
    exact ⟨mem_map_fst_leadOver.mp (List.mem_map_of_mem ha), h.isNext_of_mem ha⟩
  · rintro ⟨ha, hnext⟩
    have hfst : a ∈ (leadOver part key rows).map Prod.fst := mem_map_fst_leadOver.mpr ha
    obtain ⟨⟨b, e'⟩, hmem, rfl⟩ := List.mem_map.mp hfst
    have he : e' = e := (h.isNext_of_mem hmem).unique hnext
    rwa [he] at hmem

/-- A list with every row once and each with its own end is the window's. -/
theorem Keyed.leadOver_perm (h : Keyed part key rows) {l : List (α × Option T)}
    (hfst : (l.map Prod.fst).Perm rows) (hmem : ∀ x ∈ l, x ∈ leadOver part key rows) :
    (leadOver part key rows).Perm l := by
  have hnodup : l.Nodup := List.Nodup.of_map Prod.fst (hfst.nodup_iff.mpr h.nodup)
  have hlength : (leadOver part key rows).length ≤ l.length := by
    rw [← List.length_map (f := Prod.fst), h.map_fst_leadOver_perm.length_eq, ← hfst.length_eq,
      List.length_map]
  exact ((List.subperm_of_subset hnodup hmem).perm_of_length_le hlength).symm

section Insert

variable {r : α}

omit [DecidableEq κ] [LinearOrder T] in
theorem instants_cons_self :
    instants part key (r :: rows) (part r) = insert (key r) (instants part key rows (part r)) := by
  ext t
  simp only [instants, List.mem_cons, Set.mem_ofPred_eq, Set.mem_insert_iff, exists_eq_or_imp,
    true_and, eq_comm (a := t)]

omit [DecidableEq κ] [LinearOrder T] in
theorem instants_cons_of_ne {k : κ} (hk : part r ≠ k) :
    instants part key (r :: rows) k = instants part key rows k := by
  ext t
  simp only [instants, List.mem_cons, Set.mem_ofPred_eq, exists_eq_or_imp, hk, false_and, false_or]

omit [DecidableEq κ] [LinearOrder T] in
theorem Keyed.tail (h : Keyed part key (r :: rows)) : Keyed part key rows := h.of_cons

theorem Keyed.mem_leadOver_cons_self (h : Keyed part key (r :: rows)) {e : Option T} :
    (r, e) ∈ leadOver part key (r :: rows) ↔
      IsNext (instants part key rows (part r)) (key r) e := by
  rw [h.mem_leadOver, instants_cons_self, isNext_insert_self]
  exact and_iff_right List.mem_cons_self

/-- A period that the new instant does not fall into stays as it is. -/
theorem Keyed.mem_leadOver_cons (h : Keyed part key (r :: rows)) {x : α × Option T}
    (hx : x ∈ leadOver part key rows)
    (hcovers : part x.1 = part r → ¬Covers (key x.1) x.2 (key r)) :
    x ∈ leadOver part key (r :: rows) := by
  obtain ⟨hmem, hnext⟩ := h.tail.mem_leadOver.mp hx
  refine h.mem_leadOver.mpr ⟨List.mem_cons_of_mem r hmem, ?_⟩
  by_cases hpart : part x.1 = part r
  · rw [hpart, instants_cons_self]
    rw [hpart] at hnext
    exact hnext.insert_of_not_covers (hcovers hpart)
  · rwa [instants_cons_of_ne fun hr => hpart hr.symm]

/-- Two periods of one partition that cover the same instant are one. -/
theorem Keyed.eq_of_covers (h : Keyed part key rows) {x y : α × Option T} {time : T}
    (hx : x ∈ leadOver part key rows) (hy : y ∈ leadOver part key rows)
    (hpart : part x.1 = part y.1) (hxt : Covers (key x.1) x.2 time)
    (hyt : Covers (key y.1) y.2 time) : x = y := by
  obtain ⟨hxmem, hxnext⟩ := h.mem_leadOver.mp hx
  obtain ⟨hymem, hynext⟩ := h.mem_leadOver.mp hy
  rw [hpart] at hxnext
  have hxgreatest := (hxnext.covers_iff ⟨x.1, hxmem, hpart, rfl⟩).mp hxt
  have hygreatest := (hynext.covers_iff ⟨y.1, hymem, rfl, rfl⟩).mp hyt
  have hkey : key x.1 = key y.1 := hxgreatest.unique hygreatest
  have hfst : x.1 = y.1 := h.eq_of_key x.1 hxmem y.1 hymem (Prod.ext hpart hkey)
  rw [hkey] at hxnext
  exact Prod.ext hfst (hxnext.unique hynext)

/-- A new row splits the period that its instant falls into. -/
theorem Keyed.leadOver_split (h : Keyed part key (r :: rows)) {a : α} {e : Option T}
    {rest : List (α × Option T)} (hold : (leadOver part key rows).Perm ((a, e) :: rest))
    (hpart : part a = part r) (hcovers : Covers (key a) e (key r)) :
    (leadOver part key (r :: rows)).Perm ((a, some (key r)) :: (r, e) :: rest) := by
  have hmem : (a, e) ∈ leadOver part key rows := hold.mem_iff.mpr List.mem_cons_self
  obtain ⟨ha, hnext⟩ := h.tail.mem_leadOver.mp hmem
  have hne : key a ≠ key r := fun hkey =>
    (List.pairwise_cons.mp h).1 a ha (Prod.ext hpart.symm hkey.symm)
  have hfst : (a :: rest.map Prod.fst).Perm rows :=
    (hold.map Prod.fst).symm.trans h.tail.map_fst_leadOver_perm
  refine h.leadOver_perm ((List.Perm.swap _ _ _).trans (hfst.cons r)) ?_
  intro x hx
  rcases List.mem_cons.mp hx with rfl | hx
  · refine h.mem_leadOver.mpr ⟨List.mem_cons_of_mem r ha, ?_⟩
    rw [hpart] at hnext ⊢
    rw [instants_cons_self]
    exact hnext.insert_of_covers hcovers hne
  rcases List.mem_cons.mp hx with rfl | hx
  · rw [hpart] at hnext
    exact h.mem_leadOver_cons_self.mpr (hnext.of_covers hcovers)
  · have hxold : x ∈ leadOver part key rows := hold.mem_iff.mpr (List.mem_cons_of_mem _ hx)
    refine h.mem_leadOver_cons hxold fun hxpart hxcovers => ?_
    have heq := h.tail.eq_of_covers hxold hmem (hxpart.trans hpart.symm) hxcovers hcovers
    have hnodup := hold.nodup_iff.mp h.tail.leadOver_nodup
    exact (List.nodup_cons.mp hnodup).1 (heq ▸ hx)

/-- A new row before all others of its partition adds one period. -/
theorem Keyed.leadOver_first (h : Keyed part key (r :: rows)) {e : Option T}
    (hnext : IsNext (instants part key rows (part r)) (key r) e)
    (hfirst : ∀ a ∈ rows, part a = part r → key r < key a) :
    (leadOver part key (r :: rows)).Perm ((r, e) :: leadOver part key rows) := by
  refine h.leadOver_perm (h.tail.map_fst_leadOver_perm.cons r) ?_
  intro x hx
  rcases List.mem_cons.mp hx with rfl | hx
  · exact h.mem_leadOver_cons_self.mpr hnext
  · refine h.mem_leadOver_cons hx fun hpart hcovers => ?_
    have hlt := hfirst x.1 (h.tail.mem_leadOver.mp hx).1 hpart
    exact absurd hcovers.1 (not_le.mpr hlt)

end Insert

end Window

end Periods
