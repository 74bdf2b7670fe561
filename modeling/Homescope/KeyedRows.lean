import Mathlib.Data.List.Nodup
import Mathlib.Data.List.Perm.Basic

/-! Rows with a unique key, inserted unless their key is taken. -/

namespace KeyedRows

variable {α κ : Type*} [DecidableEq κ] (key : α → κ)

def insertNew (rows : List α) (r : α) : List α :=
  if rows.any (fun q => key q = key r) then rows else r :: rows

def Unique (rows : List α) : Prop := rows.Pairwise fun p q => key p ≠ key q

variable {key}

theorem any_key {rows : List α} {r : α} :
    rows.any (fun q => key q = key r) = true ↔ ∃ q ∈ rows, key q = key r := by
  simp only [List.any_eq_true, decide_eq_true_eq]

theorem mem_insertNew {rows : List α} {r q : α} :
    q ∈ insertNew key rows r ↔ q ∈ rows ∨ (q = r ∧ ∀ p ∈ rows, key p ≠ key q) := by
  simp only [insertNew, any_key]
  split
  · rename_i htaken
    obtain ⟨p, hp, hkey⟩ := htaken
    refine ⟨.inl, fun h => h.resolve_right ?_⟩
    rintro ⟨rfl, hfree⟩
    exact hfree p hp hkey
  · rename_i hfree
    push Not at hfree
    rw [List.mem_cons]
    constructor
    · rintro (rfl | h)
      · exact .inr ⟨rfl, hfree⟩
      · exact .inl h
    · rintro (h | ⟨rfl, -⟩)
      · exact .inr h
      · exact .inl rfl

theorem Unique.insertNew {rows : List α} (h : Unique key rows) (r : α) :
    Unique key (insertNew key rows r) := by
  simp only [KeyedRows.insertNew, any_key]
  split
  · exact h
  · rename_i hfree
    push Not at hfree
    exact List.pairwise_cons.mpr ⟨fun q hq => (hfree q hq).symm, h⟩

theorem Unique.foldl {rows : List α} (h : Unique key rows) (rs : List α) :
    Unique key (rs.foldl (KeyedRows.insertNew key) rows) := by
  induction rs generalizing rows with
  | nil => exact h
  | cons r rs ih => exact ih (h.insertNew r)

omit [DecidableEq κ] in
theorem Unique.nodup {rows : List α} (h : Unique key rows) : rows.Nodup :=
  h.imp fun hne => ne_of_apply_ne key hne

omit [DecidableEq κ] in
theorem Unique.eq_of_key {rows : List α} (h : Unique key rows) :
    ∀ p ∈ rows, ∀ q ∈ rows, key p = key q → p = q := by
  have hnodup : (rows.map key).Nodup := List.pairwise_map.mpr h
  exact fun p hp q hq hkey => List.inj_on_of_nodup_map hnodup hp hq hkey

theorem mem_foldl_of_mem {rows : List α} {q : α} (h : q ∈ rows) (rs : List α) :
    q ∈ rs.foldl (insertNew key) rows := by
  induction rs generalizing rows with
  | nil => exact h
  | cons r rs ih => exact ih (mem_insertNew.mpr (.inl h))

/-- Nothing else is ever a row. -/
theorem mem_of_mem_foldl {rs rows : List α} {q : α} (h : q ∈ rs.foldl (insertNew key) rows) :
    q ∈ rows ∨ q ∈ rs := by
  induction rs generalizing rows with
  | nil => exact .inl h
  | cons r rs ih =>
    rcases ih h with h | h
    · rcases mem_insertNew.mp h with h | ⟨rfl, -⟩
      · exact .inl h
      · exact .inr List.mem_cons_self
    · exact .inr (List.mem_cons_of_mem _ h)

variable (key) in
theorem exists_key_insertNew (rows : List α) (r : α) : ∃ q ∈ insertNew key rows r, key q = key r := by
  by_cases htaken : ∃ q ∈ rows, key q = key r
  · obtain ⟨q, hq, hkey⟩ := htaken
    exact ⟨q, mem_insertNew.mpr (.inl hq), hkey⟩
  · push Not at htaken
    exact ⟨r, mem_insertNew.mpr (.inr ⟨rfl, htaken⟩), rfl⟩

variable (key) in
/-- Whatever is inserted, its key is taken afterwards. -/
theorem exists_key_foldl {rs : List α} {r : α} (h : r ∈ rs) (rows : List α) :
    ∃ q ∈ rs.foldl (insertNew key) rows, key q = key r := by
  induction rs generalizing rows with
  | nil => cases h
  | cons r' rs ih =>
    rcases List.mem_cons.mp h with rfl | h
    · obtain ⟨q, hq, hkey⟩ := exists_key_insertNew key rows r
      exact ⟨q, mem_foldl_of_mem hq rs, hkey⟩
    · exact ih h _

/-- One row for each key, as long as equal keys come with equal rows. -/
theorem mem_foldl {rs : List α} (hagree : ∀ r ∈ rs, ∀ r' ∈ rs, key r = key r' → r = r')
    (rows : List α) (q : α) : q ∈ rs.foldl (insertNew key) rows ↔
      q ∈ rows ∨ (q ∈ rs ∧ ∀ p ∈ rows, key p ≠ key q) := by
  induction rs generalizing rows with
  | nil => simp
  | cons r rs ih =>
    have hrs : ∀ r ∈ rs, ∀ r' ∈ rs, key r = key r' → r = r' :=
      fun r hr r' hr' => hagree r (List.mem_cons_of_mem _ hr) r' (List.mem_cons_of_mem _ hr')
    rw [List.foldl_cons, ih hrs, mem_insertNew, List.mem_cons]
    constructor
    · rintro ((h | ⟨rfl, hfree⟩) | ⟨h, hfree⟩)
      · exact .inl h
      · exact .inr ⟨.inl rfl, hfree⟩
      · exact .inr ⟨.inr h, fun p hp => hfree p (mem_insertNew.mpr (.inl hp))⟩
    · rintro (h | ⟨rfl | h, hfree⟩)
      · exact .inl (.inl h)
      · exact .inl (.inr ⟨rfl, hfree⟩)
      · by_cases hkey : key r = key q
        · obtain rfl := hagree r List.mem_cons_self q (List.mem_cons_of_mem _ h) hkey
          exact .inl (.inr ⟨rfl, hfree⟩)
        · refine .inr ⟨h, fun p hp => ?_⟩
          rcases mem_insertNew.mp hp with hp | ⟨rfl, -⟩
          · exact hfree p hp
          · exact hkey

/-- The order and the multiplicity of the insertions do not matter. -/
theorem foldl_perm {rows rs rs' : List α} (h : Unique key rows)
    (hagree : ∀ r ∈ rs, ∀ r' ∈ rs, key r = key r' → r = r') (hset : ∀ r, r ∈ rs ↔ r ∈ rs') :
    (rs.foldl (insertNew key) rows).Perm (rs'.foldl (insertNew key) rows) := by
  have hagree' : ∀ r ∈ rs', ∀ r' ∈ rs', key r = key r' → r = r' :=
    fun r hr r' hr' => hagree r ((hset r).mpr hr) r' ((hset r').mpr hr')
  refine (List.perm_ext_iff_of_nodup (h.foldl rs).nodup (h.foldl rs').nodup).mpr fun q => ?_
  rw [mem_foldl hagree, mem_foldl hagree', hset]

end KeyedRows
