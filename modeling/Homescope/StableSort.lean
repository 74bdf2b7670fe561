import Mathlib.Data.List.Sort

/-! Sorting by a key that several elements may share: what the order of the
input leaves behind. -/

namespace StableSort

variable {α κ β : Type*} [LinearOrder κ] {r : α → α → Prop} {key : α → κ}
  (hr : ∀ a b, r a b ↔ key a ≤ key b)

include hr

theorem total : Std.Total r := ⟨fun a b => by
  rw [hr, hr]
  exact le_total _ _⟩

theorem isTrans : IsTrans α r := ⟨fun a b c hab hbc => by
  rw [hr] at *
  exact hab.trans hbc⟩

variable [DecidableRel r]

theorem pairwise_key (l : List α) : (l.insertionSort r).Pairwise (key · ≤ key ·) := by
  have := total hr
  have := isTrans hr
  exact (List.pairwise_insertionSort r l).imp fun h => (hr _ _).mp h

/-- The keys come out alike from every order of the input. -/
theorem map_key_eq {l l' : List α} (h : l.Perm l') :
    (l.insertionSort r).map key = (l'.insertionSort r).map key := by
  have hperm := ((List.perm_insertionSort r l).trans h).trans (List.perm_insertionSort r l').symm
  refine (hperm.map key).eq_of_pairwise' (r := (· ≤ ·)) ?_ ?_
  · exact List.pairwise_map.mpr (pairwise_key hr l)
  · exact List.pairwise_map.mpr (pairwise_key hr l')

theorem orderedInsert_tie {a b : α} (hkey : key a = key b) (l : List α) :
    ∃ before after, (l.orderedInsert r b).orderedInsert r a = before ++ a :: b :: after ∧
      (l.orderedInsert r a).orderedInsert r b = before ++ b :: a :: after := by
  have hab : r a b := (hr a b).mpr hkey.le
  have hba : r b a := (hr b a).mpr hkey.ge
  have hsame : ∀ c, r b c ↔ r a c := fun c => by rw [hr, hr, hkey]
  induction l with
  | nil => exact ⟨[], [], by simp [hab], by simp [hba]⟩
  | cons c l ih =>
    by_cases hc : r a c
    · have hc' := (hsame c).mpr hc
      refine ⟨[], c :: l, ?_, ?_⟩
      · rw [List.orderedInsert_cons_of_le r l hc', List.orderedInsert_cons_of_le r _ hab]
        rfl
      · rw [List.orderedInsert_cons_of_le r l hc, List.orderedInsert_cons_of_le r _ hba]
        rfl
    · obtain ⟨before, after, h, h'⟩ := ih
      exact ⟨c :: before, after, by simp [hsame, hc, h], by simp [hsame, hc, h']⟩

/-- What is seen of the sorted elements does not depend on the order of the
input exactly if elements with one key look alike. -/
theorem map_insertionSort_eq_iff (f : α → β) (l : List α) :
    (∀ l' : List α, l'.Perm l → (l'.insertionSort r).map f = (l.insertionSort r).map f) ↔
      ∀ a ∈ l, ∀ b ∈ l, key a = key b → f a = f b := by
  constructor
  · intro h a ha b hb hkey
    by_cases hab : a = b
    · rw [hab]
    classical
    -- `a` and `b` in front, in either order
    have hb' : b ∈ l.erase a := (List.mem_erase_of_ne (Ne.symm hab)).mpr hb
    have hperm : (a :: b :: (l.erase a).erase b).Perm l :=
      ((List.perm_cons_erase hb').symm.cons a).trans (List.perm_cons_erase ha).symm
    have hsort := (h _ hperm).trans (h _ ((List.Perm.swap a b _).trans hperm)).symm
    obtain ⟨before, after, hfirst, hsecond⟩ := orderedInsert_tie hr hkey
      (((l.erase a).erase b).insertionSort r)
    rw [List.insertionSort_cons, List.insertionSort_cons, hfirst, List.insertionSort_cons,
      List.insertionSort_cons, hsecond, List.map_append, List.map_append] at hsort
    exact (List.cons.inj (List.append_cancel_left hsort)).1
  · intro h l' hl
    have hkeys := map_key_eq hr hl
    have hmem : ∀ a ∈ l'.insertionSort r, a ∈ l := fun a ha =>
      hl.subset ((List.mem_insertionSort r).mp ha)
    have hmem' : ∀ a ∈ l.insertionSort r, a ∈ l := fun a ha => (List.mem_insertionSort r).mp ha
    generalize l'.insertionSort r = xs at hkeys hmem
    generalize l.insertionSort r = ys at hkeys hmem'
    induction xs generalizing ys with
    | nil => rw [List.map_eq_nil_iff.mp hkeys.symm]
    | cons x xs ih =>
      cases ys with
      | nil => cases hkeys
      | cons y ys =>
        obtain ⟨hkey, hkeys⟩ := List.cons.inj hkeys
        have hxy := h x (hmem x List.mem_cons_self) y (hmem' y List.mem_cons_self) hkey
        have htail := ih (fun a ha => hmem a (List.mem_cons_of_mem x ha)) ys hkeys
          fun a ha => hmem' a (List.mem_cons_of_mem y ha)
        rw [List.map_cons, List.map_cons, hxy, htail]

end StableSort
