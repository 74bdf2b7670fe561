import Mathlib.Data.List.Basic

/-! Tables as text: `stop` ends a row, `sep` stands between its fields. -/

namespace DelimitedText

variable {α : Type*} {sep stop : α}

/-- A row as it is written. -/
def line (sep stop : α) (cells : List (List α)) : List α := [sep].intercalate cells ++ [stop]

def text (sep stop : α) (rows : List (List (List α))) : List α := rows.flatMap (line sep stop)

/-- Nothing follows the end of the last row. -/
def Complete (stop : α) (s : List α) : Prop := s = [] ∨ s.getLast? = some stop

/-- The rows of a text as a reader takes it apart. -/
def rows [DecidableEq α] (sep stop : α) (s : List α) : List (List (List α)) :=
  (s.splitOn stop).dropLast.map (·.splitOn sep)

/-- A cell that a reader gets back. -/
def Clean (sep stop : α) (cell : List α) : Prop := sep ∉ cell ∧ stop ∉ cell

theorem stop_notMem_intercalate (hne : sep ≠ stop) {cells : List (List α)}
    (h : ∀ cell ∈ cells, Clean sep stop cell) : stop ∉ [sep].intercalate cells := by
  induction cells with
  | nil => simp [List.intercalate]
  | cons cell cells ih =>
    have hcell := h cell List.mem_cons_self
    have hcells := ih fun c hc => h c (List.mem_cons_of_mem cell hc)
    cases cells with
    | nil => simpa [List.intercalate] using hcell.2
    | cons next cells =>
      rw [List.intercalate_cons_of_ne_nil (by simp)]
      simp only [List.mem_append, List.mem_singleton, not_or]
      exact ⟨⟨hcell.2, hne.symm⟩, hcells⟩

theorem complete_text (table : List (List (List α))) : Complete stop (text sep stop table) := by
  rcases List.eq_nil_or_concat table with rfl | ⟨table, cells, rfl⟩
  · exact .inl rfl
  · exact .inr (by simp [text, line])

section Reading

variable [DecidableEq α]

theorem length_splitOn (a : α) (s : List α) : (s.splitOn a).length = s.count a + 1 := by
  induction s with
  | nil => rfl
  | cons b s ih =>
    rw [List.splitOn_cons_eq_if_modifyHead]
    by_cases h : b = a
    · simp [h, ih]
    · simp [h, ih]

theorem splitOn_append_cons (a : α) (s t : List α) :
    (s ++ a :: t).splitOn a = s.splitOn a ++ t.splitOn a := by
  simp only [List.splitOn_eq_splitOnP]
  exact List.splitOnP_append_cons s t (beq_self_eq_true a)

theorem rows_append (s t : List α) :
    rows sep stop (s ++ stop :: t) = (s.splitOn stop).map (·.splitOn sep) ++ rows sep stop t := by
  rw [rows, splitOn_append_cons, List.dropLast_append_of_ne_nil (List.splitOn_ne_nil stop t),
    List.map_append, rows]

theorem rows_text (hne : sep ≠ stop) {table : List (List (List α))}
    (h : ∀ cells ∈ table, cells ≠ [] ∧ ∀ cell ∈ cells, Clean sep stop cell) :
    rows sep stop (text sep stop table) = table := by
  induction table with
  | nil => rfl
  | cons cells table ih =>
    obtain ⟨hcells, hclean⟩ := h cells List.mem_cons_self
    have hrest := ih fun c hc => h c (List.mem_cons_of_mem cells hc)
    have htext : text sep stop (cells :: table) =
        [sep].intercalate cells ++ stop :: text sep stop table := by
      simp [text, line]
    have hstop : ([sep].intercalate cells).splitOn stop = [[sep].intercalate cells] :=
      List.splitOn_eq_singleton (stop_notMem_intercalate hne hclean)
    have hsep : ([sep].intercalate cells).splitOn sep = cells :=
      List.splitOn_intercalate sep (fun c hc => (hclean c hc).1) hcells
    rw [htext, rows_append, hrest, hstop, List.map_singleton, hsep, List.singleton_append]

/-- A line is one row of `n + 1` fields if it holds `n` separators and no end. -/
theorem rows_line_iff {s : List α} {n : Nat} :
    (rows sep stop (s ++ [stop])).map List.length = [n + 1] ↔ s.count sep = n ∧ stop ∉ s := by
  have hrows : rows sep stop (s ++ [stop]) = (s.splitOn stop).map (·.splitOn sep) := by
    rw [rows_append]
    exact List.append_nil _
  rw [hrows]
  constructor
  · intro h
    have hlength := congrArg List.length h
    rw [List.length_map, List.length_map, length_splitOn, List.length_singleton] at hlength
    have hstop : stop ∉ s := List.count_eq_zero.mp (by omega)
    rw [List.splitOn_eq_singleton hstop, List.map_singleton, List.map_singleton, length_splitOn] at h
    exact ⟨by simpa using h, hstop⟩
  · rintro ⟨rfl, hstop⟩
    rw [List.splitOn_eq_singleton hstop, List.map_singleton, List.map_singleton, length_splitOn]

end Reading

end DelimitedText
