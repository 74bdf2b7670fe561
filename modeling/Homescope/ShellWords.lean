import Homescope.Strings

/-! Values quoted for a POSIX shell (Python's `shlex.quote`), and the
assignments that bash reads them back from. -/

namespace Shell

open Homescope

/-- The characters of ASCII that a shell takes as they are. -/
def safe (c : Char) : Bool :=
  isAsciiDigit c || ('a' ≤ c && c ≤ 'z') || ('A' ≤ c && c ≤ 'Z') || "_@%+=:,./-".toList.contains c

/-- A single quote ends the quotes and is put in double ones. -/
def escape (c : Char) : Text := if c = '\'' then "'\"'\"'".toList else [c]

def quote (s : Text) : Text :=
  if s = [] then "''".toList
  else if s.all safe then s
  else '\'' :: (s.flatMap escape ++ ['\''])

inductive Quoting
  | bare
  | single
  | double

/-- A word up to the newline that ends its command, and what comes after. A
character that means more than itself to the shell is not read. -/
def word : Quoting → Text → Option (Text × Text)
  | .bare, [] => some ([], [])
  | .single, [] => none
  | .double, [] => none
  | .bare, c :: s =>
    if c = '\n' then some ([], s)
    else if c = '\'' then word .single s
    else if c = '"' then word .double s
    else if safe c then (word .bare s).map fun p => (c :: p.1, p.2)
    else none
  | .single, c :: s =>
    if c = '\'' then word .bare s else (word .single s).map fun p => (c :: p.1, p.2)
  | .double, c :: s =>
    if c = '"' then word .bare s
    else if "$`\\!".toList.contains c then none
    else (word .double s).map fun p => (c :: p.1, p.2)

/-- The assignments of a script, one command a line, no more than `n`. -/
def assignments : Nat → Text → Option (List (Text × Text))
  | _, [] => some []
  | 0, _ :: _ => none
  | n + 1, c :: s =>
    match splitOnceChar '=' (c :: s) with
    | none => none
    | some (name, s) =>
      match word .bare s with
      | none => none
      | some (value, rest) => (assignments n rest).map ((name, value) :: ·)

/-- A variable holds no NUL. -/
def dropNul (s : Text) : Text := s.filter (· ≠ '\x00')

/-- `$(...)` of what a command prints. -/
def capture (s : Text) : Text := (dropNul s).rdropWhile (· == '\n')

/-- A line of the script. -/
def assignment (p : Text × Text) : Text := p.1 ++ '=' :: quote p.2

def script (ps : List (Text × Text)) : Text := List.intercalate ['\n'] (ps.map assignment)

/-- The words of an unquoted expansion. -/
def words (s : Text) : List Text :=
  (s.splitOnP fun c => c == ' ' || c == '\t' || c == '\n').filter (· ≠ [])

/-- A newline ends each line, as `echo`, a here-document and `printf '%s\n'`
put it. -/
def unlines (ls : List Text) : Text := ls.flatMap (· ++ ['\n'])

/-- The last line may lack its newline. -/
def lines (s : Text) : List Text :=
  let pieces := s.splitOn '\n'
  if pieces.getLast? = some [] then pieces.dropLast else pieces

/-- One line, which a variable holds as it is. -/
def IsLine (s : Text) : Prop := '\n' ∉ s ∧ '\x00' ∉ s

instance : DecidablePred IsLine := fun _ => inferInstanceAs (Decidable (_ ∧ _))

variable {s rest : Text}

/-! ### Lines -/

theorem IsLine.append {t : Text} (hs : IsLine s) (ht : IsLine t) : IsLine (s ++ t) :=
  ⟨fun h => (List.mem_append.mp h).elim hs.1 ht.1, fun h => (List.mem_append.mp h).elim hs.2 ht.2⟩

theorem splitOn_unlines {ls : List Text} (h : ∀ l ∈ ls, IsLine l) :
    (unlines ls).splitOn '\n' = ls ++ [[]] := by
  induction ls with
  | nil => rfl
  | cons l ls ih =>
    obtain ⟨hl, hls⟩ := List.forall_mem_cons.mp h
    have hcons : unlines (l :: ls) = l ++ '\n' :: unlines ls := by simp [unlines]
    rw [hcons, List.splitOn_append_cons_self_of_not_mem hl.1, ih hls, List.cons_append]

theorem lines_unlines {ls : List Text} (h : ∀ l ∈ ls, IsLine l) : lines (unlines ls) = ls := by
  simp only [lines, splitOn_unlines h, List.getLast?_concat, if_pos, List.dropLast_concat]

/-! ### Assignments -/

theorem dropNul_append (s t : Text) : dropNul (s ++ t) = dropNul s ++ dropNul t :=
  List.filter_append ..

theorem dropNul_eq_self_iff : dropNul s = s ↔ '\x00' ∉ s := by
  rw [dropNul, List.filter_eq_self]
  simp only [decide_eq_true_eq]
  exact ⟨fun h hmem => h _ hmem rfl, fun h c hc => ne_of_mem_of_not_mem hc h⟩

theorem dropNul_escape (c : Char) : dropNul (escape c) = (dropNul [c]).flatMap escape := by
  by_cases hc : c = '\''
  · subst hc
    decide
  · by_cases hnul : c = '\x00'
    · subst hnul
      decide
    · simp [escape, hc, dropNul, hnul]

theorem dropNul_flatMap_escape (s : Text) :
    dropNul (s.flatMap escape) = (dropNul s).flatMap escape := by
  induction s with
  | nil => rfl
  | cons c s ih =>
    have hcons : dropNul (c :: s) = dropNul [c] ++ dropNul s := dropNul_append [c] s
    rw [List.flatMap_cons, dropNul_append, ih, dropNul_escape, hcons, List.flatMap_append]

theorem word_safe (hs : s.all safe = true) :
    word .bare (s ++ rest) = (word .bare rest).map fun p => (s ++ p.1, p.2) := by
  induction s with
  | nil => simp
  | cons c s ih =>
    obtain ⟨hc, hs⟩ := Bool.and_eq_true_iff.mp hs
    have hnewline : c ≠ '\n' := by
      rintro rfl
      exact absurd hc (by decide)
    have hsingle : c ≠ '\'' := by
      rintro rfl
      exact absurd hc (by decide)
    have hdouble : c ≠ '"' := by
      rintro rfl
      exact absurd hc (by decide)
    rw [List.cons_append, word, if_neg hnewline, if_neg hsingle, if_neg hdouble, if_pos hc, ih hs,
      Option.map_map]
    rfl

theorem word_single : word .single (s.flatMap escape ++ '\'' :: rest) =
    (word .bare rest).map fun p => (s ++ p.1, p.2) := by
  induction s with
  | nil => simp [word]
  | cons c s ih =>
    rw [List.flatMap_cons, List.append_assoc]
    by_cases hc : c = '\''
    · subst hc
      have hescaped : word .single (escape '\'' ++ (s.flatMap escape ++ '\'' :: rest)) =
          (word .single (s.flatMap escape ++ '\'' :: rest)).map fun p => ('\'' :: p.1, p.2) := by
        simp [escape, word]
      rw [hescaped, ih, Option.map_map]
      rfl
    · rw [escape, if_neg hc, List.singleton_append, word, if_neg hc, ih, Option.map_map]
      rfl

/-- A quoted value is read back, less its NULs. -/
theorem word_quote (v rest : Text) : word .bare (dropNul (quote v) ++ rest) =
    (word .bare rest).map fun p => (dropNul v ++ p.1, p.2) := by
  rw [quote]
  split
  · rename_i hnil
    subst hnil
    simp [word, dropNul]
  · split
    · rename_i hsafe
      have hnul : '\x00' ∉ v := fun hmem => absurd (List.all_eq_true.mp hsafe _ hmem) (by decide)
      rw [dropNul_eq_self_iff.mpr hnul, word_safe hsafe]
    · have hdrop : dropNul ('\'' :: (v.flatMap escape ++ ['\''])) =
          '\'' :: ((dropNul v).flatMap escape ++ ['\'']) := by
        change dropNul (['\''] ++ (v.flatMap escape ++ ['\''])) = _
        rw [dropNul_append, dropNul_append, dropNul_flatMap_escape]
        rfl
      rw [hdrop, List.cons_append, List.append_assoc, List.singleton_append]
      exact word_single

/-- Names that hold no `=` and no NUL come back with the values. -/
theorem assignments_script {ps : List (Text × Text)}
    (hnames : ∀ p ∈ ps, '=' ∉ p.1 ∧ '\x00' ∉ p.1) {n : Nat} (hn : ps.length ≤ n) :
    assignments n (dropNul (script ps)) = some (ps.map fun p => (p.1, dropNul p.2)) := by
  induction ps generalizing n with
  | nil => cases n <;> rfl
  | cons p ps ih =>
    cases n with
    | zero => exact absurd hn (by simp)
    | succ n =>
      obtain ⟨⟨hequals, hnul⟩, hnames⟩ := List.forall_mem_cons.mp hnames
      have hline : ∀ t, dropNul (assignment p ++ t) = p.1 ++ '=' :: (dropNul (quote p.2) ++ dropNul t) := by
        intro t
        have hassoc : assignment p ++ t = p.1 ++ (['='] ++ (quote p.2 ++ t)) := by simp [assignment]
        rw [hassoc, dropNul_append, dropNul_append, dropNul_append, dropNul_eq_self_iff.mpr hnul]
        rfl
      have hstep : ∀ t, assignments (n + 1) (dropNul (assignment p ++ t)) =
          match word .bare (dropNul t) with
          | none => none
          | some (value, rest) => (assignments n rest).map ((p.1, dropNul p.2 ++ value) :: ·) := by
        intro t
        have hne : dropNul (assignment p ++ t) ≠ [] := by simp [hline]
        obtain ⟨c, s, hcons⟩ := List.exists_cons_of_ne_nil hne
        rw [hcons, assignments, ← hcons, hline, splitOnceChar_eq_some.mpr ⟨rfl, hequals⟩]
        simp only [word_quote]
        cases word .bare (dropNul t) <;> rfl
      cases ps with
      | nil =>
        have hscript : script [p] = assignment p ++ [] := by simp [script]
        rw [hscript, hstep]
        cases n <;> simp [dropNul, word, assignments]
      | cons q ps =>
        have hscript : script (p :: q :: ps) = assignment p ++ ('\n' :: script (q :: ps)) := by
          simp [script, List.intercalate_cons_cons]
        have hnewline : dropNul ('\n' :: script (q :: ps)) = '\n' :: dropNul (script (q :: ps)) := by
          simp [dropNul]
        rw [hscript, hstep, hnewline, word, if_pos rfl]
        dsimp only
        rw [ih hnames (Nat.le_of_succ_le_succ hn), List.append_nil]
        rfl

theorem getLast?_quote (v : Text) : ∃ c, (dropNul (quote v)).getLast? = some c ∧ c ≠ '\n' := by
  rw [quote]
  split
  · exact ⟨'\'', by decide, by decide⟩
  · rename_i hne
    split
    · rename_i hsafe
      have hnul : '\x00' ∉ v := fun hmem => absurd (List.all_eq_true.mp hsafe _ hmem) (by decide)
      rw [dropNul_eq_self_iff.mpr hnul]
      refine ⟨v.getLast hne, List.getLast?_eq_some_getLast hne, ?_⟩
      intro hnewline
      have hmem := List.all_eq_true.mp hsafe _ (List.getLast_mem hne)
      rw [hnewline] at hmem
      exact absurd hmem (by decide)
    · have hend : dropNul ('\'' :: (v.flatMap escape ++ ['\''])) =
          dropNul ('\'' :: v.flatMap escape) ++ ['\''] := by
        rw [← List.cons_append, dropNul_append]
        rfl
      exact ⟨'\'', by rw [hend, List.getLast?_concat], by decide⟩

theorem exists_script {ps : List (Text × Text)} (hne : ps ≠ []) :
    ∃ t v, script ps = t ++ quote v := by
  induction ps with
  | nil => exact absurd rfl hne
  | cons p ps ih =>
    cases ps with
    | nil => exact ⟨p.1 ++ ['='], p.2, by simp [script, assignment]⟩
    | cons q ps =>
      obtain ⟨t, v, ht⟩ := ih (by simp)
      refine ⟨assignment p ++ '\n' :: t, v, ?_⟩
      have hscript : script (p :: q :: ps) = assignment p ++ '\n' :: script (q :: ps) := by
        simp [script, List.intercalate_cons_cons]
      rw [hscript, ht, List.append_assoc, List.cons_append]

/-- The newline that ends the last line is not captured. -/
theorem capture_concat_newline {c : Char} (hlast : (dropNul s).getLast? = some c) (hc : c ≠ '\n') :
    capture (s ++ ['\n']) = dropNul s := by
  have hnewline : dropNul (s ++ ['\n']) = dropNul s ++ ['\n'] := by
    rw [dropNul_append]
    rfl
  rw [capture, hnewline, List.rdropWhile_concat_pos _ _ _ rfl, List.rdropWhile_eq_self_iff]
  intro hne
  rw [List.getLast?_eq_some_getLast hne, Option.some.injEq] at hlast
  simpa [hlast] using hc

/-- What is captured of a script is the script. -/
theorem capture_script {ps : List (Text × Text)} (hne : ps ≠ []) :
    capture (script ps ++ ['\n']) = dropNul (script ps) := by
  obtain ⟨t, v, ht⟩ := exists_script hne
  obtain ⟨c, hlast, hc⟩ := getLast?_quote v
  refine capture_concat_newline ?_ hc
  rw [ht, dropNul_append, List.getLast?_append, hlast, Option.some_or]

/-- Lines that were put in a variable and are printed again. -/
theorem unlines_capture {ls : List Text} {l : Text} (h : ∀ x ∈ ls ++ [l], IsLine x) (hl : l ≠ []) :
    unlines [capture (unlines (ls ++ [l]))] = unlines (ls ++ [l]) := by
  have hnul : '\x00' ∉ unlines ls ++ l := by
    intro hmem
    rcases List.mem_append.mp hmem with hmem | hmem
    · obtain ⟨x, hx, hmem⟩ := List.mem_flatMap.mp hmem
      rcases List.mem_append.mp hmem with hmem | hmem
      · exact (h x (List.mem_append_left _ hx)).2 hmem
      · exact absurd (List.mem_singleton.mp hmem) (by decide)
    · exact (h l (by simp)).2 hmem
  have hlast : (unlines ls ++ l).getLast? = some (l.getLast hl) := by
    rw [List.getLast?_append, List.getLast?_eq_some_getLast hl, Option.some_or]
  have hend : l.getLast hl ≠ '\n' := fun hnewline =>
    (h l (by simp)).1 (hnewline ▸ List.getLast_mem hl)
  have hconcat : unlines (ls ++ [l]) = (unlines ls ++ l) ++ ['\n'] := by simp [unlines]
  have hself : dropNul (unlines ls ++ l) = unlines ls ++ l := dropNul_eq_self_iff.mpr hnul
  rw [hconcat, capture_concat_newline (by rw [hself]; exact hlast) hend, hself]
  simp [unlines]

theorem length_le_script (ps : List (Text × Text)) : ps.length ≤ (dropNul (script ps)).length := by
  induction ps with
  | nil => exact Nat.zero_le _
  | cons p ps ih =>
    have hequals : ∀ t, 1 + (dropNul t).length ≤ (dropNul (assignment p ++ t)).length := by
      intro t
      have hassoc : assignment p ++ t = p.1 ++ (['='] ++ (quote p.2 ++ t)) := by simp [assignment]
      rw [hassoc, dropNul_append, dropNul_append, dropNul_append]
      simp [dropNul]
      omega
    cases ps with
    | nil =>
      have hscript : script [p] = assignment p ++ [] := by simp [script]
      rw [hscript]
      exact (Nat.le_add_right 1 _).trans (hequals [])
    | cons q ps =>
      have hscript : script (p :: q :: ps) = assignment p ++ ('\n' :: script (q :: ps)) := by
        simp [script, List.intercalate_cons_cons]
      have hnewline : dropNul ('\n' :: script (q :: ps)) = '\n' :: dropNul (script (q :: ps)) := by
        simp [dropNul]
      have hline := hequals ('\n' :: script (q :: ps))
      rw [hnewline, List.length_cons] at hline
      rw [hscript, List.length_cons]
      omega

end Shell
