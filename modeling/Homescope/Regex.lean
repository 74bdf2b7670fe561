import Mathlib.Computability.RegularExpressions

/-! Bracket expressions and repetitions over regular expressions, and the two
ways in which `$` is read. -/

namespace Regex

open RegularExpression

variable {α : Type*}

/-- `[...]`, as the characters of the bracket. -/
def bracket (cs : List α) : RegularExpression α := (cs.map char).sum

def literal (cs : List α) : RegularExpression α := (cs.map char).prod

/-- `P+`. -/
def oneOrMore (P : RegularExpression α) : RegularExpression α := P * P.star

/-- `a-b` in a bracket. -/
def charRange (a b : Char) : List Char :=
  (List.range (b.toNat + 1 - a.toNat)).map fun i => Char.ofNat (a.toNat + i)

variable {cs w : List α}

theorem mem_bracket : w ∈ (bracket cs).matches' ↔ ∃ c ∈ cs, w = [c] := by
  induction cs with
  | nil => simp [bracket]
  | cons c cs ih =>
    change w ∈ (char c + bracket cs).matches' ↔ _
    have hchar : w ∈ ({[c]} : Language α) ↔ w = [c] := Iff.rfl
    rw [matches'_add, Language.mem_add, ih, matches'_char, hchar, List.exists_mem_cons_iff]

theorem mem_literal : w ∈ (literal cs).matches' ↔ w = cs := by
  induction cs generalizing w with
  | nil => simp [literal, Language.mem_one]
  | cons c cs ih =>
    change w ∈ (char c * literal cs).matches' ↔ _
    rw [matches'_mul, Language.mem_mul]
    constructor
    · rintro ⟨_, rfl, v, hv, rfl⟩
      rw [ih.mp hv, List.singleton_append]
    · rintro rfl
      exact ⟨[c], rfl, cs, ih.mpr rfl, rfl⟩

theorem mem_pow_bracket {n : ℕ} :
    w ∈ (bracket cs ^ n).matches' ↔ w.length = n ∧ ∀ c ∈ w, c ∈ cs := by
  induction n generalizing w with
  | zero =>
    rw [matches'_pow, pow_zero, Language.mem_one, List.length_eq_zero_iff]
    constructor
    · rintro rfl
      exact ⟨rfl, by simp⟩
    · exact And.left
  | succ n ih =>
    rw [matches'_pow, pow_succ', ← matches'_pow, Language.mem_mul]
    constructor
    · rintro ⟨_, hc, v, hv, rfl⟩
      obtain ⟨c, hcs, rfl⟩ := mem_bracket.mp hc
      obtain ⟨hlength, hall⟩ := ih.mp hv
      exact ⟨by simp [hlength], List.forall_mem_cons.mpr ⟨hcs, hall⟩⟩
    · rintro ⟨hlength, hall⟩
      cases w with
      | nil => cases hlength
      | cons c v =>
        obtain ⟨hc, hall⟩ := List.forall_mem_cons.mp hall
        exact ⟨[c], mem_bracket.mpr ⟨c, hc, rfl⟩, v, ih.mpr ⟨Nat.succ.inj hlength, hall⟩, rfl⟩

theorem mem_star_bracket : w ∈ (bracket cs).star.matches' ↔ ∀ c ∈ w, c ∈ cs := by
  rw [matches'_star, Language.kstar_eq_iSup_pow, Language.mem_iSup]
  simp only [← matches'_pow, mem_pow_bracket]
  exact ⟨fun ⟨_, _, hall⟩ => hall, fun hall => ⟨w.length, rfl, hall⟩⟩

theorem mem_oneOrMore_bracket :
    w ∈ (oneOrMore (bracket cs)).matches' ↔ w ≠ [] ∧ ∀ c ∈ w, c ∈ cs := by
  rw [oneOrMore, matches'_mul, Language.mem_mul]
  constructor
  · rintro ⟨_, hc, v, hv, rfl⟩
    obtain ⟨c, hcs, rfl⟩ := mem_bracket.mp hc
    exact ⟨by simp, List.forall_mem_cons.mpr ⟨hcs, mem_star_bracket.mp hv⟩⟩
  · rintro ⟨hne, hall⟩
    cases w with
    | nil => exact absurd rfl hne
    | cons c v =>
      obtain ⟨hc, hall⟩ := List.forall_mem_cons.mp hall
      exact ⟨[c], mem_bracket.mpr ⟨c, hc, rfl⟩, v, mem_star_bracket.mpr hall, rfl⟩

theorem mem_charRange {a b c : Char} (hb : b.toNat < 0xD800) :
    c ∈ charRange a b ↔ a.toNat ≤ c.toNat ∧ c.toNat ≤ b.toNat := by
  have hvalid : ∀ n, n ≤ b.toNat → (Char.ofNat n).toNat = n := by
    intro n hn
    have hchar : n.isValidChar := .inl (by omega)
    rw [Char.ofNat, dif_pos hchar]
    rfl
  simp only [charRange, List.mem_map, List.mem_range]
  constructor
  · rintro ⟨i, hi, rfl⟩
    rw [hvalid _ (by omega)]
    omega
  · rintro ⟨hle, hle'⟩
    exact ⟨c.toNat - a.toNat, by omega, by rw [Nat.add_sub_cancel' hle, Char.ofNat_toNat]⟩

section Anchored

variable [DecidableEq α]

/-- `^P$` where `$` is the end of the text. -/
def matchesAll (P : RegularExpression α) (w : List α) : Bool := P.rmatch w

/-- `^P$` where `$` is the end of the text or a newline that ends it. -/
def matchesLine (newline : α) (P : RegularExpression α) (w : List α) : Bool :=
  P.rmatch w || (w.getLast? == some newline && P.rmatch w.dropLast)

theorem matchesAll_iff {P : RegularExpression α} : matchesAll P w = true ↔ w ∈ P.matches' :=
  rmatch_iff_matches' P w

theorem matchesLine_iff {newline : α} {P : RegularExpression α} :
    matchesLine newline P w = true ↔ ∃ v ∈ P.matches', w = v ∨ w = v ++ [newline] := by
  simp only [matchesLine, Bool.or_eq_true, Bool.and_eq_true, beq_iff_eq, rmatch_iff_matches']
  constructor
  · rintro (h | ⟨hlast, h⟩)
    · exact ⟨w, h, .inl rfl⟩
    · exact ⟨w.dropLast, h, .inr (List.dropLast_append_getLast? newline hlast).symm⟩
  · rintro ⟨v, hv, rfl | rfl⟩
    · exact .inl hv
    · exact .inr ⟨by simp, by simpa using hv⟩

end Anchored

end Regex
