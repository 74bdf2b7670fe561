import Homescope.ApiUrl

/-! Python's functions on strings that the deploy configuration is read with. -/

namespace Py

open Homescope

/-- `str.rpartition`. -/
def rpartition (c : Char) (s : Text) : Text × Text := (rsplitOnce c s).getD ([], s)

/-- `str.isspace` of one character. -/
def isSpace (c : Char) : Bool := isWhitespace c || (0x1c ≤ c.toNat && c.toNat ≤ 0x1f)

/-- A digit of `int`; `decimal` gives the others that Unicode has. -/
def digit (decimal : Char → Option Nat) (c : Char) : Option Nat :=
  if isAsciiDigit c then some (IpAddr.digit c) else if c.toNat < 128 then none else decimal c

/-- Digits with single underscores between them; `after` is after a digit. -/
def digits (decimal : Char → Option Nat) : Bool → Text → Option (List Nat)
  | after, [] => if after then some [] else none
  | after, c :: s =>
    if c = '_' then if after then digits decimal false s else none
    else do return (← digit decimal c) :: (← digits decimal true s)

def maxStrDigits : Nat := 4300

def value (ds : List Nat) : Nat := ds.foldl (fun n d => 10 * n + d) 0

/-- Whether a minus comes first, and what comes after a sign. -/
def sign : Text → Bool × Text
  | [] => (false, [])
  | c :: s => if c = '+' then (false, s) else if c = '-' then (true, s) else (false, c :: s)

/-- Spaces around it are stripped, and a sign is taken. -/
def int (decimal : Char → Option Nat) (s : Text) : Option Int :=
  let (negative, body) := sign (trim s)
  match digits decimal false body with
  | none => none
  | some ds =>
    if ds.length ≤ maxStrDigits then some (if negative then -(value ds : Int) else value ds) else none

/-- `str` of an integer. -/
def str (n : Int) : Text :=
  if n < 0 then '-' :: Nat.toDigits 10 n.natAbs else Nat.toDigits 10 n.natAbs

/-- `ipaddress.IPv4Address` takes it. -/
def ipv4Address (s : Text) : Bool := (IpAddr.parseV4 s).isSome

/-- `str.rstrip(c)`. -/
def rstrip (c : Char) (s : Text) : Text := trimEndMatches c s

variable {decimal : Char → Option Nat} {s : Text} {c : Char}

theorem rpartition_of_not_mem (h : c ∉ s) : rpartition c s = ([], s) := by
  rw [rpartition, rsplitOnce_eq_none h]
  rfl

theorem rpartition_append {before after : Text} (h : c ∉ after) :
    rpartition c (before ++ c :: after) = (before, after) := by
  rw [rpartition, rsplitOnce_append h]
  rfl

/-- At the last separator. -/
theorem rpartition_of_mem (h : c ∈ s) :
    s = (rpartition c s).1 ++ c :: (rpartition c s).2 ∧ c ∉ (rpartition c s).2 := by
  obtain ⟨back, front, hreverse, hback⟩ := List.eq_append_cons_of_mem (List.mem_reverse.mpr h)
  have hs : s = front.reverse ++ c :: back.reverse := by
    rw [← List.reverse_reverse s, hreverse]
    simp
  have hmem : c ∉ back.reverse := fun hc => hback (List.mem_reverse.mp hc)
  rw [hs, rpartition_append hmem]
  exact ⟨rfl, hmem⟩

theorem isAsciiDigit_not_space (h : isAsciiDigit c = true) : isWhitespace c = false := by
  simp only [isAsciiDigit, Bool.and_eq_true, decide_eq_true_eq] at h
  have hlow : '0'.toNat ≤ c.toNat := h.1
  have hhigh : c.toNat ≤ '9'.toNat := h.2
  have hbounds : 48 ≤ c.toNat ∧ c.toNat ≤ 57 := ⟨hlow, hhigh⟩
  simp only [isWhitespace, Bool.or_eq_false_iff, Bool.and_eq_false_iff, beq_eq_false_iff_ne,
    decide_eq_false_iff_not]
  omega

theorem digits_ascii {after : Bool} (hs : ∀ c ∈ s, isAsciiDigit c = true)
    (hne : after = true ∨ s ≠ []) : digits decimal after s = some (s.map IpAddr.digit) := by
  induction s generalizing after with
  | nil =>
    rw [digits, if_pos (hne.resolve_right fun h => h rfl)]
    rfl
  | cons c s ih =>
    obtain ⟨hc, hs⟩ := List.forall_mem_cons.mp hs
    have hunderscore : c ≠ '_' := by
      rintro rfl
      exact absurd hc (by decide)
    rw [digits, if_neg hunderscore, ih hs (.inl rfl), digit, if_pos hc]
    rfl

/-- The number that ASCII digits write. -/
theorem int_ascii {n : Int} (hs : ∀ c ∈ s, isAsciiDigit c = true) (h : int decimal s = some n) :
    s ≠ [] ∧ n = value (s.map IpAddr.digit) := by
  have htrim : trim s = s := by
    refine trim_eq_self_iff.mpr ⟨fun c hc => ?_, fun c hc => ?_⟩
    · exact isAsciiDigit_not_space (hs c (List.mem_of_mem_head? hc))
    · exact isAsciiDigit_not_space (hs c (List.mem_of_mem_getLast? hc))
  cases s with
  | nil => simp [int, htrim, sign, digits] at h
  | cons c s =>
    have hc := hs c List.mem_cons_self
    have hplus : c ≠ '+' := by
      rintro rfl
      exact absurd hc (by decide)
    have hminus : c ≠ '-' := by
      rintro rfl
      exact absurd hc (by decide)
    refine ⟨by simp, ?_⟩
    have hsign : sign (c :: s) = (false, c :: s) := by rw [sign, if_neg hplus, if_neg hminus]
    simp only [int, htrim, hsign, digits_ascii hs (.inr (List.cons_ne_nil c s))] at h
    split at h
    · cases h
      rfl
    · cases h

theorem exists_mem_splitOn {d : Char} (hc : c ∈ s) (hne : c ≠ d) : ∃ piece ∈ s.splitOn d, c ∈ piece := by
  induction s with
  | nil => cases hc
  | cons x s ih =>
    obtain ⟨piece, pieces, hsplit⟩ := List.exists_cons_of_ne_nil (List.splitOn_ne_nil d s)
    rw [List.splitOn_cons_eq_if_modifyHead]
    by_cases hx : x = d
    · rw [if_pos (by simpa using hx)]
      have hmem : c ∈ s := (List.mem_cons.mp hc).resolve_left fun h => hne (h.trans hx)
      obtain ⟨p, hp, hcp⟩ := ih hmem
      exact ⟨p, List.mem_cons_of_mem _ hp, hcp⟩
    · rw [if_neg (by simpa using hx), hsplit, List.modifyHead_cons]
      rcases List.mem_cons.mp hc with rfl | hmem
      · exact ⟨_, List.mem_cons_self, List.mem_cons_self⟩
      · obtain ⟨p, hp, hcp⟩ := ih hmem
        rw [hsplit] at hp
        rcases List.mem_cons.mp hp with rfl | hp
        · exact ⟨_, List.mem_cons_self, List.mem_cons_of_mem _ hcp⟩
        · exact ⟨p, List.mem_cons_of_mem _ hp, hcp⟩

theorem isSome_of_mapM {f : Text → Option Nat} {pieces : List Text} {ns : List Nat}
    (h : pieces.mapM f = some ns) : ∀ piece ∈ pieces, (f piece).isSome = true := by
  induction pieces generalizing ns with
  | nil => simp
  | cons piece pieces ih =>
    rw [List.mapM_cons] at h
    obtain ⟨n, hn, h⟩ := Option.bind_eq_some_iff.mp h
    obtain ⟨ns, hns, -⟩ := Option.bind_eq_some_iff.mp h
    exact List.forall_mem_cons.mpr ⟨by rw [hn]; rfl, ih hns⟩

/-- Digits and dots. -/
theorem ipv4Address_chars (h : ipv4Address s = true) : ∀ c ∈ s, (isAsciiDigit c || c == '.') = true := by
  intro c hc
  by_cases hdot : c = '.'
  · simp [hdot]
  · obtain ⟨piece, hpiece, hcp⟩ := exists_mem_splitOn hc hdot
    obtain ⟨octets, hoctets⟩ := Option.isSome_iff_exists.mp h
    rw [IpAddr.parseV4] at hoctets
    split at hoctets
    · have hoctet := isSome_of_mapM hoctets piece hpiece
      rw [IpAddr.octet] at hoctet
      split at hoctet
      · rename_i hvalid
        rw [List.all_eq_true.mp hvalid.2.2.1 c hcp, Bool.true_or]
      · cases hoctet
    · cases hoctets

end Py
