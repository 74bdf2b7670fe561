import Mathlib.Data.List.DropRight
import Mathlib.Data.List.TakeWhile

/-! Strings as lists of characters, with the string functions that the parsers
use. -/

namespace Homescope

/-- A string, as its characters. -/
abbrev Text := List Char

/-- The Unicode property `White_Space`. -/
def isWhitespace (c : Char) : Bool :=
  let n := c.toNat
  (9 ≤ n && n ≤ 13) || n == 0x20 || n == 0x85 || n == 0xA0 || n == 0x1680 ||
    (0x2000 ≤ n && n ≤ 0x200A) || n == 0x2028 || n == 0x2029 || n == 0x202F || n == 0x205F ||
    n == 0x3000

def trim (s : Text) : Text :=
  ((s.dropWhile isWhitespace).reverse.dropWhile isWhitespace).reverse

def trimEndMatches (c : Char) (s : Text) : Text := (s.reverse.dropWhile (· == c)).reverse

/-- The bytes of a string. -/
def utf8 (s : Text) : List UInt8 := s.flatMap String.utf8EncodeChar

def fromUtf8 (bytes : List UInt8) : Option Text :=
  (ByteArray.mk bytes.toArray).utf8Decode?.map Array.toList

/-- Each piece ends with its `c`, which the last one may lack. -/
def splitInclusive (c : Char) : Text → List Text
  | [] => []
  | d :: s =>
    if d = c then [d] :: splitInclusive c s
    else
      match splitInclusive c s with
      | [] => [[d]]
      | piece :: pieces => (d :: piece) :: pieces

def stripSuffix (c : Char) (s : Text) : Option Text :=
  if s.getLast? = some c then some s.dropLast else none

/-- A line feed ends a line, or a carriage return and a line feed. -/
def lines (s : Text) : List Text :=
  (splitInclusive '\n' s).map fun line =>
    match stripSuffix '\n' line with
    | none => line
    | some line => (stripSuffix '\r' line).getD line

/-- At the first occurrence of `pattern`. -/
def splitOnce (pattern : Text) : Text → Option (Text × Text)
  | [] => none
  | c :: s =>
    if pattern.isPrefixOf (c :: s) then some ([], (c :: s).drop pattern.length)
    else (splitOnce pattern s).map fun p => (c :: p.1, p.2)

/-- At the first `c`. -/
def splitOnceChar (c : Char) (s : Text) : Option (Text × Text) :=
  match s.dropWhile (· ≠ c) with
  | [] => none
  | _ :: after => some (s.takeWhile (· ≠ c), after)

/-- At the last occurrence of `c`. -/
def rsplitOnce (c : Char) : Text → Option (Text × Text)
  | [] => none
  | d :: s =>
    match rsplitOnce c s with
    | some p => some (d :: p.1, p.2)
    | none => if d = c then some ([], s) else none

def isAsciiDigit (c : Char) : Bool := '0' ≤ c && c ≤ '9'

def toAsciiLowercase (c : Char) : Char := if 'A' ≤ c && c ≤ 'Z' then Char.ofNat (c.toNat + 32) else c

def eqIgnoreAsciiCase (s t : Text) : Bool := s.map toAsciiLowercase == t.map toAsciiLowercase

/-- The value of a digit below `radix`. -/
def toDigit (radix : Nat) (c : Char) : Option Nat :=
  let digit :=
    if isAsciiDigit c then c.toNat - '0'.toNat
    else if 'a' ≤ c ∧ c ≤ 'z' then c.toNat - 'a'.toNat + 10
    else if 'A' ≤ c ∧ c ≤ 'Z' then c.toNat - 'A'.toNat + 10
    else radix
  if digit < radix then some digit else none

theorem utf8_append (s t : Text) : utf8 (s ++ t) = utf8 s ++ utf8 t := List.flatMap_append

theorem fromUtf8_eq_some {bytes : List UInt8} {s : Text} :
    fromUtf8 bytes = some s ↔ utf8 s = bytes := by
  have hencode (t : Text) : t.utf8Encode = ByteArray.mk (utf8 t).toArray :=
    ByteArray.ext List.data_toByteArray
  constructor
  · intro h
    obtain ⟨cs, hcs, rfl⟩ := Option.map_eq_some_iff.mp h
    have hget := ByteArray.utf8Encode_get_utf8Decode? (h := by rw [hcs]; rfl)
    simp only [hcs, Option.get_some, hencode] at hget
    simpa using congrArg (fun b => b.data.toList) hget
  · rintro rfl
    rw [fromUtf8, ← hencode, List.utf8Decode?_utf8Encode]
    rfl

theorem utf8_injective : Function.Injective utf8 := by
  intro s t h
  have hs := fromUtf8_eq_some.mpr h
  rw [fromUtf8_eq_some.mpr rfl] at hs
  exact (Option.some.inj hs).symm

theorem splitOnceChar_eq_some {c : Char} {s before after : Text} :
    splitOnceChar c s = some (before, after) ↔ s = before ++ c :: after ∧ c ∉ before := by
  have hsplit := List.takeWhile_append_dropWhile (p := (· ≠ c)) (l := s)
  constructor
  · intro h
    rw [splitOnceChar] at h
    split at h
    · cases h
    rename_i d rest hdrop
    cases h
    have hd : d = c := by
      have hhead := List.head_dropWhile_not (· ≠ c) (l := s) (by rw [hdrop]; simp)
      simp only [hdrop, List.head_cons] at hhead
      simpa using hhead
    subst hd
    refine ⟨?_, fun hmem => ?_⟩
    · rw [← hdrop]
      exact hsplit.symm
    · simpa using List.mem_takeWhile_imp hmem
  · rintro ⟨rfl, hnot⟩
    have hne : ∀ d ∈ before, decide (d ≠ c) = true := by
      intro d hd
      simpa using ne_of_mem_of_not_mem hd hnot
    rw [splitOnceChar, List.dropWhile_append_of_pos hne, List.takeWhile_append_of_pos hne]
    simp

/-! ### Spaces around a text -/

theorem trim_append {s t : Text} (h : ∀ c ∈ s, isWhitespace c = true) : trim (s ++ t) = trim t := by
  rw [trim, List.dropWhile_append_of_pos h, trim]

theorem exists_trim (s : Text) : ∃ before after, s = before ++ (trim s ++ after) ∧
    (∀ c ∈ before, isWhitespace c = true) ∧ ∀ c ∈ after, isWhitespace c = true := by
  have hstart := List.takeWhile_append_dropWhile (p := isWhitespace) (l := s)
  have hend := List.takeWhile_append_dropWhile (p := isWhitespace)
    (l := (s.dropWhile isWhitespace).reverse)
  refine ⟨s.takeWhile isWhitespace,
    ((s.dropWhile isWhitespace).reverse.takeWhile isWhitespace).reverse, ?_,
    fun c hc => List.mem_takeWhile_imp hc, fun c hc => ?_⟩
  swap
  · exact List.mem_takeWhile_imp (List.mem_reverse.mp hc)
  have hreverse := congrArg List.reverse hend
  rw [List.reverse_append, List.reverse_reverse] at hreverse
  rw [trim, hreverse, hstart]

theorem trim_eq_self_iff {s : Text} : trim s = s ↔
    (∀ c ∈ s.head?, isWhitespace c = false) ∧ ∀ c ∈ s.getLast?, isWhitespace c = false := by
  have htrim : trim s = (s.dropWhile isWhitespace).rdropWhile isWhitespace := rfl
  rw [htrim]
  constructor
  · intro h
    have hstart : s.dropWhile isWhitespace = s := by
      refine (List.dropWhile_suffix _).eq_of_length_le ?_
      have hle := (List.rdropWhile_prefix isWhitespace (l := s.dropWhile isWhitespace)).length_le
      rwa [h] at hle
    rw [hstart] at h
    refine ⟨fun c hc => ?_, fun c hc => ?_⟩
    · have hhead := List.head?_dropWhile_not isWhitespace s
      rw [hstart, Option.mem_def.mp hc] at hhead
      simpa using hhead
    · obtain ⟨hne, rfl⟩ := List.mem_getLast?_eq_getLast hc
      simpa using List.rdropWhile_eq_self_iff.mp h hne
  · rintro ⟨hhead, hlast⟩
    have hstart : s.dropWhile isWhitespace = s := by
      cases s with
      | nil => rfl
      | cons c s => exact List.dropWhile_cons_of_neg (by simp [hhead c rfl])
    rw [hstart, List.rdropWhile_eq_self_iff]
    intro hne
    simp [hlast _ (List.getLast?_eq_some_getLast hne)]

theorem trim_trim (s : Text) : trim (trim s) = trim s := by
  obtain ⟨after, hafter⟩ := List.rdropWhile_prefix isWhitespace (l := s.dropWhile isWhitespace)
  refine trim_eq_self_iff.mpr ⟨fun c hc => ?_, fun c hc => ?_⟩
  · have hhead := List.head?_dropWhile_not isWhitespace s
    have hc' : ((s.dropWhile isWhitespace).rdropWhile isWhitespace).head? = some c := hc
    rw [← hafter, List.head?_append, hc', Option.some_or] at hhead
    simpa using hhead
  · obtain ⟨hne, rfl⟩ := List.mem_getLast?_eq_getLast hc
    exact Bool.eq_false_iff.mpr
      (List.rdropWhile_last_not isWhitespace (s.dropWhile isWhitespace) hne)

theorem trim_append_append {s m t : Text} (hs : ∀ c ∈ s, isWhitespace c = true)
    (hm : trim m = m) (ht : ∀ c ∈ t, isWhitespace c = true) : trim (s ++ (m ++ t)) = m := by
  rw [trim_append hs]
  cases m with
  | nil =>
    have hall := trim_append (t := []) ht
    rwa [List.append_nil] at hall
  | cons d m =>
    have hd := (trim_eq_self_iff.mp hm).1 d rfl
    have hself : (d :: m).dropWhile isWhitespace = d :: m :=
      List.dropWhile_cons_of_neg (by simp [hd])
    have hstart : (d :: m ++ t).dropWhile isWhitespace = d :: m ++ t :=
      List.dropWhile_cons_of_neg (by simp [hd])
    rw [trim, hself] at hm
    rw [trim, hstart, List.reverse_append, List.dropWhile_append_of_pos (by simpa using ht), hm]

end Homescope
