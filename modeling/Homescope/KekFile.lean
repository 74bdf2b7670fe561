import Homescope.KeyColumn
import Homescope.Strings
import Mathlib.Logic.Function.Basic

/-! The KEK file (`KekRing::parse` of `api/src/devices/keys.rs`). -/

namespace Homescope

inductive IntErrorKind
  | empty
  | invalidDigit
  | posOverflow
  deriving DecidableEq, Repr

def IntErrorKind.text : IntErrorKind → Text
  | .empty => "cannot parse integer from empty string".toList
  | .invalidDigit => "invalid digit found in string".toList
  | .posOverflow => "number too large to fit in target type".toList

/-- The digits of a `u8` after those that make `n`. -/
def u8Digits (radix : Nat) : Nat → Text → Except IntErrorKind Byte
  | n, [] => .ok (BitVec.ofNat 8 n)
  | n, c :: cs =>
    match toDigit radix c with
    | none => .error .invalidDigit
    | some digit =>
      if radix * n + digit < 256 then u8Digits radix (radix * n + digit) cs else .error .posOverflow

/-- `u8::from_str_radix`, which takes a sign. -/
def u8FromStrRadix (radix : Nat) : Text → Except IntErrorKind Byte
  | [] => .error .empty
  | [c] => if c = '+' ∨ c = '-' then .error .invalidDigit else u8Digits radix 0 [c]
  | c :: cs => u8Digits radix 0 (if c = '+' then cs else c :: cs)

/-- `str::parse::<u8>`. -/
def u8FromStr (s : Text) : Except IntErrorKind Byte := u8FromStrRadix 10 s

inductive KekParseError
  | invalidLen (len : Nat)
  | invlidChar
  deriving DecidableEq, Repr

namespace Kek

/-- The loop over the pairs of `chunks_exact(2)`. -/
def fromPairs : List UInt8 → Except KekParseError (List Byte)
  | hi :: lo :: bytes =>
    match fromUtf8 [hi, lo] with
    | none => .error .invlidChar
    | some pair =>
      match u8FromStrRadix 16 pair with
      | .error _ => .error .invlidChar
      | .ok byte => (fromPairs bytes).map (byte :: ·)
  | _ => .ok []

theorem length_fromPairs {bytes : List UInt8} {out : List Byte} (h : fromPairs bytes = .ok out) :
    out.length = bytes.length / 2 := by
  fun_induction fromPairs bytes generalizing out with
  | case1 | case2 => cases h
  | case3 hi lo bytes pair hpair byte hbyte ih =>
    cases hrest : fromPairs bytes with
    | error e =>
      rw [hrest] at h
      cases h
    | ok rest =>
      rw [hrest] at h
      cases h
      have := ih hrest
      simp only [List.length_cons]
      omega
  | case4 bytes hshort =>
    cases h
    match bytes, hshort with
    | [], _ => rfl
    | [_], _ => simp
    | hi :: lo :: bytes, hshort => exact absurd rfl (hshort hi lo bytes)

def tryFrom (value : Text) : Except KekParseError Kek :=
  if hlen : (utf8 value).length ≠ 64 then .error (.invalidLen (utf8 value).length)
  else
    match h : fromPairs (utf8 value) with
    | .error e => .error e
    | .ok out => .ok ⟨out, by rw [length_fromPairs h, not_not.mp hlen]⟩

theorem tryFrom_eq_ok {value : Text} {kek : Kek} : tryFrom value = .ok kek ↔
    (utf8 value).length = 64 ∧ fromPairs (utf8 value) = .ok kek.bytes := by
  simp only [tryFrom]
  split
  · rename_i hlen
    exact ⟨nofun, fun h => absurd h.1 hlen⟩
  · rename_i hlen
    split
    · rename_i e he
      simp [he]
    · rename_i out hout
      have hbytes : fromPairs (utf8 value) = .ok kek.bytes ↔ out = kek.bytes := by
        rw [hout, Except.ok.injEq]
      rw [hbytes, Except.ok.injEq, and_iff_right (not_not.mp hlen)]
      exact ⟨congrArg Kek.bytes, fun h => by cases kek; cases h; rfl⟩

end Kek

def decimal (n : Nat) : Text := Nat.toDigits 10 n

def KekParseError.text : KekParseError → Text
  | .invalidLen len => "invalid key length: ".toList ++ decimal len ++ ", should be: 32".toList
  | .invlidChar => "invalid key format, should be hexadecimal string".toList

/-- What `parse` reports; lines count from 1. -/
inductive KekFileError
  | invalidSyntax (lineNum : Nat)
  | currentTwice (lineNum : Nat)
  | invalidVersion (val : Text) (lineNum : Nat) (source : IntErrorKind)
  | invalidKekVersion (kekVer : Text) (lineNum : Nat) (source : IntErrorKind)
  | invalidKek (lineNum : Nat) (source : KekParseError)
  | duplicateGeneration (kekVer : Byte) (lineNum : Nat)
  | noCurrent
  | noKeyForCurrent (currentVer : Byte)
  deriving DecidableEq, Repr

/-- The message and what it wraps. -/
def KekFileError.chain : KekFileError → List Text
  | .invalidSyntax lineNum => ["invalid syntax at line: ".toList ++ decimal lineNum]
  | .currentTwice lineNum =>
    ["`current` version defined more than once at line: ".toList ++ decimal lineNum]
  | .invalidVersion val lineNum e =>
    ["invalid version: `".toList ++ val ++
      ("`, should be a proper number at line: ".toList ++ decimal lineNum), e.text]
  | .invalidKekVersion kekVer lineNum e =>
    ["invalid kek version `".toList ++ kekVer ++ ("` at line: ".toList ++ decimal lineNum), e.text]
  | .invalidKek lineNum e => ["invalid kek at line: ".toList ++ decimal lineNum, e.text]
  | .duplicateGeneration kekVer lineNum =>
    ["duplicate kek generation ".toList ++ decimal kekVer.toNat ++
      (" at line: ".toList ++ decimal lineNum)]
  | .noCurrent => ["current version not found in kek file".toList]
  | .noKeyForCurrent currentVer =>
    ["there is no key for `current = ".toList ++ decimal currentVer.toNat ++ "`".toList]

/-- `{err:#}`. -/
def KekFileError.rendered (e : KekFileError) : Text := List.intercalate ": ".toList e.chain

namespace KekRing

/-- The ring as far as it has been read. -/
structure Partial where
  currentVer : Option Byte := none
  keys : Byte → Option Kek := fun _ => none

/-- A line without its comment. -/
def uncommented (line : Text) : Text := trim ((splitOnceChar '#' line).elim line Prod.fst)

def keyVal (line : Text) : Option (Text × Text) :=
  (splitOnceChar '=' line).map fun (key, val) => (trim key, trim val)

def parseEntry (state : Partial) (lineNum : Nat) (key val : Text) : Except KekFileError Partial :=
  if key = "current".toList then
    if state.currentVer.isSome then .error (.currentTwice lineNum)
    else
      match u8FromStr val with
      | .error e => .error (.invalidVersion val lineNum e)
      | .ok version => .ok { state with currentVer := some version }
  else
    match u8FromStr key with
    | .error e => .error (.invalidKekVersion key lineNum e)
    | .ok kekVer =>
      match Kek.tryFrom val with
      | .error e => .error (.invalidKek lineNum e)
      | .ok kek =>
        if (state.keys kekVer).isSome then .error (.duplicateGeneration kekVer lineNum)
        else .ok { state with keys := Function.update state.keys kekVer (some kek) }

def parseLine (state : Partial) (lineNum : Nat) (line : Text) : Except KekFileError Partial :=
  if (uncommented line).isEmpty then .ok state
  else
    match keyVal (uncommented line) with
    | none => .error (.invalidSyntax lineNum)
    | some (key, val) => parseEntry state lineNum key val

def parseLines : Partial → Nat → List Text → Except KekFileError Partial
  | state, _, [] => .ok state
  | state, lineNum, line :: lines =>
    match parseLine state lineNum line with
    | .error e => .error e
    | .ok state => parseLines state (lineNum + 1) lines

def parse (content : Text) : Except KekFileError KekRing :=
  match parseLines {} 1 (lines content) with
  | .error e => .error e
  | .ok state =>
    match state.currentVer with
    | none => .error .noCurrent
    | some currentVer =>
      if h : (state.keys currentVer).isSome then .ok ⟨state.keys, currentVer, h⟩
      else .error (.noKeyForCurrent currentVer)

end KekRing

end Homescope
