import Homescope.Words

/-! Reading and writing byte slices (`common/src/wire.rs`). An encoder gets the
buffer that it writes into and returns it with the count of bytes written. -/

namespace Homescope

inductive BufferTooSmall
  | mk
  deriving DecidableEq, Repr

inductive Truncated
  | mk
  deriving DecidableEq, Repr

/-- A unit newtype over an integer of `size` bytes, as `wire_units!` makes it. -/
class Wire (U : Type) where
  size : Nat
  ofRepr : BitVec (8 * size) → U
  repr : U → BitVec (8 * size)
  ofRepr_repr (u : U) : ofRepr (repr u) = u

structure Millivolts where
  repr : BitVec 16
  deriving DecidableEq, Repr

structure CentiCelsius where
  repr : BitVec 16
  deriving DecidableEq, Repr

structure CentiPercent where
  repr : BitVec 16
  deriving DecidableEq, Repr

structure Dbm where
  repr : BitVec 8
  deriving DecidableEq, Repr

instance : Wire Millivolts := ⟨2, .mk, Millivolts.repr, fun _ => rfl⟩
instance : Wire CentiCelsius := ⟨2, .mk, CentiCelsius.repr, fun _ => rfl⟩
instance : Wire CentiPercent := ⟨2, .mk, CentiPercent.repr, fun _ => rfl⟩
instance : Wire Dbm := ⟨1, .mk, Dbm.repr, fun _ => rfl⟩

/-- `split_first_chunk::<n>`, and `split_at_checked` of a slice. -/
def splitFirstChunk (n : Nat) (bytes : List Byte) : Option (List Byte × List Byte) :=
  if n ≤ bytes.length then some (bytes.take n, bytes.drop n) else none

theorem splitFirstChunk_append {n : Nat} {chunk : List Byte} (h : chunk.length = n)
    (rest : List Byte) : splitFirstChunk n (chunk ++ rest) = some (chunk, rest) := by
  subst h
  simp [splitFirstChunk]

theorem splitFirstChunk_eq_some {n : Nat} {bytes chunk rest : List Byte}
    (h : splitFirstChunk n bytes = some (chunk, rest)) :
    bytes = chunk ++ rest ∧ chunk.length = n := by
  unfold splitFirstChunk at h
  split at h
  · cases h
    exact ⟨(List.take_append_drop n bytes).symm, by simpa using ‹n ≤ bytes.length›⟩
  · cases h

theorem splitFirstChunk_eq_none {n : Nat} {bytes : List Byte} :
    splitFirstChunk n bytes = none ↔ bytes.length < n := by
  simp [splitFirstChunk]

theorem splitFirstChunk_cases (n : Nat) (bytes : List Byte) :
    (bytes.length < n ∧ splitFirstChunk n bytes = none) ∨
      ∃ chunk rest, bytes = chunk ++ rest ∧ chunk.length = n := by
  cases h : splitFirstChunk n bytes with
  | none => exact .inl ⟨splitFirstChunk_eq_none.mp h, rfl⟩
  | some split => exact .inr ⟨split.1, split.2, splitFirstChunk_eq_some h⟩

theorem exists_chunk (n : Nat) (bytes : List Byte) (h : n ≤ bytes.length) :
    ∃ chunk rest, bytes = chunk ++ rest ∧ chunk.length = n :=
  ⟨bytes.take n, bytes.drop n, (List.take_append_drop n bytes).symm, List.length_take_of_le h⟩

theorem take_append_add {n : Nat} {chunk : List Byte} (h : chunk.length = n) (rest : List Byte)
    (m : Nat) : (chunk ++ rest).take (n + m) = chunk ++ rest.take m := by
  subst h
  exact List.take_length_add_append m

theorem drop_append_add {n : Nat} {chunk : List Byte} (h : chunk.length = n) (rest : List Byte)
    (m : Nat) : (chunk ++ rest).drop (n + m) = rest.drop m := by
  subst h
  exact List.drop_length_add_append m

namespace Wire

variable {U : Type} [Wire U]

/-- Trailing bytes are ignored. -/
def decode (bytes : List Byte) : Except Truncated U :=
  match splitFirstChunk (size U) bytes with
  | none => .error .mk
  | some (chunk, _) => .ok (ofRepr (BitVec.ofNat _ (fromLeBytes chunk)))

def encode (u : U) (out : List Byte) : Except BufferTooSmall (List Byte × Nat) :=
  match splitFirstChunk (size U) out with
  | none => .error .mk
  | some (_, rest) => .ok (toLeBytes (size U) (repr u).toNat ++ rest, size U)

def bytes (u : U) : List Byte := toLeBytes (size U) (repr u).toNat

theorem bytes_length (u : U) : (bytes u).length = size U := toLeBytes_length _ _

theorem decode_bytes (u : U) (rest : List Byte) : decode (bytes u ++ rest) = .ok u := by
  rw [decode, splitFirstChunk_append (bytes_length u)]
  simp only [bytes, ofNat_fromLeBytes_toLeBytes rfl, ofRepr_repr]

theorem decode_short {bytes : List Byte} (h : bytes.length < size U) :
    decode (U := U) bytes = .error .mk := by
  rw [decode, splitFirstChunk_eq_none.mpr h]

/-- Enough bytes are those of some value. -/
theorem exists_bytes (U : Type) [Wire U] (hrepr : ∀ x, repr (ofRepr (U := U) x) = x)
    {buf : List Byte} (h : size U ≤ buf.length) : ∃ (u : U) (rest : List Byte), buf = bytes u ++ rest := by
  obtain ⟨chunk, rest, rfl, hchunk⟩ := exists_chunk (size U) buf h
  refine ⟨ofRepr (BitVec.ofNat _ (fromLeBytes chunk)), rest, ?_⟩
  rw [bytes, hrepr, toLeBytes_ofNat_fromLeBytes rfl hchunk]

theorem encode_short {u : U} {out : List Byte} (h : out.length < size U) :
    encode u out = .error .mk := by
  rw [encode, splitFirstChunk_eq_none.mpr h]

theorem encode_append {u : U} {front : List Byte} (h : front.length = size U)
    (rest : List Byte) : encode u (front ++ rest) = .ok (bytes u ++ rest, size U) := by
  rw [encode, splitFirstChunk_append h, bytes]

end Wire

end Homescope
