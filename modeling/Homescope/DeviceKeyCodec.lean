import Homescope.Commands
import Homescope.HexKeys

/-! `DeviceKey::from_hex` with its slices and its `expect` (`common/src/device_key.rs`). -/

namespace Homescope.DeviceKey

open DeviceAddr (IsHex hexPair hexPair_digits)

/-- `&hex[start..end]`, which panics past the end and inside a character. -/
def slice (hex : Text) (start stop : Nat) : Option Text :=
  if stop ≤ (utf8 hex).length then fromUtf8 (((utf8 hex).drop start).take (stop - start)) else none

/-- `none` is a panic. -/
def fromHexSliced (hex : Text) : Option (Except FromHexError (List Byte)) :=
  if (utf8 hex).length ≠ hexSize then
    some (.error (.len (utf8 hex).length))
  else match hex.find? (fun c => !isAsciiHexdigit c) with
    | some invalidChar => some (.error (.invalidChar invalidChar))
    | none => do
      let buffer ← (List.range size).mapM fun i => do
        let start := i * 2
        let stop := start + 2
        let val ← slice hex start stop
        (u8FromStrRadix 16 val).toOption
      return .ok buffer

theorem utf8ByteSize_eq_length (s : Text) : (String.ofList s).utf8ByteSize = (utf8 s).length := by
  rw [← String.size_toByteArray, String.toByteArray_ofList]
  exact congrArg ByteArray.size (ByteArray.ext List.data_toByteArray : s.utf8Encode =
    ByteArray.mk (utf8 s).toArray)

theorem slice_fromHex {s : Text} {key : DeviceKey} (h : fromHex (String.ofList s) = .ok key) {i : Nat}
    (hi : i < 32) : ((slice s (i * 2) (i * 2 + 2)).bind fun val => (u8FromStrRadix 16 val).toOption) =
      some (key.bytes.getD i 0) := by
  obtain ⟨val, hval, hbyte⟩ := fromHex_slice h hi
  have hlen : (utf8 s).length = 64 := by
    by_contra hne
    rw [fromHex, if_pos (by rwa [utf8ByteSize_eq_length])] at h
    cases h
  rw [slice, if_pos (by omega), Nat.add_sub_cancel_left, hval, Option.bind_some, hbyte]
  rfl

/-- No slice falls inside a character and no pair fails to parse. -/
theorem fromHexSliced_eq (s : Text) :
    fromHexSliced s = some ((fromHex (String.ofList s)).map DeviceKey.bytes) := by
  by_cases hlen : (utf8 s).length ≠ hexSize
  · rw [fromHexSliced, fromHex, if_pos hlen, utf8ByteSize_eq_length, if_pos hlen]
    rfl
  rw [fromHexSliced, if_neg hlen]
  cases hfind : s.find? (fun c => !isAsciiHexdigit c) with
  | some c =>
    rw [fromHex, utf8ByteSize_eq_length, if_neg hlen, String.toList_ofList]
    simp only [hfind]
    rfl
  | none =>
    obtain ⟨key, hkey⟩ : ∃ key, fromHex (String.ofList s) = .ok key := by
      rw [fromHex, utf8ByteSize_eq_length, if_neg hlen, String.toList_ofList]
      simp only [hfind]
      exact ⟨_, rfl⟩
    have hbytes : (List.range 32).map (fun i => key.bytes.getD i 0) = key.bytes := by
      refine List.ext_getElem (by simp [key.length_eq]) fun i _ hi => ?_
      simp [hi]
    have hslices := Commands.mapM_eq_pure fun i hi => slice_fromHex hkey (List.mem_range.mp hi)
    rw [hbytes] at hslices
    rw [hkey]
    exact congrArg (Option.bind · fun buffer => some (Except.ok buffer)) hslices

theorem flatMap_hexPair {k : Nat} {s : Text} (hs : IsHex (k * 2) s) :
    ((List.range k).map fun i => BitVec.ofNat 8 (fromStrRadix16 ((s.drop (i * 2)).take 2))).flatMap
      hexPair = s.map Char.toUpper := by
  induction k generalizing s with
  | zero =>
    obtain rfl := List.length_eq_zero_iff.mp (hs.1.trans (Nat.zero_mul 2))
    rfl
  | succ k ih =>
    obtain ⟨hlen, hhex⟩ := hs
    have htwo : (s.take 2).length = 2 := by
      rw [List.length_take, hlen]
      omega
    obtain ⟨c, d, hpair⟩ := List.length_eq_two.mp htwo
    have hmem : ∀ e ∈ [c, d], isAsciiHexdigit e = true := fun e he =>
      hhex e (List.mem_of_mem_take (hpair ▸ he))
    have hrest : IsHex (k * 2) (s.drop 2) :=
      ⟨by rw [List.length_drop, hlen]; omega, fun e he => hhex e (List.mem_of_mem_drop he)⟩
    have hdigits := (hexPair_digits (hmem c (by simp)) (hmem d (by simp)) 0).1
    have hdrop (i : Nat) : (s.drop 2).drop (i * 2) = s.drop ((i + 1) * 2) := by
      rw [List.drop_drop, Nat.succ_mul, Nat.add_comm]
    have htail := ih hrest
    simp only [hdrop] at htail
    rw [List.range_succ_eq_map, List.map_cons, List.map_map, List.flatMap_cons, Nat.zero_mul,
      List.drop_zero, hpair]
    have hsplit := congrArg (List.map Char.toUpper) (List.take_append_drop 2 s)
    rw [List.map_append, hpair] at hsplit
    rw [← hsplit]
    exact congrArg₂ (· ++ ·) (by simpa [fromStrRadix16] using hdigits) htail

/-- The result is written as the text in upper case. -/
theorem toHex_of_fromHex {s : Text} {key : DeviceKey} (h : fromHex (String.ofList s) = .ok key) :
    key.toHex.toList = s.map Char.toUpper := by
  obtain ⟨hhex, hbytes⟩ := fromHex_eq_ok.mp h
  rw [toHex, String.toList_ofList, hbytes]
  exact flatMap_hexPair (k := 32) hhex

/-- The text of a key is read back as the key; `from_hex` never panics and takes
exactly the texts that are the text of a key in some case of the digits. -/
theorem hex_codec :
    (∀ key : DeviceKey, fromHexSliced key.toHex.toList = some (.ok key.bytes)) ∧
    ∀ s : Text, (∃ r, fromHexSliced s = some r) ∧
      ((∃ bytes, fromHexSliced s = some (.ok bytes)) ↔ IsHex 64 s) ∧
      ∀ key : DeviceKey, fromHexSliced s = some (.ok key.bytes) →
        key.toHex.toList = s.map Char.toUpper := by
  have hok {s : Text} {bytes : List Byte} (h : fromHexSliced s = some (.ok bytes)) :
      ∃ key, fromHex (String.ofList s) = .ok key ∧ key.bytes = bytes := by
    rw [fromHexSliced_eq] at h
    cases hkey : fromHex (String.ofList s) with
    | error e =>
      rw [hkey] at h
      cases h
    | ok key =>
      rw [hkey] at h
      cases h
      exact ⟨key, rfl, rfl⟩
  refine ⟨fun key => ?_, fun s => ⟨⟨_, fromHexSliced_eq s⟩, ⟨?_, fun h => ?_⟩, fun key h => ?_⟩⟩
  · rw [fromHexSliced_eq, String.ofList_toList, fromHex_toHex]
    rfl
  · rintro ⟨bytes, h⟩
    obtain ⟨key, hkey, -⟩ := hok h
    exact (fromHex_eq_ok.mp hkey).1
  · obtain ⟨-, key, -, hkey, -⟩ := Kek.tryFrom_of_isHex h
    refine ⟨key.bytes, ?_⟩
    rw [fromHexSliced_eq, hkey]
    rfl
  · obtain ⟨key', hkey, hbytes⟩ := hok h
    obtain rfl := ext hbytes
    exact toHex_of_fromHex hkey

end Homescope.DeviceKey
