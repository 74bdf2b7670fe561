import Homescope.DeviceKey

/-! The four forms of a device address (`common/src/device_addr.rs`): bytes, hex
text, the integer of the `devices` table and the words of the FICR. -/

namespace Homescope

structure DeviceAddrRangeError where
  value : BitVec 64
  deriving DecidableEq, Repr

namespace DeviceAddr

/-- `i64::from_le_bytes`. -/
def asI64 (addr : DeviceAddr) : BitVec 64 := BitVec.ofNat 64 (fromLeBytes (addr.bytes ++ [0, 0]))

/-- The pattern `[addr @ .., 0, 0]` on the bytes of the value. -/
def tryFrom (value : BitVec 64) : Except DeviceAddrRangeError DeviceAddr :=
  let bytes := toLeBytes 8 value.toNat
  if bytes.drop 6 = [0, 0] then .ok ⟨bytes.take 6, by simp [bytes]⟩ else .error ⟨value⟩

/-! ### Integers -/

theorem toNat_asI64 (addr : DeviceAddr) : addr.asI64.toNat = fromLeBytes addr.bytes := by
  have hzero : fromLeBytes (addr.bytes ++ [0, 0]) = fromLeBytes addr.bytes := by
    rw [fromLeBytes_append]
    rfl
  have hlt := fromLeBytes_lt addr.bytes
  rw [addr.length_eq] at hlt
  rw [asI64, hzero, BitVec.toNat_ofNat, Nat.mod_eq_of_lt (hlt.trans (by decide))]

theorem asI64_lt (addr : DeviceAddr) : addr.asI64.toNat < 2 ^ 48 := by
  have hlt := fromLeBytes_lt addr.bytes
  rw [addr.length_eq] at hlt
  rw [toNat_asI64]
  exact hlt

theorem toInt_asI64 (addr : DeviceAddr) : addr.asI64.toInt = fromLeBytes addr.bytes := by
  rw [BitVec.toInt_eq_toNat_of_lt (by have := addr.asI64_lt; omega), toNat_asI64]

theorem asI64_injective : Function.Injective asI64 := by
  intro a b h
  have hnat := congrArg BitVec.toNat h
  rw [toNat_asI64, toNat_asI64] at hnat
  have hbytes := congrArg (toLeBytes 6) hnat
  have ha := toLeBytes_fromLeBytes a.bytes
  have hb := toLeBytes_fromLeBytes b.bytes
  rw [a.length_eq] at ha
  rw [b.length_eq] at hb
  exact ext (ha.symm.trans (hbytes.trans hb))

/-- The two high bytes are zero for the values below `2 ^ 48` only. -/
theorem tryFrom_eq (value : BitVec 64) : tryFrom value =
    if value.toNat < 2 ^ 48 then .ok ⟨toLeBytes size value.toNat, toLeBytes_length _ _⟩
    else .error ⟨value⟩ := by
  have hsplit : toLeBytes 8 value.toNat = toLeBytes 6 value.toNat ++ toLeBytes 2 (value.toNat / 2 ^ 48) :=
    toLeBytes_add 6 2 value.toNat
  have hhigh : toLeBytes 2 (value.toNat / 2 ^ 48) = [0, 0] ↔ value.toNat < 2 ^ 48 := by
    have hlt : value.toNat / 2 ^ 48 < 256 ^ 2 := by omega
    constructor
    · intro h
      have hzero : value.toNat / 2 ^ 48 = 0 := toLeBytes_inj hlt (by decide) h
      omega
    · intro h
      rw [Nat.div_eq_of_lt h]
      rfl
  have hdrop : (toLeBytes 8 value.toNat).drop 6 = toLeBytes 2 (value.toNat / 2 ^ 48) := by
    rw [hsplit]
    exact List.drop_left' (toLeBytes_length ..)
  have htake : (toLeBytes 8 value.toNat).take 6 = toLeBytes 6 value.toNat := by
    rw [hsplit]
    exact List.take_left' (toLeBytes_length ..)
  simp only [tryFrom, hdrop, hhigh, htake]
  rfl

/-! ### Text -/

theorem toNat_le_of_le {c d : Char} (h : c ≤ d) : c.toNat ≤ d.toNat :=
  UInt32.le_iff_toNat_le.mp (Char.le_def.mp h)

/-- A hexadecimal digit and the one that its value is written as. -/
theorem hexDigit_spec {c : Char} (h : isAsciiHexdigit c = true) :
    hexDigit c < 16 ∧ hexChar (hexDigit c) = c.toUpper ∧ c.utf8Size = 1 := by
  have hall : ∀ n < 128, isAsciiHexdigit (Char.ofNat n) = true → hexDigit (Char.ofNat n) < 16 ∧
      hexChar (hexDigit (Char.ofNat n)) = (Char.ofNat n).toUpper ∧ (Char.ofNat n).utf8Size = 1 := by
    decide
  have hc : c.toNat < 128 := by
    simp only [isAsciiHexdigit, Bool.or_eq_true, Bool.and_eq_true, decide_eq_true_eq] at h
    rcases h with (⟨-, h⟩ | ⟨-, h⟩) | ⟨-, h⟩ <;> exact (toNat_le_of_le h).trans_lt (by decide)
  have hspec := hall c.toNat hc
  rw [Char.ofNat_toNat] at hspec
  exact hspec h

/-- Two digits a byte, in upper case. -/
theorem hexPair_digits {c d : Char} (hc : isAsciiHexdigit c = true) (hd : isAsciiHexdigit d = true)
    (n : Nat) : hexPair (BitVec.ofNat 8 (16 * (16 * n + hexDigit c) + hexDigit d)) =
      [c.toUpper, d.toUpper] ∧
    (16 * (16 * n + hexDigit c) + hexDigit d) / 256 = n := by
  obtain ⟨hclt, hcup, -⟩ := hexDigit_spec hc
  obtain ⟨hdlt, hdup, -⟩ := hexDigit_spec hd
  have hlow : (16 * (16 * n + hexDigit c) + hexDigit d) % 2 ^ 8 = 16 * hexDigit c + hexDigit d := by
    omega
  have hhi : (16 * hexDigit c + hexDigit d) / 16 = hexDigit c := by omega
  have hlo : (16 * hexDigit c + hexDigit d) % 16 = hexDigit d := by omega
  refine ⟨?_, by omega⟩
  rw [hexPair, BitVec.toNat_ofNat, hlow, hhi, hlo, hcup, hdup]

/-- The text of the number that a text stands for is the text in upper case. -/
theorem flatMap_hexPair_digits {k : Nat} {s : List Char} (hs : s.length = k * 2)
    (h : ∀ c ∈ s, isAsciiHexdigit c = true) :
    (toLeBytes k (fromStrRadix16 s)).reverse.flatMap hexPair = s.map Char.toUpper := by
  induction k generalizing s with
  | zero =>
    obtain rfl := List.length_eq_zero_iff.mp (hs.trans (Nat.zero_mul 2))
    rfl
  | succ k ih =>
    have htail : (s.drop (k * 2)).length = 2 := by
      rw [List.length_drop, hs]
      omega
    obtain ⟨c, d, htail⟩ := List.length_eq_two.mp htail
    have hsplit := List.take_append_drop (k * 2) s
    rw [htail] at hsplit
    generalize s.take (k * 2) = t at hsplit
    subst hsplit
    simp only [List.mem_append, List.mem_cons, List.not_mem_nil, or_false] at h
    obtain ⟨hpair, hdiv⟩ := hexPair_digits (h c (by simp)) (h d (by simp)) (fromStrRadix16 t)
    have ht := ih (s := t) (by simpa [Nat.succ_mul] using hs) fun c hc => h c (.inl hc)
    simp only [fromStrRadix16_append, List.foldl_cons, List.foldl_nil, toLeBytes, hdiv,
      List.reverse_cons, List.flatMap_append, List.flatMap_singleton, ht, hpair, List.map_append,
      List.map_cons, List.map_nil]

/-- `n` characters, each a hexadecimal digit of either case. -/
def IsHex (n : Nat) (s : List Char) : Prop := s.length = n ∧ ∀ c ∈ s, isAsciiHexdigit c = true

theorem IsHex.utf8ByteSize {n : Nat} {s : String} (h : IsHex n s.toList) : s.utf8ByteSize = n := by
  have hsize := utf8ByteSize_ofList fun c hc => (hexDigit_spec (h.2 c hc)).2.2
  rwa [String.ofList_toList, h.1] at hsize

theorem fromStr_eq_ok {s : String} {addr : DeviceAddr} : fromStr s = .ok addr ↔
    IsHex 12 s.toList ∧ addr.bytes = toLeBytes size (fromStrRadix16 s.toList) := by
  constructor
  · intro h
    rw [fromStr] at h
    split at h
    · cases h
    rename_i hsize
    split at h
    · cases h
    rename_i hall
    cases h
    have hhex : ∀ c ∈ s.toList, isAsciiHexdigit c = true := by simpa using hall
    have hlength := utf8ByteSize_ofList fun c hc => (hexDigit_spec (hhex c hc)).2.2
    rw [String.ofList_toList] at hlength
    exact ⟨⟨hlength.symm.trans (not_not.mp hsize), hhex⟩, rfl⟩
  · rintro ⟨hhex, hbytes⟩
    have hall : s.toList.all isAsciiHexdigit = true := List.all_eq_true.mpr hhex.2
    rw [fromStr, if_neg (by simp [hhex.utf8ByteSize]), if_neg (by simp [hall])]
    exact congrArg Except.ok (ext hbytes.symm)

theorem encodeHex_of_fromStr {s : String} {addr : DeviceAddr} (h : fromStr s = .ok addr) :
    addr.encodeHex.toList = s.toList.map Char.toUpper := by
  obtain ⟨hhex, hbytes⟩ := fromStr_eq_ok.mp h
  rw [encodeHex, String.toList_ofList, hbytes]
  exact flatMap_hexPair_digits (k := size) hhex.1 hhex.2

theorem fromStrRadix16_encodeHex (addr : DeviceAddr) :
    (fromStrRadix16 addr.encodeHex.toList : Int) = addr.asI64.toInt := by
  rw [encodeHex, String.toList_ofList, fromStrRadix16_hexPairs, toInt_asI64]

/-! ### Words of the FICR -/

theorem fromFicr_congr {addr0 addr1 addr1' : Word} (h : addr1.setWidth 16 = addr1'.setWidth 16) :
    fromFicr addr0 addr1 = fromFicr addr0 addr1' := by
  have hnat := congrArg BitVec.toNat h
  rw [BitVec.toNat_setWidth, BitVec.toNat_setWidth] at hnat
  have hlow : addr1.toNat % 256 = addr1'.toNat % 256 := by omega
  have hhigh : BitVec.ofNat 8 (addr1.toNat / 256) = BitVec.ofNat 8 (addr1'.toNat / 256) := by
    apply BitVec.eq_of_toNat_eq
    rw [BitVec.toNat_ofNat, BitVec.toNat_ofNat]
    omega
  exact ext (congrArg₂ (fun (n : Nat) (b : Byte) =>
    toLeBytes 5 (addr0.toNat + 2 ^ 32 * n) ++ [b ||| 0xC0]) hlow hhigh)

/-- The two top bits of the address are set. -/
theorem asI64_fromFicr (addr0 addr1 : Word) : (fromFicr addr0 addr1).asI64.toNat / 2 ^ 46 = 3 := by
  have htop : ∀ b : Byte, (b ||| 0xC0).toNat / 64 = 3 := by
    intro b
    have hlt : b.toNat / 2 ^ 6 < 4 := by have := b.isLt; omega
    have hor : ∀ n < 4, n ||| 3 = 3 := by decide
    have hdiv : (b.toNat ||| 192) / 2 ^ 6 = b.toNat / 2 ^ 6 ||| 192 / 2 ^ 6 := by
      simp only [← Nat.shiftRight_eq_div_pow, Nat.shiftRight_or_distrib]
    rw [BitVec.toNat_or]
    exact hdiv.trans (hor _ hlt)
  have hlow := fromLeBytes_lt (toLeBytes 5 (addr0.toNat + 2 ^ 32 * (addr1.toNat % 256)))
  rw [toLeBytes_length] at hlow
  have hb := htop (BitVec.ofNat 8 (addr1.toNat / 256))
  rw [toNat_asI64, fromFicr, fromLeBytes_append, toLeBytes_length]
  simp only [fromLeBytes]
  omega

/-- All four forms denote the same number, and each form is read exactly where
it stands for an address. -/
theorem codecs_agree :
    (∀ addr : DeviceAddr, fromStr addr.encodeHex = .ok addr ∧ tryFrom addr.asI64 = .ok addr ∧
      0 ≤ addr.asI64.toInt ∧ addr.asI64.toInt < 2 ^ 48 ∧
      (fromStrRadix16 addr.encodeHex.toList : Int) = addr.asI64.toInt) ∧
    Function.Injective asI64 ∧
    (∀ s : String, ((∃ addr, fromStr s = .ok addr) ↔ IsHex 12 s.toList) ∧
      ∀ addr, fromStr s = .ok addr → addr.encodeHex.toList = s.toList.map Char.toUpper) ∧
    (∀ value : BitVec 64, (∃ addr, tryFrom value = .ok addr) ↔ value.toNat < 2 ^ 48) ∧
    ∀ addr0 addr1 : Word,
      (∀ addr1' : Word, addr1.setWidth 16 = addr1'.setWidth 16 →
        fromFicr addr0 addr1 = fromFicr addr0 addr1') ∧
      (fromFicr addr0 addr1).asI64.toNat / 2 ^ 46 = 3 := by
  refine ⟨fun addr => ⟨fromStr_encodeHex addr, ?_, ?_, ?_, fromStrRadix16_encodeHex addr⟩,
    asI64_injective, fun s => ⟨⟨fun ⟨addr, h⟩ => (fromStr_eq_ok.mp h).1, fun h => ?_⟩,
      fun addr => encodeHex_of_fromStr⟩, fun value => ?_,
    fun addr0 addr1 => ⟨fun _ => fromFicr_congr, asI64_fromFicr addr0 addr1⟩⟩
  · rw [tryFrom_eq, if_pos addr.asI64_lt]
    refine congrArg Except.ok (ext ?_)
    have hbytes := toLeBytes_fromLeBytes addr.bytes
    rw [addr.length_eq] at hbytes
    rw [toNat_asI64]
    exact hbytes
  · rw [toInt_asI64]
    exact Int.natCast_nonneg _
  · have hlt := addr.asI64_lt
    rw [toNat_asI64] at hlt
    rw [toInt_asI64]
    exact_mod_cast hlt
  · exact ⟨⟨_, toLeBytes_length _ _⟩, fromStr_eq_ok.mpr ⟨h, rfl⟩⟩
  · rw [tryFrom_eq]
    constructor
    · rintro ⟨addr, h⟩
      by_contra hlt
      rw [if_neg hlt] at h
      cases h
    · intro hlt
      rw [if_pos hlt]
      exact ⟨_, rfl⟩

end DeviceAddr

end Homescope
