import Homescope.DeviceAddrCodec
import Homescope.KekFile

/-! The two readers of a key in hexadecimal, `Kek::try_from` and
`DeviceKey::from_hex`. -/

namespace Homescope

open DeviceAddr (IsHex hexDigit_spec toNat_le_of_le)

theorem toDigit_hex (c : Char) :
    toDigit 16 c = if isAsciiHexdigit c then some (hexDigit c) else none := by
  have hall : ∀ n < 128, toDigit 16 (Char.ofNat n) =
      if isAsciiHexdigit (Char.ofNat n) then some (hexDigit (Char.ofNat n)) else none := by
    decide
  by_cases hc : c.toNat < 128
  · have hspec := hall c.toNat hc
    rwa [Char.ofNat_toNat] at hspec
  · have hnot : ∀ d : Char, d.toNat < 128 → ¬c ≤ d := fun d hd hle =>
      hc ((toNat_le_of_le hle).trans_lt hd)
    have h9 := hnot '9' (by decide)
    have hz := hnot 'z' (by decide)
    have hZ := hnot 'Z' (by decide)
    have hf := hnot 'f' (by decide)
    have hF := hnot 'F' (by decide)
    simp [toDigit, isAsciiHexdigit, isAsciiDigit, h9, hz, hZ, hf, hF]

theorem u8Digits_pair {c d : Char} {byte : Byte} : u8Digits 16 0 [c, d] = .ok byte ↔
    isAsciiHexdigit c = true ∧ isAsciiHexdigit d = true ∧
      byte = BitVec.ofNat 8 (16 * hexDigit c + hexDigit d) := by
  simp only [u8Digits, toDigit_hex]
  by_cases hc : isAsciiHexdigit c = true
  · have hclt := (hexDigit_spec hc).1
    by_cases hd : isAsciiHexdigit d = true
    · have hdlt := (hexDigit_spec hd).1
      have hbyte : hexDigit c < 256 := by omega
      have hpair : 16 * hexDigit c + hexDigit d < 256 := by omega
      simp [hc, hd, hbyte, hpair, eq_comm]
    · have hbyte : hexDigit c < 256 := by omega
      simp [hc, hd, hbyte]
  · simp [hc]

theorem u8Digits_single {c : Char} {byte : Byte} : u8Digits 16 0 [c] = .ok byte ↔
    isAsciiHexdigit c = true ∧ byte = BitVec.ofNat 8 (hexDigit c) := by
  simp only [u8Digits, toDigit_hex]
  by_cases hc : isAsciiHexdigit c = true
  · have hclt := (hexDigit_spec hc).1
    have hbyte : hexDigit c < 256 := by omega
    simp [hc, hbyte, eq_comm]
  · simp [hc]

namespace Kek

/-- The pairs that `from_str_radix` takes. -/
inductive Pairs : Text → List Byte → Prop
  | nil : Pairs [] []
  | cons {c d : Char} {s : Text} {byte : Byte} {out : List Byte}
      (hpair : u8FromStrRadix 16 [c, d] = .ok byte) (hs : Pairs s out) :
      Pairs (c :: d :: s) (byte :: out)

theorem u8FromStrRadix_pair {c d : Char} {byte : Byte} : u8FromStrRadix 16 [c, d] = .ok byte ↔
    isAsciiHexdigit d = true ∧
      (isAsciiHexdigit c = true ∧ byte = BitVec.ofNat 8 (16 * hexDigit c + hexDigit d) ∨
        c = '+' ∧ byte = BitVec.ofNat 8 (hexDigit d)) := by
  have hplus : isAsciiHexdigit '+' = false := by decide
  by_cases hc : c = '+'
  · subst hc
    simp [u8FromStrRadix, u8Digits_single, hplus]
  · simp only [u8FromStrRadix, hc, if_false, u8Digits_pair, false_and, or_false]
    exact and_left_comm

theorem utf8Size_of_pair {c d : Char} {byte : Byte} (h : u8FromStrRadix 16 [c, d] = .ok byte) :
    c.utf8Size = 1 ∧ d.utf8Size = 1 := by
  obtain ⟨hd, ⟨hc, -⟩ | ⟨rfl, -⟩⟩ := u8FromStrRadix_pair.mp h
  · exact ⟨(hexDigit_spec hc).2.2, (hexDigit_spec hd).2.2⟩
  · exact ⟨by decide, (hexDigit_spec hd).2.2⟩

end Kek

theorem utf8_cons (c : Char) (s : Text) : utf8 (c :: s) = String.utf8EncodeChar c ++ utf8 s :=
  List.flatMap_cons

theorem length_le_length_utf8 (s : Text) : s.length ≤ (utf8 s).length := by
  induction s with
  | nil => exact le_rfl
  | cons c s ih =>
    have hpos := c.utf8Size_pos
    rw [utf8_cons, List.length_append, String.length_utf8EncodeChar, List.length_cons]
    omega

namespace Kek

theorem Pairs.fromPairs {s : Text} {out : List Byte} (h : Pairs s out) :
    fromPairs (utf8 s) = .ok out := by
  induction h with
  | nil => rfl
  | @cons c d s byte out hpair hs ih =>
    obtain ⟨hc, hd⟩ := utf8Size_of_pair hpair
    obtain ⟨hi, hhi⟩ := List.length_eq_one_iff.mp ((String.length_utf8EncodeChar c).trans hc)
    obtain ⟨lo, hlo⟩ := List.length_eq_one_iff.mp ((String.length_utf8EncodeChar d).trans hd)
    have htext : fromUtf8 [hi, lo] = some [c, d] := by
      rw [fromUtf8_eq_some, utf8_cons, utf8_cons, hhi, hlo]
      rfl
    rw [utf8_cons, utf8_cons, hhi, hlo, List.singleton_append, List.singleton_append, Kek.fromPairs]
    simp [htext, hpair, ih, Except.map]

/-- The two bytes of a pair are two characters. -/
theorem eq_pair_of_fromUtf8 {hi lo : UInt8} {pair : Text} {byte : Byte}
    (h : fromUtf8 [hi, lo] = some pair) (hbyte : u8FromStrRadix 16 pair = .ok byte) :
    ∃ c d, pair = [c, d] := by
  have hutf8 := congrArg List.length (fromUtf8_eq_some.mp h)
  match pair with
  | [] => cases hbyte
  | [c] =>
    simp only [u8FromStrRadix] at hbyte
    split at hbyte
    · cases hbyte
    rw [utf8_cons, List.length_append, String.length_utf8EncodeChar,
      (hexDigit_spec (u8Digits_single.mp hbyte).1).2.2] at hutf8
    simp [utf8] at hutf8
  | [c, d] => exact ⟨c, d, rfl⟩
  | c :: d :: e :: s =>
    have hle := length_le_length_utf8 (c :: d :: e :: s)
    rw [hutf8] at hle
    simp at hle

theorem exists_pairs {bytes : List UInt8} {out : List Byte} (h : fromPairs bytes = .ok out)
    (heven : bytes.length % 2 = 0) : ∃ s, utf8 s = bytes ∧ Pairs s out := by
  fun_induction Kek.fromPairs bytes generalizing out with
  | case1 | case2 => cases h
  | case3 hi lo bytes pair hpair byte hbyte ih =>
    cases hrest : Kek.fromPairs bytes with
    | error e =>
      rw [hrest] at h
      cases h
    | ok rest =>
      rw [hrest] at h
      cases h
      obtain ⟨s, hs, hpairs⟩ := ih hrest (by simp only [List.length_cons] at heven; omega)
      obtain ⟨c, d, rfl⟩ := eq_pair_of_fromUtf8 hpair hbyte
      refine ⟨c :: d :: s, ?_, .cons hbyte hpairs⟩
      have happend := utf8_append [c, d] s
      rw [fromUtf8_eq_some.mp hpair, hs] at happend
      exact happend
  | case4 bytes hshort =>
    cases h
    rcases bytes with _ | ⟨hi, _ | ⟨lo, bytes⟩⟩
    · exact ⟨[], rfl, .nil⟩
    · simp at heven
    · exact absurd rfl (hshort hi lo bytes)

theorem Pairs.length_utf8 {s : Text} {out : List Byte} (h : Pairs s out) :
    (utf8 s).length = out.length * 2 := by
  induction h with
  | nil => rfl
  | cons hpair hs ih =>
    obtain ⟨hc, hd⟩ := utf8Size_of_pair hpair
    simp only [utf8_cons, List.length_append, String.length_utf8EncodeChar, hc, hd, ih,
      List.length_cons]
    omega

theorem Pairs.length_eq {s : Text} {out : List Byte} (h : Pairs s out) :
    s.length = out.length * 2 := by
  induction h with
  | nil => rfl
  | cons hpair hs ih =>
    simp only [List.length_cons, ih]
    omega

theorem tryFrom_eq_ok_iff_pairs {s : Text} {kek : Kek} : tryFrom s = .ok kek ↔ Pairs s kek.bytes := by
  rw [tryFrom_eq_ok]
  constructor
  · rintro ⟨hlen, h⟩
    obtain ⟨t, ht, hpairs⟩ := exists_pairs h (by rw [hlen])
    rwa [← utf8_injective ht]
  · intro h
    exact ⟨by rw [h.length_utf8, kek.length_eq], h.fromPairs⟩

/-- Digits in pairs, the first of which may be a sign. -/
def signedPairs : Text → Bool
  | [] => true
  | [_] => false
  | c :: d :: s => (isAsciiHexdigit c || c == '+') && isAsciiHexdigit d && signedPairs s

theorem signedPairs_iff {s : Text} : signedPairs s = true ↔ ∃ out, Pairs s out := by
  fun_induction signedPairs s with
  | case1 => exact iff_of_true rfl ⟨[], .nil⟩
  | case2 c => exact iff_of_false nofun nofun
  | case3 c d s ih =>
    rw [Bool.and_eq_true, Bool.and_eq_true, Bool.or_eq_true, beq_iff_eq, ih]
    constructor
    · rintro ⟨⟨hc, hd⟩, out, hs⟩
      rcases hc with hc | hc
      · exact ⟨_, .cons (u8FromStrRadix_pair.mpr ⟨hd, .inl ⟨hc, rfl⟩⟩) hs⟩
      · exact ⟨_, .cons (u8FromStrRadix_pair.mpr ⟨hd, .inr ⟨hc, rfl⟩⟩) hs⟩
    · rintro ⟨out, hpairs⟩
      cases hpairs with
      | cons hpair hs =>
        obtain ⟨hd, hc⟩ := u8FromStrRadix_pair.mp hpair
        exact ⟨⟨hc.imp And.left And.left, hd⟩, _, hs⟩

/-- Without a sign every pair is two digits. -/
theorem isAsciiHexdigit_of_signedPairs {s : Text} (h : signedPairs s = true) (hplus : '+' ∉ s) :
    ∀ c ∈ s, isAsciiHexdigit c = true := by
  fun_induction signedPairs s with
  | case1 => exact nofun
  | case2 c => cases h
  | case3 c d s ih =>
    simp only [Bool.and_eq_true, Bool.or_eq_true, beq_iff_eq] at h
    simp only [List.mem_cons, not_or] at hplus
    obtain ⟨⟨hc, hd⟩, hs⟩ := h
    simpa using ⟨hc.resolve_right (Ne.symm hplus.1), hd, ih hs hplus.2.2⟩

theorem Pairs.of_hex {k : Nat} {s : Text} (hs : IsHex (k * 2) s) :
    Pairs s ((List.range k).map fun i =>
      BitVec.ofNat 8 (fromStrRadix16 ((s.drop (i * 2)).take 2))) := by
  induction k generalizing s with
  | zero =>
    obtain rfl := List.length_eq_zero_iff.mp (hs.1.trans (Nat.zero_mul 2))
    exact .nil
  | succ k ih =>
    obtain ⟨hlen, hhex⟩ := hs
    match s, hlen, hhex with
    | [_], hlen, _ => rw [List.length_singleton] at hlen; omega
    | [], hlen, _ => rw [List.length_nil] at hlen; omega
    | c :: d :: s, hlen, hhex =>
      have hs : IsHex (k * 2) s := by
        refine ⟨?_, fun c hc => hhex c (by simp [hc])⟩
        simp only [List.length_cons] at hlen
        omega
      have hdrop (i : Nat) : (c :: d :: s).drop ((i + 1) * 2) = s.drop (i * 2) := by
        rw [Nat.succ_mul]
        rfl
      rw [List.range_succ_eq_map, List.map_cons, List.map_map]
      refine .cons (u8FromStrRadix_pair.mpr ⟨hhex d (by simp), .inl ⟨hhex c (by simp), ?_⟩⟩) ?_
      · simp [fromStrRadix16]
      · simpa only [Function.comp_def, Nat.succ_eq_add_one, hdrop] using ih hs

end Kek

namespace DeviceKey

theorem fromHex_eq_ok {s : Text} {key : DeviceKey} : fromHex (String.ofList s) = .ok key ↔
    IsHex 64 s ∧ key.bytes = (List.range 32).map fun i =>
      BitVec.ofNat 8 (fromStrRadix16 ((s.drop (i * 2)).take 2)) := by
  constructor
  · intro h
    rw [fromHex] at h
    split at h
    · cases h
    rename_i hlen
    split at h
    · cases h
    rename_i hall
    cases h
    have hhex : ∀ c ∈ s, isAsciiHexdigit c = true := by simpa using hall
    refine ⟨⟨?_, hhex⟩, by simp [size]⟩
    rw [← utf8ByteSize_ofList fun c hc => (hexDigit_spec (hhex c hc)).2.2]
    exact not_not.mp hlen
  · rintro ⟨⟨hlen, hhex⟩, hbytes⟩
    have hsize : (String.ofList s).utf8ByteSize = hexSize := by
      rw [utf8ByteSize_ofList fun c hc => (hexDigit_spec (hhex c hc)).2.2, hlen]
      rfl
    have hall : (String.ofList s).toList.find? (fun c => !isAsciiHexdigit c) = none := by
      simpa using hhex
    rw [fromHex, if_neg (by simp [hsize])]
    simp only [hall]
    exact congrArg Except.ok (ext (by simp [hbytes, size]))

end DeviceKey

theorem utf8_drop {s : Text} (h : ∀ c ∈ s, c.utf8Size = 1) (n : Nat) :
    (utf8 s).drop n = utf8 (s.drop n) := by
  induction s generalizing n with
  | nil => simp [utf8]
  | cons c s ih =>
    obtain ⟨hc, hs⟩ := List.forall_mem_cons.mp h
    obtain ⟨b, hb⟩ := List.length_eq_one_iff.mp ((String.length_utf8EncodeChar c).trans hc)
    cases n with
    | zero => rfl
    | succ n =>
      rw [utf8_cons, hb, List.singleton_append, List.drop_succ_cons, List.drop_succ_cons, ih hs]

theorem utf8_take {s : Text} (h : ∀ c ∈ s, c.utf8Size = 1) (n : Nat) :
    (utf8 s).take n = utf8 (s.take n) := by
  have hsplit := utf8_append (s.take n) (s.drop n)
  have htake := List.take_append_drop n (utf8 s)
  rw [List.take_append_drop, ← utf8_drop h] at hsplit
  exact List.append_cancel_right (htake.trans hsplit)

namespace DeviceKey

/-- The slices of `from_hex` lie between characters and hold two digits each. -/
theorem fromHex_slice {s : Text} {key : DeviceKey} (h : fromHex (String.ofList s) = .ok key)
    {i : Nat} (hi : i < 32) : ∃ val, fromUtf8 (((utf8 s).drop (i * 2)).take 2) = some val ∧
      u8FromStrRadix 16 val = .ok (key.bytes.getD i 0) := by
  obtain ⟨⟨hlen, hhex⟩, hbytes⟩ := fromHex_eq_ok.mp h
  have hsize : ∀ c ∈ s, c.utf8Size = 1 := fun c hc => (hexDigit_spec (hhex c hc)).2.2
  have hslice : ((utf8 s).drop (i * 2)).take 2 = utf8 ((s.drop (i * 2)).take 2) := by
    rw [utf8_drop hsize, utf8_take fun c hc => hsize c (List.mem_of_mem_drop hc)]
  have htwo : ((s.drop (i * 2)).take 2).length = 2 := by
    rw [List.length_take, List.length_drop, hlen]
    omega
  obtain ⟨c, d, hpair⟩ := List.length_eq_two.mp htwo
  have hmem : ∀ e ∈ [c, d], isAsciiHexdigit e = true := fun e he =>
    hhex e (List.mem_of_mem_drop (List.mem_of_mem_take (hpair ▸ he)))
  refine ⟨[c, d], by rw [hslice, hpair, fromUtf8_eq_some], ?_⟩
  refine Kek.u8FromStrRadix_pair.mpr ⟨hmem d (by simp), .inl ⟨hmem c (by simp), ?_⟩⟩
  rw [hbytes]
  simp [hi, hpair, fromStrRadix16]

end DeviceKey

namespace Kek

/-- What is asked of a string: both readers take it as the same key, or neither takes it. -/
structure Agree (s : Text) : Prop where
  accepts : (∃ kek, tryFrom s = .ok kek) ↔ IsHex 64 s
  same : ∀ kek, tryFrom s = .ok kek →
    ∃ key, DeviceKey.fromHex (String.ofList s) = .ok key ∧ key.bytes = kek.bytes
  rejects : ¬IsHex 64 s →
    (∃ e, tryFrom s = .error e) ∧ ∃ e, DeviceKey.fromHex (String.ofList s) = .error e
  no_panic : ∀ key, DeviceKey.fromHex (String.ofList s) = .ok key → ∀ i < 32, ∃ val,
    fromUtf8 (((utf8 s).drop (i * 2)).take 2) = some val ∧
      u8FromStrRadix 16 val = .ok (key.bytes.getD i 0)

/-- A sign in the place of a first digit. -/
def Signed (s : Text) : Prop := s.length = 64 ∧ signedPairs s = true ∧ '+' ∈ s

theorem isHex_of_tryFrom {s : Text} {kek : Kek} (h : tryFrom s = .ok kek) (hsign : ¬Signed s) :
    IsHex 64 s := by
  have hpairs := tryFrom_eq_ok_iff_pairs.mp h
  have hsigned := signedPairs_iff.mpr ⟨_, hpairs⟩
  have hlen : s.length = 64 := by
    rw [hpairs.length_eq, kek.length_eq]
  refine ⟨hlen, isAsciiHexdigit_of_signedPairs hsigned fun hplus => hsign ⟨hlen, hsigned, hplus⟩⟩

theorem tryFrom_of_isHex {s : Text} (h : IsHex 64 s) : ∃ kek key, tryFrom s = .ok kek ∧
    DeviceKey.fromHex (String.ofList s) = .ok key ∧ key.bytes = kek.bytes := by
  have hlen : ((List.range 32).map fun i =>
      BitVec.ofNat 8 (fromStrRadix16 ((s.drop (i * 2)).take 2))).length = 32 := by simp
  exact ⟨⟨_, hlen⟩, ⟨_, hlen⟩, tryFrom_eq_ok_iff_pairs.mpr (.of_hex h),
    DeviceKey.fromHex_eq_ok.mpr ⟨h, rfl⟩, rfl⟩

/-- The readers agree but for the signs that `from_str_radix` takes. -/
theorem agree_iff (s : Text) : Agree s ↔ ¬Signed s := by
  constructor
  · rintro hagree ⟨hlen, hsigned, hplus⟩
    obtain ⟨out, hpairs⟩ := signedPairs_iff.mp hsigned
    have hout : out.length = 32 := by
      have hlen' := hpairs.length_eq
      omega
    have hhex := hagree.accepts.mp ⟨⟨out, hout⟩, tryFrom_eq_ok_iff_pairs.mpr hpairs⟩
    exact absurd (hhex.2 '+' hplus) (by decide)
  · intro hsign
    refine ⟨⟨fun ⟨kek, h⟩ => isHex_of_tryFrom h hsign, fun h => ?_⟩, fun kek h => ?_, fun hhex => ?_,
      fun key h i hi => DeviceKey.fromHex_slice h hi⟩
    · obtain ⟨kek, -, hkek, -⟩ := tryFrom_of_isHex h
      exact ⟨kek, hkek⟩
    · obtain ⟨kek', key, hkek', hkey, hbytes⟩ := tryFrom_of_isHex (isHex_of_tryFrom h hsign)
      obtain rfl := Except.ok.inj (h.symm.trans hkek')
      exact ⟨key, hkey, hbytes⟩
    · constructor
      · cases hkek : tryFrom s with
        | error e => exact ⟨e, rfl⟩
        | ok kek => exact absurd (isHex_of_tryFrom hkek hsign) hhex
      · cases hkey : DeviceKey.fromHex (String.ofList s) with
        | error e => exact ⟨e, rfl⟩
        | ok key => exact absurd (DeviceKey.fromHex_eq_ok.mp hkey).1 hhex

/-- `+A` is read as `0A`. -/
theorem not_agree : ¬∀ s, Agree s := by
  intro h
  have hagree := h ("+A".toList ++ List.replicate 62 '0')
  cases hkek : tryFrom ("+A".toList ++ List.replicate 62 '0') with
  | error e =>
    have hok : (tryFrom ("+A".toList ++ List.replicate 62 '0')).toOption.isSome = true := by
      decide +kernel
    rw [hkek] at hok
    cases hok
  | ok kek => exact absurd ((hagree.accepts.mp ⟨kek, hkek⟩).2 '+' (by decide)) (by decide)

end Kek

end Homescope
