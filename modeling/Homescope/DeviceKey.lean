import Homescope.Words

/-! The per-device key (`common/src/device_key.rs`) and the device address
(`common/src/device_addr.rs`). -/

namespace Homescope

structure DeviceKey where
  bytes : List Byte
  length_eq : bytes.length = 32
  deriving DecidableEq

inductive FromHexError
  | len (n : Nat)
  | invalidChar (c : Char)
  deriving DecidableEq, Repr

def isAsciiHexdigit (c : Char) : Bool :=
  ('0' ≤ c && c ≤ '9') || ('a' ≤ c && c ≤ 'f') || ('A' ≤ c && c ≤ 'F')

def hexDigit (c : Char) : Nat :=
  if c ≤ '9' then c.toNat - '0'.toNat
  else if c ≤ 'F' then c.toNat - 'A'.toNat + 10
  else c.toNat - 'a'.toNat + 10

def fromStrRadix16 (cs : List Char) : Nat := cs.foldl (fun n c => 16 * n + hexDigit c) 0

theorem utf8ByteSize_ofList {cs : List Char} (h : ∀ c ∈ cs, c.utf8Size = 1) :
    (String.ofList cs).utf8ByteSize = cs.length := by
  induction cs with
  | nil => rfl
  | cons c cs ih =>
    rw [← List.singleton_append, String.ofList_append, String.utf8ByteSize_append,
      ih (fun c' hc' => h c' (List.mem_cons_of_mem c hc')), List.length_append]
    have hc := h c List.mem_cons_self
    simp [String.utf8ByteSize_singleton, hc]

theorem fromStrRadix16_append (cs ds : List Char) :
    fromStrRadix16 (cs ++ ds) = ds.foldl (fun n c => 16 * n + hexDigit c) (fromStrRadix16 cs) := by
  rw [fromStrRadix16, List.foldl_append, fromStrRadix16]

namespace DeviceKey

def size : Nat := 32

def hexSize : Nat := size * 2

/-- Every character is one byte by the time the text is sliced. -/
def fromHex (hex : String) : Except FromHexError DeviceKey :=
  if hex.utf8ByteSize ≠ hexSize then
    .error (.len hex.utf8ByteSize)
  else match hex.toList.find? (fun c => !isAsciiHexdigit c) with
    | some invalidChar => .error (.invalidChar invalidChar)
    | none => .ok
      { bytes := (List.range size).map fun i =>
          BitVec.ofNat 8 (fromStrRadix16 ((hex.toList.drop (i * 2)).take 2))
        length_eq := by rw [List.length_map, List.length_range]; rfl }

theorem ext {k l : DeviceKey} (h : k.bytes = l.bytes) : k = l := by
  cases k
  cases l
  cases h
  rfl

end DeviceKey

inductive DeviceAddrParseError
  | badFormat
  | notHex
  deriving DecidableEq, Repr

structure DeviceAddr where
  bytes : List Byte
  length_eq : bytes.length = 6
  deriving DecidableEq

namespace DeviceAddr

def size : Nat := 6

/-- The address in the two `FICR.DEVICEADDR` words, marked static random. -/
def fromFicr (addr0 addr1 : Word) : DeviceAddr where
  bytes := toLeBytes 5 (addr0.toNat + 2 ^ 32 * (addr1.toNat % 256)) ++
    [BitVec.ofNat 8 (addr1.toNat / 256) ||| 0xC0]
  length_eq := by simp

/-- `ADDR`, the address the tests are about. -/
def testAddr : DeviceAddr := ⟨[0x01, 0x02, 0x03, 0x04, 0x05, 0x06], rfl⟩

theorem ext {a b : DeviceAddr} (h : a.bytes = b.bytes) : a = b := by
  cases a
  cases b
  cases h
  rfl

/-- The alphabet `HEX`. -/
def hexChar (n : Nat) : Char := "0123456789ABCDEF".toList.getD n '0'

def hexPair (byte : Byte) : List Char := [hexChar (byte.toNat / 16), hexChar (byte.toNat % 16)]

/-- The address as text, most significant byte first. -/
def encodeHex (addr : DeviceAddr) : String := String.ofList (addr.bytes.reverse.flatMap hexPair)

def fromStr (s : String) : Except DeviceAddrParseError DeviceAddr :=
  if s.utf8ByteSize ≠ 12 then
    .error .badFormat
  else if !s.toList.all isAsciiHexdigit then
    .error .notHex
  else
    .ok ⟨toLeBytes size (fromStrRadix16 s.toList), toLeBytes_length _ _⟩

theorem hexPair_spec (byte : Byte) :
    (∀ c ∈ hexPair byte, isAsciiHexdigit c = true ∧ c.utf8Size = 1) ∧
      ∀ n, (hexPair byte).foldl (fun n c => 16 * n + hexDigit c) n = 256 * n + byte.toNat := by
  have hchar : ∀ n < 16, isAsciiHexdigit (hexChar n) = true ∧ (hexChar n).utf8Size = 1 ∧
      hexDigit (hexChar n) = n := by decide
  have hlt := byte.isLt
  have hhi := hchar (byte.toNat / 16) (by omega)
  have hlo := hchar (byte.toNat % 16) (by omega)
  constructor
  · simp [hexPair, hhi, hlo]
  · intro n
    simp only [hexPair, List.foldl_cons, List.foldl_nil, hhi, hlo]
    omega

theorem fromStrRadix16_hexPairs (bytes : List Byte) :
    fromStrRadix16 (bytes.reverse.flatMap hexPair) = fromLeBytes bytes := by
  induction bytes with
  | nil => rfl
  | cons byte bytes ih =>
    rw [List.reverse_cons, List.flatMap_append, fromStrRadix16_append, ih, List.flatMap_singleton,
      (hexPair_spec byte).2, fromLeBytes, Nat.add_comm]

theorem fromStr_encodeHex (addr : DeviceAddr) : fromStr addr.encodeHex = .ok addr := by
  have hmem : ∀ c ∈ addr.bytes.reverse.flatMap hexPair,
      isAsciiHexdigit c = true ∧ c.utf8Size = 1 := by
    intro c hc
    obtain ⟨byte, -, hb⟩ := List.mem_flatMap.mp hc
    exact (hexPair_spec byte).1 c hb
  have hsize : addr.encodeHex.utf8ByteSize = 12 := by
    rw [encodeHex, utf8ByteSize_ofList (fun c hc => (hmem c hc).2), List.length_flatMap]
    simp [hexPair, addr.length_eq]
  have hall : addr.encodeHex.toList.all isAsciiHexdigit = true := by
    rw [encodeHex, String.toList_ofList, List.all_eq_true]
    exact fun c hc => (hmem c hc).1
  rw [fromStr, if_neg (by simp [hsize]), if_neg (by simp [hall])]
  refine congrArg Except.ok (ext ?_)
  simp only [encodeHex, String.toList_ofList, fromStrRadix16_hexPairs]
  have h := toLeBytes_fromLeBytes addr.bytes
  rwa [addr.length_eq] at h

end DeviceAddr

namespace DeviceKey

def toHex (key : DeviceKey) : String := String.ofList (key.bytes.flatMap DeviceAddr.hexPair)

theorem drop_hexPairs (bytes : List Byte) (i : Nat) :
    (bytes.flatMap DeviceAddr.hexPair).drop (i * 2) =
      (bytes.drop i).flatMap DeviceAddr.hexPair := by
  induction bytes generalizing i with
  | nil => simp
  | cons byte bytes ih =>
    cases i with
    | zero => simp
    | succ i => simpa [DeviceAddr.hexPair, Nat.succ_mul] using ih i

/-- The tool reads the key that the API rendered. -/
theorem fromHex_toHex (key : DeviceKey) : fromHex key.toHex = .ok key := by
  have hmem : ∀ c ∈ key.bytes.flatMap DeviceAddr.hexPair,
      isAsciiHexdigit c = true ∧ c.utf8Size = 1 := by
    intro c hc
    obtain ⟨byte, -, hb⟩ := List.mem_flatMap.mp hc
    exact (DeviceAddr.hexPair_spec byte).1 c hb
  have hsize : key.toHex.utf8ByteSize = hexSize := by
    rw [toHex, utf8ByteSize_ofList (fun c hc => (hmem c hc).2), List.length_flatMap]
    simp [DeviceAddr.hexPair, key.length_eq, hexSize, size]
  have hall : key.toHex.toList.find? (fun c => !isAsciiHexdigit c) = none := by
    rw [toHex, String.toList_ofList, List.find?_eq_none]
    intro c hc
    simp [(hmem c hc).1]
  rw [fromHex, if_neg (by simp [hsize])]
  simp only [hall]
  refine congrArg Except.ok (ext (List.ext_getElem (by simp [key.length_eq, size]) fun i hi hi' => ?_))
  have hbyte := (DeviceAddr.hexPair_spec key.bytes[i]).2 0
  rw [Nat.mul_zero, Nat.zero_add] at hbyte
  have htake : (key.toHex.toList.drop (i * 2)).take 2 = DeviceAddr.hexPair key.bytes[i] := by
    rw [toHex, String.toList_ofList, drop_hexPairs, List.drop_eq_getElem_cons hi',
      List.flatMap_cons]
    rfl
  simp only [List.getElem_map, List.getElem_range, htake, fromStrRadix16, hbyte,
    BitVec.ofNat_toNat, BitVec.setWidth_eq]

end DeviceKey

end Homescope
