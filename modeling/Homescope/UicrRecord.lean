import Homescope.DeviceKey
import Mathlib.Data.List.FinRange

/-! The provisioning record in `UICR.CUSTOMER`
(`common/src/uicr_record.rs`): nine words, the header of which is written
last. -/

namespace Homescope

/-! ### Lists in blocks of one length -/

theorem flatMap_blocks {α : Type} {k n : Nat} {xs : List α} (h : xs.length = k * n) :
    (List.finRange n).flatMap (fun i : Fin n => (xs.drop (k * (i : Nat))).take k) = xs := by
  induction n generalizing xs with
  | zero => exact (List.eq_nil_of_length_eq_zero h).symm
  | succ n ih =>
    have htail : (xs.drop k).length = k * n := by
      rw [List.length_drop, h, Nat.mul_succ, Nat.add_sub_cancel]
    have hhead : ∀ i : Fin n, (xs.drop (k * (i.succ : Nat))).take k =
        ((xs.drop k).drop (k * (i : Nat))).take k := by
      intro i
      rw [List.drop_drop, Fin.val_succ, Nat.mul_succ, Nat.add_comm]
    simp only [List.finRange_succ, List.flatMap_cons, List.flatMap_map, hhead]
    rw [ih htail, Fin.val_zero, Nat.mul_zero, List.drop_zero, List.take_append_drop]

theorem block_flatMap {α : Type} {k n : Nat} {f : Fin n → List α} (h : ∀ i, (f i).length = k)
    (i : Fin n) : (((List.finRange n).flatMap f).drop (k * (i : Nat))).take k = f i := by
  induction n with
  | zero => exact i.elim0
  | succ n ih =>
    simp only [List.finRange_succ, List.flatMap_cons, List.flatMap_map]
    refine Fin.cases ?_ (fun i => ?_) i
    · rw [Fin.val_zero, Nat.mul_zero, List.drop_zero, List.take_left' (h 0)]
    · have hdrop : k * (i.succ : Nat) = (f 0).length + k * (i : Nat) := by
        rw [h 0, Fin.val_succ, Nat.mul_succ, Nat.add_comm]
      rw [hdrop, ← List.drop_drop, List.drop_left]
      exact ih (f := fun i => f i.succ) (fun i => h i.succ) i

/-! ### The record -/

abbrev RecordWords := Fin 9 → Word

instance neZero_recordWords : NeZero 9 := ⟨by decide⟩

def uicrMagic : List Byte := [0x48, 0x4B]
def recordVersion : Byte := 1

inductive RecordError
  | invalidMagic
  | invalidPadding
  | unsupportedVersion (version : Byte)
  deriving DecidableEq, Repr

inductive RecordHeader
  | blank
  | malformed (error : RecordError)
  | present
  deriving DecidableEq, Repr

inductive UicrRecord
  | blank
  | malformed (error : RecordError)
  | provisioned (key : DeviceKey)
  deriving DecidableEq

def RecordHeader.isBlank : RecordHeader → Bool
  | blank => true
  | _ => false

namespace UicrRecord

def encode (key : DeviceKey) : RecordWords := fun i =>
  let buf := uicrMagic ++ [recordVersion] ++ [0] ++ key.bytes
  BitVec.ofNat 32 (fromLeBytes ((buf.drop (4 * i)).take 4))

def decodeHeader (word : Word) : RecordHeader :=
  if word = erased then .blank
  else
    let bytes := toLeBytes 4 word.toNat
    if bytes.take 2 ≠ uicrMagic then .malformed .invalidMagic
    else if bytes.getD 2 0 ≠ recordVersion then .malformed (.unsupportedVersion (bytes.getD 2 0))
    else if bytes.getD 3 0 ≠ 0 then .malformed .invalidPadding
    else .present

/-- The key behind a header, four little-endian bytes a word. -/
def key (words : RecordWords) : DeviceKey where
  bytes := (List.finRange 8).flatMap fun i => toLeBytes 4 (words i.succ).toNat
  length_eq := by simp

def decode (words : RecordWords) : UicrRecord :=
  match decodeHeader (words 0) with
  | .blank => .blank
  | .malformed err => .malformed err
  | .present => .provisioned (key words)

theorem encode_succ (k : DeviceKey) (i : Fin 8) :
    encode k i.succ = BitVec.ofNat 32 (fromLeBytes ((k.bytes.drop (4 * (i : Nat))).take 4)) := by
  have hdrop : 4 * (i.succ : Nat) = 4 * (i : Nat) + 4 := rfl
  simp only [encode, hdrop, uicrMagic, List.cons_append, List.nil_append, List.drop_succ_cons]

theorem toLeBytes_encode_succ (k : DeviceKey) (i : Fin 8) :
    toLeBytes 4 (encode k i.succ).toNat = (k.bytes.drop (4 * (i : Nat))).take 4 := by
  have hi := i.isLt
  have hlen : ((k.bytes.drop (4 * (i : Nat))).take 4).length = 4 := by
    rw [List.length_take, List.length_drop, k.length_eq]
    omega
  have hlt : _ < 2 ^ 32 := hlen ▸ fromLeBytes_lt ((k.bytes.drop (4 * (i : Nat))).take 4)
  have hh := toLeBytes_fromLeBytes ((k.bytes.drop (4 * (i : Nat))).take 4)
  rw [encode_succ, BitVec.toNat_ofNat, Nat.mod_eq_of_lt hlt]
  rwa [hlen] at hh

theorem key_encode (k : DeviceKey) : key (encode k) = k := by
  apply DeviceKey.ext
  simp only [key, toLeBytes_encode_succ]
  exact flatMap_blocks k.length_eq

/-- A record is the encoding of the key read from it, header apart. -/
theorem encode_key (words : RecordWords) (i : Fin 8) :
    encode (key words) i.succ = words i.succ := by
  rw [encode_succ]
  simp only [key]
  rw [block_flatMap (fun i => toLeBytes_length 4 _) i]
  exact ofNat_fromLeBytes_toLeBytes (n := 4) rfl (words i.succ)

/-- The header that every record is written with. -/
def header : Word := 0x00014B48

theorem encode_zero (k : DeviceKey) : encode k 0 = header := by
  simp only [encode, uicrMagic, List.cons_append, List.nil_append, Fin.val_zero, Nat.mul_zero,
    List.drop_zero, List.take_succ_cons, List.take_zero]
  decide

theorem decodeHeader_header : decodeHeader header = .present := by decide

theorem decodeHeader_erased : decodeHeader erased = .blank := by decide

theorem isBlank_decodeHeader {word : Word} : (decodeHeader word).isBlank = true ↔ word = erased := by
  by_cases h : word = erased
  · simp [h, decodeHeader_erased, RecordHeader.isBlank]
  · simp only [decodeHeader, h, if_false]
    split_ifs <;> simp [RecordHeader.isBlank]

theorem decode_eq_provisioned {words : RecordWords} {k : DeviceKey}
    (h : decodeHeader (words 0) = .present) :
    decode words = .provisioned k ↔ ∀ i : Fin 8, words i.succ = encode k i.succ := by
  rw [decode, h]
  simp only [provisioned.injEq]
  refine ⟨fun hk i => by rw [← hk, encode_key], fun hk => ?_⟩
  rw [← key_encode k]
  simp only [key, hk]

/-! ### The codec -/

/-- The record as it lies in memory. -/
def wordsToBytes (words : RecordWords) : List Byte :=
  (List.finRange 9).flatMap fun i => toLeBytes 4 (words i).toNat

/-- A record without its key. -/
def toHeader : UicrRecord → RecordHeader
  | .blank => .blank
  | .malformed error => .malformed error
  | .provisioned _ => .present

theorem wordsToBytes_encode (k : DeviceKey) :
    wordsToBytes (encode k) = toLeBytes 4 (encode k 0).toNat ++ k.bytes := by
  have hkey := congrArg DeviceKey.bytes (key_encode k)
  rw [key] at hkey
  rw [wordsToBytes, List.finRange_succ, List.flatMap_cons, List.flatMap_map]
  exact congrArg _ hkey

theorem toHeader_decode (words : RecordWords) :
    (decode words).toHeader = decodeHeader (words 0) := by
  rw [decode]
  cases decodeHeader (words 0) <;> rfl

/-- Only one word is read as the header of a record. -/
theorem decodeHeader_eq_present {word : Word} : decodeHeader word = .present ↔ word = header := by
  refine ⟨fun h => ?_, fun h => h ▸ decodeHeader_header⟩
  have hword := ofNat_fromLeBytes_toLeBytes (n := 4) rfl word
  have hlen := toLeBytes_length 4 word.toNat
  rw [decodeHeader] at h
  generalize toLeBytes 4 word.toNat = bytes at hword hlen h
  match bytes, hlen with
  | [a, b, version, padding], _ =>
    simp only [List.take_succ_cons, List.take_zero, List.getD_cons_succ, List.getD_cons_zero] at h
    split_ifs at h with _ hmagic hversion hpadding
    obtain ⟨rfl, rfl⟩ : a = 0x48 ∧ b = 0x4B := by simpa [uicrMagic] using not_not.mp hmagic
    obtain rfl : version = recordVersion := not_not.mp hversion
    obtain rfl : padding = 0 := not_not.mp hpadding
    rw [← hword]
    decide

/-- Words that are read as a provisioned record are the encoding of its key, and
a header that lacks some of its zeros is not read as one. -/
theorem encode_decode_inverse :
    (∀ k, decode (encode k) = .provisioned k ∧
      ∀ i < 32, (wordsToBytes (encode k))[4 + i]? = k.bytes[i]?) ∧
    (∀ words k, decode words = .provisioned k → words = encode k) ∧
    (∀ words, (decode words).toHeader = decodeHeader (words 0)) ∧
    ∀ k word, encode k 0 &&& word = encode k 0 → word ≠ encode k 0 →
      decodeHeader word ≠ .present := by
  refine ⟨fun k => ⟨?_, fun i _ => ?_⟩, fun words k h => ?_, toHeader_decode,
    fun k word _ hne => ?_⟩
  · rw [decode_eq_provisioned (by rw [encode_zero, decodeHeader_header])]
    exact fun _ => rfl
  · rw [wordsToBytes_encode, List.getElem?_append_right (by rw [toLeBytes_length]; omega),
      toLeBytes_length, Nat.add_sub_cancel_left]
  · have hpresent : decodeHeader (words 0) = .present := by rw [← toHeader_decode, h, toHeader]
    funext i
    refine Fin.cases ?_ (fun i => ?_) i
    · rw [encode_zero, decodeHeader_eq_present.mp hpresent]
    · exact (decode_eq_provisioned hpresent).mp h i
  · rw [encode_zero] at hne
    exact fun hpresent => hne (decodeHeader_eq_present.mp hpresent)

end UicrRecord

end Homescope
