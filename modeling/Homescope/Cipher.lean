import Homescope.DeviceKey
import Homescope.Wire

/-! Sealing of packet bodies (`common/src/packet/cipher.rs`). ChaCha20-Poly1305
is a parameter: what the code relies on of it is stated as `Aead.Lawful`. -/

namespace Homescope

def aeadTagSize : Nat := 16

/-- The detached operations of an AEAD on key, nonce, associated data and text.
Both work in place, on a buffer that keeps its length. -/
structure Aead where
  encrypt (key nonce ad plaintext : List Byte) : Option (List Byte × List Byte)
  decrypt (key nonce ad ciphertext tag : List Byte) : Option (List Byte)
  encrypt_length {key nonce ad plaintext ciphertext tag : List Byte} :
    encrypt key nonce ad plaintext = some (ciphertext, tag) →
      ciphertext.length = plaintext.length ∧ tag.length = aeadTagSize
  decrypt_length {key nonce ad ciphertext tag plaintext : List Byte} :
    decrypt key nonce ad ciphertext tag = some plaintext → plaintext.length = ciphertext.length

/-- What the documentation of the AEAD promises: it encrypts every text shorter
than 4 GiB, and decrypts what it encrypted. -/
structure Aead.Lawful (aead : Aead) : Prop where
  encrypts (key nonce ad plaintext : List Byte) : ad.length < 2 ^ 32 →
    plaintext.length < 2 ^ 32 → ∃ out, aead.encrypt key nonce ad plaintext = some out
  decrypts {key nonce ad plaintext ciphertext tag : List Byte} :
    aead.encrypt key nonce ad plaintext = some (ciphertext, tag) →
      aead.decrypt key nonce ad ciphertext tag = some plaintext

inductive EncryptionError
  | adOrPlaintextTooLarge
  deriving DecidableEq, Repr

inductive DecryptionError
  | missingTag
  | authentication
  deriving DecidableEq, Repr

structure PacketCipher where
  key : DeviceKey
  deviceAddr : DeviceAddr
  deriving DecidableEq

namespace PacketCipher

/-- `| device_addr: 6 | ver: 1 | seq: 4 LE |` -/
def associatedData (cipher : PacketCipher) (seq : Word) (ver : Byte) : List Byte :=
  cipher.deviceAddr.bytes ++ ver :: toLeBytes 4 seq.toNat

def nonce (seq : Word) : List Byte := toLeBytes 4 seq.toNat ++ List.replicate 8 0

variable (aead : Aead)

/-- The ciphertext that replaces the data, and the tag. -/
def encryptInPlace (cipher : PacketCipher) (ver : Byte) (seq : Word) (data : List Byte) :
    Except EncryptionError (List Byte × List Byte) :=
  match aead.encrypt cipher.key.bytes (nonce seq) (cipher.associatedData seq ver) data with
  | none => .error .adOrPlaintextTooLarge
  | some sealedData => .ok sealedData

def decryptInPlace (cipher : PacketCipher) (ver : Byte) (seq : Word) (buf : List Byte) :
    Except DecryptionError (List Byte) :=
  if buf.length < aeadTagSize then
    .error .missingTag
  else
    let data := buf.take (buf.length - aeadTagSize)
    let tag := buf.drop (buf.length - aeadTagSize)
    match aead.decrypt cipher.key.bytes (nonce seq) (cipher.associatedData seq ver) data tag with
    | none => .error .authentication
    | some plaintext => .ok plaintext

/-- The layout of the associated data is unambiguous. -/
theorem associatedData_inj {c c' : PacketCipher} {seq seq' : Word} {ver ver' : Byte}
    (h : c.associatedData seq ver = c'.associatedData seq' ver') :
    c.deviceAddr = c'.deviceAddr ∧ ver = ver' ∧ seq = seq' := by
  have hlen : c.deviceAddr.bytes.length = c'.deviceAddr.bytes.length := by
    rw [c.deviceAddr.length_eq, c'.deviceAddr.length_eq]
  obtain ⟨haddr, hrest⟩ := List.append_inj h hlen
  obtain ⟨hver, hseq⟩ := List.cons.inj hrest
  exact ⟨DeviceAddr.ext haddr, hver, BitVec.eq_of_toNat_eq (toLeBytes_inj seq.isLt seq'.isLt hseq)⟩

variable {aead}

theorem decryptInPlace_append {cipher : PacketCipher} {ver : Byte} {seq : Word}
    {data tag : List Byte} (htag : tag.length = aeadTagSize) :
    cipher.decryptInPlace aead ver seq (data ++ tag) =
      match aead.decrypt cipher.key.bytes (nonce seq) (cipher.associatedData seq ver) data tag with
      | none => .error .authentication
      | some plaintext => .ok plaintext := by
  have hlen : (data ++ tag).length - aeadTagSize = data.length := by
    rw [List.length_append, htag, Nat.add_sub_cancel]
  rw [decryptInPlace, if_neg (by rw [List.length_append, htag]; omega), hlen, List.take_left,
    List.drop_left]

theorem encryptInPlace_length {cipher : PacketCipher} {ver : Byte} {seq : Word}
    {plaintext data tag : List Byte}
    (h : cipher.encryptInPlace aead ver seq plaintext = .ok (data, tag)) :
    data.length = plaintext.length ∧ tag.length = aeadTagSize := by
  simp only [encryptInPlace] at h
  split at h
  · cases h
  · rename_i henc
    cases h
    exact aead.encrypt_length henc

/-- Opening what was sealed under the same cipher, version and `seq`. -/
theorem decrypt_encrypt (hl : aead.Lawful) {cipher : PacketCipher} {ver : Byte} {seq : Word}
    {plaintext data tag : List Byte}
    (h : cipher.encryptInPlace aead ver seq plaintext = .ok (data, tag)) :
    cipher.decryptInPlace aead ver seq (data ++ tag) = .ok plaintext := by
  simp only [encryptInPlace] at h
  split at h
  · cases h
  · rename_i henc
    cases h
    rw [decryptInPlace_append (aead.encrypt_length henc).2, hl.decrypts henc]

end PacketCipher

end Homescope
