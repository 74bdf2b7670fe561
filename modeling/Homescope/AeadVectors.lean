import Homescope.Cipher

/-! AEADs that are given by known answers. -/

namespace Homescope

structure AeadVector where
  key : List Byte
  nonce : List Byte
  ad : List Byte
  plaintext : List Byte
  ciphertext : List Byte
  tag : List Byte
  ciphertext_length : ciphertext.length = plaintext.length
  tag_length : tag.length = aeadTagSize

namespace Aead

/-- Knows the vectors and refuses everything else. -/
def ofVectors (vs : List AeadVector) : Aead where
  encrypt key nonce ad plaintext :=
    (vs.find? fun v => v.key = key ∧ v.nonce = nonce ∧ v.ad = ad ∧ v.plaintext = plaintext).map
      fun v => (v.ciphertext, v.tag)
  decrypt key nonce ad ciphertext tag :=
    (vs.find? fun v => v.key = key ∧ v.nonce = nonce ∧ v.ad = ad ∧ v.ciphertext = ciphertext ∧
      v.tag = tag).map AeadVector.plaintext
  encrypt_length h := by
    obtain ⟨v, hv, he⟩ := Option.map_eq_some_iff.mp h
    obtain ⟨-, -, -, rfl⟩ := by simpa only [decide_eq_true_eq] using List.find?_some hv
    cases he
    exact ⟨v.ciphertext_length, v.tag_length⟩
  decrypt_length h := by
    obtain ⟨v, hv, rfl⟩ := Option.map_eq_some_iff.mp h
    obtain ⟨-, -, -, rfl, -⟩ := by simpa only [decide_eq_true_eq] using List.find?_some hv
    exact v.ciphertext_length.symm

theorem encrypt_ofVectors {vs : List AeadVector} {key nonce ad plaintext : List Byte}
    {out : List Byte × List Byte}
    (h : (ofVectors vs).encrypt key nonce ad plaintext = some out) :
    ∃ v ∈ vs, v.key = key ∧ v.nonce = nonce ∧ v.ad = ad ∧ v.plaintext = plaintext ∧
      (v.ciphertext, v.tag) = out := by
  obtain ⟨v, hv, he⟩ := Option.map_eq_some_iff.mp h
  obtain ⟨hkey, hnonce, had, hplain⟩ := by
    simpa only [decide_eq_true_eq] using List.find?_some hv
  exact ⟨v, List.mem_of_find?_eq_some hv, hkey, hnonce, had, hplain, he⟩

theorem decrypt_ofVectors {vs : List AeadVector} {key nonce ad ciphertext tag plaintext : List Byte}
    (h : (ofVectors vs).decrypt key nonce ad ciphertext tag = some plaintext) :
    ∃ v ∈ vs, v.key = key ∧ v.nonce = nonce ∧ v.ad = ad ∧ v.ciphertext = ciphertext ∧ v.tag = tag ∧
      v.plaintext = plaintext := by
  obtain ⟨v, hv, he⟩ := Option.map_eq_some_iff.mp h
  obtain ⟨hkey, hnonce, had, hcipher, htag⟩ := by
    simpa only [decide_eq_true_eq] using List.find?_some hv
  exact ⟨v, List.mem_of_find?_eq_some hv, hkey, hnonce, had, hcipher, htag, he⟩

def plainTag : List Byte := List.replicate aeadTagSize 0

/-- Leaves in the clear what `aead` refuses. -/
def orPlain (aead : Aead) : Aead where
  encrypt key nonce ad plaintext :=
    (aead.encrypt key nonce ad plaintext).or (some (plaintext, plainTag))
  decrypt key nonce ad ciphertext tag :=
    if tag = plainTag then some ciphertext else aead.decrypt key nonce ad ciphertext tag
  encrypt_length h := by
    rcases Option.or_eq_some_iff.mp h with h | ⟨-, h⟩
    · exact aead.encrypt_length h
    · cases h
      exact ⟨rfl, List.length_replicate⟩
  decrypt_length h := by
    split at h
    · cases h
      rfl
    · exact aead.decrypt_length h

theorem orPlain_lawful {vs : List AeadVector} (h : ∀ v ∈ vs, v.tag ≠ plainTag ∧
    (ofVectors vs).decrypt v.key v.nonce v.ad v.ciphertext v.tag = some v.plaintext) :
    (ofVectors vs).orPlain.Lawful where
  encrypts key nonce ad plaintext _ _ := by
    dsimp only [orPlain]
    cases (ofVectors vs).encrypt key nonce ad plaintext with
    | none => exact ⟨_, rfl⟩
    | some out => exact ⟨out, rfl⟩
  decrypts he := by
    rcases Option.or_eq_some_iff.mp he with he | ⟨-, he⟩
    · obtain ⟨v, hv, rfl, rfl, rfl, rfl, hout⟩ := encrypt_ofVectors he
      cases hout
      obtain ⟨htag, hd⟩ := h v hv
      exact (if_neg htag).trans hd
    · cases he
      dsimp only [orPlain]
      rw [if_pos rfl]

end Aead

end Homescope
