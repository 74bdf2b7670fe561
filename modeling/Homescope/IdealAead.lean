import Homescope.AeadVectors
import Mathlib.Data.Set.Image

/-! An AEAD that opens what was sealed and nothing else. -/

namespace Homescope

/-- A text that was sealed, with what it was sealed under. -/
structure AeadSeal where
  key : List Byte
  nonce : List Byte
  ad : List Byte
  plaintext : List Byte

structure Aead.Ideal (aead : Aead) (seals : Set AeadSeal) : Prop where
  decrypts {s : AeadSeal} {ciphertext tag : List Byte} (hs : s ∈ seals) :
    aead.encrypt s.key s.nonce s.ad s.plaintext = some (ciphertext, tag) →
      aead.decrypt s.key s.nonce s.ad ciphertext tag = some s.plaintext
  authentic {key nonce ad ciphertext tag plaintext : List Byte} :
    aead.decrypt key nonce ad ciphertext tag = some plaintext →
      ⟨key, nonce, ad, plaintext⟩ ∈ seals ∧
        aead.encrypt key nonce ad plaintext = some (ciphertext, tag)

/-- An ideal AEAD opens what was sealed. -/
def Aead.Opens (aead : Aead) (seals : Set AeadSeal) : Prop :=
  ∀ s ∈ seals, ∀ ciphertext tag,
    aead.encrypt s.key s.nonce s.ad s.plaintext = some (ciphertext, tag) →
      aead.decrypt s.key s.nonce s.ad ciphertext tag = some s.plaintext

theorem Aead.Ideal.opens {aead : Aead} {seals : Set AeadSeal} (h : aead.Ideal seals) :
    aead.Opens seals :=
  fun _ hs _ _ => h.decrypts hs

theorem Aead.ofVectors_ideal {vs : List AeadVector} {seals : Set AeadSeal}
    (hv : ∀ v ∈ vs, (ofVectors vs).encrypt v.key v.nonce v.ad v.plaintext =
        some (v.ciphertext, v.tag) ∧
      (ofVectors vs).decrypt v.key v.nonce v.ad v.ciphertext v.tag = some v.plaintext)
    (hs : seals = {s | ∃ v ∈ vs, s = ⟨v.key, v.nonce, v.ad, v.plaintext⟩}) :
    (ofVectors vs).Ideal seals where
  decrypts hmem h := by
    subst hs
    obtain ⟨v, hmem, rfl⟩ := hmem
    obtain ⟨hencrypt, hdecrypt⟩ := hv v hmem
    cases hencrypt.symm.trans h
    exact hdecrypt
  authentic h := by
    subst hs
    obtain ⟨v, hmem, rfl, rfl, rfl, rfl, rfl, rfl⟩ := decrypt_ofVectors h
    exact ⟨⟨v, hmem, rfl⟩, (hv v hmem).1⟩

end Homescope
