import Homescope.Cipher

/-! The sealed key column of the `devices` table (`api/src/devices/keys.rs`).
XChaCha20-Poly1305 is the parameter `kekAead`. -/

namespace Homescope

structure Kek where
  bytes : List Byte
  length_eq : bytes.length = 32

theorem Kek.ext {a b : Kek} (h : a.bytes = b.bytes) : a = b := by
  cases a
  cases b
  cases h
  rfl

instance : DecidableEq Kek := fun _ _ => decidable_of_iff _ ⟨Kek.ext, congrArg Kek.bytes⟩

structure KekRing where
  keys : Byte → Option Kek
  currentVer : Byte
  current_isSome : (keys currentVer).isSome = true

def KekRing.getCurrent (ring : KekRing) : Byte × Kek :=
  (ring.currentVer, (ring.keys ring.currentVer).get ring.current_isSome)

structure XNonce where
  bytes : List Byte
  length_eq : bytes.length = 24

inductive OpenError
  | authentication
  | kekNotLoaded (kekVer : Byte)
  deriving DecidableEq, Repr

inductive ParseError
  | invalidLen (len : Nat)
  | unsupportedVersion (ver : Byte)
  deriving DecidableEq, Repr

inductive KeyFault
  | missing
  | invalid (e : ParseError)
  | kekUnavailable (kekVer : Byte)
  | unopenable (e : OpenError)
  deriving DecidableEq, Repr

/-- `| ver: 1 | kek_ver: 1 | nonce: 24 | sealed: 48 |` -/
structure SealedDeviceKey where
  bytes : List Byte
  length_eq : bytes.length = 74
  deriving DecidableEq

namespace SealedDeviceKey

def version : Byte := 1

def ver (k : SealedDeviceKey) : Byte := k.bytes.getD 0 0

def kekVer (k : SealedDeviceKey) : Byte := k.bytes.getD 1 0

def nonce (k : SealedDeviceKey) : List Byte := (k.bytes.drop 2).take 24

def sealedBytes (k : SealedDeviceKey) : List Byte := k.bytes.drop 26

def associatedData (ver kekVer : Byte) (addr : DeviceAddr) : List Byte :=
  ver :: kekVer :: addr.bytes

variable (kekAead : Aead)

/-- `none` is the panic of an encryption that the AEAD refuses. -/
def sealWithNonce (ring : KekRing) (dek : DeviceKey) (addr : DeviceAddr) (nonce : XNonce) :
    Option SealedDeviceKey :=
  let (kekVer, kek) := ring.getCurrent
  match h : kekAead.encrypt kek.bytes nonce.bytes (associatedData version kekVer addr) dek.bytes with
  | none => none
  | some (ciphertext, tag) => some
    { bytes := version :: kekVer :: (nonce.bytes ++ (ciphertext ++ tag))
      length_eq := by
        obtain ⟨hc, ht⟩ := kekAead.encrypt_length h
        simp [hc, ht, nonce.length_eq, dek.length_eq, aeadTagSize] }

def openWith (k : SealedDeviceKey) (ring : KekRing) (addr : DeviceAddr) :
    Except OpenError DeviceKey :=
  match ring.keys k.kekVer with
  | none => .error (.kekNotLoaded k.kekVer)
  | some kek =>
    match h : kekAead.decrypt kek.bytes k.nonce (associatedData k.ver k.kekVer addr)
        (k.sealedBytes.take DeviceKey.size) (k.sealedBytes.drop DeviceKey.size) with
    | none => .error .authentication
    | some key => .ok
      { bytes := key
        length_eq := by
          rw [kekAead.decrypt_length h]
          simp [sealedBytes, k.length_eq, DeviceKey.size] }

def tryFrom (value : List Byte) : Except ParseError SealedDeviceKey :=
  if h : value.length = 74 then
    let k : SealedDeviceKey := ⟨value, h⟩
    if k.ver ≠ version then .error (.unsupportedVersion k.ver) else .ok k
  else .error (.invalidLen value.length)

end SealedDeviceKey

def openKeyColumn (kekAead : Aead) (column : Option (List Byte)) (addr : DeviceAddr)
    (ring : KekRing) : Except KeyFault DeviceKey :=
  match column with
  | none => .error .missing
  | some rawKey =>
    match SealedDeviceKey.tryFrom rawKey with
    | .error e => .error (.invalid e)
    | .ok k =>
      match k.openWith kekAead ring addr with
      | .error (.kekNotLoaded ver) => .error (.kekUnavailable ver)
      | .error .authentication => .error (.unopenable .authentication)
      | .ok key => .ok key

variable {kekAead : Aead}

theorem SealedDeviceKey.openWith_eq_ok {k : SealedDeviceKey} {ring : KekRing} {addr : DeviceAddr}
    {dek : DeviceKey} : k.openWith kekAead ring addr = .ok dek ↔
      ∃ kek, ring.keys k.kekVer = some kek ∧
        kekAead.decrypt kek.bytes k.nonce (associatedData k.ver k.kekVer addr)
          (k.sealedBytes.take DeviceKey.size) (k.sealedBytes.drop DeviceKey.size) =
            some dek.bytes := by
  simp only [openWith]
  split
  · rename_i hnone
    simp [hnone]
  · rename_i kek hkek
    simp only [hkek, Option.some.injEq, exists_eq_left']
    split
    · rename_i hnone
      simp [hnone]
    · rename_i key hkey
      rw [Except.ok.injEq]
      constructor
      · rintro rfl
        exact hkey
      · exact fun h => DeviceKey.ext (Option.some.inj (hkey.symm.trans h))

theorem openKeyColumn_eq_ok {column : List Byte} {addr : DeviceAddr} {ring : KekRing}
    {dek : DeviceKey} : openKeyColumn kekAead (some column) addr ring = .ok dek ↔
      ∃ k, SealedDeviceKey.tryFrom column = .ok k ∧ k.openWith kekAead ring addr = .ok dek := by
  simp only [openKeyColumn]
  split
  · rename_i e he
    simp [he]
  · rename_i k hk
    simp only [hk, Except.ok.injEq, exists_eq_left']
    split <;> simp_all

theorem SealedDeviceKey.tryFrom_eq_ok {column : List Byte} {k : SealedDeviceKey} :
    tryFrom column = .ok k ↔ k.bytes = column ∧ k.ver = version := by
  simp only [tryFrom]
  split
  · rename_i hlen
    split
    · rename_i hver
      refine ⟨fun h => (nomatch h), fun ⟨hk, hkver⟩ => absurd ?_ hver⟩
      subst hk
      exact hkver
    · rename_i hver
      rw [Except.ok.injEq]
      constructor
      · rintro rfl
        exact ⟨rfl, not_not.mp hver⟩
      · rintro ⟨rfl, -⟩
        rfl
  · rename_i hlen
    refine ⟨fun h => (nomatch h), fun ⟨hk, _⟩ => absurd ?_ hlen⟩
    rw [← hk, k.length_eq]

/-- A column of the current version, taken apart. -/
theorem openKeyColumn_parts {addr : DeviceAddr} {ring : KekRing} {dek : DeviceKey} {kekVer : Byte}
    {nonce ciphertext tag : List Byte} (hn : nonce.length = 24)
    (hc : ciphertext.length = DeviceKey.size) (ht : tag.length = aeadTagSize) :
    openKeyColumn kekAead
        (some (SealedDeviceKey.version :: kekVer :: (nonce ++ (ciphertext ++ tag)))) addr ring =
        .ok dek ↔
      ∃ kek, ring.keys kekVer = some kek ∧
        kekAead.decrypt kek.bytes nonce
          (SealedDeviceKey.associatedData SealedDeviceKey.version kekVer addr) ciphertext tag =
            some dek.bytes := by
  have hlen : (SealedDeviceKey.version :: kekVer :: (nonce ++ (ciphertext ++ tag))).length = 74 := by
    simp [hn, hc, ht, DeviceKey.size, aeadTagSize]
  have hnonce : SealedDeviceKey.nonce ⟨_, hlen⟩ = nonce := List.take_left' hn
  have hsealed : SealedDeviceKey.sealedBytes ⟨_, hlen⟩ = ciphertext ++ tag := List.drop_left' hn
  have htry : SealedDeviceKey.tryFrom
      (SealedDeviceKey.version :: kekVer :: (nonce ++ (ciphertext ++ tag))) = .ok ⟨_, hlen⟩ :=
    SealedDeviceKey.tryFrom_eq_ok.mpr ⟨rfl, rfl⟩
  rw [openKeyColumn_eq_ok, htry]
  simp only [Except.ok.injEq, exists_eq_left', SealedDeviceKey.openWith_eq_ok, hnonce, hsealed,
    List.take_left' hc, List.drop_left' hc]
  rfl

/-- A column that was sealed for an address opens for it, while the ring stays. -/
theorem openKeyColumn_seal (hl : kekAead.Lawful) {ring : KekRing} {dek : DeviceKey}
    {addr : DeviceAddr} {nonce : XNonce} {k : SealedDeviceKey}
    (h : SealedDeviceKey.sealWithNonce kekAead ring dek addr nonce = some k) :
    openKeyColumn kekAead (some k.bytes) addr ring = .ok dek := by
  simp only [SealedDeviceKey.sealWithNonce, KekRing.getCurrent] at h
  split at h
  · cases h
  · rename_i ciphertext tag henc
    obtain ⟨hc, ht⟩ := kekAead.encrypt_length henc
    cases h
    exact (openKeyColumn_parts nonce.length_eq (hc.trans dek.length_eq) ht).mpr
      ⟨_, (Option.some_get _).symm, hl.decrypts henc⟩

end Homescope
