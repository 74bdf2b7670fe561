import Homescope.IdealAead
import Homescope.KekFile
import Homescope.Summary

/-! Sealed key columns over every history of KEK rings. -/

namespace Homescope

open Commands

/-- Generations are only added; the current one may be any. -/
def KekRing.Extends (old new : KekRing) : Prop :=
  ∀ kekVer kek, old.keys kekVer = some kek → new.keys kekVer = some kek

/-- A column with the address and the key that it was sealed for. -/
structure SealedColumn where
  addr : DeviceAddr
  key : DeviceKey
  sealedKey : SealedDeviceKey

/-- The ring that is loaded, and every column that was ever sealed. -/
structure KeyHistory where
  ring : KekRing
  columns : List SealedColumn

/-- The text that a seal under the ring is. -/
def KekRing.sealOf (ring : KekRing) (dek : DeviceKey) (addr : DeviceAddr) (nonce : XNonce) :
    AeadSeal where
  key := ring.getCurrent.2.bytes
  nonce := nonce.bytes
  ad := SealedDeviceKey.associatedData SealedDeviceKey.version ring.getCurrent.1 addr
  plaintext := dek.bytes

/-- The next ring file is loaded, or a key is sealed under the ring. -/
inductive KeyHistoryStep (kekAead : Aead) (seals : Set AeadSeal) : KeyHistory → KeyHistory → Prop
  | load {s : KeyHistory} {content : List Char} {ring : KekRing}
      (hparse : KekRing.parse content = .ok ring) (hextends : s.ring.Extends ring) :
      KeyHistoryStep kekAead seals s { s with ring }
  | sealKey {s : KeyHistory} {dek : DeviceKey} {addr : DeviceAddr} {nonce : XNonce}
      {k : SealedDeviceKey}
      (hk : SealedDeviceKey.sealWithNonce kekAead s.ring dek addr nonce = some k)
      (hs : s.ring.sealOf dek addr nonce ∈ seals) :
      KeyHistoryStep kekAead seals s { s with columns := ⟨addr, dek, k⟩ :: s.columns }

variable {kekAead : Aead} {seals : Set AeadSeal}

/-- The column was sealed under a generation that the ring still has. -/
def SealedUnder (kekAead : Aead) (seals : Set AeadSeal) (ring : KekRing) (c : SealedColumn) : Prop :=
  ∃ kekVer kek, ∃ nonce ciphertext tag : List Byte, ring.keys kekVer = some kek ∧
    nonce.length = 24 ∧
    c.sealedKey.bytes = SealedDeviceKey.version :: kekVer :: (nonce ++ (ciphertext ++ tag)) ∧
    kekAead.encrypt kek.bytes nonce
      (SealedDeviceKey.associatedData SealedDeviceKey.version kekVer c.addr) c.key.bytes =
        some (ciphertext, tag) ∧
    ⟨kek.bytes, nonce, SealedDeviceKey.associatedData SealedDeviceKey.version kekVer c.addr,
      c.key.bytes⟩ ∈ seals

theorem sealedUnder_seal {ring : KekRing} {dek : DeviceKey} {addr : DeviceAddr} {nonce : XNonce}
    {k : SealedDeviceKey} (hk : SealedDeviceKey.sealWithNonce kekAead ring dek addr nonce = some k)
    (hs : ring.sealOf dek addr nonce ∈ seals) : SealedUnder kekAead seals ring ⟨addr, dek, k⟩ := by
  simp only [SealedDeviceKey.sealWithNonce, KekRing.getCurrent] at hk
  split at hk
  · cases hk
  · rename_i ciphertext tag henc
    cases hk
    exact ⟨ring.currentVer, _, nonce.bytes, ciphertext, tag, (Option.some_get _).symm,
      nonce.length_eq, rfl, henc, hs⟩

theorem SealedUnder.extends {ring ring' : KekRing} {c : SealedColumn}
    (h : SealedUnder kekAead seals ring c) (he : ring.Extends ring') :
    SealedUnder kekAead seals ring' c := by
  obtain ⟨kekVer, kek, nonce, ciphertext, tag, hkek, hrest⟩ := h
  exact ⟨kekVer, kek, nonce, ciphertext, tag, he kekVer kek hkek, hrest⟩

def KeyHistory.Kept (kekAead : Aead) (seals : Set AeadSeal) (s : KeyHistory) : Prop :=
  ∀ c ∈ s.columns, SealedUnder kekAead seals s.ring c

theorem KeyHistory.Kept.step {s t : KeyHistory} (hst : KeyHistoryStep kekAead seals s t)
    (h : s.Kept kekAead seals) : t.Kept kekAead seals := by
  cases hst with
  | load _ hextends => exact fun c hc => (h c hc).extends hextends
  | sealKey hk hs =>
    intro c hc
    rcases List.mem_cons.mp hc with rfl | hc
    · exact sealedUnder_seal hk hs
    · exact h c hc

/-- No two seals draw the same nonce. -/
def FreshNonces (seals : Set AeadSeal) : Prop :=
  ∀ s ∈ seals, ∀ s' ∈ seals, s.nonce = s'.nonce → s = s'

theorem SealedUnder.opens (ho : kekAead.Opens seals) {ring : KekRing} {c : SealedColumn}
    (h : SealedUnder kekAead seals ring c) :
    openKeyColumn kekAead (some c.sealedKey.bytes) c.addr ring = .ok c.key := by
  obtain ⟨kekVer, kek, nonce, ciphertext, tag, hkek, hn, hbytes, henc, hs⟩ := h
  obtain ⟨hc, ht⟩ := kekAead.encrypt_length henc
  rw [hbytes, openKeyColumn_parts hn (hc.trans c.key.length_eq) ht]
  exact ⟨kek, hkek, ho _ hs _ _ henc⟩

/-- A blob that opens in some row, under some generation, was sealed for both. -/
theorem SealedUnder.bound (hi : kekAead.Ideal seals) (hf : FreshNonces seals) {ring : KekRing}
    {c : SealedColumn} (h : SealedUnder kekAead seals ring c) {addr : DeviceAddr} {kekVer : Byte}
    {key : DeviceKey} (hopen : openKeyColumn kekAead
      (some (c.sealedKey.bytes.set 1 kekVer)) addr ring = .ok key) :
    addr = c.addr ∧ kekVer = c.sealedKey.kekVer := by
  obtain ⟨kekVer', kek', nonce, ciphertext, tag, -, hn, hbytes, henc, hs⟩ := h
  obtain ⟨hc, ht⟩ := kekAead.encrypt_length henc
  have hver : c.sealedKey.kekVer = kekVer' := by
    rw [SealedDeviceKey.kekVer, hbytes]
    rfl
  rw [hbytes] at hopen
  obtain ⟨kek, -, hdecrypt⟩ := (openKeyColumn_parts hn (hc.trans c.key.length_eq) ht).mp hopen
  have had := congrArg AeadSeal.ad (hf _ (hi.authentic hdecrypt).1 _ hs rfl)
  simp only [SealedDeviceKey.associatedData, List.cons.injEq, true_and] at had
  exact ⟨DeviceAddr.ext had.2, had.1.trans hver.symm⟩

/-- The column without a change is the column with its own generation. -/
theorem SealedDeviceKey.set_kekVer (k : SealedDeviceKey) : k.bytes.set 1 k.kekVer = k.bytes := by
  obtain ⟨bytes, hlen⟩ := k
  match bytes, hlen with
  | _ :: _ :: _, _ => rfl

theorem openKeyColumn_other_version {k : SealedDeviceKey} {ver : Byte} {addr : DeviceAddr}
    {ring : KekRing} {key : DeviceKey} (hver : ver ≠ SealedDeviceKey.version) :
    openKeyColumn kekAead (some (k.bytes.set 0 ver)) addr ring ≠ .ok key := by
  intro hopen
  obtain ⟨k', htry, -⟩ := openKeyColumn_eq_ok.mp hopen
  obtain ⟨hbytes, hver'⟩ := SealedDeviceKey.tryFrom_eq_ok.mp htry
  obtain ⟨bytes, hlen⟩ := k
  match bytes, hlen with
  | _ :: _, _ =>
    rw [SealedDeviceKey.ver, hbytes] at hver'
    exact hver hver'

/-- Whatever rings were loaded and whatever keys were sealed: every sealed column
still opens for its own address to its own key, and for nothing else. -/
theorem columns_stay_open (ho : kekAead.Opens seals) {ring : KekRing} {t : KeyHistory}
    (h : Relation.ReflTransGen (KeyHistoryStep kekAead seals) ⟨ring, []⟩ t) :
    (∀ c ∈ t.columns,
      openKeyColumn kekAead (some c.sealedKey.bytes) c.addr t.ring = .ok c.key) ∧
    (kekAead.Ideal seals → FreshNonces seals → ∀ c ∈ t.columns, ∀ key,
      (∀ addr, addr ≠ c.addr →
        openKeyColumn kekAead (some c.sealedKey.bytes) addr t.ring ≠ .ok key) ∧
      (∀ ver, ver ≠ c.sealedKey.ver →
        openKeyColumn kekAead (some (c.sealedKey.bytes.set 0 ver)) c.addr t.ring ≠ .ok key) ∧
      ∀ kekVer, kekVer ≠ c.sealedKey.kekVer →
        openKeyColumn kekAead (some (c.sealedKey.bytes.set 1 kekVer)) c.addr t.ring ≠ .ok key) ∧
    ∀ activity, (classify kekAead activity t.ring).keyStatus = .ok ↔
      ∃ key, openKeyColumn kekAead activity.record.key activity.record.deviceAddr t.ring =
        .ok key := by
  have hkept : t.Kept kekAead seals := invariant_run (I := fun s => s.Kept kekAead seals) h
    (fun _ _ hst => KeyHistory.Kept.step hst) fun _ hc => nomatch hc
  refine ⟨fun c hc => (hkept c hc).opens ho, fun hi hf c hc key => ⟨?_, ?_, ?_⟩,
    fun activity => classify_ok_iff kekAead activity t.ring⟩
  · intro addr hne hopen
    rw [← c.sealedKey.set_kekVer] at hopen
    exact hne ((hkept c hc).bound hi hf hopen).1
  · intro ver hne
    refine openKeyColumn_other_version ?_
    obtain ⟨_, _, _, _, _, -, -, hbytes, -, -⟩ := hkept c hc
    rwa [SealedDeviceKey.ver, hbytes] at hne
  · intro kekVer hne hopen
    exact hne ((hkept c hc).bound hi hf hopen).2

/-! ### A second generation -/

section Sample

open ReadingPath (sensorKey)

def keyVectors : List AeadVector := [sensorKeyVector, firstKeyVector]

def keySeals : Set AeadSeal := {s | ∃ v ∈ keyVectors, s = ⟨v.key, v.nonce, v.ad, v.plaintext⟩}

theorem keyVectors_ideal : (Aead.ofVectors keyVectors).Ideal keySeals :=
  Aead.ofVectors_ideal (by decide +kernel) rfl

theorem keySeals_fresh : FreshNonces keySeals := by
  have h : ∀ v ∈ keyVectors, ∀ v' ∈ keyVectors, v.nonce = v'.nonce →
      v.key = v'.key ∧ v.ad = v'.ad ∧ v.plaintext = v'.plaintext := by
    decide +kernel
  rintro s ⟨v, hv, rfl⟩ s' ⟨v', hv', rfl⟩ hn
  obtain ⟨hkey, had, hplain⟩ := h v hv v' hv' hn
  simp only [hkey, had, hplain, AeadSeal.mk.injEq, true_and, and_true]
  exact hn

def grownFile : List Char :=
  ("current = 2\n" ++
    "1 = 1F2E3D4C5B6A79889796A5B4C3D2E1F00F1E2D3C4B5A69788796A5B4C3D2E1F0\n" ++
    "2 = A0B1C2D3E4F50617283940516273849506172839405162738495A6B7C8D9E0F1 # new\n").toList

def sensorSealed : SealedDeviceKey where
  bytes := [1, 1] ++ sensorNonce.bytes ++ sensorKeyVector.ciphertext ++ sensorKeyVector.tag
  length_eq := rfl

theorem columns_stay_open_grown : ∃ t,
    Relation.ReflTransGen (KeyHistoryStep (Aead.ofVectors keyVectors) keySeals) ⟨sampleRing, []⟩ t ∧
    t.ring.currentVer = 2 ∧
    openKeyColumn (Aead.ofVectors keyVectors) (some sensorSealed.bytes) sensorAddr t.ring =
      .ok sensorKey ∧
    ∀ key, openKeyColumn (Aead.ofVectors keyVectors) (some (sensorSealed.bytes.set 1 2)) sensorAddr
      t.ring ≠ .ok key := by
  have hgrown : ((KekRing.parse grownFile).toOption.bind fun ring => ring.keys 1) =
      some sampleKek := by
    decide +kernel
  have hcurrent : (KekRing.parse grownFile).toOption.map KekRing.currentVer = some 2 := by
    decide +kernel
  cases hparse : KekRing.parse grownFile with
  | error e =>
    rw [hparse] at hcurrent
    cases hcurrent
  | ok ring =>
    rw [hparse] at hgrown hcurrent
    have hextends : sampleRing.Extends ring := by
      intro kekVer kek hkek
      simp only [sampleRing] at hkek
      split at hkek
      · rename_i hver
        rw [hver, ← hkek]
        exact hgrown
      · cases hkek
    have hseal : SealedDeviceKey.sealWithNonce (Aead.ofVectors keyVectors) sampleRing sensorKey
        sensorAddr sensorNonce = some sensorSealed := by
      decide +kernel
    have hrun : Relation.ReflTransGen (KeyHistoryStep (Aead.ofVectors keyVectors) keySeals)
        ⟨sampleRing, []⟩ ⟨ring, [⟨sensorAddr, sensorKey, sensorSealed⟩]⟩ :=
      .head (.sealKey hseal ⟨sensorKeyVector, List.mem_cons_self, rfl⟩)
        (.single (.load hparse hextends))
    obtain ⟨hopens, hbound, -⟩ := columns_stay_open keyVectors_ideal.opens hrun
    refine ⟨_, hrun, Option.some.inj hcurrent, hopens _ List.mem_cons_self, fun key => ?_⟩
    exact (hbound keyVectors_ideal keySeals_fresh _ List.mem_cons_self key).2.2 2 (by decide)

end Sample

end Homescope
