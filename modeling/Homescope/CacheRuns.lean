import Homescope.ApiProcess
import Homescope.ReadingPath

/-! The registry's cache against the table, over every run of the API process. -/

namespace Homescope

open Commands Commands.Prog

/-- The request whose statement wrote the row last has not inserted before this one. -/
def ApiProcess.InOrder (s : ApiProcess) : ApiEvent → Prop
  | .ran _ (.cacheInsert addr _) _ =>
    ∃ j d k, s.committed addr = some j ∧ s.requests j = .cmd (.cacheInsert addr d) k
  | _ => True

/-- The cache holds the devices of exactly the rows whose keys open, with those keys. -/
def ApiProcess.CacheAgrees (config : ApiConfig) (s : ApiProcess) : Prop :=
  ∀ addr, ((s.store.cache addr).isSome = true ↔ ∃ row key, s.store.devices addr = some row ∧
      openKeyColumn config.kekAead row.key addr config.ring = .ok key) ∧
    ∀ device, s.store.cache addr = some device → ∃ row, s.store.devices addr = some row ∧
      openKeyColumn config.kekAead row.key addr config.ring = .ok device.cipher.key ∧
        device.keyValidFrom = row.keyValidFrom

section Orderly

variable (config : ApiConfig)

/-- A cache insert pays for the row that the request has just written. -/
def ApiCmd.Settles (c : ApiCmd) (owed : Option (DeviceAddr × DeviceRow)) : Prop :=
  match c with
  | .cacheInsert addr d => ∃ row, owed = some (addr, row) ∧ config.deviceOf addr row = some d
  | _ => owed = none

/-- A request inserts into the cache right after it has written a row, and then
the device that the row stands for. -/
def Orderly : ApiM Unit → Option (DeviceAddr × DeviceRow) → Prop
  | .ret _, owed => owed = none
  | .cmd c k, owed => c.Settles config owed ∧ ∀ a, c.Possible a → Orderly (k a) (c.writes a)

variable {config}

theorem orderly_program (hl : config.kekAead.Lawful) (request : Request) :
    Orderly config (config.program request) none := by
  cases request with
  | provision addr name =>
    rw [config.program_provision]
    refine ⟨rfl, fun key _ => ?_⟩
    cases key with
    | error e => rfl
    | ok key =>
      refine ⟨rfl, fun nonce _ => ?_⟩
      dsimp only
      split
      · rfl
      · rename_i k hk
        refine ⟨rfl, fun a ha => ?_⟩
        rcases a with err | r
        · cases err <;> first | rfl | exact ⟨rfl, fun _ _ => rfl⟩
        · obtain ⟨now, rfl⟩ := ha
          exact ⟨⟨_, rfl, config.deviceOf_sealed hl hk name now⟩, fun _ _ => rfl⟩
  | rotateKey addr =>
    rw [config.program_rotateKey]
    refine ⟨rfl, fun key _ => ?_⟩
    cases key with
    | error e => rfl
    | ok key =>
      refine ⟨rfl, fun nonce _ => ?_⟩
      dsimp only
      split
      · rfl
      · rename_i k hk
        refine ⟨rfl, fun a ha => ?_⟩
        rcases a with err | _ | r
        · rfl
        · rfl
        · obtain ⟨name, now, rfl⟩ := ha
          exact ⟨⟨_, rfl, config.deviceOf_sealed hl hk name now⟩, fun _ _ => rfl⟩
  | envelope e =>
    rw [ApiConfig.program, handleEnvelope_eq]
    refine ⟨rfl, fun device _ => ?_⟩
    cases device with
    | none => rfl
    | some device =>
      dsimp only
      split
      · rfl
      · exact ⟨rfl, fun _ _ => rfl⟩

end Orderly

/-- The cache agrees with the table, but for addresses whose last writer still
owes its insert. -/
structure Settled (config : ApiConfig) (s : ApiProcess)
    (owed : Nat → Option (DeviceAddr × DeviceRow)) : Prop where
  orderly : ∀ i, Orderly config (s.requests i) (owed i)
  row : ∀ i addr row, owed i = some (addr, row) → s.committed addr = some i →
    s.store.devices addr = some row
  cache : ∀ addr, s.store.cache addr = config.load s.store.devices addr ∨
    ∃ i row, s.committed addr = some i ∧ owed i = some (addr, row)

namespace Settled

variable {config : ApiConfig} {s : ApiProcess} {owed : Nat → Option (DeviceAddr × DeviceRow)}

theorem loaded (devices : DeviceAddr → Option DeviceRow) (readings : List StoredReading) :
    Settled config (config.loaded devices readings) fun _ => none where
  orderly _ := rfl
  row _ _ _ h := nomatch h
  cache _ := .inl rfl

theorem start (hl : config.kekAead.Lawful) (h : Settled config s owed) {i : Nat}
    (hi : s.requests i = .ret ()) (request : Request) :
    Settled config { s with requests := Function.update s.requests i (config.program request) }
      owed where
  orderly j := by
    by_cases hj : j = i
    · subst hj
      have hnone := h.orderly j
      rw [hi] at hnone
      rw [show owed j = none from hnone]
      simpa using orderly_program hl request
    · simpa [hj] using h.orderly j
  row := h.row
  cache := h.cache

section Ran

variable {i : Nat} {c : ApiCmd} {k : c.Answer → ApiM Unit} {a : c.Answer} {store : ApiStore}

theorem owes_nothing (h : Settled config s owed) (hi : s.requests i = .cmd c k)
    (hc : ∀ addr d, c ≠ .cacheInsert addr d) : owed i = none := by
  have hs := h.orderly i
  rw [hi] at hs
  have hsettles := hs.1
  cases c with
  | cacheInsert addr d => exact absurd rfl (hc addr d)
  | _ => exact hsettles

theorem owes_insert (h : Settled config s owed) {addr : DeviceAddr} {d : Device}
    {k : Unit → ApiM Unit} (hi : s.requests i = .cmd (.cacheInsert addr d) k) :
    ∃ row, owed i = some (addr, row) ∧ config.deviceOf addr row = some d := by
  have hs := h.orderly i
  rw [hi] at hs
  exact hs.1

theorem ran_orderly (h : Settled config s owed) (hi : s.requests i = .cmd c k)
    (hc : apiStep s.store c a store) (j : Nat) :
    Orderly config (Function.update s.requests i (k a) j)
      (Function.update owed i (c.writes a) j) := by
  by_cases hj : j = i
  · subst hj
    have hs := h.orderly j
    rw [hi] at hs
    simpa using hs.2 a (apiStep_possible hc)
  · simpa [hj] using h.orderly j

/-- A statement that writes a row leaves its request owing the insert. -/
theorem wrote (h : Settled config s owed) (hi : s.requests i = .cmd c k)
    (hc : apiStep s.store c a store) {addr : DeviceAddr} {row : DeviceRow}
    (hw : c.writes a = some (addr, row)) :
    Settled config ⟨store, Function.update s.requests i (k a), s.commit i c a⟩
      (Function.update owed i (c.writes a)) := by
  have hni : ∀ addr d, c ≠ .cacheInsert addr d := by
    rintro addr d rfl
    cases hw
  have hnone := h.owes_nothing hi hni
  have hdev : store.devices = Function.update s.store.devices addr (some row) := by
    rw [apiStep_devices hc, hw]
  have hcommit : s.commit i c a = Function.update s.committed addr (some i) := by
    simp only [ApiProcess.commit, hw]
  refine ⟨h.ran_orderly hi hc, ?_, ?_⟩
  · intro j addr' row' hj hcj
    simp only [hcommit] at hcj
    by_cases ha : addr' = addr
    · subst ha
      obtain rfl : i = j := by simpa using hcj
      simp only [Function.update_self, hw, Option.some.injEq, Prod.mk.injEq, true_and] at hj
      simp only [hdev, Function.update_self, hj]
    · rw [Function.update_of_ne ha] at hcj
      have hji : j ≠ i := by
        rintro rfl
        simp only [Function.update_self, hw, Option.some.injEq, Prod.mk.injEq] at hj
        exact ha hj.1.symm
      rw [Function.update_of_ne hji] at hj
      simp only [hdev, Function.update_of_ne ha]
      exact h.row j addr' row' hj hcj
  · intro addr'
    simp only [hcommit]
    by_cases ha : addr' = addr
    · subst ha
      exact .inr ⟨i, row, by simp, by simp [hw]⟩
    · rw [Function.update_of_ne ha, apiStep_cache hc hni]
      rcases h.cache addr' with hl | ⟨j, row', hcj, hj⟩
      · refine .inl (hl.trans ?_)
        simp only [ApiConfig.load, DeviceRegistry.load, hdev, Function.update_of_ne ha]
      · have hji : j ≠ i := by
          rintro rfl
          rw [hnone] at hj
          cases hj
        exact .inr ⟨j, row', hcj, by rwa [Function.update_of_ne hji]⟩

theorem idle (h : Settled config s owed) (hi : s.requests i = .cmd c k)
    (hc : apiStep s.store c a store) (hw : c.writes a = none)
    (hcache : ∀ addr, store.cache addr = config.load s.store.devices addr ∨
      ∃ j row, s.committed addr = some j ∧ j ≠ i ∧ owed j = some (addr, row)) :
    Settled config ⟨store, Function.update s.requests i (k a), s.commit i c a⟩
      (Function.update owed i (c.writes a)) := by
  have hdev : store.devices = s.store.devices := by rw [apiStep_devices hc, hw]
  have hcommit : s.commit i c a = s.committed := by simp only [ApiProcess.commit, hw]
  refine ⟨h.ran_orderly hi hc, ?_, ?_⟩
  · intro j addr row hj hcj
    have hji : j ≠ i := by
      rintro rfl
      rw [Function.update_self, hw] at hj
      cases hj
    rw [Function.update_of_ne hji] at hj
    rw [hcommit] at hcj
    rw [hdev]
    exact h.row j addr row hj hcj
  · intro addr
    simp only [hcommit, hdev]
    rcases hcache addr with hl | ⟨j, row, hcj, hji, hj⟩
    · exact .inl hl
    · exact .inr ⟨j, row, hcj, by rwa [Function.update_of_ne hji]⟩

theorem ran (h : Settled config s owed) (hi : s.requests i = .cmd c k)
    (hc : apiStep s.store c a store) (ho : s.InOrder (.ran i c a)) :
    Settled config ⟨store, Function.update s.requests i (k a), s.commit i c a⟩
      (Function.update owed i (c.writes a)) := by
  cases hw : c.writes a with
  | some w =>
    rw [← hw]
    exact h.wrote hi hc hw
  | none =>
    rw [← hw]
    refine h.idle hi hc hw fun addr' => ?_
    by_cases hins : ∃ addr d, c = .cacheInsert addr d
    · obtain ⟨addr, d, rfl⟩ := hins
      obtain ⟨row, howed, hdevice⟩ := h.owes_insert hi
      obtain ⟨j, d', k', hcj, hj⟩ := ho
      obtain ⟨row', howed', -⟩ := h.owes_insert hj
      have hstore : store.cache = Function.update s.store.cache addr (some d) := by
        rw [apiStep_after hc]
        rfl
      by_cases ha : addr' = addr
      · subst ha
        by_cases hji : j = i
        · subst hji
          refine .inl ?_
          simp only [hstore, Function.update_self, ApiConfig.load, DeviceRegistry.load,
            h.row j addr' row howed hcj, Option.bind_some]
          exact hdevice.symm
        · exact .inr ⟨j, row', hcj, hji, howed'⟩
      · rw [hstore, Function.update_of_ne ha]
        refine (h.cache addr').imp_right fun ⟨m, row'', hcm, hm⟩ => ⟨m, row'', hcm, ?_, hm⟩
        rintro rfl
        rw [howed] at hm
        simp only [Option.some.injEq, Prod.mk.injEq] at hm
        exact ha hm.1.symm
    · have hni : ∀ addr d, c ≠ .cacheInsert addr d := fun addr d he => hins ⟨addr, d, he⟩
      rw [apiStep_cache hc hni]
      refine (h.cache addr').imp_right fun ⟨m, row, hcm, hm⟩ => ⟨m, row, hcm, ?_, hm⟩
      rintro rfl
      rw [h.owes_nothing hi hni] at hm
      cases hm

end Ran

/-- Every step that inserts in order keeps the cache settled. -/
theorem step (hl : config.kekAead.Lawful) {t : ApiProcess}
    (hst : config.StepIf ApiProcess.InOrder s t)
    (h : ∃ owed, Settled config s owed) : ∃ owed, Settled config t owed := by
  obtain ⟨owed, h⟩ := h
  obtain ⟨e, hstep, ho⟩ := hst
  cases hstep with
  | start hi request => exact ⟨_, h.start hl hi request⟩
  | ran hi hc => exact ⟨_, h.ran hi hc ho⟩
  | restart => exact ⟨_, loaded ..⟩

theorem load_eq (h : Settled config s owed) (hdone : ∀ i, s.requests i = .ret ())
    (addr : DeviceAddr) : s.store.cache addr = config.load s.store.devices addr := by
  rcases h.cache addr with hl | ⟨i, row, -, howed⟩
  · exact hl
  · have hnone := h.orderly i
    rw [hdone i] at hnone
    rw [show owed i = none from hnone] at howed
    cases howed

end Settled

theorem ApiConfig.deviceOf_eq_some {config : ApiConfig} {addr : DeviceAddr} {row : DeviceRow}
    {device : Device} (h : config.deviceOf addr row = some device) :
    openKeyColumn config.kekAead row.key addr config.ring = .ok device.cipher.key ∧
      device.keyValidFrom = row.keyValidFrom := by
  simp only [deviceOf, DeviceRegistry.deviceOf] at h
  split at h
  · cases h
  · rename_i key hkey
    cases h
    exact ⟨hkey, rfl⟩

theorem ApiConfig.deviceOf_opens {config : ApiConfig} {addr : DeviceAddr} {row : DeviceRow}
    {key : DeviceKey} (h : openKeyColumn config.kekAead row.key addr config.ring = .ok key) :
    (config.deviceOf addr row).isSome = true := by
  simp only [deviceOf, DeviceRegistry.deviceOf, h, Option.isSome_some]

theorem ApiProcess.cacheAgrees_of_load {config : ApiConfig} {s : ApiProcess}
    (h : ∀ addr, s.store.cache addr = config.load s.store.devices addr) :
    s.CacheAgrees config := by
  intro addr
  rw [h addr, ApiConfig.load, DeviceRegistry.load]
  cases hrow : s.store.devices addr with
  | none => simp
  | some row =>
    rw [Option.bind_some]
    refine ⟨⟨fun hsome => ?_, ?_⟩, fun device hdevice => ⟨row, rfl, ?_⟩⟩
    · obtain ⟨device, hdevice⟩ := Option.isSome_iff_exists.mp hsome
      exact ⟨row, _, rfl, (ApiConfig.deviceOf_eq_some hdevice).1⟩
    · rintro ⟨_, key, hr, hkey⟩
      cases hr
      exact ApiConfig.deviceOf_opens hkey
    · exact ApiConfig.deviceOf_eq_some hdevice

/-- Inserts that follow the order of the statements leave the cache in line with
the table, once every request has finished. -/
theorem cache_agrees {config : ApiConfig} (hl : config.kekAead.Lawful)
    {devices : DeviceAddr → Option DeviceRow} {readings : List StoredReading} {t : ApiProcess}
    (h : Relation.ReflTransGen (config.StepIf ApiProcess.InOrder) (config.loaded devices readings) t)
    (hdone : ∀ i, t.requests i = .ret ()) : t.CacheAgrees config := by
  obtain ⟨owed, ht⟩ := invariant_run h (fun _ _ hst hs => Settled.step hl hst hs)
    ⟨_, Settled.loaded devices readings⟩
  exact ApiProcess.cacheAgrees_of_load (ht.load_eq hdone)

section Race

variable {config : ApiConfig} {s : ApiProcess} {i j : Nat} {addr : DeviceAddr} {row : DeviceRow}
  {key key' : DeviceKey} {nonce nonce' : XNonce} {k k' : SealedDeviceKey}

/-- Two rotations that have both written the row of one device. -/
theorem rotateKey_twice {P : ApiProcess → ApiEvent → Prop} (hij : i ≠ j)
    (hi : s.requests i = .ret ()) (hj : s.requests j = .ret ())
    (hrow : s.store.devices addr = some row)
    (hk : SealedDeviceKey.sealWithNonce config.kekAead config.ring key addr nonce = some k)
    (hk' : SealedDeviceKey.sealWithNonce config.kekAead config.ring key' addr nonce' = some k')
    (now now' : DateTime)
    (hP : ∀ s' : ApiProcess, ∀ e ∈ rotateEvents i addr row key nonce k now ++
      rotateEvents j addr row key' nonce' k' now', P s' e) :
    Relation.ReflTransGen (config.StepIf P) s
      ((s.rotating i addr row key k now).rotating j addr row key' k' now') := by
  have hfirst : Relation.ReflTransGen (config.StepIf P) s (s.rotating i addr row key k now) :=
    rotateKey_run hi hrow hk fun s' _ e he => hP s' e (List.mem_append_left _ he)
  have hj' : (s.rotating i addr row key k now).requests j = .ret () := by
    rw [← hj]
    exact Function.update_of_ne hij.symm ..
  have hsecond : Relation.ReflTransGen (config.StepIf P) (s.rotating i addr row key k now)
      ((s.rotating i addr row key k now).rotating j addr ⟨row.name, some k.bytes, now⟩ key' k'
        now') :=
    rotateKey_run hj' ApiProcess.rotating_devices hk'
      fun s' _ e he => hP s' e (List.mem_append_right _ he)
  exact hfirst.trans hsecond

/-- Both requests insert and finish, `i` first. -/
theorem insert_both {P : ApiProcess → ApiEvent → Prop} {device device' : Device} (hij : i ≠ j)
    (hi : s.requests i = .cmd (.cacheInsert addr device) fun _ => .ret ())
    (hj : s.requests j = .cmd (.cacheInsert addr device') fun _ => .ret ())
    (hPi : P s (.ran i (.cacheInsert addr device) ()))
    (hPj : P (s.inserted i addr device) (.ran j (.cacheInsert addr device') ())) :
    Relation.ReflTransGen (config.StepIf P) s
      ((s.inserted i addr device).inserted j addr device') := by
  have hj' : (s.inserted i addr device).requests j =
      .cmd (.cacheInsert addr device') fun _ => .ret () := by
    rw [← hj]
    exact Function.update_of_ne hij.symm ..
  exact .head (insert_step hi hPi) (.single (insert_step hj' hPj))

/-- Rotations of one device whose inserts come in the other order than their
statements: the cache keeps the key that the table no longer has. -/
theorem rotations_race (hl : config.kekAead.Lawful) (hs : ∀ m, s.requests m = .ret ())
    (hrow : s.store.devices addr = some row)
    (hk : SealedDeviceKey.sealWithNonce config.kekAead config.ring key addr nonce = some k)
    (hk' : SealedDeviceKey.sealWithNonce config.kekAead config.ring key' addr nonce' = some k')
    (hne : key ≠ key') (now now' : DateTime) :
    ∃ t, Relation.ReflTransGen (config.StepIf fun _ _ => True) s t ∧
      (∀ m, t.requests m = .ret ()) ∧ t.store.cache addr = some (rotated addr row key now) ∧
      t.store.devices addr = some ⟨row.name, some k'.bytes, now'⟩ ∧ ¬ t.CacheAgrees config := by
  have htwice := rotateKey_twice (P := fun _ _ => True) (i := 0) (j := 1) (by decide) (hs 0) (hs 1)
    hrow hk hk' now now' fun _ _ _ => trivial
  let both := (s.rotating 0 addr row key k now).rotating 1 addr row key' k' now'
  have hboth : Relation.ReflTransGen (config.StepIf fun _ _ => True) both
      ((both.inserted 1 addr (rotated addr row key' now')).inserted 0 addr
        (rotated addr row key now)) :=
    insert_both (by decide) rfl rfl trivial trivial
  have hdev : both.store.devices addr = some ⟨row.name, some k'.bytes, now'⟩ :=
    ApiProcess.rotating_devices
  refine ⟨_, htwice.trans hboth, ?_, ApiProcess.inserted_cache _, hdev, ?_⟩
  · rintro (_ | _ | m)
    · rfl
    · rfl
    · exact hs (m + 2)
  · intro hagrees
    obtain ⟨row', hrow', hkey, -⟩ := (hagrees addr).2 _ (ApiProcess.inserted_cache _)
    cases hdev.symm.trans hrow'
    rw [openKeyColumn_seal hl hk'] at hkey
    exact hne (Except.ok.inj hkey).symm

end Race

/-! ### A table with one device -/

open ReadingPath (sensorCipher sensorKey sampleAead)

def sensorAddr : DeviceAddr := sensorCipher.deviceAddr

def sampleKek : Kek where
  bytes := [0x1F, 0x2E, 0x3D, 0x4C, 0x5B, 0x6A, 0x79, 0x88, 0x97, 0x96, 0xA5, 0xB4, 0xC3, 0xD2, 0xE1,
    0xF0, 0x0F, 0x1E, 0x2D, 0x3C, 0x4B, 0x5A, 0x69, 0x78, 0x87, 0x96, 0xA5, 0xB4, 0xC3, 0xD2, 0xE1,
    0xF0]
  length_eq := rfl

def sampleRing : KekRing := ⟨fun ver => if ver = 1 then some sampleKek else none, 1, rfl⟩

def sensorNonce : XNonce where
  bytes := [0x11, 0x22, 0x33, 0x44, 0x55, 0x66, 0x77, 0x88, 0x99, 0xAA, 0xBB, 0xCC, 0xDD, 0xEE, 0xFF,
    0x00, 0x13, 0x37, 0xC0, 0xDE, 0xF0, 0x0D, 0xBE, 0xEF]
  length_eq := rfl

def mintedKey : DeviceKey := ⟨List.replicate 32 0x11, rfl⟩

def firstNonce : XNonce := ⟨List.replicate 24 1, rfl⟩

def remintedKey : DeviceKey := ⟨List.replicate 32 0x22, rfl⟩

def secondNonce : XNonce := ⟨List.replicate 24 2, rfl⟩

/-- XChaCha20-Poly1305 on a key of the sensor. -/
def kekVector (key : DeviceKey) (nonce : XNonce) (ciphertext tag : List Byte)
    (hc : ciphertext.length = DeviceKey.size) (ht : tag.length = aeadTagSize) : AeadVector where
  key := sampleKek.bytes
  nonce := nonce.bytes
  ad := SealedDeviceKey.associatedData SealedDeviceKey.version 1 sensorAddr
  plaintext := key.bytes
  ciphertext := ciphertext
  tag := tag
  ciphertext_length := hc.trans key.length_eq.symm
  tag_length := ht

def sensorKeyVector : AeadVector := kekVector sensorKey sensorNonce
  [0x41, 0xD0, 0x2E, 0x69, 0x1A, 0x14, 0x87, 0xE0, 0xD6, 0x4D, 0x6D, 0xA5, 0x3B, 0x03, 0x77, 0x11,
    0x1A, 0x3A, 0x7A, 0x60, 0x61, 0xCC, 0xF8, 0xA0, 0x45, 0x27, 0xB0, 0x11, 0xD0, 0xFC, 0xAD, 0xCE]
  [0xBF, 0x32, 0x87, 0x3C, 0x30, 0xF6, 0xE3, 0x99, 0x71, 0x1E, 0xA1, 0xD6, 0x09, 0xE2, 0xD8, 0xBD]
  rfl rfl

def firstKeyVector : AeadVector := kekVector mintedKey firstNonce
  [0x5B, 0xA0, 0xCE, 0x7F, 0x27, 0x4E, 0x65, 0x80, 0xC5, 0xF5, 0x16, 0x45, 0x73, 0xF2, 0x5F, 0x22,
    0x77, 0x65, 0x98, 0x71, 0x9C, 0x26, 0xA2, 0x22, 0x7F, 0xBB, 0xEA, 0x94, 0x22, 0x7B, 0xAA, 0x8F]
  [0xA2, 0xA1, 0xCF, 0xCE, 0xD8, 0xC3, 0x19, 0x1A, 0xD7, 0x54, 0x97, 0x94, 0x87, 0xCE, 0x91, 0xE9]
  rfl rfl

def secondKeyVector : AeadVector := kekVector remintedKey secondNonce
  [0x40, 0xB9, 0xB5, 0x0E, 0x2A, 0xEB, 0x7C, 0x1D, 0xA5, 0xD5, 0x27, 0x2C, 0xFA, 0x6B, 0x41, 0x64,
    0x24, 0xAA, 0x47, 0xBE, 0x21, 0x97, 0xFA, 0x3F, 0xB5, 0xE1, 0x25, 0x92, 0x7A, 0xC3, 0xF7, 0x8E]
  [0x7C, 0x9C, 0xEF, 0x06, 0xE1, 0x59, 0x09, 0x0A, 0x10, 0x5C, 0x29, 0xBF, 0xE1, 0x89, 0x04, 0x76]
  rfl rfl

def sampleConfig : ApiConfig where
  kekAead := (Aead.ofVectors [sensorKeyVector, firstKeyVector, secondKeyVector]).orPlain
  packetAead := sampleAead
  ring := sampleRing

theorem sampleConfig_lawful : sampleConfig.kekAead.Lawful := Aead.orPlain_lawful (by decide +kernel)

def sensorRow : DeviceRow where
  name := "kitchen"
  key := some ([1, 1] ++ sensorNonce.bytes ++ sensorKeyVector.ciphertext ++ sensorKeyVector.tag)
  keyValidFrom := 0

def sampleDevices (addr : DeviceAddr) : Option DeviceRow :=
  if addr = sensorAddr then some sensorRow else none

theorem sampleDevices_sensor : sampleDevices sensorAddr = some sensorRow := if_pos rfl

def firstSealed : SealedDeviceKey where
  bytes := [1, 1] ++ firstNonce.bytes ++ firstKeyVector.ciphertext ++ firstKeyVector.tag
  length_eq := rfl

def secondSealed : SealedDeviceKey where
  bytes := [1, 1] ++ secondNonce.bytes ++ secondKeyVector.ciphertext ++ secondKeyVector.tag
  length_eq := rfl

theorem firstSealed_eq : SealedDeviceKey.sealWithNonce sampleConfig.kekAead sampleConfig.ring mintedKey
    sensorAddr firstNonce = some firstSealed := by
  decide +kernel

theorem secondSealed_eq : SealedDeviceKey.sealWithNonce sampleConfig.kekAead sampleConfig.ring
    remintedKey sensorAddr secondNonce = some secondSealed := by
  decide +kernel

theorem stale_cache : ∃ t,
    Relation.ReflTransGen (sampleConfig.StepIf fun _ _ => True) (sampleConfig.loaded sampleDevices [])
      t ∧
    (∀ i, t.requests i = .ret ()) ∧
    t.store.cache sensorAddr = some ⟨sensorAddr, "kitchen", 1, ⟨mintedKey, sensorAddr⟩⟩ ∧
    t.store.devices sensorAddr = some ⟨"kitchen", some secondSealed.bytes, 2⟩ ∧
    ¬ t.CacheAgrees sampleConfig := by
  have hrow : (sampleConfig.loaded sampleDevices []).store.devices sensorAddr = some sensorRow :=
    sampleDevices_sensor
  exact rotations_race sampleConfig_lawful (fun _ => rfl) hrow firstSealed_eq secondSealed_eq
    (by decide) 1 2

/-- Rotations that overlap, with the inserts in the order of the statements. -/
theorem cache_agrees_overlapping : ∃ t,
    Relation.ReflTransGen (sampleConfig.StepIf ApiProcess.InOrder)
      (sampleConfig.loaded sampleDevices []) t ∧
    t.store.cache sensorAddr = some ⟨sensorAddr, "kitchen", 2, ⟨remintedKey, sensorAddr⟩⟩ ∧
    t.CacheAgrees sampleConfig := by
  let both := ((sampleConfig.loaded sampleDevices []).rotating 0 sensorAddr sensorRow mintedKey
    firstSealed 1).rotating 1 sensorAddr sensorRow remintedKey secondSealed 2
  have htwice : Relation.ReflTransGen (sampleConfig.StepIf ApiProcess.InOrder)
      (sampleConfig.loaded sampleDevices []) both := by
    refine rotateKey_twice (by decide) rfl rfl sampleDevices_sensor firstSealed_eq secondSealed_eq
      1 2 fun s' e he => ?_
    simp only [rotateEvents, List.cons_append, List.nil_append, List.mem_cons,
      List.not_mem_nil, or_false] at he
    rcases he with rfl | rfl | rfl | rfl | rfl | rfl | rfl | rfl <;> trivial
  have hlast : both.committed sensorAddr = some 1 := ApiProcess.rotating_committed
  have hboth : Relation.ReflTransGen (sampleConfig.StepIf ApiProcess.InOrder) both
      ((both.inserted 0 sensorAddr (rotated sensorAddr sensorRow mintedKey 1)).inserted 1 sensorAddr
        (rotated sensorAddr sensorRow remintedKey 2)) :=
    insert_both (by decide) rfl rfl ⟨1, _, _, hlast, rfl⟩ ⟨1, _, _, hlast, rfl⟩
  have hrun := htwice.trans hboth
  refine ⟨_, hrun, ApiProcess.inserted_cache _, cache_agrees sampleConfig_lawful hrun ?_⟩
  rintro (_ | _ | m) <;> rfl

end Homescope
