import Homescope.Registry
import Mathlib.Logic.Relation

/-! The API process: requests that interleave freely at their database
statements and cache accesses. -/

namespace Homescope

open Commands Commands.Prog

inductive Request
  | provision (addr : DeviceAddr) (name : String)
  | rotateKey (addr : DeviceAddr)
  | envelope (envelope : ObservationEnvelope)

/-- What the process is built from: its AEADs and the key ring it loaded. -/
structure ApiConfig where
  kekAead : Aead
  packetAead : Aead
  ring : KekRing

namespace ApiConfig

variable (config : ApiConfig)

def program : Request → ApiM Unit
  | .provision addr name => do
    let _ ← DeviceRegistry.provision config.kekAead config.ring addr name
    return
  | .rotateKey addr => do
    let _ ← DeviceRegistry.rotateKey config.kekAead config.ring addr
    return
  | .envelope e => handleEnvelope config.packetAead e

def deviceOf (addr : DeviceAddr) (row : DeviceRow) : Option Device :=
  DeviceRegistry.deviceOf config.kekAead config.ring addr row

def load (devices : DeviceAddr → Option DeviceRow) : DeviceAddr → Option Device :=
  DeviceRegistry.load config.kekAead config.ring devices

end ApiConfig

/-- The row that a statement wrote, as its answer returns it. -/
def ApiCmd.writes : (c : ApiCmd) → c.Answer → Option (DeviceAddr × DeviceRow)
  | .insertRow .., .ok r => some (r.deviceAddr, ⟨r.name, r.key, r.keyValidFrom⟩)
  | .updateKey .., .ok (some r) => some (r.deviceAddr, ⟨r.name, r.key, r.keyValidFrom⟩)
  | _, _ => none

/-- The reading that a statement stored. -/
def ApiCmd.stores : (c : ApiCmd) → c.Answer → Option StoredReading
  | .insertReading reading addr openedWith, .ok _ => some (.ofReading reading addr openedWith)
  | _, _ => none

theorem ApiCmd.writes_of_stores {c : ApiCmd} {a : c.Answer} {r : StoredReading}
    (h : c.stores a = some r) : c.writes a = none := by
  cases c with
  | insertReading reading addr key => cases a <;> rfl
  | _ => cases h

/-- `committed` names the request whose statement last wrote the row of an
address; no code reads it. -/
structure ApiProcess where
  store : ApiStore
  requests : Nat → ApiM Unit
  committed : DeviceAddr → Option Nat

def ApiProcess.commit (s : ApiProcess) (i : Nat) (c : ApiCmd) (a : c.Answer) :
    DeviceAddr → Option Nat :=
  match c.writes a with
  | some (addr, _) => Function.update s.committed addr (some i)
  | none => s.committed

inductive ApiEvent
  | start (i : Nat) (request : Request)
  | ran (i : Nat) (c : ApiCmd) (a : c.Answer)
  | restart

/-- A started process, with the cache that the table loads into. -/
def ApiConfig.loaded (config : ApiConfig) (devices : DeviceAddr → Option DeviceRow)
    (readings : List StoredReading) : ApiProcess where
  store := ⟨devices, readings, config.load devices⟩
  requests _ := .ret ()
  committed _ := none

inductive ApiStep (config : ApiConfig) : ApiProcess → ApiEvent → ApiProcess → Prop
  | start {s : ApiProcess} {i : Nat} (h : s.requests i = .ret ()) (request : Request) :
      ApiStep config s (.start i request)
        { s with requests := Function.update s.requests i (config.program request) }
  | ran {s : ApiProcess} {i : Nat} {c : ApiCmd} {k : c.Answer → ApiM Unit} {a : c.Answer}
      {store : ApiStore} (h : s.requests i = .cmd c k) (hc : apiStep s.store c a store) :
      ApiStep config s (.ran i c a)
        ⟨store, Function.update s.requests i (k a), s.commit i c a⟩
  | restart {s : ApiProcess} :
      ApiStep config s .restart (config.loaded s.store.devices s.store.readings)

/-- A step that meets a condition on its event and on the state before it. -/
def ApiConfig.StepIf (config : ApiConfig) (P : ApiProcess → ApiEvent → Prop) (s t : ApiProcess) :
    Prop :=
  ∃ e, ApiStep config s e t ∧ P s e

section Programs

variable (config : ApiConfig)

theorem ApiConfig.program_rotateKey (addr : DeviceAddr) :
    config.program (.rotateKey addr) = .cmd .generateKey fun key => match key with
      | .error _ => .ret ()
      | .ok key => .cmd .generateNonce fun nonce =>
        match SealedDeviceKey.sealWithNonce config.kekAead config.ring key addr nonce with
        | none => .ret ()
        | some sealedKey => .cmd (.updateKey addr sealedKey) fun a => match a with
          | .error _ => .ret ()
          | .ok none => .ret ()
          | .ok (some r) =>
            .cmd (.cacheInsert addr ⟨r.deviceAddr, r.name, r.keyValidFrom, ⟨key, addr⟩⟩)
              fun _ => .ret () := by
  refine congrArg (Prog.cmd ApiCmd.generateKey) (funext fun key => ?_)
  cases key with
  | error e => rfl
  | ok key =>
    refine congrArg (Prog.cmd ApiCmd.generateNonce) (funext fun nonce => ?_)
    simp only [Prog.bind]
    cases SealedDeviceKey.sealWithNonce config.kekAead config.ring key addr nonce with
    | none => rfl
    | some sealedKey =>
      refine congrArg (Prog.cmd (ApiCmd.updateKey addr sealedKey)) (funext fun a => ?_)
      rcases a with e | _ | r <;> rfl

theorem ApiConfig.program_provision (addr : DeviceAddr) (name : String) :
    config.program (.provision addr name) = .cmd .generateKey fun key => match key with
      | .error _ => .ret ()
      | .ok key => .cmd .generateNonce fun nonce =>
        match SealedDeviceKey.sealWithNonce config.kekAead config.ring key addr nonce with
        | none => .ret ()
        | some sealedKey => .cmd (.insertRow name addr sealedKey) fun a => match a with
          | .error err => if Store.isDuplicateDeviceAddr err
              then .cmd (.selectName addr) fun _ => .ret () else .ret ()
          | .ok r =>
            .cmd (.cacheInsert addr ⟨r.deviceAddr, r.name, r.keyValidFrom, ⟨key, addr⟩⟩)
              fun _ => .ret () := by
  refine congrArg (Prog.cmd ApiCmd.generateKey) (funext fun key => ?_)
  cases key with
  | error e => rfl
  | ok key =>
    refine congrArg (Prog.cmd ApiCmd.generateNonce) (funext fun nonce => ?_)
    simp only [Prog.bind]
    cases SealedDeviceKey.sealWithNonce config.kekAead config.ring key addr nonce with
    | none => rfl
    | some sealedKey =>
      refine congrArg (Prog.cmd (ApiCmd.insertRow name addr sealedKey)) (funext fun a => ?_)
      rcases a with err | r
      · cases err
        · refine congrArg (Prog.cmd (ApiCmd.selectName addr)) (funext fun b => ?_)
          cases b <;> rfl
        · rfl
        · rfl
      · rfl

theorem handleEnvelope_eq (aead : Aead) (e : ObservationEnvelope) :
    handleEnvelope aead e = .cmd (.cacheGet e.deviceAddr) fun device => match device with
      | none => .ret ()
      | some device => match SensorReading.openEnvelope aead e device.cipher with
        | .error _ => .ret ()
        | .ok reading =>
          .cmd (.insertReading reading device.deviceAddr device.cipher.key) fun _ => .ret () := by
  refine congrArg (Prog.cmd (ApiCmd.cacheGet e.deviceAddr)) (funext fun device => ?_)
  cases device with
  | none => rfl
  | some device =>
    simp only [Prog.bind]
    cases SensorReading.openEnvelope aead e device.cipher <;> rfl

/-- The row that a request writes stands for the device that it then inserts. -/
theorem ApiConfig.deviceOf_sealed (hl : config.kekAead.Lawful) {dek : DeviceKey}
    {addr : DeviceAddr} {nonce : XNonce} {k : SealedDeviceKey}
    (h : SealedDeviceKey.sealWithNonce config.kekAead config.ring dek addr nonce = some k)
    (name : String) (now : DateTime) :
    config.deviceOf addr ⟨name, some k.bytes, now⟩ = some ⟨addr, name, now, ⟨dek, addr⟩⟩ := by
  simp only [deviceOf, DeviceRegistry.deviceOf, openKeyColumn_seal hl h]

end Programs

/-- The answers that a command can have. -/
def ApiCmd.Possible : (c : ApiCmd) → c.Answer → Prop
  | .insertRow name addr key, .ok r => ∃ now, r = ⟨addr, name, some key.bytes, now⟩
  | .updateKey addr key, .ok (some r) => ∃ name now, r = ⟨addr, name, some key.bytes, now⟩
  | _, _ => True

/-- The store that a command leaves, which its answer decides. -/
def ApiStore.after (s : ApiStore) : (c : ApiCmd) → c.Answer → ApiStore
  | .insertRow .., .ok r => s.setRow r.deviceAddr ⟨r.name, r.key, r.keyValidFrom⟩
  | .updateKey .., .ok (some r) => s.setRow r.deviceAddr ⟨r.name, r.key, r.keyValidFrom⟩
  | .cacheInsert addr device, _ => { s with cache := Function.update s.cache addr (some device) }
  | .insertReading reading addr openedWith, .ok _ =>
    s.insertReading (.ofReading reading addr openedWith)
  | _, _ => s

section Effects

variable {s t : ApiStore} {c : ApiCmd} {a : c.Answer}

theorem apiStep_possible (h : apiStep s c a t) : c.Possible a := by
  cases c with
  | insertRow name addr key =>
    cases a with
    | error err => trivial
    | ok r =>
      obtain ⟨_, now, hr, _⟩ := h
      exact ⟨now, hr⟩
  | updateKey addr key =>
    rcases a with err | _ | r
    · trivial
    · trivial
    · obtain ⟨row, now, _, hr, _⟩ := h
      exact ⟨row.name, now, hr⟩
  | _ => trivial

theorem apiStep_after (h : apiStep s c a t) : t = s.after c a := by
  cases c with
  | insertRow name addr key =>
    cases a with
    | error err => exact h.2
    | ok r =>
      obtain ⟨_, now, rfl, rfl⟩ := h
      rfl
  | updateKey addr key =>
    rcases a with err | _ | r
    · exact h
    · exact h.2
    · obtain ⟨row, now, _, rfl, rfl⟩ := h
      rfl
  | selectName addr =>
    cases a with
    | error err => exact h
    | ok name => exact h.2
  | cacheGet addr => exact h.2
  | insertReading reading addr key =>
    cases a with
    | error err => exact h
    | ok u => exact h.2
  | generateKey => exact h
  | generateNonce => exact h
  | cacheInsert addr d => exact h

theorem apiStep_devices (h : apiStep s c a t) :
    t.devices = match c.writes a with
      | some (addr, row) => Function.update s.devices addr (some row)
      | none => s.devices := by
  rw [apiStep_after h]
  cases c with
  | insertRow name addr key => cases a <;> rfl
  | updateKey addr key => rcases a with err | _ | r <;> rfl
  | insertReading reading addr key => cases a <;> rfl
  | _ => rfl

theorem apiStep_readings (h : apiStep s c a t) :
    t.readings = match c.stores a with
      | some r => (s.insertReading r).readings
      | none => s.readings := by
  rw [apiStep_after h]
  cases c with
  | insertRow name addr key => cases a <;> rfl
  | updateKey addr key => rcases a with err | _ | r <;> rfl
  | insertReading reading addr key => cases a <;> rfl
  | _ => rfl

theorem apiStep_cache (h : apiStep s c a t) (hc : ∀ addr d, c ≠ .cacheInsert addr d) :
    t.cache = s.cache := by
  rw [apiStep_after h]
  cases c with
  | insertRow name addr key => cases a <;> rfl
  | updateKey addr key => rcases a with err | _ | r <;> rfl
  | insertReading reading addr key => cases a <;> rfl
  | cacheInsert addr d => exact absurd rfl (hc addr d)
  | _ => rfl

end Effects

/-! ### The steps of a rotation -/

section Rotation

variable {config : ApiConfig} {P : ApiProcess → ApiEvent → Prop} {s : ApiProcess} {i : Nat}
  {addr : DeviceAddr} {row : DeviceRow} {key : DeviceKey} {nonce : XNonce} {k : SealedDeviceKey}
  {now : DateTime}

def ApiProcess.set (s : ApiProcess) (i : Nat) (p : ApiM Unit) : ApiProcess :=
  { s with requests := Function.update s.requests i p }

def rotated (addr : DeviceAddr) (row : DeviceRow) (key : DeviceKey) (now : DateTime) : Device :=
  ⟨addr, row.name, now, ⟨key, addr⟩⟩

/-- A rotation that has written the row and has yet to insert. -/
def ApiProcess.rotating (s : ApiProcess) (i : Nat) (addr : DeviceAddr) (row : DeviceRow)
    (key : DeviceKey) (k : SealedDeviceKey) (now : DateTime) : ApiProcess where
  store := s.store.setRow addr ⟨row.name, some k.bytes, now⟩
  requests := Function.update s.requests i
    (.cmd (.cacheInsert addr (rotated addr row key now)) fun _ => .ret ())
  committed := Function.update s.committed addr (some i)

theorem ApiProcess.rotating_devices :
    (s.rotating i addr row key k now).store.devices addr = some ⟨row.name, some k.bytes, now⟩ :=
  Function.update_self ..

theorem ApiProcess.rotating_committed :
    (s.rotating i addr row key k now).committed addr = some i :=
  Function.update_self ..

/-- The events of a rotation up to its statement. -/
def rotateEvents (i : Nat) (addr : DeviceAddr) (row : DeviceRow) (key : DeviceKey) (nonce : XNonce)
    (k : SealedDeviceKey) (now : DateTime) : List ApiEvent :=
  [.start i (.rotateKey addr), .ran i .generateKey (.ok key), .ran i .generateNonce nonce,
    .ran i (.updateKey addr k) (.ok (some ⟨addr, row.name, some k.bytes, now⟩))]

theorem ran_set {c : ApiCmd} {p : c.Answer → ApiM Unit} {a : c.Answer} {store : ApiStore}
    (hc : apiStep s.store c a store) (hP : P (s.set i (.cmd c p)) (.ran i c a)) :
    config.StepIf P (s.set i (.cmd c p))
      ⟨store, Function.update s.requests i (p a), s.commit i c a⟩ := by
  have hstep : ApiStep config (s.set i (.cmd c p)) (.ran i c a) _ :=
    .ran (Function.update_self ..) hc
  simp only [ApiProcess.set, Function.update_idem] at hstep
  exact ⟨_, hstep, hP⟩

theorem ran_quiet {c : ApiCmd} {p : c.Answer → ApiM Unit} {a : c.Answer}
    (hc : apiStep s.store c a s.store) (hw : c.writes a = none)
    (hP : P (s.set i (.cmd c p)) (.ran i c a)) :
    config.StepIf P (s.set i (.cmd c p)) (s.set i (p a)) := by
  have hstep : config.StepIf P (s.set i (.cmd c p)) _ := ran_set hc hP
  rwa [ApiProcess.commit, hw] at hstep

theorem rotateKey_run (hi : s.requests i = .ret ()) (hrow : s.store.devices addr = some row)
    (hk : SealedDeviceKey.sealWithNonce config.kekAead config.ring key addr nonce = some k)
    (hP : ∀ s' : ApiProcess, s'.store = s.store →
      ∀ e ∈ rotateEvents i addr row key nonce k now, P s' e) :
    Relation.ReflTransGen (config.StepIf P) s (s.rotating i addr row key k now) := by
  have hstart : config.StepIf P s (s.set i (config.program (.rotateKey addr))) :=
    ⟨_, .start hi _, hP s rfl _ (.head _)⟩
  rw [config.program_rotateKey] at hstart
  refine .head hstart (.head (ran_quiet (c := .generateKey) (a := .ok key) rfl rfl ?_) ?_)
  · exact hP (s.set i _) rfl _ (.tail _ (.head _))
  refine .head (ran_quiet (c := .generateNonce) (a := nonce) rfl rfl ?_) (.single ?_)
  · exact hP (s.set i _) rfl _ (.tail _ (.tail _ (.head _)))
  simp only [hk]
  refine ran_set (c := .updateKey addr k) (a := .ok (some ⟨addr, row.name, some k.bytes, now⟩))
    ⟨row, now, hrow, rfl, rfl⟩ ?_
  exact hP (s.set i _) rfl _ (.tail _ (.tail _ (.tail _ (.head _))))

/-- The process after the request has inserted and finished. -/
def ApiProcess.inserted (s : ApiProcess) (i : Nat) (addr : DeviceAddr) (device : Device) :
    ApiProcess :=
  { s.set i (.ret ()) with
    store := { s.store with cache := Function.update s.store.cache addr (some device) } }

/-- An envelope that is opened with the cached cipher and stored. -/
theorem envelope_run {e : ObservationEnvelope} {device : Device} {reading : SensorReading}
    (hi : s.requests i = .ret ()) (hcache : s.store.cache e.deviceAddr = some device)
    (hopen : SensorReading.openEnvelope config.packetAead e device.cipher = .ok reading)
    (hrow : (s.store.devices device.deviceAddr).isSome = true)
    (hP : ∀ s' : ApiProcess, s'.store = s.store →
      ∀ ev ∈ [ApiEvent.start i (.envelope e), .ran i (.cacheGet e.deviceAddr) (some device),
        .ran i (.insertReading reading device.deviceAddr device.cipher.key) (.ok ())], P s' ev) :
    Relation.ReflTransGen (config.StepIf P) s
      { s.set i (.ret ()) with
        store := s.store.insertReading
          (.ofReading reading device.deviceAddr device.cipher.key) } := by
  have hstart : config.StepIf P s (s.set i (config.program (.envelope e))) :=
    ⟨_, .start hi _, hP s rfl _ (.head _)⟩
  rw [ApiConfig.program, handleEnvelope_eq] at hstart
  refine .head hstart (.head (ran_quiet (c := .cacheGet e.deviceAddr) (a := some device)
    ⟨hcache.symm, rfl⟩ rfl ?_) (.single ?_))
  · exact hP (s.set i _) rfl _ (.tail _ (.head _))
  simp only [hopen]
  refine ran_set (c := .insertReading reading device.deviceAddr device.cipher.key) (a := .ok ())
    ⟨hrow, rfl⟩ ?_
  exact hP (s.set i _) rfl _ (.tail _ (.tail _ (.head _)))

theorem ApiProcess.inserted_cache (device : Device) :
    (s.inserted i addr device).store.cache addr = some device :=
  Function.update_self ..

theorem insert_step {device : Device}
    (hi : s.requests i = .cmd (.cacheInsert addr device) fun _ => .ret ())
    (hP : P s (.ran i (.cacheInsert addr device) ())) :
    config.StepIf P s (s.inserted i addr device) :=
  ⟨_, .ran hi rfl, hP⟩

end Rotation

end Homescope
