import Homescope.DeviceRoutes

/-! A mint from the tool's side and from the API's: the request, its handler and
the follow-up question run beside each other, and any answer may get lost. -/

namespace Homescope

open Commands

inductive MintRequest
  | provision (payload : ProvisionDevicePayload)
  | rotateKey (deviceAddr : DeviceAddr)

namespace MintRequest

def deviceAddr : MintRequest → DeviceAddr
  | provision payload => payload.deviceAddr
  | rotateKey deviceAddr => deviceAddr

def command : MintRequest → ToolCmd
  | provision payload => .apiProvision payload
  | rotateKey deviceAddr => .apiRotateKey deviceAddr

def answer : (request : MintRequest) → Except ApiClientError DeviceKeyResponse →
    request.command.Answer
  | provision _, a => a
  | rotateKey _, a => a

def program : MintRequest →
    Prog ToolCmd ToolCmd.Answer (Except ApiClientError DeviceKeyResponse)
  | provision payload => ToolM.command (.apiProvision payload)
  | rotateKey deviceAddr => ToolM.command (.apiRotateKey deviceAddr)

def handler (config : ApiConfig) : MintRequest → ApiM (Option (ApiResponse DeviceKeyResponse))
  | provision payload => DeviceRoutes.provisionDevice config payload
  | rotateKey deviceAddr => DeviceRoutes.rotateDeviceKey config deviceAddr

end MintRequest

/-- The errors that say that no key was issued. -/
def Anyhow.nothingIssued : Anyhow → Bool
  | .api _ => true
  | .mintUntouched _ => true
  | _ => false

/-- The errors of a response that never came or could not be read. -/
inductive ApiClientError.Silence : ApiClientError → Prop
  | transport : Silence .transportError
  | unreadable (status : Nat) : Silence (.responseDeserializationError status)

/-- What a handler may be told of what the database did: that, or an error when
the connection breaks, which may be after the statement was carried out. -/
def ApiCmd.Told : (c : ApiCmd) → c.Answer → c.Answer → Prop
  | .insertRow .., did, told => told = did ∨ told = .error .failed
  | .updateKey .., did, told => told = did ∨ told = .error .failed
  | _, did, told => told = did

/-- `post` is the request's handler once the request has arrived, and `seen` the
response to the follow-up once the API has read the row for it. No code reads the
last two: whether a statement of the request has written the row, and whether its
handler was then told of an error. -/
structure MintRun where
  store : ApiStore
  client : Prog ToolCmd ToolCmd.Answer (Except Anyhow DeviceKeyResponse)
  post : Option (ApiM (Option (ApiResponse DeviceKeyResponse)))
  seen : Option (ApiResponse DeviceSummary)
  changed : Bool
  misled : Bool

inductive MintEvent
  | handle (c : ApiCmd) (did : c.Answer)
  | answer
  | read
  | rest

section

variable (config : ApiConfig) (request : MintRequest) (epochBefore : Option Timestamp)
  (retryCommand : String)

def MintRun.start (store : ApiStore) : MintRun where
  store := store
  client := (Provision.mintKey request.deviceAddr epochBefore retryCommand request.program).run
  post := none
  seen := none
  changed := false
  misled := false

/-- A request that dies with the API's process is one whose handler takes no
further step, except that a statement of it may still be on its way. -/
inductive MintStep : MintRun → MintEvent → MintRun → Prop
  | arrive {s : MintRun} (h : s.post = none) :
      MintStep s .rest { s with post := some (request.handler config) }
  | refuse {s : MintRun} {e : ApiError} (h : s.post = none) (he : e.BeforeHandler) :
      MintStep s .rest { s with post := some (.ret (some (.error e))) }
  | handle {s : MintRun} {c : ApiCmd}
      {k : c.Answer → ApiM (Option (ApiResponse DeviceKeyResponse))} {did told : c.Answer}
      {store : ApiStore} (h : s.post = some (.cmd c k)) (hc : apiStep s.store c did store)
      (ht : c.Told did told) :
      MintStep s (.handle c did)
        { s with
          store, post := some (k told)
          changed := s.changed || (c.writes did).isSome
          misled := s.misled || ((c.writes did).isSome && (c.writes told).isNone) }
  | other {s : MintRun} {c : ApiCmd} {a : c.Answer} {store : ApiStore}
      (hc : apiStep s.store c a store) : MintStep s .rest { s with store }
  | restart {s : MintRun} :
      MintStep s .rest { s with store.cache := config.load s.store.devices }
  | answer {s : MintRun} {k : request.command.Answer → _} {r : ApiResponse DeviceKeyResponse}
      (h : s.client = .cmd request.command k) (hr : s.post = some (.ret (some r))) :
      MintStep s .answer { s with client := k (request.answer (ApiClient.handleResponse r)) }
  | silence {s : MintRun} {k : request.command.Answer → _} {err : ApiClientError}
      (h : s.client = .cmd request.command k) (he : err.Silence) :
      MintStep s .rest { s with client := k (request.answer (.error err)) }
  | read {s : MintRun} {k : Except ApiClientError (Option DeviceSummary) → _}
      {found : Except SqlxError (Option DeviceActivity)}
      (h : s.client = .cmd (.apiDevice request.deviceAddr) k) (hs : s.seen = none)
      (hf : ∀ a, found = .ok a → a = Store.activityByAddr s.store request.deviceAddr) :
      MintStep s .read { s with seen := some (DeviceRoutes.getDevice config found) }
  | refuseRead {s : MintRun} {k : Except ApiClientError (Option DeviceSummary) → _}
      {e : ApiError} (h : s.client = .cmd (.apiDevice request.deviceAddr) k) (hs : s.seen = none)
      (he : e.BeforeHandler) :
      MintStep s .rest
        { s with client := k (ApiClient.absentIfNotRegistered (ApiClient.handleResponse (.error e))) }
  | found {s : MintRun} {k : Except ApiClientError (Option DeviceSummary) → _}
      {r : ApiResponse DeviceSummary}
      (h : s.client = .cmd (.apiDevice request.deviceAddr) k) (hr : s.seen = some r) :
      MintStep s .rest
        { s with client := k (ApiClient.absentIfNotRegistered (ApiClient.handleResponse r)) }
  | silenceRead {s : MintRun} {k : Except ApiClientError (Option DeviceSummary) → _}
      {err : ApiClientError} (h : s.client = .cmd (.apiDevice request.deviceAddr) k)
      (he : err.Silence) : MintStep s .rest { s with client := k (.error err) }

/-- The request writes the row before the API reads it for the follow-up, or never.
No answer is delivered of a handler that was told of an error after it wrote the
row. A follow-up that comes after the request wrote the row finds it stamped
later than the tool last saw it. -/
def MintRun.Orderly (s : MintRun) : MintEvent → Prop
  | .handle c did => (c.writes did).isSome = true → s.seen = none
  | .answer => s.misled = false
  | .read => s.changed = true → ∀ epoch row, epochBefore = some epoch →
      s.store.devices request.deviceAddr = some row → epoch < row.keyValidFrom
  | .rest => True

def MintStepIf (P : MintRun → MintEvent → Prop) (s t : MintRun) : Prop :=
  ∃ e, MintStep config request s e t ∧ P s e

end

/-- The handler changes the table only where `changed` says so. -/
theorem MintStep.changed_of_devices {config : ApiConfig} {request : MintRequest} {s t : MintRun}
    {c : ApiCmd} {did : c.Answer} (h : MintStep config request s (.handle c did) t)
    (ht : t.store.devices ≠ s.store.devices) : t.changed = true := by
  cases h with
  | handle hpost hc htold =>
    cases hw : c.writes did with
    | some w => exact Bool.or_true _
    | none =>
      have hdevices := apiStep_devices hc
      rw [hw] at hdevices
      exact absurd hdevices ht

/-! ### The handler -/

def ApiCmd.writeAddr : ApiCmd → Option DeviceAddr
  | .insertRow _ addr _ => some addr
  | .updateKey addr _ => some addr
  | _ => none

theorem ApiCmd.writes_eq_none {c : ApiCmd} (h : c.writeAddr = none) (a : c.Answer) :
    c.writes a = none := by
  cases c <;> first | rfl | cases h

section Rows

variable {s t : ApiStore} {c : ApiCmd} {a : c.Answer} {addr : DeviceAddr}

/-- The API never deletes a row. -/
theorem apiStep_isSome (h : apiStep s c a t) (hs : (s.devices addr).isSome = true) :
    (t.devices addr).isSome = true := by
  rw [apiStep_devices h]
  cases c.writes a with
  | none => exact hs
  | some w =>
    dsimp only
    by_cases ha : addr = w.1
    · rw [ha, Function.update_self]
      rfl
    · rwa [Function.update_of_ne ha]

theorem apiStep_wrote (h : apiStep s c a t) (hc : c.writeAddr = some addr)
    (hw : (c.writes a).isSome = true) : (t.devices addr).isSome = true := by
  cases c with
  | insertRow name addr' key =>
    cases hc
    cases a with
    | error e => cases hw
    | ok r =>
      obtain ⟨-, now, rfl, rfl⟩ := h
      simp [ApiStore.setRow]
  | updateKey addr' key =>
    cases hc
    rcases a with e | _ | r
    · cases hw
    · cases hw
    · obtain ⟨row, now, -, rfl, rfl⟩ := h
      simp [ApiStore.setRow]
  | _ => cases hc

end Rows

/-- A handler that writes one row at most and answers with an error only where it
was told of none. -/
def MintsOnce {β : Type} (addr : DeviceAddr) : ApiM (Option (ApiResponse β)) → Prop
  | .ret _ => True
  | .cmd c k => (c.writeAddr = none ∧ ∀ a, MintsOnce addr (k a)) ∨
    (c.writeAddr = some addr ∧ ∀ a, (k a).Only (fun c => c.writeAddr = none)
      fun r => (c.writes a).isSome = true → ∀ e, r ≠ some (.error e))

theorem MintRequest.mintsOnce (config : ApiConfig) (request : MintRequest) :
    MintsOnce request.deviceAddr (request.handler config) := by
  cases request with
  | provision payload =>
    simp only [handler, DeviceRoutes.provisionDevice_eq]
    refine .inl ⟨rfl, fun key => ?_⟩
    rcases key with _ | key
    · trivial
    refine .inl ⟨rfl, fun nonce => ?_⟩
    dsimp only
    cases SealedDeviceKey.sealWithNonce config.kekAead config.ring key payload.deviceAddr nonce with
    | none => trivial
    | some sealedKey =>
      refine .inr ⟨rfl, fun a => ?_⟩
      rcases a with (_ | _) | r
      · refine ⟨rfl, fun name => ?_⟩
        cases name <;> nofun
      · nofun
      · nofun
      · exact ⟨rfl, fun _ _ => nofun⟩
  | rotateKey addr =>
    simp only [handler, DeviceRoutes.rotateDeviceKey_eq]
    refine .inl ⟨rfl, fun key => ?_⟩
    rcases key with _ | key
    · trivial
    refine .inl ⟨rfl, fun nonce => ?_⟩
    dsimp only
    cases SealedDeviceKey.sealWithNonce config.kekAead config.ring key addr nonce with
    | none => trivial
    | some sealedKey =>
      refine .inr ⟨rfl, fun a => ?_⟩
      rcases a with _ | _ | r
      · nofun
      · nofun
      · exact ⟨rfl, fun _ _ => nofun⟩

/-! ### What every orderly step keeps -/

namespace MintRun

/-- The handler may still write the row, or it never writes it again and answers
with an error only if it did not write it or was misled. -/
def Handling (addr : DeviceAddr) (s : MintRun)
    (p : ApiM (Option (ApiResponse DeviceKeyResponse))) : Prop :=
  (s.changed = false ∧ s.misled = false ∧ MintsOnce addr p) ∨
    p.Only (fun c => c.writeAddr = none)
      fun r => s.changed = true → s.misled = false → ∀ e, r ≠ some (.error e)

/-- The tool has not heard of the request, asks about it, or is done. Where it
says that nothing was issued, nothing can be any more. -/
inductive Client (request : MintRequest) (epochBefore : Option Timestamp) (retryCommand : String)
    (s : MintRun) : Prop
  | waiting (h : s.client =
      (Provision.mintKey request.deviceAddr epochBefore retryCommand request.program).run)
  | asking {err : ApiClientError}
      (h : s.client = .cmd (.apiDevice request.deviceAddr) fun outcome =>
        .ret (.error (Provision.mintError request.deviceAddr epochBefore retryCommand err outcome)))
  | done {r : Except Anyhow DeviceKeyResponse} (h : s.client = .ret r)
      (hr : ∀ e, r = .error e → e.nothingIssued = true →
        s.changed = false ∧ ((∃ r, s.post = some (.ret r)) ∨ s.seen.isSome = true))

structure Inv (request : MintRequest) (epochBefore : Option Timestamp) (retryCommand : String)
    (s : MintRun) : Prop where
  client : s.Client request epochBefore retryCommand
  post : ∀ p, s.post = some p → s.Handling request.deviceAddr p
  fresh : s.post = none → s.changed = false ∧ s.misled = false
  row : s.changed = true → (s.store.devices request.deviceAddr).isSome = true
  seen : ∀ r found, s.seen = some r →
    ApiClient.absentIfNotRegistered (ApiClient.handleResponse r) = .ok found →
      classifyMint epochBefore (found.map DeviceSummary.keyValidFrom) = .untouched →
        s.changed = false

variable {config : ApiConfig} {request : MintRequest} {epochBefore : Option Timestamp}
  {retryCommand : String} {s : MintRun}

theorem inv_start (store : ApiStore) :
    (start request epochBefore retryCommand store).Inv request epochBefore retryCommand where
  client := .waiting rfl
  post := nofun
  fresh _ := ⟨rfl, rfl⟩
  row := nofun
  seen := nofun

namespace Inv

variable (h : s.Inv request epochBefore retryCommand)

include h in
theorem arrive {p : ApiM (Option (ApiResponse DeviceKeyResponse))} (hpost : s.post = none)
    (hp : MintsOnce request.deviceAddr p) :
    { s with post := some p }.Inv request epochBefore retryCommand where
  client := by
    cases h.client with
    | waiting hc => exact .waiting hc
    | asking hc => exact .asking hc
    | done hc hr =>
      refine .done hc fun e he hn => ?_
      obtain ⟨hchanged, ⟨r, hret⟩ | hseen⟩ := hr e he hn
      · cases hpost.symm.trans hret
      · exact ⟨hchanged, .inr hseen⟩
  post q hq := by
    cases hq
    exact .inl ⟨(h.fresh hpost).1, (h.fresh hpost).2, hp⟩
  fresh := nofun
  row := h.row
  seen := h.seen

include h in
theorem handle {c : ApiCmd} {k : c.Answer → ApiM (Option (ApiResponse DeviceKeyResponse))}
    {did told : c.Answer} {store : ApiStore} (hpost : s.post = some (.cmd c k))
    (hc : apiStep s.store c did store) (hP : s.Orderly request epochBefore (.handle c did)) :
    { s with
      store, post := some (k told)
      changed := s.changed || (c.writes did).isSome
      misled := s.misled || ((c.writes did).isSome && (c.writes told).isNone) }.Inv request
        epochBefore retryCommand := by
  have hpost' := h.post _ hpost
  refine ⟨?_, ?_, nofun, ?_, ?_⟩
  · cases h.client with
    | waiting hc => exact .waiting hc
    | asking hc => exact .asking hc
    | done hc hr =>
      refine .done hc fun e he hn => ?_
      obtain ⟨hchanged, ⟨r, hret⟩ | hseen⟩ := hr e he hn
      · cases hpost.symm.trans hret
      · refine ⟨?_, .inr hseen⟩
        cases hw : c.writes did with
        | none => simp [hchanged]
        | some w =>
          have hnone := hP (by rw [hw]; rfl)
          simp [hnone] at hseen
  · rintro p hp
    cases hp
    rcases hpost' with ⟨hchanged, hmisled, ⟨hquiet, hk⟩ | ⟨-, hk⟩⟩ | ⟨hquiet, hk⟩
    · have hw := ApiCmd.writes_eq_none hquiet did
      exact .inl ⟨by simp [hchanged, hw], by simp [hmisled, hw], hk told⟩
    · refine .inr ((hk told).mono fun r hr hdid htold => hr ?_)
      simp only [hchanged, Bool.false_or] at hdid
      simp only [hmisled, hdid, Bool.true_and, Bool.false_or, Option.isNone_eq_false_iff] at htold
      exact htold
    · have hw := ApiCmd.writes_eq_none hquiet did
      refine .inr ((hk told).mono fun r hr hdid htold => hr ?_ ?_)
      · simpa [hw] using hdid
      · simpa [hw] using htold
  · intro hchanged
    by_cases hold : s.changed = true
    · exact apiStep_isSome hc (h.row hold)
    rcases hpost' with ⟨-, -, ⟨hquiet, -⟩ | ⟨haddr, -⟩⟩ | ⟨hquiet, -⟩
    · simp [hold, ApiCmd.writes_eq_none hquiet did] at hchanged
    · exact apiStep_wrote hc haddr (by simpa [hold] using hchanged)
    · simp [hold, ApiCmd.writes_eq_none hquiet did] at hchanged
  · intro r found hr hfound hverdict
    have hchanged := h.seen r found hr hfound hverdict
    cases hw : c.writes did with
    | none => simp [hchanged]
    | some w => simp [hP (by rw [hw]; rfl)] at hr

include h in
/-- Steps of the API that are not the request's. -/
theorem elsewhere {store : ApiStore}
    (hrow : (s.store.devices request.deviceAddr).isSome = true →
      (store.devices request.deviceAddr).isSome = true) :
    { s with store }.Inv request epochBefore retryCommand where
  client := by
    cases h.client with
    | waiting hc => exact .waiting hc
    | asking hc => exact .asking hc
    | done hc hr => exact .done hc hr
  post := h.post
  fresh := h.fresh
  row hchanged := hrow (h.row hchanged)
  seen := h.seen

include h in
/-- The tool goes on. -/
theorem goesOn {client : Prog ToolCmd ToolCmd.Answer (Except Anyhow DeviceKeyResponse)}
    (hclient : { s with client }.Client request epochBefore retryCommand) :
    { s with client }.Inv request epochBefore retryCommand where
  client := hclient
  post := h.post
  fresh := h.fresh
  row := h.row
  seen := h.seen

include h in
/-- A tool that still waits for the answer to the request. -/
theorem waits {k : request.command.Answer → _} (hk : s.client = .cmd request.command k)
    (r : Except ApiClientError DeviceKeyResponse) :
    k (request.answer r) =
      Provision.afterPost request.deviceAddr epochBefore retryCommand r := by
  cases h.client with
  | waiting hc =>
    rw [hk, Provision.mintKey_run] at hc
    cases request <;> (cases hc; rfl)
  | asking hc =>
    rw [hk] at hc
    cases request <;> cases hc
  | done hc hr =>
    rw [hk] at hc
    cases hc

include h in
theorem answer {k : request.command.Answer → _} {r : ApiResponse DeviceKeyResponse}
    (hk : s.client = .cmd request.command k) (hr : s.post = some (.ret (some r)))
    (hP : s.misled = false) :
    { s with client := k (request.answer (ApiClient.handleResponse r)) }.Inv request epochBefore
      retryCommand := by
  refine h.goesOn ?_
  rw [h.waits hk]
  rcases r with e | ⟨status, response⟩
  · refine .done rfl fun _ _ _ => ⟨?_, .inl ⟨_, hr⟩⟩
    rcases h.post _ hr with ⟨hchanged, -⟩ | hret
    · exact hchanged
    · by_contra hchanged
      exact hret (Bool.eq_true_of_not_eq_false hchanged) hP e rfl
  · exact .done rfl nofun

include h in
theorem silence {k : request.command.Answer → _} {err : ApiClientError}
    (hk : s.client = .cmd request.command k) (he : err.Silence) :
    { s with client := k (request.answer (.error err)) }.Inv request epochBefore retryCommand := by
  refine h.goesOn ?_
  rw [h.waits hk]
  cases he <;> exact .asking rfl

include h in
theorem sees {r : ApiResponse DeviceSummary}
    (hr : ∀ found, ApiClient.absentIfNotRegistered (ApiClient.handleResponse r) = .ok found →
      classifyMint epochBefore (found.map DeviceSummary.keyValidFrom) = .untouched →
        s.changed = false) :
    { s with seen := some r }.Inv request epochBefore retryCommand where
  client := by
    cases h.client with
    | waiting hc => exact .waiting hc
    | asking hc => exact .asking hc
    | done hc hr =>
      refine .done hc fun e he hn => ?_
      exact ⟨(hr e he hn).1, .inr rfl⟩
  post := h.post
  fresh := h.fresh
  row := h.row
  seen r' found hr' := by
    cases hr'
    exact hr found

include h in
theorem read {found : Except SqlxError (Option DeviceActivity)}
    (hf : ∀ a, found = .ok a → a = Store.activityByAddr s.store request.deviceAddr)
    (hP : s.Orderly request epochBefore .read) :
    { s with seen := some (DeviceRoutes.getDevice config found) }.Inv request epochBefore
      retryCommand := by
  refine h.sees fun d hd hverdict => ?_
  rw [ApiClient.absentIfNotRegistered_getDevice hf hd] at hverdict
  by_contra hchanged
  have htrue := Bool.eq_true_of_not_eq_false hchanged
  obtain ⟨row, hrow⟩ := Option.isSome_iff_exists.mp (h.row htrue)
  rw [hrow] at hverdict
  cases epochBefore with
  | none => cases hverdict
  | some epoch =>
    simp [classifyMint, hP htrue epoch row rfl hrow] at hverdict

include h in
/-- The tool reports what the follow-up was answered. -/
theorem asks {k : Except ApiClientError (Option DeviceSummary) → _}
    (hk : s.client = .cmd (.apiDevice request.deviceAddr) k) :
    ∃ err, ∀ outcome, k outcome =
      .ret (.error (Provision.mintError request.deviceAddr epochBefore retryCommand err
        outcome)) := by
  cases h.client with
  | waiting hc =>
    rw [hk, Provision.mintKey_run] at hc
    cases request <;> cases hc
  | asking hc =>
    rw [hk] at hc
    cases hc
    exact ⟨_, fun _ => rfl⟩
  | done hc hr =>
    rw [hk] at hc
    cases hc

include h in
/-- The tool asked in vain. -/
theorem unanswered {k : Except ApiClientError (Option DeviceSummary) → _}
    {outcome : Except ApiClientError (Option DeviceSummary)}
    (hk : s.client = .cmd (.apiDevice request.deviceAddr) k) (hnone : ∀ found, outcome ≠ .ok found) :
    { s with client := k outcome }.Inv request epochBefore retryCommand := by
  obtain ⟨err, hk⟩ := h.asks hk
  refine h.goesOn (.done (hk _) fun e he hn => ?_)
  cases he
  cases outcome with
  | error e => cases hn
  | ok d => exact absurd rfl (hnone d)

include h in
theorem found {k : Except ApiClientError (Option DeviceSummary) → _}
    {r : ApiResponse DeviceSummary} (hk : s.client = .cmd (.apiDevice request.deviceAddr) k)
    (hr : s.seen = some r) :
    { s with client := k (ApiClient.absentIfNotRegistered (ApiClient.handleResponse r)) }.Inv
      request epochBefore retryCommand := by
  obtain ⟨err, hk⟩ := h.asks hk
  refine h.goesOn (.done (hk _) fun e he hn => ⟨?_, .inr (by simp [hr])⟩)
  cases he
  cases hfound : ApiClient.absentIfNotRegistered (ApiClient.handleResponse r) with
  | error e =>
    rw [hfound] at hn
    cases hn
  | ok d =>
    refine h.seen r d hr hfound ?_
    rw [hfound] at hn
    simp only [Provision.mintError] at hn
    cases hv : classifyMint epochBefore (d.map DeviceSummary.keyValidFrom) with
    | untouched => rfl
    | _ =>
      rw [hv] at hn
      cases hn

end Inv

theorem inv_step {t : MintRun} {e : MintEvent} (hs : MintStep config request s e t)
    (hP : s.Orderly request epochBefore e) (h : s.Inv request epochBefore retryCommand) :
    t.Inv request epochBefore retryCommand := by
  cases hs with
  | arrive hpost => exact h.arrive hpost (request.mintsOnce config)
  | refuse hpost he => exact h.arrive hpost trivial
  | handle hpost hc ht => exact h.handle hpost hc hP
  | other hc => exact h.elsewhere (apiStep_isSome hc)
  | restart => exact h.elsewhere id
  | answer hk hr => exact h.answer hk hr hP
  | silence hk he => exact h.silence hk he
  | read hk hs hf => exact h.read hf hP
  | refuseRead hk hs he =>
    exact h.unanswered hk fun found => ApiClient.absentIfNotRegistered_beforeHandler he found
  | found hk hr => exact h.found hk hr
  | silenceRead hk he => exact h.unanswered hk fun _ h => (by cases h)

end MintRun

/-- In a run whose steps are all orderly, a mint that says that nothing was
issued has not written the row and never will. -/
theorem mint_denies_truly {config : ApiConfig} {request : MintRequest}
    {epochBefore : Option Timestamp} {retryCommand : String} {store : ApiStore} {s : MintRun}
    {e : Anyhow}
    (hrun : Relation.ReflTransGen
      (MintStepIf config request (MintRun.Orderly request epochBefore))
      (.start request epochBefore retryCommand store) s)
    (hs : s.client = .ret (.error e)) (he : e.nothingIssued = true) : s.changed = false := by
  have hinv := invariant_run hrun (fun _ _ ⟨_, hstep, hP⟩ h => MintRun.inv_step hstep hP h)
    (MintRun.inv_start store)
  cases hinv.client with
  | waiting hc =>
    rw [hs, Provision.mintKey_run] at hc
    cases request <;> cases hc
  | asking hc =>
    rw [hs] at hc
    cases hc
  | done hc hr =>
    rw [hs] at hc
    cases hc
    exact (hr e rfl he).1

/-! ### A rotation -/

section Rotation

variable {config : ApiConfig} {P : MintRun → MintEvent → Prop} {s : MintRun} {addr : DeviceAddr}
  {row : DeviceRow} {key : DeviceKey} {nonce : XNonce} {k : SealedDeviceKey}

/-- The request has written the row, and its handler was told so or not. -/
def MintRun.rotated (s : MintRun) (addr : DeviceAddr) (row : DeviceRow) (key : DeviceKey)
    (k : SealedDeviceKey) (now : DateTime) (told : Bool) : MintRun where
  store := s.store.setRow addr ⟨row.name, some k.bytes, now⟩
  client := s.client
  post := some (DeviceRoutes.afterUpdate addr key (bif told
    then .ok (some ⟨addr, row.name, some k.bytes, now⟩) else .error .failed))
  seen := s.seen
  changed := true
  misled := !told

theorem MintRun.rotated_devices (s : MintRun) (addr : DeviceAddr) (row : DeviceRow)
    (key : DeviceKey) (k : SealedDeviceKey) (now : DateTime) (told : Bool) :
    (s.rotated addr row key k now told).store.devices addr = some ⟨row.name, some k.bytes, now⟩ :=
  Function.update_self ..

/-- A command of the handler that does not write. -/
theorem handle_quiet {request : MintRequest} (c : ApiCmd) (a : c.Answer)
    {p : c.Answer → ApiM (Option (ApiResponse DeviceKeyResponse))}
    (hpost : s.post = some (.cmd c p)) (hc : apiStep s.store c a s.store) (ht : c.Told a a)
    (hw : c.writes a = none) :
    MintStepIf config request (fun _ _ => True) s { s with post := some (p a) } := by
  have hstep : MintStep config request s (.handle c a) _ := .handle hpost hc ht
  simp only [hw, Option.isSome_none, Bool.or_false, Bool.false_and] at hstep
  exact ⟨_, hstep, trivial⟩

theorem rotate_ready (hpost : s.post = none)
    (hk : SealedDeviceKey.sealWithNonce config.kekAead config.ring key addr nonce = some k) :
    Relation.ReflTransGen (MintStepIf config (.rotateKey addr) fun _ _ => True) s
      { s with post := some (.cmd (.updateKey addr k) (DeviceRoutes.afterUpdate addr key)) } := by
  have harrive : MintStep config (.rotateKey addr) s .rest _ := .arrive hpost
  simp only [MintRequest.handler, DeviceRoutes.rotateDeviceKey_eq] at harrive
  refine .head ⟨_, harrive, trivial⟩ ?_
  refine .head (handle_quiet .generateKey (.ok key) rfl rfl rfl rfl) ?_
  refine .head (handle_quiet .generateNonce nonce rfl rfl rfl rfl) ?_
  simp only [hk]
  exact .refl

theorem rotate_run (hpost : s.post = none) (hmisled : s.misled = false)
    (hrow : s.store.devices addr = some row)
    (hk : SealedDeviceKey.sealWithNonce config.kekAead config.ring key addr nonce = some k)
    (now : DateTime) (told : Bool) :
    Relation.ReflTransGen (MintStepIf config (.rotateKey addr) fun _ _ => True) s
      (s.rotated addr row key k now told) := by
  refine .tail (rotate_ready hpost hk) ?_
  have hc : apiStep s.store (.updateKey addr k) (.ok (some ⟨addr, row.name, some k.bytes, now⟩))
      (s.store.setRow addr ⟨row.name, some k.bytes, now⟩) := ⟨row, now, hrow, rfl, rfl⟩
  have ht : ApiCmd.Told (.updateKey addr k) (.ok (some ⟨addr, row.name, some k.bytes, now⟩))
      (bif told then .ok (some ⟨addr, row.name, some k.bytes, now⟩) else .error .failed) := by
    cases told with
    | true => exact .inl rfl
    | false => exact .inr rfl
  let t : MintRun :=
    { s with post := some (.cmd (.updateKey addr k) (DeviceRoutes.afterUpdate addr key)) }
  have hpost : t.post = some (.cmd (.updateKey addr k) (DeviceRoutes.afterUpdate addr key)) := rfl
  have hstep : MintStep config (.rotateKey addr) t _ _ := .handle hpost hc ht
  refine ⟨.handle (.updateKey addr k) (.ok (some ⟨addr, row.name, some k.bytes, now⟩)), ?_, trivial⟩
  cases told <;> simpa [t, MintRun.rotated, ApiCmd.writes, hmisled] using hstep

/-- The tool has asked the API about the device. -/
def MintRun.asked (config : ApiConfig) (s : MintRun) (addr : DeviceAddr)
    (epochBefore : Option Timestamp) (retryCommand : String) : MintRun :=
  let r := DeviceRoutes.getDevice config (.ok (Store.activityByAddr s.store addr))
  { s with
    client := .ret (.error (Provision.mintError addr epochBefore retryCommand .transportError
      (ApiClient.absentIfNotRegistered (ApiClient.handleResponse r))))
    seen := some r }

/-- The response gets lost, and the tool asks. -/
theorem ask_run (config : ApiConfig) {epochBefore : Option Timestamp} {retryCommand : String}
    (hclient : s.client =
      (Provision.mintKey addr epochBefore retryCommand (MintRequest.rotateKey addr).program).run)
    (hseen : s.seen = none)
    (hP : ∀ s' : MintRun, s'.changed = s.changed → P s' .rest ∧ P s' .read) :
    Relation.ReflTransGen (MintStepIf config (.rotateKey addr) P) s
      (s.asked config addr epochBefore retryCommand) := by
  have hk := hclient.trans (Provision.mintKey_run addr epochBefore retryCommand _)
  let t : MintRun := { s with
    client := Provision.afterPost addr epochBefore retryCommand (.error .transportError) }
  let u : MintRun := { t with
    seen := some (DeviceRoutes.getDevice config (.ok (Store.activityByAddr s.store addr))) }
  have hsilence : MintStep config (.rotateKey addr) s .rest t := .silence hk .transport
  have hread : MintStep config (.rotateKey addr) t .read u :=
    .read rfl hseen fun a ha => (Except.ok.inj ha).symm
  have hask : u.client = .cmd (.apiDevice (MintRequest.rotateKey addr).deviceAddr) fun outcome =>
    .ret (.error (Provision.mintError addr epochBefore retryCommand .transportError outcome)) := rfl
  have hfound : MintStep config (.rotateKey addr) u .rest
    (s.asked config addr epochBefore retryCommand) := MintStep.found (s := u) hask rfl
  exact .head ⟨_, hsilence, (hP s rfl).1⟩
    (.head ⟨_, hread, (hP t rfl).2⟩ (.single ⟨_, hfound, (hP u rfl).1⟩))

end Rotation

def sampleMint : MintRun :=
  .start (.rotateKey sensorAddr) (some 0) "rotate" (sampleConfig.loaded sampleDevices []).store

theorem sampleMint_row : sampleMint.store.devices sensorAddr = some sensorRow :=
  sampleDevices_sensor

/-- The answer that says nothing was issued, to a request that wrote the row. -/
theorem not_mint_denies_truly : ∃ s,
    Relation.ReflTransGen (MintStepIf sampleConfig (.rotateKey sensorAddr) fun _ _ => True)
      sampleMint s ∧
    s.client = .ret (.error (.api (.rejected 500 .internalError "internal server error"))) ∧
    s.changed = true ∧ sampleMint.store.devices sensorAddr = some sensorRow ∧
    s.store.devices sensorAddr = some ⟨"kitchen", some firstSealed.bytes, 1⟩ := by
  have hrun := rotate_run (s := sampleMint) rfl rfl sampleMint_row firstSealed_eq 1 false
  have hanswer : MintStep sampleConfig (.rotateKey sensorAddr)
      (sampleMint.rotated sensorAddr sensorRow mintedKey firstSealed 1 false) .answer _ :=
    .answer (Provision.mintKey_run sensorAddr (some 0) "rotate" _) rfl
  exact ⟨_, hrun.tail ⟨_, hanswer, trivial⟩, rfl, rfl, sampleMint_row,
    MintRun.rotated_devices sampleMint sensorAddr sensorRow mintedKey firstSealed 1 false⟩

/-- A request that is handled after the follow-up. -/
theorem denied_before_handled : ∃ s e,
    Relation.ReflTransGen (MintStepIf sampleConfig (.rotateKey sensorAddr) fun _ _ => True)
      sampleMint s ∧
    s.client = .ret (.error e) ∧ e.nothingIssued = true ∧ s.changed = true := by
  have hask := ask_run (s := sampleMint) (P := fun _ _ => True) sampleConfig
    rfl rfl fun _ _ => ⟨trivial, trivial⟩
  have hrun := rotate_run (s := sampleMint.asked sampleConfig sensorAddr (some 0) "rotate") rfl rfl
    sampleMint_row firstSealed_eq 1 true
  exact ⟨_, _, hask.trans hrun, rfl, rfl, rfl⟩

/-- A rotation whose `NOW()` is not later than the epoch before it. -/
theorem denied_by_clock : ∃ s e,
    Relation.ReflTransGen (MintStepIf sampleConfig (.rotateKey sensorAddr) fun _ _ => True)
      sampleMint s ∧
    s.client = .ret (.error e) ∧ e.nothingIssued = true ∧ s.changed = true := by
  have hrun := rotate_run (s := sampleMint) rfl rfl sampleMint_row firstSealed_eq 0 true
  have hask := ask_run (s := sampleMint.rotated sensorAddr sensorRow mintedKey firstSealed 0 true)
    (P := fun _ _ => True) sampleConfig rfl rfl fun _ _ => ⟨trivial, trivial⟩
  exact ⟨_, _, hrun.trans hask, rfl, rfl, rfl⟩

theorem mint_denies_truly_unanswered : ∃ s,
    Relation.ReflTransGen (MintStepIf sampleConfig (.rotateKey sensorAddr)
      (MintRun.Orderly (.rotateKey sensorAddr) (some 0))) sampleMint s ∧
    s.client = .ret (.error (.mintUntouched .transportError)) ∧ s.changed = false := by
  have hask := ask_run (s := sampleMint) (P := MintRun.Orderly (.rotateKey sensorAddr) (some 0))
    sampleConfig rfl rfl fun _ h => ⟨trivial, fun h' => by cases h.symm.trans h'⟩
  exact ⟨_, hask, rfl, mint_denies_truly hask rfl rfl⟩

end Homescope
