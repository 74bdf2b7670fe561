import Homescope.ToolOnly

/-! How far a run of the tool has come on its board. A key is minted once, on a
halted core, then written, flashed next to and given a fresh counter, in this
order. -/

namespace Homescope

open Commands ToolM

/-- From `spent` on nothing is written; `broken` is any other order. -/
inductive Stage
  | early
  | halted
  | minted (key : DeviceKey)
  | replaced (key : DeviceKey)
  | flashed (key : DeviceKey)
  | spent
  | broken

namespace Stage

def mint (s : Stage) : Except ApiClientError DeviceKeyResponse → Stage
  | .error _ => s
  | .ok response => match s, DeviceKey.fromHex response.key with
    | halted, .ok key => minted key
    | halted, .error _ => halted
    | _, _ => broken

def next (s : Stage) : (c : ToolCmd) → c.Answer → Stage
  | .attach _ _, _ => match s with
    | early => early
    | _ => broken
  | .writeWord32 _ _, _ => match s with
    | flashed key => flashed key
    | _ => broken
  | .eraseUicrRecord, _ => match s with
    | minted key => minted key
    | _ => broken
  | .writeUicrRecord key, answer => match s, answer with
    | minted key', .ok _ => if key = key' then replaced key else broken
    | minted key', .error _ => if key = key' then spent else broken
    | _, _ => broken
  | .downloadFile _, answer => match s, answer with
    | early, _ => early
    | replaced key, .ok _ => flashed key
    | replaced _, .error _ => spent
    | _, _ => broken
  | .halt, answer => match s, answer with
    | early, .ok _ => halted
    | early, .error _ => early
    | _, _ => broken
  | .reset, _ => match s with
    | early => early
    | replaced _ => spent
    | flashed _ => spent
    | spent => spent
    | _ => broken
  | .apiProvision _, answer => s.mint answer
  | .apiRotateKey _, answer => s.mint answer
  | _, _ => s

end Stage

/-- The program keeps to the order of the stages. -/
abbrev Staged {α : Type} (p : Prog ToolCmd ToolCmd.Answer α) (s : Stage) : Prop :=
  Safe (monitor Stage.next) (· ≠ .broken) p (fun _ _ => True) s

namespace Staged

variable {ε ε' α β : Type} {s : Stage}

theorem ret {a : α} (hs : s ≠ .broken) : Staged (Prog.ret a) s := ⟨hs, trivial⟩

theorem bind {x : ToolM ε α} {f : α → ToolM ε β} (h : Issues (Unnoticed Stage.next s) x.run)
    (hs : s ≠ .broken) (hf : ∀ a, Staged (f a).run s) : Staged (x >>= f).run s :=
  h.bind_unnoticed hs (fun _ => trivial) hf

theorem issues {p : Prog ToolCmd ToolCmd.Answer α} (h : Issues (Unnoticed Stage.next s) p)
    (hs : s ≠ .broken) : Staged p s :=
  (h.unnoticed hs).mono (fun _ h => h) fun _ _ _ => trivial

/-- A part that moves the stage on. -/
theorem call_bind {p : Prog ToolCmd ToolCmd.Answer (Except ε' α)} {wrap : ε' → ε}
    {f : α → ToolM ε β} (h : Safe (monitor Stage.next) (· ≠ .broken) p
      (fun r t => ∀ a, r = .ok a → Staged (f a).run t) s) : Staged (call p wrap >>= f).run s := by
  apply Safe.bindExcept
  refine call_safe (h.result.mono (fun _ h => h) ?_)
  rintro (e | a) t ⟨ht, hf⟩
  · exact ⟨ht, trivial⟩
  · exact hf a rfl

theorem call {p : Prog ToolCmd ToolCmd.Answer (Except ε' α)} {wrap : ε' → ε} (h : Staged p s) :
    Staged (ToolM.call p wrap).run s :=
  call_safe h

end Staged

theorem looks_unnoticed : Looks (Unnoticed Stage.next .early) where
  listAll _ := rfl
  attach _ _ _ := rfl
  openCore _ := rfl
  readWord32 _ _ := rfl
  read32 _ _ _ := rfl
  chooseFirmware _ _ := rfl
  resolveClient _ := rfl
  checkAuth _ := rfl
  apiDevice _ _ := rfl
  stdinIsTerminal _ := rfl
  stderrLine _ := rfl
  readLine _ := rfl

section Install

variable {key : DeviceKey}

theorem reportBoot_staged (artifact : Artifact) (logs : Nat) {s : Stage} (hs : s ≠ .broken) :
    Staged (Provision.reportBoot artifact logs).run s :=
  .issues (reportBoot_issues (fun _ => rfl) (fun _ _ => rfl) (fun _ => rfl) artifact (fun _ => rfl)
    logs) hs

/-- From the reset on nothing is written. -/
theorem reset_staged (firmware : Option Artifact) (logs : Nat) {s : Stage} (hs : s ≠ .broken)
    (hreset : ∀ answer, s.next .reset answer ≠ .broken) :
    Staged (do
      ToolM.call (Chip.reset).run .probe
      if let some artifact := firmware then
        Provision.reportBoot artifact logs : ToolM Anyhow Unit).run s := by
  refine .call_bind ⟨hs, fun answer t ht => ?_⟩
  obtain rfl : t = s.next .reset answer := ht
  refine ⟨hreset answer, fun _ _ => ?_⟩
  cases firmware with
  | none => exact .ret (hreset answer)
  | some artifact => exact reportBoot_staged artifact logs (hreset answer)

theorem eraseStorage_staged (start stop : Nat) :
    Issues (Unnoticed Stage.next (.flashed key)) (Chip.eraseStorage start stop).run :=
  eraseStorage_issues (fun _ _ => rfl) (fun _ _ _ => rfl) (fun _ => rfl) (fun _ => rfl)
    (fun _ => rfl) (fun _ _ _ => rfl)

theorem flashImage_staged {s : Stage} (s' : Stage) (hs : s ≠ .broken) (artifact : Artifact)
    (hcore : Unnoticed Stage.next s .openCore) (hread : Unnoticed Stage.next s (.readWord32 0))
    {f : Unit → ToolM Anyhow Unit}
    (hok : s.next (.downloadFile artifact) (.ok ()) = s')
    (herror : ∀ e, s.next (.downloadFile artifact) (.error e) ≠ .broken)
    (hf : Staged (f ()).run s') : Staged (Provision.flashImage artifact >>= f).run s := by
  have hs' := hf.now
  subst hok
  have hdownload : Safe (monitor Stage.next) (· ≠ .broken)
      (ExceptT.mk (command (.downloadFile artifact)) : ToolM FlashImageError Unit).run
      (fun r t => ∀ a, r = .ok a → Staged (f a).run t) s := by
    refine ⟨hs, ?_⟩
    rintro (e | _) t rfl
    · exact ⟨herror e, by rintro _ ⟨⟩⟩
    · exact ⟨hs', fun _ _ => hf⟩
  refine .call_bind ?_
  rw [Chip.flash]
  by_cases h : 0 < artifact.appStart
  · simp only [h, if_true]
    refine Prog.Only.bind_unnoticed (Issues.call (.command hcore)) hs (by rintro _ _ ⟨⟩) fun _ => ?_
    refine Prog.Only.bind_unnoticed (Issues.call (.command hread)) hs (by rintro _ _ ⟨⟩) fun beneath => ?_
    by_cases hb : beneath = erased
    · simp only [hb, if_true]
      exact ⟨hs, by rintro _ ⟨⟩⟩
    · simp only [hb, if_false]
      exact hdownload
  · simp only [h, if_false]
    exact hdownload

theorem installFirmware_staged (firmware : Option Artifact) (logs : Nat) :
    Staged (Provision.installFirmware firmware logs).run (.replaced key) := by
  cases firmware with
  | none => exact reset_staged none logs nofun fun _ => nofun
  | some artifact =>
    obtain ⟨id, name, appStart, storage⟩ := artifact
    have hreset := reset_staged (some ⟨id, name, appStart, storage⟩) logs (s := .flashed key) nofun
      fun _ => nofun
    refine flashImage_staged (s := .replaced key) (.flashed key) nofun _ (fun _ => rfl)
      (fun _ => rfl) rfl (fun _ => nofun) ?_
    cases storage with
    | none => exact hreset
    | some range => exact .bind (.call (eraseStorage_staged _ _)) nofun fun _ => hreset

theorem replaceRecord_staged (record : RecordHeader) :
    Safe (monitor Stage.next) (· ≠ .broken) (Provision.replaceRecord record key).run
      (fun r t => r = .ok () → t = .replaced key) (.minted key) := by
  have hwrite : Safe (monitor Stage.next) (· ≠ .broken)
      (ToolM.call (Provision.writeUicrRecord key).run Anyhow.writeRecord).run
      (fun r t => r = .ok () → t = .replaced key) (.minted key) := by
    refine call_safe ⟨by rintro ⟨⟩, ?_⟩
    rintro (e | _) t rfl
    · rw [Stage.next, if_pos rfl]
      exact ⟨by rintro ⟨⟩, by rintro ⟨⟩⟩
    · rw [Stage.next, if_pos rfl]
      exact ⟨by rintro ⟨⟩, fun _ => rfl⟩
  rw [Provision.replaceRecord]
  cases record.isBlank with
  | true => exact hwrite
  | false =>
    exact Prog.Only.bind_unnoticed (Issues.call (.command fun _ => rfl)) (by rintro ⟨⟩) (by rintro _ ⟨⟩)
      fun _ => hwrite

theorem install_staged (record : RecordHeader) (firmware : Option Artifact) (logs : Nat) :
    Staged (Provision.install record key firmware logs).run (.minted key) := by
  apply Safe.bindExcept
  refine (replaceRecord_staged record).result.mono (fun _ h => h) ?_
  rintro (e | _) t ⟨ht, hreplaced⟩
  · exact ⟨ht, trivial⟩
  · obtain rfl := hreplaced rfl
    exact installFirmware_staged firmware logs

theorem installKey_staged {s : Stage} (record : RecordHeader) (response : DeviceKeyResponse)
    (firmware : Option Artifact) (logs : Nat) (retryCommand : String) (hs : s ≠ .broken)
    (hkey : ∀ key, DeviceKey.fromHex response.key = .ok key → s = .minted key) :
    Staged (Provision.installKey record response firmware logs retryCommand).run s := by
  rw [Provision.installKey]
  cases hhex : DeviceKey.fromHex response.key with
  | error e => exact .ret hs
  | ok key =>
    obtain rfl := hkey key hhex
    exact .call (install_staged record firmware logs)

end Install

/-! ### The commands -/

theorem Stage.mint_ne_broken (r : Except ApiClientError DeviceKeyResponse) :
    Stage.halted.mint r ≠ .broken := by
  rcases r with e | response
  · nofun
  · cases hkey : DeviceKey.fromHex response.key <;> (simp only [Stage.mint, hkey]; nofun)

/-- A mint that answers has a key for the board, if the answer has one. -/
def Stage.AfterMint (r : Except Anyhow DeviceKeyResponse) (s : Stage) : Prop :=
  ∀ response, r = .ok response → ∀ key, DeviceKey.fromHex response.key = .ok key → s = .minted key

theorem mintKey_staged (deviceAddr : DeviceAddr) (epochBefore : Option Timestamp)
    (retryCommand : String)
    {request : Prog ToolCmd ToolCmd.Answer (Except ApiClientError DeviceKeyResponse)}
    (hrequest : Safe (monitor Stage.next) (· ≠ .broken) request
      (fun r t => t = Stage.halted.mint r) .halted) :
    Safe (monitor Stage.next) (· ≠ .broken)
      (Provision.mintKey deviceAddr epochBefore retryCommand request).run
      (fun r t => t.AfterMint r) .halted := by
  rw [Provision.mintKey_run]
  apply Safe.bind
  refine hrequest.result.mono (fun _ h => h) ?_
  rintro (err | response) t ⟨ht, rfl⟩
  · rw [Provision.afterPost]
    cases err.mayHaveCommitted with
    | false => exact ⟨ht, nofun⟩
    | true =>
      refine ⟨ht, fun outcome t hnext => ?_⟩
      obtain rfl : t = .halted := hnext
      exact ⟨nofun, nofun⟩
  · refine ⟨ht, fun response' he key hkey => ?_⟩
    cases he
    simp only [Stage.mint, hkey]

theorem provision_mints (payload : ProvisionDevicePayload) :
    Safe (monitor Stage.next) (· ≠ .broken) (command (.apiProvision payload))
      (fun r t => t = Stage.halted.mint r) .halted :=
  ⟨nofun, fun answer _ ht => ⟨ht ▸ Stage.mint_ne_broken answer, ht⟩⟩

theorem rotate_mints (deviceAddr : DeviceAddr) :
    Safe (monitor Stage.next) (· ≠ .broken) (command (.apiRotateKey deviceAddr))
      (fun r t => t = Stage.halted.mint r) .halted :=
  ⟨nofun, fun answer _ ht => ⟨ht ▸ Stage.mint_ne_broken answer, ht⟩⟩

theorem mintAndInstall_staged (args : Provision.Args) (firmware : Option Artifact)
    (state : ChipState) (action : Provision.Action) (epochBefore : Option Timestamp)
    (retryCommand : String)
    {request : Prog ToolCmd ToolCmd.Answer (Except ApiClientError DeviceKeyResponse)}
    (hrequest : Safe (monitor Stage.next) (· ≠ .broken) request
      (fun r t => t = Stage.halted.mint r) .halted) :
    Staged (Provision.mintAndInstall args firmware state action epochBefore retryCommand
      request).run .early := by
  refine .bind (.call (looks_unnoticed.confirmRecord _ _ _)) nofun fun _ => .call_bind ⟨nofun, ?_⟩
  rintro (e | _) t rfl
  · exact ⟨nofun, nofun⟩
  refine ⟨nofun, fun _ _ => ?_⟩
  apply Safe.bindExcept
  refine (mintKey_staged _ _ _ hrequest).result.mono (fun _ h => h) ?_
  rintro (e | response) t ⟨ht, hmint⟩
  · exact ⟨ht, trivial⟩
  · exact installKey_staged _ _ _ _ _ ht (hmint response rfl)

theorem provision_staged (args : Provision.Args) (name : String) :
    Staged (Provision.provision args name).run .early := by
  refine .bind (looks_unnoticed.lookUp args) nofun fun (firmware, state, registered) => ?_
  cases registered with
  | some existing => exact .ret nofun
  | none => exact mintAndInstall_staged _ _ _ _ _ _ (provision_mints _)

theorem rotateKey_staged (args : Provision.Args) : Staged (Provision.rotateKey args).run .early := by
  refine .bind (looks_unnoticed.lookUp args) nofun fun (firmware, state, registered) => ?_
  cases registered with
  | none => exact .ret nofun
  | some existing =>
    have hmint := mintAndInstall_staged args firmware state (.rotate existing.name)
      (some existing.keyValidFrom) "rotate" (rotate_mints state.deviceAddr)
    dsimp only
    by_cases h : existing.keyStatus = .kekUnavailable
    · rw [if_pos h]
      exact .bind (.call (.command looks_unnoticed.stderrLine)) nofun fun _ => hmint
    · rw [if_neg h]
      exact hmint

theorem flash_staged (firmware serial : Option String) (logs : Nat) :
    Staged (Provision.flash firmware serial logs).run .early := by
  refine .bind (.call (.command (looks_unnoticed.chooseFirmware _))) nofun fun artifact => ?_
  refine .bind (.call (connect_issues looks_unnoticed.listAll (looks_unnoticed.attach · false) _))
    nofun fun connection => ?_
  cases connection with
  | locked probe => exact .ret nofun
  | attached =>
    have hread : Issues (Unnoticed Stage.next .early)
        (ToolM.call (ε := Anyhow) (Chip.readUicrWords).run .probe).run :=
      .call (readUicrWords_issues looks_unnoticed.openCore looks_unnoticed.read32)
    have hreflash : Staged (Provision.reflash artifact logs).run .early := by
      refine .bind hread nofun fun before => ?_
      refine flashImage_staged (s := .early) .early nofun artifact (fun _ => rfl) (fun _ => rfl) rfl
        (fun _ => nofun) ?_
      refine .bind hread nofun fun after => ?_
      dsimp only
      by_cases h : after ≠ before
      · rw [if_pos h]
        exact .ret nofun
      · rw [if_neg h]
        exact .bind (.call (.command fun _ => rfl)) nofun fun _ => reportBoot_staged artifact logs nofun
    refine .bind (.call (readState_issues looks_unnoticed.openCore looks_unnoticed.readWord32
      looks_unnoticed.read32)) nofun fun state => ?_
    dsimp only
    by_cases h : state.record ≠ .present
    · rw [if_pos h]
      exact .bind (.call (.command looks_unnoticed.stderrLine)) nofun fun _ => hreflash
    · rw [if_neg h]
      exact hreflash

end Homescope
