import Homescope.ToolOnly
import Homescope.UicrRuns

/-! In which order a run of `provision` or of `rotate` takes the steps that
cannot be undone. What may be issued is decided by the history alone, so every
answer of the probe, the API, the operator and the files is an ordinary one. -/

namespace Homescope

open Commands ToolM Provision

/-- What was asked of the surroundings, and what they answered. -/
abbrev Trace := List (Σ c : ToolCmd, c.Answer)

namespace Trace

/-- `--yes` has answered, or the operator has and was understood. -/
def Consented (tr : Trace) (assumeYes : Bool) (decide : Text → Except ConfirmError Unit) : Prop :=
  assumeYes = true ∨
    ∃ answer : String, ⟨.readLine, .ok answer⟩ ∈ tr ∧ decide (trim answer.toList) = .ok ()

/-- A blank record is replaced without a question. -/
def MayReplace (tr : Trace) (assumeYes : Bool) : Prop :=
  ⟨.readWord32 uicrCustomer, .ok erased⟩ ∈ tr ∨ tr.Consented assumeYes Confirm.decideYesNo

/-- The registry was asked whether it has the device. -/
def LookedUp (tr : Trace) (deviceAddr : DeviceAddr) (registered : Bool) : Prop :=
  ∃ found : Option DeviceSummary, ⟨.apiDevice deviceAddr, .ok found⟩ ∈ tr ∧ found.isSome = registered

def Minted (tr : Trace) (response : DeviceKeyResponse) : Prop :=
  (∃ payload, ⟨.apiProvision payload, .ok response⟩ ∈ tr) ∨
    ∃ deviceAddr, ⟨.apiRotateKey deviceAddr, .ok response⟩ ∈ tr

/-- All nine words of the record were written. -/
def Wrote (tr : Trace) (key : DeviceKey) : Prop :=
  ∀ i : Fin 9, ⟨.writeWord32 (uicrCustomer + 4 * i) (UicrRecord.encode key i), .ok ()⟩ ∈ tr

/-- What came back of the record is the key's. -/
def Verified (tr : Trace) (key : DeviceKey) : Prop :=
  ∃ words : List Word, ⟨.read32 uicrCustomer 9, .ok words⟩ ∈ tr ∧
    ∀ p ∈ words.zip (List.ofFn (UicrRecord.encode key)), p.1 = p.2

/-- A key was minted, then its record written, then the record verified. -/
def Installed (tr : Trace) (key : DeviceKey) : Prop :=
  ∃ mint write verify : Trace, mint ++ write ++ verify <+: tr ∧
    (∃ response, mint.Minted response ∧ DeviceKey.fromHex response.key = .ok key) ∧
    write.Wrote key ∧ verify.Verified key

/-- A key was installed, and then the image downloaded. -/
def Flashed (tr : Trace) (artifact : Artifact) : Prop :=
  ∃ install download : Trace, install ++ download <+: tr ∧ (∃ key, install.Installed key) ∧
    ⟨.downloadFile artifact, .ok ()⟩ ∈ download

/-- What the history must hold before a command of `provision`, or of `rotate`
if the device is `registered`. The record methods are the words they write. -/
def Allows (assumeYes registered : Bool) (tr : Trace) : ToolCmd → Prop
  | .attach _ allowEraseAll => allowEraseAll = true → ⟨.checkAuth, .ok ()⟩ ∈ tr ∧
      tr.Consented assumeYes (Confirm.decideTyped · "ERASE".toList)
  | .apiProvision payload =>
      registered = false ∧ tr.MayReplace assumeYes ∧ tr.LookedUp payload.deviceAddr registered
  | .apiRotateKey deviceAddr =>
      registered = true ∧ tr.MayReplace assumeYes ∧ tr.LookedUp deviceAddr registered
  | .writeWord32 address _ =>
      (∃ response, tr.Minted response) ∧ (address = nvmcErasePage → ∃ artifact, tr.Flashed artifact)
  | .eraseUicrRecord => False
  | .writeUicrRecord _ => False
  | .downloadFile _ => ∃ key, tr.Installed key
  | _ => True

end Trace

/-- Every run of the command, cut anywhere, took its steps in order. -/
def InOrder (assumeYes registered : Bool) (f : ToolM Anyhow Unit) : Prop :=
  ∀ q tr, Steps history ((onProbe f).run, []) (q, tr) →
    Lawful (Trace.Allows assumeYes registered) tr

/-! ### Facts that stay -/

namespace Trace

variable {tr t : Trace} {assumeYes registered : Bool} {key : DeviceKey}

theorem Consented.mono {decide : Text → Except ConfirmError Unit} (h : tr.Consented assumeYes decide)
    (ht : tr <+: t) : t.Consented assumeYes decide :=
  h.imp_right fun ⟨answer, hmem, ha⟩ => ⟨answer, ht.subset hmem, ha⟩

theorem MayReplace.mono (h : tr.MayReplace assumeYes) (ht : tr <+: t) : t.MayReplace assumeYes :=
  h.imp (fun hmem => ht.subset hmem) (·.mono ht)

theorem Minted.mono {response : DeviceKeyResponse} (h : tr.Minted response) (ht : tr <+: t) :
    t.Minted response :=
  h.imp (fun ⟨payload, hmem⟩ => ⟨payload, ht.subset hmem⟩)
    fun ⟨deviceAddr, hmem⟩ => ⟨deviceAddr, ht.subset hmem⟩

theorem Installed.mono (h : tr.Installed key) (ht : tr <+: t) : t.Installed key :=
  let ⟨mint, write, verify, hpre, hrest⟩ := h
  ⟨mint, write, verify, hpre.trans ht, hrest⟩

theorem Flashed.mono {artifact : Artifact} (h : tr.Flashed artifact) (ht : tr <+: t) :
    t.Flashed artifact :=
  let ⟨install, download, hpre, hrest⟩ := h
  ⟨install, download, hpre.trans ht, hrest⟩

theorem Installed.minted (h : tr.Installed key) : ∃ response, tr.Minted response := by
  obtain ⟨mint, write, verify, hpre, ⟨response, hmint, -⟩, -⟩ := h
  have hm : mint <+: tr := (List.prefix_append mint (write ++ verify)).trans
    (List.append_assoc mint write verify ▸ hpre)
  exact ⟨response, hmint.mono hm⟩

end Trace

/-! ### Parts of a run -/

section Rules

variable {allowed : Trace → ToolCmd → Prop} {tr : Trace} {ε ε' α : Type} {F : α → Trace → Prop}

theorem call_orderly {p : Prog ToolCmd ToolCmd.Answer (Except ε' α)} {wrap : ε' → ε}
    (h : Orderly allowed p F tr) : Orderly allowed (call p wrap).run F tr := by
  refine call_safe (Safe.mono h (fun _ h => h) fun r t ⟨hpre, hF⟩ => ⟨hpre, fun a ha => ?_⟩)
  cases r with
  | ok b => exact hF a (congrArg Except.ok (Except.ok.inj ha))
  | error e => cases ha

theorem attempt_orderly {p : Prog ToolCmd ToolCmd.Answer (Except ε' α)} (h : Orderly allowed p F tr) :
    Orderly allowed (attempt p : ToolM ε _).run (fun r t => ∀ a, r = .ok a → F a t) tr := by
  refine attempt_safe (Safe.mono h (fun _ h => h) fun r t ⟨hpre, hF⟩ => ⟨hpre, fun r' hr => ?_⟩)
  obtain rfl := Except.ok.inj hr
  exact hF

theorem ofExcept_orderly {result : Except ε' α} {wrap : ε' → ε} (htr : Lawful allowed tr) :
    Orderly allowed (ofExcept result wrap).run (fun a _ => result = .ok a) tr := by
  cases result with
  | ok a => exact .ok htr rfl
  | error e => exact .error htr

theorem issues_orderly {p : Prog ToolCmd ToolCmd.Answer (Except ε α)}
    (h : Issues (Permitted allowed tr) p) (htr : Lawful allowed tr) :
    Orderly allowed p (fun _ _ => True) tr :=
  Prog.Only.orderly h htr

theorem command_orderly (c : ToolCmd) {h : c.Answer → Except ε α} (htr : Lawful allowed tr)
    (hc : allowed tr c) (hF : ∀ answer a, h answer = .ok a → F a (tr ++ [⟨c, answer⟩])) :
    Orderly allowed (command c >>= fun answer => .ret (h answer)) F tr :=
  .perform htr hc hF

/-- The mode is set and restored around a part whose results stay. -/
theorem withMode_orderly (mode : NvmcMode) {f : ToolM NvmcError α} (htr : Lawful allowed tr)
    (hmode : ∀ mode : NvmcMode, Permitted allowed tr (.writeWord32 nvmcConfig mode.word))
    (hflush : Permitted allowed tr .flush) (hF : ∀ a s t, s <+: t → F a s → F a t)
    (hf : ∀ t, tr <+: t → Lawful allowed t → Orderly allowed f.run F t) :
    Orderly allowed (Nvmc.withMode mode f).run F tr := by
  have hset : ∀ {mode : NvmcMode} {t : Trace}, tr <+: t → Lawful allowed t →
      Orderly allowed (Nvmc.setMode mode).run (fun _ _ => True) t :=
    fun ht hl => issues_orderly (.command fun u hu => hmode _ u (ht.trans hu)) hl
  have hflushed : ∀ {t : Trace}, tr <+: t → Lawful allowed t →
      Orderly allowed Nvmc.flush.run (fun _ _ => True) t :=
    fun ht hl => issues_orderly (.command fun u hu => hflush u (ht.trans hu)) hl
  refine .bind (call_orderly (hset List.prefix_rfl htr)) fun _ t₁ h₁ hl₁ _ => ?_
  refine .bind (attempt_orderly (hf t₁ h₁ hl₁)) fun closureResult t₂ h₂ hl₂ hresult => ?_
  have h₂' := h₁.trans h₂
  refine .bind (attempt_orderly (hset h₂' hl₂)) fun restored t₃ h₃ hl₃ _ => ?_
  refine .bind (attempt_orderly (hflushed (h₂'.trans h₃) hl₃)) fun flushed t₄ h₄ hl₄ _ => ?_
  refine .bind (ofExcept_orderly hl₄) fun value t₅ h₅ hl₅ hvalue => ?_
  refine .bind (ofExcept_orderly hl₅) fun _ t₆ h₆ hl₆ _ => ?_
  refine .bind (ofExcept_orderly hl₆) fun _ t₇ h₇ hl₇ _ => ?_
  exact .ok hl₇ (hF value t₂ t₇ (h₃.trans (h₄.trans (h₅.trans (h₆.trans h₇)))) (hresult value hvalue))

end Rules

/-! ### The record -/

section Record

variable {allowed : Trace → ToolCmd → Prop} {tr : Trace} {n : Nat}

/-- What came after the first `n` events is still there. -/
theorem mem_drop_mono {e : Σ c : ToolCmd, c.Answer} {s t : Trace} (h : e ∈ s.drop n) (hst : s <+: t) :
    e ∈ t.drop n := by
  obtain ⟨more, rfl⟩ := hst
  rw [List.drop_append]
  exact List.mem_append_left _ h

theorem mem_drop_snoc (e : Σ c : ToolCmd, c.Answer) (hn : n ≤ tr.length) :
    e ∈ (tr ++ [e]).drop n := by
  rw [List.drop_append_of_le_length hn]
  exact List.mem_append_right _ (List.mem_singleton.mpr rfl)

theorem writeWord_orderly (address : Nat) (word : Word) (htr : Lawful allowed tr)
    (hn : n ≤ tr.length) (hwrite : Permitted allowed tr (.writeWord32 address word))
    (hready : Permitted allowed tr .pollReady) :
    Orderly allowed (Nvmc.writeWord address word).run
      (fun _ t => ⟨.writeWord32 address word, .ok ()⟩ ∈ t.drop n) tr := by
  have hcmd : Orderly allowed (command (.writeWord32 address word))
      (fun _ t => ⟨.writeWord32 address word, .ok ()⟩ ∈ t.drop n) tr := by
    refine command_orderly (.writeWord32 address word) (h := id) htr (hwrite tr List.prefix_rfl)
      fun answer a ha => ?_
    obtain rfl : answer = .ok () := ha
    exact mem_drop_snoc _ hn
  refine .bind (call_orderly hcmd) fun _ t ht hl hmem => ?_
  have hpoll : Orderly allowed (command .pollReady) (fun _ _ => True) t :=
    issues_orderly (.command fun u hu => hready u (ht.trans hu)) hl
  exact hpoll.mono fun _ u hu _ => mem_drop_mono hmem hu

theorem writeWords_orderly (address : Nat) (words : List Word) (htr : Lawful allowed tr)
    (hn : n ≤ tr.length)
    (hwrite : ∀ i < words.length, ∀ word, Permitted allowed tr (.writeWord32 (address + 4 * i) word))
    (hready : Permitted allowed tr .pollReady) :
    Orderly allowed (Nvmc.writeWords address words).run (fun _ t => ∀ i, (h : i < words.length) →
      ⟨.writeWord32 (address + 4 * i) words[i], .ok ()⟩ ∈ t.drop n) tr := by
  induction words generalizing address tr with
  | nil => exact .ok htr fun i h => absurd h (Nat.not_lt_zero i)
  | cons word words ih =>
    refine .bind (writeWord_orderly address word htr hn (hwrite 0 (Nat.succ_pos _) word) hready)
      fun _ t ht hl hmem => ?_
    have hshift : ∀ i, address + 4 + 4 * i = address + 4 * (i + 1) := fun i => by omega
    have hrest := ih (address + 4) hl (hn.trans ht.length_le)
      (fun i hi word u hu => hshift i ▸ hwrite (i + 1) (Nat.succ_lt_succ hi) word u (ht.trans hu))
      (fun u hu => hready u (ht.trans hu))
    refine hrest.mono fun _ u hu hwords i hi => ?_
    cases i with
    | zero => exact mem_drop_mono hmem hu
    | succ i =>
      have := hwords i (Nat.lt_of_succ_lt_succ hi)
      rwa [hshift] at this

theorem firstMismatch_zip {address : Nat} {actual expected : List Word}
    (h : Chip.firstMismatch address actual expected = none) :
    ∀ p ∈ actual.zip expected, p.1 = p.2 := by
  induction actual generalizing address expected with
  | nil => simp
  | cons a actual ih =>
    cases expected with
    | nil => simp
    | cons e expected =>
      by_cases he : a = e
      · have hrest : Chip.firstMismatch (address + 4) actual expected = none := by
          simpa [Chip.firstMismatch, he] using h
        simpa [he] using ih hrest
      · simp [Chip.firstMismatch, he] at h

theorem chunks_single {words : List Word} (hne : words ≠ []) (hlen : words.length ≤ Chip.chunkSize) :
    Chip.chunks (words.length + 1) words = [words] := by
  have hnil : ∀ n, Chip.chunks n [] = [] := fun n => by cases n <;> rfl
  simp [Chip.chunks, hne, List.take_of_length_le hlen, List.drop_eq_nil_of_le hlen, hnil]

theorem findMismatch_orderly (address : Nat) (words : List Word) (htr : Lawful allowed tr)
    (hn : n ≤ tr.length) (hne : words ≠ []) (hlen : words.length ≤ Chip.chunkSize)
    (hread : Permitted allowed tr (.read32 address words.length)) :
    Orderly allowed (Chip.findMismatch address words).run (fun found t => found = none →
      ∃ buf, ⟨.read32 address words.length, .ok buf⟩ ∈ t.drop n ∧ ∀ p ∈ buf.zip words, p.1 = p.2)
      tr := by
  have hcmd : Orderly allowed (command (.read32 address words.length))
      (fun buf t => ⟨.read32 address words.length, .ok buf⟩ ∈ t.drop n) tr := by
    refine command_orderly (.read32 address words.length) (h := id) htr (hread tr List.prefix_rfl)
      fun answer a ha => ?_
    obtain rfl : answer = .ok a := ha
    exact mem_drop_snoc _ hn
  rw [Chip.findMismatch, chunks_single hne hlen]
  refine .bind hcmd fun buf t _ hl hmem => ?_
  cases hfound : Chip.firstMismatch address buf words with
  | none => exact .ok hl fun _ => ⟨buf, hmem, firstMismatch_zip hfound⟩
  | some mismatch => exact .ok hl nofun

end Record

/-! ### What a mint allows -/

section Minted

variable {assumeYes registered : Bool} {tr : Trace} {key : DeviceKey}

theorem Trace.Minted.permits (h : ∃ response, tr.Minted response) {address : Nat} (word : Word)
    (ha : address ≠ nvmcErasePage) :
    Permitted (Trace.Allows assumeYes registered) tr (.writeWord32 address word) :=
  fun _ ht => ⟨h.imp fun _ hm => hm.mono ht, fun h => absurd h ha⟩

theorem eraseUicrRecord_orderly (htr : Lawful (Trace.Allows assumeYes registered) tr)
    (hmint : ∃ response, tr.Minted response) :
    Orderly (Trace.Allows assumeYes registered) (Chip.eraseUicrRecord).run (fun _ _ => True) tr := by
  refine issues_orderly (.bind (.call (.command fun _ _ => trivial)) fun _ => ?_) htr
  have herase : Issues (Permitted (Trace.Allows assumeYes registered) tr) Nvmc.eraseUicr.run :=
    .bind (.call (.command (Trace.Minted.permits hmint _ (by decide)))) fun _ =>
      .command fun _ _ => trivial
  have hmode : ∀ mode : NvmcMode, Permitted (Trace.Allows assumeYes registered) tr
      (.writeWord32 nvmcConfig mode.word) := fun _ => Trace.Minted.permits hmint _ (by decide)
  refine .bind (.call (withMode_issues hmode (fun _ _ => trivial) herase)) fun _ => ?_
  refine .bind (.call (findMismatchIn_issues (fun _ _ _ _ => trivial) _ _)) fun mismatch => ?_
  cases mismatch <;> trivial

/-- The nine words of a key, written from the second on and then the first. -/
theorem writeRecord_orderly (htr : Lawful (Trace.Allows assumeYes registered) tr)
    (hmint : ∃ response, tr.Minted response) {n : Nat} (hn : n ≤ tr.length) :
    Orderly (Trace.Allows assumeYes registered) (do
      Nvmc.writeWords (uicrCustomer + 4) ((List.ofFn (UicrRecord.encode key)).drop 1)
      Nvmc.writeWord uicrCustomer ((List.ofFn (UicrRecord.encode key)).headD 0) :
        ToolM NvmcError Unit).run (fun _ t => Trace.Wrote (t.drop n) key) tr := by
  rw [List.ofFn_succ, List.drop_one, List.tail_cons, List.headD_cons]
  have hready : ∀ t, Permitted (Trace.Allows assumeYes registered) t .pollReady :=
    fun _ _ _ => trivial
  refine .bind (writeWords_orderly _ _ htr hn (fun i hi word => Trace.Minted.permits hmint word ?_)
    (hready tr)) fun _ t ht hl hwords => ?_
  · rw [List.length_ofFn] at hi
    unfold uicrCustomer nvmcErasePage
    omega
  have hheader := writeWord_orderly uicrCustomer (UicrRecord.encode key 0) hl (hn.trans ht.length_le)
    (Trace.Minted.permits (hmint.imp fun _ hm => hm.mono ht) _ (by decide)) (hready t)
  refine hheader.mono fun _ u hu hzero i => ?_
  refine Fin.cases hzero (fun i => ?_) i
  have hi := mem_drop_mono (hwords i (by rw [List.length_ofFn]; exact i.isLt)) hu
  rw [List.getElem_ofFn] at hi
  have ha : uicrCustomer + 4 + 4 * (i : Nat) = uicrCustomer + 4 * (i.succ : Nat) := by
    rw [Fin.val_succ]
    omega
  rwa [ha] at hi

theorem writeUicrRecord_orderly (htr : Lawful (Trace.Allows assumeYes registered) tr)
    (hmint : ∃ response, tr.Minted response ∧ DeviceKey.fromHex response.key = .ok key) :
    Orderly (Trace.Allows assumeYes registered) (Chip.writeUicrRecord key).run
      (fun _ t => Trace.Installed t key) tr := by
  have hmint' : ∃ response, tr.Minted response := hmint.imp fun _ h => h.1
  refine .bind (issues_orderly (.call (.command fun _ _ => trivial)) htr) fun _ t₁ h₁ hl₁ _ => ?_
  have hmode : ∀ mode : NvmcMode, Permitted (Trace.Allows assumeYes registered) t₁
      (.writeWord32 nvmcConfig mode.word) :=
    fun _ => Trace.Minted.permits (hmint'.imp fun _ hm => hm.mono h₁) _ (by decide)
  have hwrite := withMode_orderly .writeEnabled
    (F := fun _ t => Trace.Wrote (t.drop tr.length) key) hl₁ hmode (fun _ _ => trivial)
    (fun _ s t hst h i => mem_drop_mono (h i) hst)
    fun t ht hl => writeRecord_orderly hl (hmint'.imp fun _ hm => hm.mono (h₁.trans ht))
      (h₁.trans ht).length_le
  refine .bind (call_orderly hwrite) fun _ t₂ h₂ hl₂ hwrote => ?_
  have hlen : (List.ofFn (UicrRecord.encode key)).length = 9 := List.length_ofFn
  have hverify := findMismatch_orderly uicrCustomer (List.ofFn (UicrRecord.encode key)) hl₂ le_rfl (by rw [List.ofFn_succ]; nofun)
    (by rw [hlen]; decide) (fun _ _ => trivial)
  refine .bind (call_orderly hverify) fun mismatch t₃ h₃ hl₃ hread => ?_
  cases mismatch with
  | some mismatch => exact .error hl₃
  | none =>
    obtain ⟨buf, hmem, hbuf⟩ := hread rfl
    rw [hlen] at hmem
    have htrace : tr ++ t₂.drop tr.length ++ t₃.drop t₂.length = t₃ := by
      rw [List.prefix_iff_eq_append.mp (h₁.trans h₂), List.prefix_iff_eq_append.mp h₃]
    exact .ok hl₃ ⟨tr, t₂.drop tr.length, t₃.drop t₂.length, htrace.symm ▸ List.prefix_refl t₃, hmint,
      hwrote, buf, hmem, hbuf⟩

theorem replaceRecord_orderly (record : RecordHeader)
    (htr : Lawful (Trace.Allows assumeYes registered) tr)
    (hmint : ∃ response, tr.Minted response ∧ DeviceKey.fromHex response.key = .ok key) :
    Orderly (Trace.Allows assumeYes registered) (onProbe (replaceRecord record key)).run
      (fun _ t => Trace.Installed t key) tr := by
  rw [onProbe_replaceRecord]
  cases record.isBlank with
  | true => exact call_orderly (writeUicrRecord_orderly htr hmint)
  | false =>
    refine .bind (call_orderly (eraseUicrRecord_orderly htr (hmint.imp fun _ h => h.1)))
      fun _ t ht hl _ => ?_
    exact call_orderly (writeUicrRecord_orderly hl (hmint.imp fun _ h => ⟨h.1.mono ht, h.2⟩))

/-- The reset, and the report on the boot after it. -/
theorem boot_orderly (firmware : Option Artifact) (logs : Nat)
    (htr : Lawful (Trace.Allows assumeYes registered) tr) :
    Orderly (Trace.Allows assumeYes registered) (do
      call (Chip.reset).run .probe
      if let some artifact := firmware then
        reportBoot artifact logs : ToolM Anyhow Unit).run (fun _ _ => True) tr := by
  refine issues_orderly (.bind (.call (.command fun _ _ => trivial)) fun _ => ?_) htr
  cases firmware with
  | none => trivial
  | some artifact =>
    exact reportBoot_issues (fun _ _ => trivial) (fun _ _ _ => trivial) (fun _ _ => trivial) artifact
      (fun _ _ => trivial) logs

theorem flashImage_orderly (artifact : Artifact)
    (htr : Lawful (Trace.Allows assumeYes registered) tr) (hkey : tr.Installed key) :
    Orderly (Trace.Allows assumeYes registered) (flashImage artifact).run
      (fun _ t => Trace.Flashed t artifact) tr := by
  have hdownload : ∀ t, tr <+: t → Lawful (Trace.Allows assumeYes registered) t →
      Orderly (Trace.Allows assumeYes registered) (command (.downloadFile artifact))
        (fun _ t => Trace.Flashed t artifact) t := by
    intro t ht hl
    refine command_orderly (.downloadFile artifact) (h := id) hl ⟨key, hkey.mono ht⟩ fun answer a ha => ?_
    obtain rfl : answer = .ok () := ha
    exact ⟨t, _, List.prefix_rfl, ⟨key, hkey.mono ht⟩, List.mem_singleton.mpr rfl⟩
  refine call_orderly ?_
  rw [Chip.flash]
  by_cases h : 0 < artifact.appStart
  · simp only [h, if_true]
    refine .bind (issues_orderly (.call (.command fun _ _ => trivial)) htr) fun _ t₁ h₁ hl₁ _ => ?_
    refine .bind (issues_orderly (.call (.command fun _ _ => trivial)) hl₁) fun beneath t₂ h₂ hl₂ _ => ?_
    by_cases hb : beneath = erased
    · simp only [hb, if_true]
      exact .error hl₂
    · simp only [hb, if_false]
      exact hdownload t₂ (h₁.trans h₂) hl₂
  · simp only [h, if_false]
    exact hdownload tr List.prefix_rfl htr

theorem eraseStorage_orderly {artifact : Artifact} (start stop : Nat)
    (htr : Lawful (Trace.Allows assumeYes registered) tr) (hmint : ∃ response, tr.Minted response)
    (hflash : tr.Flashed artifact) :
    Orderly (Trace.Allows assumeYes registered) (Chip.eraseStorage start stop).run
      (fun _ _ => True) tr := by
  have hmode : ∀ mode : NvmcMode, Permitted (Trace.Allows assumeYes registered) tr
      (.writeWord32 nvmcConfig mode.word) := fun _ => Trace.Minted.permits hmint _ (by decide)
  have hpage : ∀ word, Permitted (Trace.Allows assumeYes registered) tr
      (.writeWord32 nvmcErasePage word) :=
    fun _ t ht => ⟨hmint.imp fun _ hm => hm.mono ht, fun _ => ⟨artifact, hflash.mono ht⟩⟩
  exact issues_orderly (eraseStorage_issues hmode (fun page _ => hpage (BitVec.ofNat 32 page))
    (fun _ _ => trivial) (fun _ _ => trivial) (fun _ _ => trivial) (fun _ _ _ _ => trivial)) htr

theorem installFirmware_orderly (firmware : Option Artifact) (logs : Nat)
    (htr : Lawful (Trace.Allows assumeYes registered) tr) (hkey : tr.Installed key) :
    Orderly (Trace.Allows assumeYes registered) (installFirmware firmware logs).run
      (fun _ _ => True) tr := by
  cases firmware with
  | none => exact boot_orderly none logs htr
  | some artifact =>
    obtain ⟨id, name, appStart, storage⟩ := artifact
    refine .bind (flashImage_orderly _ htr hkey) fun _ t ht hl hflash => ?_
    cases storage with
    | none => exact boot_orderly (some _) logs hl
    | some range =>
      have hmint : ∃ response, Trace.Minted t response := (hkey.mono ht).minted
      exact .bind (call_orderly (eraseStorage_orderly _ _ hl hmint hflash))
        fun _ u _ hu _ => boot_orderly (some _) logs hu

theorem installKey_orderly (record : RecordHeader) (response : DeviceKeyResponse)
    (firmware : Option Artifact) (logs : Nat) (retryCommand : String)
    (htr : Lawful (Trace.Allows assumeYes registered) tr) (hmint : tr.Minted response) :
    Orderly (Trace.Allows assumeYes registered)
      (onProbe (installKey record response firmware logs retryCommand)).run (fun _ _ => True) tr := by
  cases hhex : DeviceKey.fromHex response.key with
  | error e =>
    rw [onProbe_installKey_error hhex]
    exact .error htr
  | ok key =>
    rw [onProbe_installKey_ok hhex, install, onProbe_bind, onProbe_installFirmware]
    exact call_orderly (.bind (replaceRecord_orderly record htr ⟨response, hmint, hhex⟩)
      fun _ t _ hl hkey => installFirmware_orderly firmware logs hl hkey)

end Minted

/-! ### Up to the mint -/

section BeforeMint

variable {assumeYes registered : Bool} {tr : Trace}

theorem ask_orderly (htr : Lawful (Trace.Allows assumeYes registered) tr) :
    Orderly (Trace.Allows assumeYes registered) (Confirm.ask assumeYes).run (fun r t =>
      (r = none → assumeYes = true) ∧ ∀ text, r = some text →
        ∃ answer : String, ⟨.readLine, .ok answer⟩ ∈ t ∧ text = trim answer.toList) tr := by
  rw [Confirm.ask]
  have hterminal : Orderly (Trace.Allows assumeYes registered)
      (ExceptT.lift (ε := ConfirmError) (command .stdinIsTerminal)).run (fun _ _ => True) tr :=
    command_orderly .stdinIsTerminal htr trivial fun _ _ _ => trivial
  refine .bind hterminal fun tty t _ hl _ => ?_
  cases hpolicy : Confirm.policy assumeYes tty with
  | granted =>
    have hyes : assumeYes = true := by
      cases assumeYes
      · cases tty <;> cases hpolicy
      · rfl
    exact .ok hl ⟨fun _ => hyes, by rintro _ ⟨⟩⟩
  | refuse => exact .error hl
  | ask =>
    refine .bind (issues_orderly (.call (.command fun _ _ => trivial)) hl) fun _ u _ hu _ => ?_
    have hread : Orderly (Trace.Allows assumeYes registered) (command .readLine)
        (fun answer t => ⟨.readLine, .ok answer⟩ ∈ t) u := by
      refine command_orderly .readLine (h := id) hu trivial fun answer a ha => ?_
      obtain rfl : answer = .ok a := ha
      exact List.mem_append_right _ (List.mem_singleton.mpr rfl)
    refine .bind (call_orderly hread) fun answer v _ hv hmem => ?_
    exact .ok hv ⟨by rintro ⟨⟩, fun text htext => ⟨answer, hmem, (Option.some.inj htext).symm⟩⟩

/-- Both questions go on only with consent. -/
theorem consent_orderly (decide : Text → Except ConfirmError Unit)
    (htr : Lawful (Trace.Allows assumeYes registered) tr) :
    Orderly (Trace.Allows assumeYes registered) (do
      match ← Confirm.ask assumeYes with
      | none => return
      | some answer => ofExcept (decide answer) id : ToolM ConfirmError Unit).run
      (fun _ t => Trace.Consented t assumeYes decide) tr := by
  refine .bind (ask_orderly htr) fun answer t _ hl ⟨hnone, hsome⟩ => ?_
  cases answer with
  | none => exact .ok hl (Or.inl (hnone rfl))
  | some text =>
    obtain ⟨answer, hmem, rfl⟩ := hsome text rfl
    exact (ofExcept_orderly hl).mono fun _ u hu hok => Or.inr ⟨answer, hu.subset hmem, hok⟩

theorem confirmRecord_orderly {record : RecordHeader} (action : Action)
    (htr : Lawful (Trace.Allows assumeYes registered) tr)
    (hrecord : ∃ word, ⟨.readWord32 uicrCustomer, .ok word⟩ ∈ tr ∧
      record = UicrRecord.decodeHeader word) :
    Orderly (Trace.Allows assumeYes registered) (confirmRecord record action assumeYes).run
      (fun _ t => Trace.MayReplace t assumeYes) tr := by
  have hasked : Orderly (Trace.Allows assumeYes registered) (Confirm.yesNo assumeYes).run
      (fun _ t => Trace.MayReplace t assumeYes) tr :=
    (consent_orderly Confirm.decideYesNo htr).mono fun _ _ _ h => Or.inr h
  cases record with
  | blank =>
    obtain ⟨word, hmem, hword⟩ := hrecord
    have hblank : (UicrRecord.decodeHeader word).isBlank = true := by rw [← hword]; rfl
    rw [UicrRecord.isBlank_decodeHeader] at hblank
    subst hblank
    exact .ok htr (Or.inl hmem)
  | malformed err => exact hasked
  | present => exact hasked

theorem checkAuthBeforeUnlock_orderly (unlock : Bool)
    (htr : Lawful (Trace.Allows assumeYes registered) tr) :
    Orderly (Trace.Allows assumeYes registered) (checkAuthBeforeUnlock unlock).run
      (fun _ t => unlock = true → ⟨.checkAuth, .ok ()⟩ ∈ t) tr := by
  cases unlock with
  | false => exact .ok htr nofun
  | true =>
    refine call_orderly (command_orderly .checkAuth (h := id) htr trivial fun answer a ha _ => ?_)
    obtain rfl : answer = .ok () := ha
    exact List.mem_append_right _ (List.mem_singleton.mpr rfl)

theorem connect_orderly (serial : Option String) (unlock : Bool)
    (htr : Lawful (Trace.Allows assumeYes registered) tr)
    (hauth : unlock = true → ⟨.checkAuth, .ok ()⟩ ∈ tr) :
    Orderly (Trace.Allows assumeYes registered) (connect serial unlock assumeYes).run
      (fun _ _ => True) tr := by
  rw [connect]
  have hfound : Issues (Permitted (Trace.Allows assumeYes registered) tr) (Chip.connect serial).run :=
    connect_issues (fun _ _ => trivial) (by rintro _ _ _ ⟨⟩) serial
  refine .bind (issues_orderly (.call hfound) htr) fun connection t ht hl _ => ?_
  cases connection with
  | attached =>
    cases unlock with
    | false => exact .ok hl trivial
    | true => exact .error hl
  | locked probe =>
    cases unlock with
    | false => exact .error hl
    | true =>
      have htyped := consent_orderly (Confirm.decideTyped · "ERASE".toList) hl
      refine .bind (call_orderly htyped) fun _ u hu hlu hconsent => ?_
      have hunlock : Permitted (Trace.Allows assumeYes registered) u (.attach probe true) :=
        fun v hv _ => ⟨(ht.trans (hu.trans hv)).subset (hauth rfl), hconsent.mono hv⟩
      exact issues_orderly (.call (.call (.command hunlock))) hlu

theorem readState_orderly (htr : Lawful (Trace.Allows assumeYes registered) tr) :
    Orderly (Trace.Allows assumeYes registered) (Chip.readState).run (fun state t =>
      ∃ word, ⟨.readWord32 uicrCustomer, .ok word⟩ ∈ t ∧
        state.record = UicrRecord.decodeHeader word) tr := by
  refine .bind (issues_orderly (.call (.command fun _ _ => trivial)) htr) fun _ t _ hl _ => ?_
  have hheader : Orderly (Trace.Allows assumeYes registered) (command (.readWord32 uicrCustomer))
      (fun word t => ⟨.readWord32 uicrCustomer, .ok word⟩ ∈ t) t := by
    refine command_orderly (.readWord32 uicrCustomer) (h := id) hl trivial fun answer a ha => ?_
    obtain rfl : answer = .ok a := ha
    exact List.mem_append_right _ (List.mem_singleton.mpr rfl)
  have hrecord : Orderly (Trace.Allows assumeYes registered) (Chip.readUicrHeader).run
      (fun record t => ∃ word, ⟨.readWord32 uicrCustomer, .ok word⟩ ∈ t ∧
        record = UicrRecord.decodeHeader word) t :=
    .bind hheader fun word u _ hu hmem => .ok hu ⟨word, hmem, rfl⟩
  refine .bind hrecord fun record u _ hu ⟨word, hmem, hword⟩ => ?_
  have haddr : Orderly (Trace.Allows assumeYes registered) (Chip.readDeviceAddr).run
      (fun _ _ => True) u :=
    issues_orderly (.bind (.command fun _ _ => trivial) fun _ => trivial) hu
  exact .bind haddr fun deviceAddr v hv hlv _ => .ok hlv ⟨word, hv.subset hmem, hword⟩

/-- What `lookUp` returns was read from the board and from the registry. -/
theorem lookUp_orderly (args : Args) (htr : Lawful (Trace.Allows args.assumeYes registered) tr) :
    Orderly (Trace.Allows args.assumeYes registered) (lookUp args).run (fun r t =>
      (∃ word, ⟨.readWord32 uicrCustomer, .ok word⟩ ∈ t ∧
        r.2.1.record = UicrRecord.decodeHeader word) ∧
      ⟨.apiDevice r.2.1.deviceAddr, .ok r.2.2⟩ ∈ t) tr := by
  rw [lookUp]
  have hfirmware : Issues (Permitted (Trace.Allows args.assumeYes registered) tr)
      (optionalFirmware args.firmware).run := by
    cases args.firmware with
    | none => trivial
    | some name => exact .bind (.call (.command fun _ _ => trivial)) fun _ => trivial
  refine .bind (issues_orderly hfirmware htr) fun firmware t₁ _ hl₁ _ => ?_
  refine .bind (issues_orderly (.call (.command fun _ _ => trivial)) hl₁) fun _ t₂ _ hl₂ _ => ?_
  refine .bind (checkAuthBeforeUnlock_orderly _ hl₂) fun _ t₃ _ hl₃ hauth => ?_
  refine .bind (connect_orderly _ _ hl₃ hauth) fun _ t₄ _ hl₄ _ => ?_
  refine .bind (call_orderly (readState_orderly hl₄)) fun state t₅ _ hl₅ hheader => ?_
  obtain ⟨word, hmem, hword⟩ := hheader
  have hdevice : Orderly (Trace.Allows args.assumeYes registered)
      (command (.apiDevice state.deviceAddr))
      (fun found t => ⟨.apiDevice state.deviceAddr, .ok found⟩ ∈ t) t₅ := by
    refine command_orderly (.apiDevice state.deviceAddr) (h := id) hl₅ trivial fun answer a ha => ?_
    obtain rfl : answer = .ok a := ha
    exact List.mem_append_right _ (List.mem_singleton.mpr rfl)
  refine .bind (call_orderly hdevice) fun found t₆ h₆ hl₆ hfound => ?_
  exact .ok hl₆ ⟨⟨word, h₆.subset hmem, hword⟩, hfound⟩

theorem mintKey_orderly (deviceAddr : DeviceAddr) (epochBefore : Option Timestamp)
    (retryCommand : String)
    {request : Prog ToolCmd ToolCmd.Answer (Except ApiClientError DeviceKeyResponse)}
    (hrequest : Orderly (Trace.Allows assumeYes registered) request
      (fun response t => Trace.Minted t response) tr) :
    Orderly (Trace.Allows assumeYes registered)
      (mintKey deviceAddr epochBefore retryCommand request).run
      (fun response t => Trace.Minted t response) tr := by
  rw [mintKey_run]
  apply Safe.bind
  refine (Safe.result hrequest).mono (fun _ h => h) ?_
  rintro (err | response) t ⟨hl, hpre, hmint⟩
  · rw [afterPost]
    cases err.mayHaveCommitted with
    | false => exact ⟨hl, hpre, nofun⟩
    | true =>
      refine ⟨hl, fun outcome u hu => ?_⟩
      cases hu
      have hdevice : Trace.Allows assumeYes registered t (.apiDevice deviceAddr) := trivial
      exact ⟨hl.snoc hdevice outcome, hpre.trans (List.prefix_append _ _), nofun⟩
  · exact ⟨hl, hpre, fun r hr => hmint r (congrArg Except.ok (Except.ok.inj hr))⟩

end BeforeMint

/-! ### The commands on the probe -/

theorem looks_quiet : Looks ToolCmd.Quiet where
  listAll := trivial
  attach _ _ := trivial
  openCore := trivial
  readWord32 _ := trivial
  read32 _ _ := trivial
  chooseFirmware _ := trivial
  resolveClient := trivial
  checkAuth := trivial
  apiDevice _ := trivial
  stdinIsTerminal := trivial
  stderrLine := trivial
  readLine := trivial

theorem onProbe_quiet {ε α : Type} {f : ToolM ε α} (h : Issues ToolCmd.Quiet f.run) : onProbe f = f :=
  h.expand fun _ hc => record_of_quiet hc

section Probe

variable {args : Args} {firmware : Option Artifact} {state : ChipState} {action : Action}
  {epochBefore : Option Timestamp} {retryCommand : String}
  {request : Prog ToolCmd ToolCmd.Answer (Except ApiClientError DeviceKeyResponse)}

theorem mintKey_quiet {deviceAddr : DeviceAddr} (h : Issues ToolCmd.Quiet request) :
    Issues ToolCmd.Quiet (mintKey deviceAddr epochBefore retryCommand request).run := by
  rw [mintKey_run]
  refine Prog.Only.bind h fun r _ => ?_
  cases r with
  | ok response => trivial
  | error err =>
    rw [afterPost]
    cases err.mayHaveCommitted with
    | false => trivial
    | true => exact ⟨trivial, fun _ => trivial⟩

theorem onProbe_mintAndInstall (h : Issues ToolCmd.Quiet request) :
    onProbe (mintAndInstall args firmware state action epochBefore retryCommand request) = (do
      call (confirmRecord state.record action args.assumeYes).run .confirm
      call (Chip.halt).run .probe
      let response ← mintKey state.deviceAddr epochBefore retryCommand request
      onProbe (installKey state.record response firmware args.logs retryCommand)) := by
  have hconfirm : Issues ToolCmd.Quiet
      (call (ε := Anyhow) (confirmRecord state.record action args.assumeYes).run .confirm).run :=
    .call (looks_quiet.confirmRecord _ _ _)
  have hhalt : Issues ToolCmd.Quiet (call (ε := Anyhow) (Chip.halt).run .probe).run :=
    .call (.command trivial)
  rw [mintAndInstall]
  simp only [onProbe_bind, onProbe_quiet hconfirm, onProbe_quiet hhalt, onProbe_quiet (mintKey_quiet h)]

theorem mintAndInstall_orderly {registered : Bool} {tr : Trace}
    (htr : Lawful (Trace.Allows args.assumeYes registered) tr)
    (hrecord : ∃ word, ⟨.readWord32 uicrCustomer, .ok word⟩ ∈ tr ∧
      state.record = UicrRecord.decodeHeader word)
    (hquiet : Issues ToolCmd.Quiet request)
    (hrequest : ∀ t : Trace, tr <+: t → Lawful (Trace.Allows args.assumeYes registered) t →
      t.MayReplace args.assumeYes → Orderly (Trace.Allows args.assumeYes registered) request
        (fun response t => Trace.Minted t response) t) :
    Orderly (Trace.Allows args.assumeYes registered)
      (onProbe (mintAndInstall args firmware state action epochBefore retryCommand request)).run
      (fun _ _ => True) tr := by
  rw [onProbe_mintAndInstall hquiet]
  refine .bind (call_orderly (confirmRecord_orderly action htr hrecord)) fun _ t ht hl hmay => ?_
  refine .bind (issues_orderly (.call (.command fun _ _ => trivial)) hl) fun _ u hu hlu _ => ?_
  have hmint := mintKey_orderly state.deviceAddr epochBefore retryCommand
    (hrequest u (ht.trans hu) hlu (hmay.mono hu))
  exact .bind hmint fun response v _ hlv hresponse => installKey_orderly _ _ _ _ _ hlv hresponse

end Probe

theorem provision_orderly (args : Args) (name : String) :
    Orderly (Trace.Allows args.assumeYes false) (onProbe (provision args name)).run
      (fun _ _ => True) [] := by
  rw [provision, onProbe_bind, onProbe_quiet (looks_quiet.lookUp args)]
  refine .bind (lookUp_orderly args lawful_nil) fun (firmware, state, found) t ht hl ⟨hrecord, hfound⟩ => ?_
  cases found with
  | some existing => exact .error hl
  | none =>
    refine mintAndInstall_orderly hl hrecord (.command trivial) fun u hu hlu hmay => ?_
    refine command_orderly (.apiProvision ⟨name, state.deviceAddr⟩) (h := id) hlu
      ⟨rfl, hmay, none, hu.subset hfound, rfl⟩ fun answer a ha => ?_
    obtain rfl : answer = .ok a := ha
    exact Or.inl ⟨_, List.mem_append_right _ (List.mem_singleton.mpr rfl)⟩

theorem rotateKey_orderly (args : Args) :
    Orderly (Trace.Allows args.assumeYes true) (onProbe (rotateKey args)).run
      (fun _ _ => True) [] := by
  rw [rotateKey, onProbe_bind, onProbe_quiet (looks_quiet.lookUp args)]
  refine .bind (lookUp_orderly args lawful_nil) fun (firmware, state, found) t ht hl ⟨hrecord, hfound⟩ => ?_
  cases found with
  | none => exact .error hl
  | some existing =>
    have hmint : ∀ u, t <+: u → Lawful (Trace.Allows args.assumeYes true) u →
        Orderly (Trace.Allows args.assumeYes true) (onProbe (mintAndInstall args firmware state
          (.rotate existing.name) (some existing.keyValidFrom) "rotate"
          (command (.apiRotateKey state.deviceAddr)))).run (fun _ _ => True) u := by
      intro u hu hlu
      obtain ⟨word, hmem, hword⟩ := hrecord
      refine mintAndInstall_orderly hlu ⟨word, hu.subset hmem, hword⟩ (.command trivial)
        fun v hv hlv hmay => ?_
      refine command_orderly (.apiRotateKey state.deviceAddr) (h := id) hlv
        ⟨rfl, hmay, some existing, (hu.trans hv).subset hfound, rfl⟩ fun answer a ha => ?_
      obtain rfl : answer = .ok a := ha
      exact Or.inr ⟨_, List.mem_append_right _ (List.mem_singleton.mpr rfl)⟩
    have hline : Issues ToolCmd.Quiet stderrLine.run := .call (.command trivial)
    dsimp only
    by_cases h : existing.keyStatus = .kekUnavailable
    · rw [if_pos h, onProbe_bind, onProbe_quiet hline]
      exact .bind (issues_orderly (.call (.command fun _ _ => trivial)) hl)
        fun _ u hu hlu _ => hmint u hu hlu
    · rw [if_neg h]
      exact hmint t List.prefix_rfl hl

theorem inOrder_of_orderly {assumeYes registered : Bool} {f : ToolM Anyhow Unit}
    (h : Orderly (Trace.Allows assumeYes registered) (onProbe f).run (fun _ _ => True) []) :
    InOrder assumeYes registered f :=
  fun _ _ hs => (Safe.steps h hs).now

theorem destructive_in_order (args : Args) (name : String) :
    InOrder args.assumeYes false (provision args name) ∧ InOrder args.assumeYes true (rotateKey args) :=
  ⟨inOrder_of_orderly (provision_orderly args name), inOrder_of_orderly (rotateKey_orderly args)⟩

/-- Surroundings that agree to everything, around a blank board. -/
def willing : (c : ToolCmd) → c.Answer
  | .listAll => [⟨"probe", none⟩]
  | .read32 address len =>
    if address = uicrCustomer then
      .ok ((DeviceKey.fromHex firstKey.key).toOption.elim [] fun k => List.ofFn (UicrRecord.encode k))
    else .ok (List.replicate len erased)
  | .chooseFirmware _ => .ok ⟨"id", "image", 0, some (0, pageSize)⟩
  | .resolveClient => .ok "api"
  | .apiDevice _ => .ok none
  | .apiProvision _ => .ok firstKey
  | c => (Bench.blank.answer true none c).1

def willingly (tr : Trace) (c : ToolCmd) : c.Answer × Trace := (willing c, tr ++ [⟨c, willing c⟩])

def erasesPage : ToolCmd → Bool
  | .writeWord32 address _ => address == nvmcErasePage
  | _ => false

def willingRun : Except Anyhow Unit × Trace :=
  (onProbe (provision ⟨some "image", none, 0, true, false⟩ "Hall")).run.run willingly []

/-- A run that erases the counter and succeeds. -/
theorem destructive_in_order_erasing : willingRun.1.toBool = true ∧
    willingRun.2.any (erasesPage ·.1) = true ∧ Lawful (Trace.Allows true false) willingRun.2 := by
  have hrun := Prog.run_steps (D := history) (f := willingly) (fun _ _ => rfl)
    (onProbe (provision ⟨some "image", none, 0, true, false⟩ "Hall")).run []
  refine ⟨?_, ?_, (destructive_in_order ⟨some "image", none, 0, true, false⟩ "Hall").1 _ _ hrun⟩
  · decide +kernel
  · decide +kernel

end Homescope
