import Homescope.RecordSpec
import Homescope.ToolOnly

/-! What `install_key` leaves in the UICR record: the record methods do all of
it, and nothing after them touches the record. -/

namespace Homescope

open Commands ToolM

variable {faults allowed : Prop} {key : Option DeviceKey} {I : Bench → Prop} {s : Bench}

/-- A command that leaves the UICR record alone. -/
def ToolCmd.Quiet : ToolCmd → Prop
  | .writeWord32 address _ => address = nvmcConfig ∨ address = nvmcErasePage
  | .eraseUicrRecord => False
  | .writeUicrRecord _ => False
  | _ => True

theorem writeWord32_quiet {b : Board} {address : Nat} {word : Word}
    (h : address = nvmcConfig ∨ address = nvmcErasePage) :
    (b.writeWord32 address word).memory.record = b.memory.record := by
  rcases h with rfl | rfl
  · rfl
  · rw [Board.writeWord32, if_neg (by decide), if_neg (by decide), if_pos rfl]
    by_cases h : b.config = NvmcMode.eraseEnabled.word ∧ word.toNat < flashStop
    · rw [if_pos h]
      funext i
      have hlt := h.2
      apply Memory.erase_outside
      unfold uicrCustomer flashStop pageSize at *
      omega
    · rw [if_neg h]

theorem benchStep.alike_of_quiet {c : ToolCmd} {a : c.Answer} {t : Bench}
    (h : benchStep faults allowed key s c a t) (hc : c.Quiet) : s.Alike t := by
  apply h.writer_eq
  have hb := h.1
  cases c with
  | writeWord32 address word =>
    rcases h.write_cases with ⟨rfl, -⟩ | ⟨rfl, -⟩
    · rfl
    · exact writeWord32_quiet hc
  | readWord32 address => rw [Bench.record, hb.1]; rfl
  | read32 address len => rw [Bench.record, hb.1]; rfl
  | downloadFile artifact => exact hb
  | halt => exact congrArg Memory.record hb
  | reset => exact congrArg Memory.record hb
  | eraseUicrRecord => exact hc.elim
  | writeUicrRecord key => exact hc.elim
  | _ => exact congrArg (fun b : Board => b.memory.record) hb

/-! ### What comes after the record is written -/

abbrev QuietOnly {α : Type} (p : Prog ToolCmd ToolCmd.Answer α) : Prop :=
  p.Only ToolCmd.Quiet (fun _ => True)

theorem flash_quiet (artifact : Artifact) : QuietOnly (Chip.flash artifact).run := by
  rw [Chip.flash]
  by_cases h : 0 < artifact.appStart
  · simp only [h, if_true]
    refine Issues.bind (.call (.command trivial)) fun _ => ?_
    refine Issues.bind (.call (.command trivial)) fun beneath => ?_
    by_cases hb : beneath = erased
    · simp only [hb, if_true]
      trivial
    · simp only [hb, if_false]
      exact Issues.command trivial
  · simp only [h, if_false]
    exact Issues.command trivial

theorem eraseStorage_quiet (start stop : Nat) : QuietOnly (Chip.eraseStorage start stop).run :=
  eraseStorage_issues (fun _ => .inl rfl) (fun _ _ => .inr rfl) trivial trivial trivial
    fun _ _ => trivial

/-- A result that the record methods did not fail. -/
def NotWriteRecord {α : Type} (r : Except Anyhow α) : Prop := ∀ e, r ≠ .error (.writeRecord e)

theorem notWriteRecord_call {α ε' : Type} {p : Prog ToolCmd ToolCmd.Answer (Except ε' α)}
    {wrap : ε' → Anyhow} (h : QuietOnly p) (hw : ∀ e e', wrap e ≠ .writeRecord e') :
    (call p wrap).run.Only ToolCmd.Quiet NotWriteRecord := by
  refine call_only (h.mono fun r _ e' he => ?_)
  cases r with
  | ok a => cases he
  | error e => exact hw e e' (Except.error.inj he)

theorem notWriteRecord_bind {α β : Type} {x : ToolM Anyhow α} {f : α → ToolM Anyhow β}
    (h : x.run.Only ToolCmd.Quiet NotWriteRecord)
    (hf : ∀ a, (f a).run.Only ToolCmd.Quiet NotWriteRecord) :
    (x >>= f).run.Only ToolCmd.Quiet NotWriteRecord := by
  apply Prog.Only.bindExcept
  refine h.mono fun r hr => ?_
  cases r with
  | ok a => exact hf a
  | error e => exact fun e' he => hr e' (congrArg Except.error (Except.error.inj he))

theorem notWriteRecord_ok : (pure () : ToolM Anyhow Unit).run.Only ToolCmd.Quiet NotWriteRecord :=
  fun _ h => nomatch h

theorem reportBoot_only (artifact : Artifact) (logs : Nat) :
    (Provision.reportBoot artifact logs).run.Only ToolCmd.Quiet NotWriteRecord := by
  have hline : Provision.stderrLine.run.Only ToolCmd.Quiet NotWriteRecord :=
    notWriteRecord_call (Issues.command trivial) (fun _ _ h => nomatch h)
  have hattempt : ∀ {ε' α : Type} {p : Prog ToolCmd ToolCmd.Answer (Except ε' α)}, QuietOnly p →
      (attempt p : ToolM Anyhow _).run.Only ToolCmd.Quiet NotWriteRecord :=
    fun h => attempt_only (h.mono fun _ _ _ he => nomatch he)
  rw [Provision.reportBoot]
  by_cases h : logs = 0
  · simp only [h, if_true]
    exact notWriteRecord_ok
  · simp only [h, if_false]
    refine notWriteRecord_bind (notWriteRecord_call (Issues.command trivial)
      (fun _ _ h => nomatch h)) fun _ => notWriteRecord_bind hline fun _ => ?_
    refine notWriteRecord_bind (hattempt (Issues.command trivial)) ?_
    rintro (e | summary)
    · exact hline
    · by_cases hs : summary.frames = 0
      · simp only [hs, if_true]
        exact notWriteRecord_bind (hattempt (Issues.command trivial)) fun _ => hline
      · simp only [hs, if_false]
        split_ifs
        · exact hline
        · exact notWriteRecord_ok

theorem installFirmware_only (firmware : Option Artifact) (logs : Nat) :
    (Provision.installFirmware firmware logs).run.Only ToolCmd.Quiet NotWriteRecord := by
  have hreset : (call (Chip.reset).run Anyhow.probe).run.Only ToolCmd.Quiet NotWriteRecord :=
    notWriteRecord_call (Issues.command trivial) (fun _ _ h => nomatch h)
  cases firmware with
  | none => exact notWriteRecord_bind hreset fun _ => notWriteRecord_ok
  | some artifact =>
    obtain ⟨id, name, appStart, storage⟩ := artifact
    refine notWriteRecord_bind (notWriteRecord_call (flash_quiet _) (fun _ _ h => nomatch h)) ?_
    intro _
    cases storage with
    | none => exact notWriteRecord_bind hreset fun _ => reportBoot_only _ logs
    | some range =>
      refine notWriteRecord_bind (notWriteRecord_call (eraseStorage_quiet _ _)
        (fun _ _ h => nomatch h)) fun _ => ?_
      exact notWriteRecord_bind hreset fun _ => reportBoot_only _ logs

theorem record_of_quiet {c : ToolCmd} (hc : c.Quiet) : Chip.record c = Prog.perform c := by
  cases c <;> first | rfl | exact hc.elim

theorem onProbe_installFirmware (firmware : Option Artifact) (logs : Nat) :
    Provision.onProbe (Provision.installFirmware firmware logs) =
      Provision.installFirmware firmware logs :=
  (installFirmware_only firmware logs).expand (fun _ hc => record_of_quiet hc)

/-! ### The whole attempt -/

/-- The words that the new record is programmed over. -/
def oldWords (s : Bench) : RecordWords := fun i =>
  if (UicrRecord.decodeHeader (s.record 0)).isBlank then s.record i else erased

/-- How an attempt ends: the record is written over the old words, and it is
accepted exactly if it reads back as the key's, unless the probe failed. -/
def Ended (s : Bench) (faults allowed : Prop) (key : Option DeviceKey) (k : DeviceKey)
    (r : Except Anyhow Unit) (t : Bench) : Prop :=
  Written (oldWords s) allowed key k t ∧ (NotWriteRecord r ∧ t.record = UicrRecord.encode k ∨
    (∃ e, r = .error (.writeRecord e)) ∧ (faults ∨ t.record ≠ UicrRecord.encode k)) ∨ faults

theorem replaceRecord_safe {k : DeviceKey} (hI : ∀ s t : Bench, s.Alike t → I s → I t)
    (h0 : ∀ t : Bench, t.record 0 = erased → I t)
    (hw : ∀ t, Written (oldWords s) allowed key k t → I t) (hs : I s) :
    Safe (benchStep faults allowed key) I
      (Provision.onProbe (Provision.replaceRecord (UicrRecord.decodeHeader (s.record 0)) k)).run
      (fun r t => Ended s faults allowed key k r t ∧ (r = .ok () → t.record = UicrRecord.encode k))
      s := by
  have hwrite : ∀ s' : Bench, s'.record 0 = erased → (∀ i : Fin 8, s'.record i.succ = oldWords s i.succ) →
      Safe (benchStep faults allowed key) I
        (call (Chip.writeUicrRecord k).run Anyhow.writeRecord).run
        (fun r t => Ended s faults allowed key k r t ∧
          (r = .ok () → t.record = UicrRecord.encode k)) s' := by
    intro s' h hold
    have hold' : ∀ t, Written s'.record allowed key k t → Written (oldWords s) allowed key k t :=
      fun t ht => ⟨ht.header, fun i => hold i ▸ ht.words i, ht.writer, ht.allowed⟩
    apply call_safe
    refine (Chip.writeUicrRecord_safe hI h0 (fun t ht => hw t (hold' t ht)) h).mono (fun _ h => h) ?_
    rintro r t (⟨ht, ⟨rfl, hk⟩ | ⟨⟨e, rfl⟩, hne⟩⟩ | ⟨hf, e, rfl⟩)
    · exact ⟨Or.inl ⟨hold' t ht, Or.inl ⟨fun _ h => (nomatch h), hk⟩⟩, fun _ => hk⟩
    · exact ⟨Or.inl ⟨hold' t ht, Or.inr ⟨⟨e, rfl⟩, hne⟩⟩, fun h => (nomatch h)⟩
    · exact ⟨Or.inr hf, fun h => (nomatch h)⟩
  rw [Provision.onProbe_replaceRecord]
  by_cases hb : (UicrRecord.decodeHeader (s.record 0)).isBlank = true
  · simp only [hb, Bool.not_true, Bool.false_eq_true, if_false]
    refine hwrite s (UicrRecord.isBlank_decodeHeader.mp hb) fun i => ?_
    rw [oldWords, if_pos hb]
  · simp only [Bool.eq_false_of_not_eq_true hb, Bool.not_false, if_true]
    apply Safe.bindExcept
    apply call_safe
    refine (Chip.eraseUicrRecord_safe hI h0 hs).result.mono (fun _ h => h) ?_
    rintro r t ⟨ht, ⟨rfl, hall⟩ | ⟨hf, e, rfl⟩⟩
    · refine hwrite t (hall 0) fun i => ?_
      rw [hall, oldWords, if_neg hb]
    · exact ⟨ht, Or.inr hf, fun h => (nomatch h)⟩

theorem install_safe {k : DeviceKey} {firmware : Option Artifact} {logs : Nat}
    (hI : ∀ s t : Bench, s.Alike t → I s → I t) (h0 : ∀ t : Bench, t.record 0 = erased → I t)
    (hw : ∀ t, Written (oldWords s) allowed key k t → I t) (hs : I s) :
    Safe (benchStep faults allowed key) I
      (Provision.onProbe (Provision.install (UicrRecord.decodeHeader (s.record 0)) k firmware logs)).run
      (Ended s faults allowed key k) s := by
  rw [Provision.install, Provision.onProbe_bind]
  apply Safe.bindExcept
  refine (replaceRecord_safe hI h0 hw hs).result.mono (fun _ h => h) ?_
  rintro (e | u) t ⟨ht, hended, hk⟩
  · exact ⟨ht, hended⟩
  rw [onProbe_installFirmware]
  refine (Safe.ofOnly (I := fun t => I t ∧ (t.record = UicrRecord.encode k ∧
    (Written (oldWords s) allowed key k t ∨ faults))) (installFirmware_only firmware logs) ?_ ?_).mono
      (fun _ h => h.1) ?_
  · rintro t c a u hc hd ⟨hu, hrec, hwr⟩
    have halike := hd.alike_of_quiet hc
    exact ⟨hI t u halike hu, halike.1.trans hrec, hwr.imp_left fun hwr => hwr.alike halike⟩
  · refine ⟨ht, hk rfl, ?_⟩
    exact hended.imp_left And.left
  · rintro r u ⟨hr, -, hrec, hwr⟩
    rcases hwr with hwr | hf
    · exact Or.inl ⟨hwr, Or.inl ⟨hr, hrec⟩⟩
    · exact Or.inr hf

end Homescope
