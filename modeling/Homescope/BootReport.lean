import Homescope.CommandRuns
import Homescope.DestructiveOrder

/-! Whether the boot report can fail an installation. What the board is asked
to do ends with the reset; the report after it only reads the image and the
log, and tells the operator. -/

namespace Homescope

open Commands ToolM Provision

namespace BootReport

/-- The image flashed, the counter erased, and the reset. -/
def imageSteps (firmware : Option Artifact) : ToolM Anyhow Unit := do
  if let some artifact := firmware then
    flashImage artifact
    if let some (start, stop) := artifact.storage then
      call (Chip.eraseStorage start stop).run .eraseStorage
  call (Chip.reset).run .probe

/-- The steps of `install_key` on the board, the record's first. -/
def chipSteps (record : RecordHeader) (key : DeviceKey) (firmware : Option Artifact) :
    ToolM Anyhow Unit := do
  replaceRecord record key
  imageSteps firmware

/-- What is left of `install_key` once the board runs. -/
def report (firmware : Option Artifact) (logs : Nat) : ToolM Anyhow Unit :=
  match firmware with
  | some artifact => reportBoot artifact logs
  | none => pure ()

/-- The image could not be read again, or a line of the report not be written. -/
def Unreported (e : Σ c : ToolCmd, c.Answer) : Prop :=
  (∃ artifact error, e = ⟨.readImage artifact, .error error⟩) ∨
    ∃ error, e = ⟨.stderrLine, .error error⟩

theorem install_eq (record : RecordHeader) (key : DeviceKey) (firmware : Option Artifact)
    (logs : Nat) :
    install record key firmware logs = chipSteps record key firmware >>= fun _ =>
      report firmware logs := by
  rw [install, chipSteps, bindExcept_assoc]
  refine congrArg (replaceRecord record key >>= ·) (funext fun _ => ?_)
  cases firmware with
  | none => rfl
  | some artifact =>
    obtain ⟨id, name, appStart, storage⟩ := artifact
    cases storage with
    | none => exact (bindExcept_assoc _ _ _).symm
    | some range =>
      refine Eq.trans ?_ (bindExcept_assoc _ _ _).symm
      exact congrArg (flashImage _ >>= ·) (funext fun _ => (bindExcept_assoc _ _ _).symm)

theorem call_runs {ε ε' α : Type} {p : Prog ToolCmd ToolCmd.Answer (Except ε' α)} {wrap : ε' → ε}
    {tr : Trace} {r : Except ε α} (h : Runs (call p wrap).run tr r) :
    ∃ result, Runs p tr result ∧ r = result.mapError wrap := by
  obtain ⟨first, rest, result, rfl, hp, hrest⟩ := Runs.bind_inv (p := p) h
  obtain ⟨rfl, rfl⟩ := hrest.ret_inv
  exact ⟨result, (List.append_nil first).symm ▸ hp, rfl⟩

theorem call_failsBy {ε ε' α : Type} {bad : (Σ c : ToolCmd, c.Answer) → Prop}
    {p : Prog ToolCmd ToolCmd.Answer (Except ε' α)} {wrap : ε' → ε} (h : FailsBy bad (ExceptT.mk p)) :
    FailsBy bad (call p wrap) := by
  intro tr r hr
  obtain ⟨result, hp, rfl⟩ := call_runs hr
  rw [← h _ _ hp]
  cases result <;> simp [Except.mapError]

/-- A part whose answers are never bad and whose error is looked at. -/
theorem attempt_failsBy {ε ε' α : Type} {bad : (Σ c : ToolCmd, c.Answer) → Prop}
    {p : Prog ToolCmd ToolCmd.Answer (Except ε' α)} (h : Issues (fun c => ∀ a, ¬ bad ⟨c, a⟩) p) :
    FailsBy bad (attempt p : ToolM ε (Except ε' α)) := by
  intro tr r hr
  obtain ⟨first, rest, result, rfl, hp, hrest⟩ := Runs.bind_inv (p := p) hr
  obtain ⟨rfl, rfl⟩ := hrest.ret_inv
  have hgood := (hp.only h).1
  constructor
  · rintro ⟨e, he⟩
    cases he
  · rintro ⟨e, he, hbad⟩
    rw [List.append_nil] at he
    exact absurd hbad (hgood e he e.2)

/-- The report fails exactly on what it neither reads nor writes. -/
theorem reportBoot_failsBy (artifact : Artifact) (logs : Nat) :
    FailsBy Unreported (reportBoot artifact logs) := by
  have hline : FailsBy Unreported stderrLine := by
    refine call_failsBy (failsBy_command ToolCmd.stderrLine fun a => ?_)
    simp [Unreported]
  have himage : FailsBy Unreported (call (command (.readImage artifact)) .io : ToolM Anyhow Unit) := by
    refine call_failsBy (failsBy_command (ToolCmd.readImage artifact) fun a => ?_)
    simp [Unreported]
  rw [reportBoot]
  by_cases h : logs = 0
  · simp only [h, if_true]
    exact failsBy_pure ()
  · simp only [h, if_false]
    refine himage.bind fun _ => hline.bind fun _ => ?_
    refine (attempt_failsBy (.command (by simp [Unreported]))).bind ?_
    rintro (e | summary)
    · exact hline
    · by_cases hs : summary.frames = 0
      · simp only [hs, if_true]
        exact (attempt_failsBy (.command (by simp [Unreported]))).bind fun _ => hline
      · simp only [hs, if_false]
        split_ifs
        · exact hline
        · exact failsBy_pure ()

theorem report_failsBy (firmware : Option Artifact) (logs : Nat) :
    FailsBy Unreported (report firmware logs) := by
  cases firmware with
  | none => exact failsBy_pure ()
  | some artifact => exact reportBoot_failsBy artifact logs

/-! ### The steps on the board -/

/-- What is asked of the probe; a write goes to one of the `addresses`. -/
def Probes (addresses : Nat → Prop) : ToolCmd → Prop
  | .openCore => True
  | .readWord32 _ => True
  | .read32 _ _ => True
  | .writeWord32 address _ => addresses address
  | .flush => True
  | .pollReady => True
  | .downloadFile _ => True
  | .reset => True
  | _ => False

theorem Probes.reported {addresses : Nat → Prop} {c : ToolCmd} (h : Probes addresses c) (a : c.Answer) :
    ¬ Unreported ⟨c, a⟩ := by
  rintro (⟨artifact, error, he⟩ | ⟨error, he⟩)
  · cases he
    exact h
  · cases he
    exact h

theorem replaceRecord_probes (record : RecordHeader) (key : DeviceKey) :
    Issues (Probes fun _ => True) (onProbe (replaceRecord record key)).run := by
  have hmode : ∀ mode : NvmcMode, Probes (fun _ => True) (.writeWord32 nvmcConfig mode.word) :=
    fun _ => trivial
  have hread : ∀ address len, Probes (fun _ => True) (.read32 address len) := fun _ _ => trivial
  have hword : ∀ address word, Issues (Probes fun _ => True) (Nvmc.writeWord address word).run :=
    fun address word => .bind (.call (.command trivial)) fun _ => .command trivial
  have hwords : ∀ words address, Issues (Probes fun _ => True) (Nvmc.writeWords address words).run := by
    intro words
    induction words with
    | nil => exact fun _ => trivial
    | cons word words ih => exact fun address => .bind (hword address word) fun _ => ih _
  have herase : Issues (Probes fun _ => True) (Chip.eraseUicrRecord).run := by
    refine .bind (.call (.command trivial)) fun _ => ?_
    refine .bind (.call (withMode_issues hmode trivial (hword _ _))) fun _ => ?_
    refine .bind (.call (findMismatchIn_issues hread _ _)) fun mismatch => ?_
    cases mismatch <;> trivial
  have hkey : Issues (Probes fun _ => True) (Chip.writeUicrRecord key).run := by
    refine .bind (.call (.command trivial)) fun _ => ?_
    refine .bind (.call (withMode_issues hmode trivial
      (.bind (hwords _ _) fun _ => hword _ _))) fun _ => ?_
    refine .bind (.call (findMismatchIn_issues hread _ _)) fun mismatch => ?_
    cases mismatch <;> trivial
  rw [onProbe_replaceRecord]
  cases record.isBlank
  · exact .bind (.call herase) fun _ => .call hkey
  · exact .call hkey

/-- Next to the image only the controller's own registers are written. -/
def Controller (address : Nat) : Prop := address = nvmcConfig ∨ address = nvmcErasePage

theorem flash_probes (artifact : Artifact) :
    Issues (Probes Controller) (Chip.flash artifact).run := by
  rw [Chip.flash]
  by_cases h : 0 < artifact.appStart
  · simp only [h, if_true]
    refine .bind (.call (.command trivial)) fun _ => .bind (.call (.command trivial)) fun beneath => ?_
    by_cases hb : beneath = erased
    · simp only [hb, if_true]
      trivial
    · simp only [hb, if_false]
      exact .command trivial
  · simp only [h, if_false]
    exact .command trivial

theorem imageSteps_probes (firmware : Option Artifact) :
    Issues (Probes Controller) (imageSteps firmware).run := by
  have hreset : Issues (Probes Controller) (call (Chip.reset).run Anyhow.probe).run :=
    .call (.command trivial)
  cases firmware with
  | none => exact hreset
  | some artifact =>
    obtain ⟨id, name, appStart, storage⟩ := artifact
    refine .bind (.call (flash_probes _)) fun _ => ?_
    cases storage with
    | none => exact hreset
    | some range =>
      exact .bind (.call (eraseStorage_issues (fun _ => .inl rfl) (fun _ _ => .inr rfl) trivial trivial
        trivial fun _ _ => trivial)) fun _ => hreset

theorem Probes.quiet {c : ToolCmd} (h : Probes Controller c) : c.Quiet := by
  cases c <;> first | exact h | trivial

theorem onProbe_chipSteps (record : RecordHeader) (key : DeviceKey) (firmware : Option Artifact) :
    onProbe (chipSteps record key firmware) =
      onProbe (replaceRecord record key) >>= fun _ => imageSteps firmware := by
  have himage : onProbe (imageSteps firmware) = imageSteps firmware :=
    onProbe_quiet ((imageSteps_probes firmware).imp fun _ hc => hc.quiet)
  rw [chipSteps, onProbe_bind, himage]

theorem chipSteps_probes (record : RecordHeader) (key : DeviceKey) (firmware : Option Artifact) :
    Issues (Probes fun _ => True) (onProbe (chipSteps record key firmware)).run := by
  rw [onProbe_chipSteps]
  refine .bind (replaceRecord_probes record key) fun _ => ?_
  refine (imageSteps_probes firmware).imp fun c hc => ?_
  cases c <;> first | exact hc | trivial

theorem onProbe_install (record : RecordHeader) (key : DeviceKey) (firmware : Option Artifact)
    (logs : Nat) : onProbe (install record key firmware logs) =
      onProbe (chipSteps record key firmware) >>= fun _ => report firmware logs := by
  have hreport : onProbe (report firmware logs) = report firmware logs := by
    cases firmware with
    | none => rfl
    | some artifact => exact (reportBoot_only artifact logs).expand fun _ hc => record_of_quiet hc
  rw [install_eq, onProbe_bind, hreport]

/-! ### The installation -/

section Installation

variable {record : RecordHeader} {response : DeviceKeyResponse} {firmware : Option Artifact}
  {logs : Nat} {retryCommand : String} {tr : Trace} {r : Except Anyhow Unit}

/-- The run carried the steps on the board to their end, and this is what they
returned. -/
def StepsEnded (record : RecordHeader) (response : DeviceKeyResponse) (firmware : Option Artifact)
    (tr : Trace) (result : Except Anyhow Unit) : Prop :=
  ∃ key, DeviceKey.fromHex response.key = .ok key ∧ ∃ steps, steps <+: tr ∧
    Runs (onProbe (chipSteps record key firmware)).run steps result

/-- The report fails no installation: where the steps on the board succeeded so
does `install_key`, and its error means that one of them failed. -/
def ReportHarmless (record : RecordHeader) (response : DeviceKeyResponse)
    (firmware : Option Artifact) (retryCommand : String) (tr : Trace) (r : Except Anyhow Unit) :
    Prop :=
  (StepsEnded record response firmware tr (.ok ()) → r = .ok ()) ∧
    ∀ cause, r = .error (.installFailed response.deviceAddr response.name retryCommand cause) →
      ∃ e, StepsEnded record response firmware tr (.error e)

/-- The image was read and every line of the report written. -/
def Reported (tr : Trace) : Prop := ∀ e ∈ tr, ¬ Unreported e

/-- How an installation under a valid key ends: with the first step that failed,
or with the report. -/
theorem install_run {key : DeviceKey}
    (h : Runs (onProbe (install record key firmware logs)).run tr r) :
    (∃ e, Runs (onProbe (chipSteps record key firmware)).run tr (.error e) ∧ r = .error e ∧
      Reported tr) ∨
    ∃ steps rest, tr = steps ++ rest ∧ Runs (onProbe (chipSteps record key firmware)).run steps (.ok ()) ∧
      (r = .ok () ↔ Reported tr) := by
  have hquiet : ∀ steps result, Runs (onProbe (chipSteps record key firmware)).run steps result →
      Reported steps := fun steps result hrun e he =>
    ((hrun.only (chipSteps_probes record key firmware)).1 e he).reported e.2
  rw [onProbe_install] at h
  rcases h.bindExcept_inv with ⟨e, hrun, rfl⟩ | ⟨steps, rest, _, rfl, hrun, hreport⟩
  · exact .inl ⟨e, hrun, rfl, hquiet _ _ hrun⟩
  · refine .inr ⟨steps, rest, rfl, hrun, ?_⟩
    have hfails := report_failsBy firmware logs _ _ hreport
    have hsteps := hquiet _ _ hrun
    cases r with
    | ok u =>
      have hrest : ¬ ∃ e ∈ rest, Unreported e := by
        rw [← hfails]
        rintro ⟨e, he⟩
        cases he
      refine iff_of_true rfl fun e he hbad => ?_
      rcases List.mem_append.mp he with he | he
      · exact hsteps e he hbad
      · exact hrest ⟨e, he, hbad⟩
    | error error =>
      obtain ⟨e, he, hbad⟩ := hfails.mp ⟨error, rfl⟩
      refine iff_of_false (by rintro ⟨⟩) fun h => ?_
      exact h e (List.mem_append_right steps he) hbad

/-- The same for `install_key`, where an invalid key ends the run at once. -/
theorem installKey_run
    (h : Runs (onProbe (installKey record response firmware logs retryCommand)).run tr r) :
    (∃ e, DeviceKey.fromHex response.key = .error e ∧ tr = [] ∧ r = .error (.fromHex e)) ∨
    ∃ key, DeviceKey.fromHex response.key = .ok key ∧
      ((∃ e, Runs (onProbe (chipSteps record key firmware)).run tr (.error e) ∧
        r = .error (.installFailed response.deviceAddr response.name retryCommand e) ∧ Reported tr) ∨
      ∃ steps, steps <+: tr ∧ Runs (onProbe (chipSteps record key firmware)).run steps (.ok ()) ∧
        (r = .ok () ↔ Reported tr)) := by
  cases hkey : DeviceKey.fromHex response.key with
  | error e =>
    rw [onProbe_installKey_error hkey] at h
    obtain ⟨rfl, rfl⟩ := h.ret_inv
    exact .inl ⟨e, rfl, rfl, rfl⟩
  | ok key =>
    rw [onProbe_installKey_ok hkey] at h
    obtain ⟨result, hinstall, rfl⟩ := call_runs h
    refine .inr ⟨key, rfl, ?_⟩
    rcases install_run hinstall with ⟨e, hrun, rfl, hreported⟩ | ⟨steps, rest, rfl, hrun, hok⟩
    · exact .inl ⟨e, hrun, rfl, hreported⟩
    · refine .inr ⟨steps, List.prefix_append steps rest, hrun, ?_⟩
      rw [← hok]
      cases result <;> simp [Except.mapError]

end Installation

/-- Surroundings that agree to everything, but the image file may be gone by the
time it is read for the log. -/
def answering (image : Except IoError Unit) : (c : ToolCmd) → c.Answer
  | .readImage _ => image
  | c => willing c

def answeringly (image : Except IoError Unit) (tr : Trace) (c : ToolCmd) : c.Answer × Trace :=
  (answering image c, tr ++ [⟨c, answering image c⟩])

def image : Artifact := ⟨"id", "image", 0, some (0, pageSize)⟩

def installation (answer : Except IoError Unit) : Except Anyhow Unit × Trace :=
  (onProbe (installKey .blank firstKey (some image) 10 "rotate")).run.run (answeringly answer) []

theorem installation_runs (answer : Except IoError Unit) :
    Runs (onProbe (installKey .blank firstKey (some image) 10 "rotate")).run
      (installation answer).2 (installation answer).1 := by
  have hsteps := Prog.run_steps (D := history) (f := answeringly answer) (fun _ _ => rfl)
    (onProbe (installKey .blank firstKey (some image) 10 "rotate")).run []
  obtain ⟨tr, htr, hrun⟩ := Runs.of_steps hsteps rfl
  rw [List.nil_append] at htr
  exact htr ▸ hrun

def imageGone : (Σ c : ToolCmd, c.Answer) → Bool
  | ⟨.readImage _, .error _⟩ => true
  | _ => false

theorem unreported_of_imageGone {e : Σ c : ToolCmd, c.Answer} (h : imageGone e = true) :
    Unreported e := by
  obtain ⟨c, a⟩ := e
  cases c <;> try cases h
  rename_i artifact
  cases a with
  | ok u => cases h
  | error e => exact .inl ⟨artifact, e, rfl⟩

end BootReport

end Homescope
