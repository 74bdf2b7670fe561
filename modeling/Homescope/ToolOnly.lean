import Homescope.Provisioning

/-! Which commands each part of the tool issues, for any set of commands that
holds those it needs. -/

namespace Homescope

open Commands ToolM

/-- The program issues only commands of `P`. -/
abbrev Issues {α : Type} (P : ToolCmd → Prop) (p : Prog ToolCmd ToolCmd.Answer α) : Prop :=
  p.Only P fun _ => True

namespace Issues

variable {P : ToolCmd → Prop} {ε ε' α β : Type}

theorem command {c : ToolCmd} (hc : P c) : Issues P (ToolM.command c) := ⟨hc, fun _ => trivial⟩

theorem call {p : Prog ToolCmd ToolCmd.Answer (Except ε' α)} {wrap : ε' → ε} (h : Issues P p) :
    Issues P (ToolM.call p wrap).run :=
  call_only h

theorem attempt {p : Prog ToolCmd ToolCmd.Answer (Except ε' α)} (h : Issues P p) :
    Issues P (ToolM.attempt p : ToolM ε (Except ε' α)).run :=
  attempt_only h

theorem bind {x : ToolM ε α} {f : α → ToolM ε β} (h : Issues P x.run)
    (hf : ∀ a, Issues P (f a).run) : Issues P (x >>= f).run :=
  bind_only h hf

end Issues

section Chip

variable {P : ToolCmd → Prop}

theorem withMode_issues {α : Type} {mode : NvmcMode} {f : ToolM NvmcError α}
    (hmode : ∀ mode : NvmcMode, P (.writeWord32 nvmcConfig mode.word)) (hflush : P .flush)
    (hf : Issues P f.run) : Issues P (Nvmc.withMode mode f).run := by
  refine .bind (.call (.command (hmode mode))) fun _ => .bind (.attempt hf) fun closureResult => ?_
  refine .bind (.attempt (.command (hmode _))) fun restored => ?_
  refine .bind (.attempt (.command hflush)) fun flushed => ?_
  refine .bind trivial fun value => .bind trivial fun _ => .bind trivial fun _ => trivial

theorem erasePages_issues {pages : List Nat}
    (hpage : ∀ page ∈ pages, P (.writeWord32 nvmcErasePage (BitVec.ofNat 32 page)))
    (hready : P .pollReady) : Issues P (Nvmc.erasePages pages).run := by
  induction pages with
  | nil => trivial
  | cons page pages ih =>
    refine .bind (.bind (.call (.command (hpage page List.mem_cons_self))) fun _ =>
      .command hready) fun _ => ?_
    exact ih fun page hp => hpage page (List.mem_cons_of_mem _ hp)

theorem findMismatchIn_issues (hread : ∀ address len, P (.read32 address len)) (address : Nat)
    (cs : List (List Word)) : Issues P (Chip.findMismatchIn address cs).run := by
  induction cs generalizing address with
  | nil => trivial
  | cons chunk cs ih =>
    refine .bind (.command (hread _ _)) fun buf => ?_
    cases Chip.firstMismatch address buf chunk with
    | none => exact ih _
    | some mismatch => trivial

theorem eraseStorage_issues {start stop : Nat}
    (hmode : ∀ mode : NvmcMode, P (.writeWord32 nvmcConfig mode.word))
    (hpage : ∀ page ∈ Chip.storagePages start stop,
      P (.writeWord32 nvmcErasePage (BitVec.ofNat 32 page))) (hready : P .pollReady)
    (hflush : P .flush) (hcore : P .openCore) (hread : ∀ address len, P (.read32 address len)) :
    Issues P (Chip.eraseStorage start stop).run := by
  rw [Chip.eraseStorage]
  by_cases h : start ≥ stop ∨ start % pageSize ≠ 0 ∨ stop % pageSize ≠ 0
  · simp only [h, if_true]
    trivial
  · simp only [h, if_false]
    refine .bind (.call (.command hcore)) fun _ => ?_
    refine .bind (.call (withMode_issues hmode hflush (erasePages_issues hpage hready))) fun _ => ?_
    refine .bind (.call (findMismatchIn_issues hread _ _)) fun mismatch => ?_
    cases mismatch <;> trivial

theorem connect_issues (hlist : P .listAll) (hattach : ∀ probe, P (.attach probe false))
    (serial : Option String) : Issues P (Chip.connect serial).run := by
  rw [Chip.connect]
  refine .bind ⟨hlist, fun _ => trivial⟩ fun all => ?_
  dsimp only
  generalize Chip.chosenProbes serial all = probes
  match probes with
  | [] => trivial
  | [probe] =>
    refine .bind (.attempt (.command (hattach probe))) fun attached => ?_
    rcases attached with (_ | _) | _ <;> trivial
  | _ :: _ :: _ => trivial

theorem readState_issues (hcore : P .openCore) (hword : ∀ address, P (.readWord32 address))
    (hread : ∀ address len, P (.read32 address len)) : Issues P (Chip.readState).run := by
  refine .bind (.call (.command hcore)) fun _ => ?_
  refine .bind (.bind (.command (hword _)) fun _ => trivial) fun _ => ?_
  exact .bind (.bind (.command (hread _ _)) fun _ => trivial) fun _ => trivial

theorem readUicrWords_issues (hcore : P .openCore) (hread : ∀ address len, P (.read32 address len)) :
    Issues P (Chip.readUicrWords).run :=
  .bind (.call (.command hcore)) fun _ => .command (hread _ _)

theorem reportBoot_issues (hline : P .stderrLine) (hlogs : ∀ window, P (.streamLogs window))
    (hstatus : P .coreStatus) (artifact : Artifact) (himage : P (.readImage artifact)) (logs : Nat) :
    Issues P (Provision.reportBoot artifact logs).run := by
  have hline' : Issues P Provision.stderrLine.run := .call (.command hline)
  rw [Provision.reportBoot]
  by_cases h : logs = 0
  · simp only [h, if_true]
    trivial
  · simp only [h, if_false]
    refine .bind (.call (.command himage)) fun _ => .bind hline' fun _ => ?_
    refine .bind (.attempt (.command (hlogs _))) ?_
    rintro (e | summary)
    · exact hline'
    · by_cases hs : summary.frames = 0
      · simp only [hs, if_true]
        exact .bind (.attempt (.command hstatus)) fun _ => hline'
      · simp only [hs, if_false]
        split_ifs
        · exact hline'
        · trivial

end Chip

/-- The commands that look at the board and its surroundings, and those that
attach to it. -/
structure Looks (P : ToolCmd → Prop) : Prop where
  listAll : P .listAll
  attach : ∀ probe allowEraseAll, P (.attach probe allowEraseAll)
  openCore : P .openCore
  readWord32 : ∀ address, P (.readWord32 address)
  read32 : ∀ address len, P (.read32 address len)
  chooseFirmware : ∀ name, P (.chooseFirmware name)
  resolveClient : P .resolveClient
  checkAuth : P .checkAuth
  apiDevice : ∀ deviceAddr, P (.apiDevice deviceAddr)
  stdinIsTerminal : P .stdinIsTerminal
  stderrLine : P .stderrLine
  readLine : P .readLine

namespace Looks

variable {P : ToolCmd → Prop}

theorem ask (h : Looks P) (assumeYes : Bool) : Issues P (Confirm.ask assumeYes).run := by
  rw [Confirm.ask]
  refine .bind ⟨h.stdinIsTerminal, fun _ => trivial⟩ fun tty => ?_
  cases Confirm.policy assumeYes tty with
  | granted => trivial
  | refuse => trivial
  | ask =>
    exact .bind (.call (.command h.stderrLine)) fun _ =>
      .bind (.call (.command h.readLine)) fun _ => trivial

theorem yesNo (h : Looks P) (assumeYes : Bool) : Issues P (Confirm.yesNo assumeYes).run := by
  refine .bind (h.ask assumeYes) fun answer => ?_
  cases answer <;> trivial

theorem typed (h : Looks P) (expected : Text) (assumeYes : Bool) :
    Issues P (Confirm.typed expected assumeYes).run := by
  refine .bind (h.ask assumeYes) fun answer => ?_
  cases answer <;> trivial

theorem confirmRecord (h : Looks P) (record : RecordHeader) (action : Provision.Action)
    (assumeYes : Bool) : Issues P (Provision.confirmRecord record action assumeYes).run := by
  cases record with
  | blank => trivial
  | malformed err => exact h.yesNo assumeYes
  | present => exact h.yesNo assumeYes

theorem connect (h : Looks P) (serial : Option String) (unlock assumeYes : Bool) :
    Issues P (Provision.connect serial unlock assumeYes).run := by
  rw [Provision.connect]
  refine .bind (.call (connect_issues h.listAll (h.attach · false) serial)) fun connection => ?_
  cases connection with
  | attached => cases unlock <;> trivial
  | locked probe =>
    cases unlock with
    | false => trivial
    | true =>
      exact .bind (.call (h.typed _ assumeYes)) fun _ =>
        .call (.call (.command (h.attach probe true)))

theorem lookUp (h : Looks P) (args : Provision.Args) : Issues P (Provision.lookUp args).run := by
  rw [Provision.lookUp]
  refine .bind ?_ fun firmware => .bind (.call (.command h.resolveClient)) fun _ => ?_
  · cases args.firmware with
    | none => trivial
    | some name =>
      exact .bind (.call (.command (h.chooseFirmware _))) fun _ => trivial
  refine .bind ?_ fun _ => .bind (h.connect _ _ _) fun _ => ?_
  · rw [Provision.checkAuthBeforeUnlock]
    cases args.unlock with
    | false => trivial
    | true => exact .call (.command h.checkAuth)
  refine .bind (.call (readState_issues h.openCore h.readWord32 h.read32)) fun state => ?_
  exact .bind (.call (.command (h.apiDevice _))) fun _ => trivial

end Looks

end Homescope
