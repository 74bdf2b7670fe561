import Homescope.Fleet
import Homescope.InstallStages
import Homescope.SeqAnchor

/-! No run of a fleet seals two packets under one key and seq. On each board the
record's key is either unused, or counted by the firmware that runs, or covered
by the counter that a boot finds. -/

namespace Homescope

open Commands ToolM

/-! ### What holds of a board -/

/-- What runs on the board, or would run after a boot, does not repeat a seq. -/
def Core.Counting (storage : Storage) (m : Memory) (minted : List DeviceKey)
    (used : DeviceKey → List Word) (record : Option DeviceKey) : Core → Prop
  | .off => ∀ key, record = some key → Above storage (used key) m
  | .on key region mode => key ∈ minted ∧ region = storage ∧
      mode.Counting storage m (used key) ∧ ∀ key', record = some key' → key' = key ∨ used key' = []

structure Node.Inv (storage : Storage) (s : Node) : Prop where
  used_minted : ∀ key, s.used key ≠ [] → key ∈ s.minted
  used_nodup : ∀ key, (s.used key).Nodup
  record_minted : ∀ key, s.record = some key → key ∈ s.minted
  firmware : ∀ region, s.firmware = some region → region = storage
  core : s.core.Counting storage s.board.memory s.minted s.used s.record

/-- What a run of the tool may rely on at each stage, while it holds the board. -/
def Stage.Holds (s : Node) : Stage → Prop
  | early => True
  | halted => s.linked = true → s.halted = true
  | minted key => s.linked = true → s.halted = true ∧ key ∈ s.minted ∧ s.used key = []
  | replaced key => s.linked = true → s.halted = true ∧ s.record = some key ∧ s.used key = []
  | flashed key => s.linked = true →
      s.halted = true ∧ s.core = .off ∧ s.record = some key ∧ s.used key = []
  | spent => True
  | broken => False

namespace Stage

variable {s t : Node} {stage : Stage}

theorem Holds.unlinked (h : stage.Holds s) (ht : t.linked = false) : stage.Holds t := by
  have hnot : ¬t.linked = true := by
    rw [ht]
    exact Bool.false_ne_true
  cases stage with
  | early => trivial
  | spent => trivial
  | broken => exact h
  | _ => exact fun hl => absurd hl hnot

/-- A core that runs is not held by the tool. -/
theorem Holds.running (h : stage.Holds s) (hrun : s.halted = false) (ht : t.linked = s.linked) :
    stage.Holds t := by
  have hnot : ¬s.halted = true := by
    rw [hrun]
    exact Bool.false_ne_true
  cases stage with
  | early => trivial
  | spent => trivial
  | broken => exact h
  | halted => exact fun hl => absurd (h (ht ▸ hl)) hnot
  | _ => exact fun hl => absurd (h (ht ▸ hl)).1 hnot

theorem next_looks {c : ToolCmd} (hc : c.Looks) (a : c.Answer) : stage.next c a = stage := by
  cases c <;> first | rfl | exact hc.elim

end Stage

namespace Node.Inv

variable {storage : Storage} {s : Node}

/-- Whatever runs, a boot with the record finds a counter above its seqs. -/
theorem above (h : s.Inv storage) {key : DeviceKey} (hkey : s.record = some key) :
    Above storage (s.used key) s.board.memory := by
  have hcore := h.core
  cases hc : s.core with
  | off =>
    rw [hc] at hcore
    exact hcore key hkey
  | on key' region mode =>
    rw [hc] at hcore
    obtain ⟨-, -, hcount, hrecord⟩ := hcore
    rcases hrecord key hkey with rfl | hnone
    · exact hcount.above
    · rw [hnone]
      exact .nil

/-- The firmware is stopped, with whatever happens to the code next to it. -/
theorem stopped (h : s.Inv storage) {board : Board} {firmware : Option Storage}
    {linked halted : Bool} (hsame : s.board.memory.SameRegion storage board.memory)
    (hf : ∀ region, firmware = some region → region = storage) :
    Node.Inv storage { s with board, firmware, core := .off, linked, halted } where
  used_minted := h.used_minted
  used_nodup := h.used_nodup
  record_minted := h.record_minted
  firmware := hf
  core _ hkey := (h.above hkey).congr hsame

theorem restarted (h : s.Inv storage) : s.restarted.Inv storage :=
  h.stopped (fun _ => rfl) h.firmware

theorem powerCut (h : s.Inv storage) : s.powerCut.Inv storage :=
  h.stopped (fun _ => rfl) h.firmware

theorem configured (h : s.Inv storage) (config : Word) :
    Node.Inv storage { s with board.config := config } :=
  ⟨h.used_minted, h.used_nodup, h.record_minted, h.firmware, h.core⟩

/-- Losing the record loses nothing that counts. -/
theorem erased (h : s.Inv storage) (config : Word) :
    Node.Inv storage { s with board.config := config, record := none } where
  used_minted := h.used_minted
  used_nodup := h.used_nodup
  record_minted := nofun
  firmware := h.firmware
  core := by
    have hcore := h.core
    cases hc : s.core with
    | off => exact nofun
    | on key region mode =>
      rw [hc] at hcore
      exact ⟨hcore.1, hcore.2.1, hcore.2.2.1, nofun⟩

/-- A key that was never used may come into the record at any time. -/
theorem recorded (h : s.Inv storage) {key : DeviceKey} (hkey : key ∈ s.minted)
    (hused : s.used key = []) (config : Word) :
    Node.Inv storage { s with board.config := config, record := some key } where
  used_minted := h.used_minted
  used_nodup := h.used_nodup
  record_minted := by
    rintro _ ⟨⟩
    exact hkey
  firmware := h.firmware
  core := by
    have hcore := h.core
    cases hc : s.core with
    | off =>
      rintro _ ⟨⟩
      dsimp only
      rw [hused]
      exact .nil
    | on key' region mode =>
      rw [hc] at hcore
      refine ⟨hcore.1, hcore.2.1, hcore.2.2.1, ?_⟩
      rintro _ ⟨⟩
      exact .inr hused

theorem wiped (h : s.Inv storage) (linked : Bool) :
    Node.Inv storage { s.wiped with linked } where
  used_minted := h.used_minted
  used_nodup := h.used_nodup
  record_minted := nofun
  firmware := nofun
  core := nofun

/-- Words of a board whose record's key is unused and whose core is off. -/
theorem written (h : s.Inv storage) {key : DeviceKey} (hoff : s.core = .off)
    (hkey : s.record = some key) (hused : s.used key = []) (board : Board) :
    Node.Inv storage { s with board } where
  used_minted := h.used_minted
  used_nodup := h.used_nodup
  record_minted := h.record_minted
  firmware := h.firmware
  core := by
    dsimp only
    rw [hoff]
    intro key' hkey'
    obtain rfl := Option.some.inj (hkey.symm.trans hkey')
    rw [hused]
    exact .nil

/-- One more key. -/
theorem mint (h : s.Inv storage) (key : DeviceKey) :
    Node.Inv storage { s with minted := key :: s.minted } where
  used_minted key' hkey' := List.mem_cons_of_mem _ (h.used_minted key' hkey')
  used_nodup := h.used_nodup
  record_minted key' hkey' := List.mem_cons_of_mem _ (h.record_minted key' hkey')
  firmware := h.firmware
  core := by
    have hcore := h.core
    cases hc : s.core with
    | off =>
      rw [hc] at hcore
      exact hcore
    | on key' region mode =>
      rw [hc] at hcore
      exact ⟨List.mem_cons_of_mem _ hcore.1, hcore.2⟩

/-- The tool's hold on the board is none of the invariant's concern. -/
theorem held (h : s.Inv storage) (linked halted : Bool) :
    Node.Inv storage { s with linked, halted } :=
  ⟨h.used_minted, h.used_nodup, h.record_minted, h.firmware, h.core⟩

/-- The key that the API answers with is the one that the tool goes on with, and
no firmware has used it. -/
theorem mint_holds (h : s.Inv storage) {stage : Stage} (hstage : stage.Holds s)
    {response : DeviceKeyResponse} {key : DeviceKey} (hkey : response.key = key.toHex)
    (hnew : key ∉ s.minted) (hnext : stage.mint (.ok response) ≠ .broken) :
    (stage.mint (.ok response)).Holds { s with minted := key :: s.minted } := by
  have hhex : DeviceKey.fromHex response.key = .ok key := by
    rw [hkey, DeviceKey.fromHex_toHex]
  have hunused : s.used key = [] := by
    by_contra hused
    exact hnew (h.used_minted key hused)
  cases stage with
  | halted =>
    simp only [Stage.mint, hhex]
    exact fun hl => ⟨hstage hl, List.mem_cons_self, hunused⟩
  | _ => exact absurd rfl hnext

end Node.Inv

/-- What a command leaves, if the tool keeps to its stages. -/
theorem NodeStep.keeps {storage : Storage} {Fresh : DeviceKey → Prop} {s t : Node} {c : ToolCmd}
    {a : c.Answer} {stage : Stage} (h : NodeStep storage Fresh s c a t) (hs : s.Inv storage)
    (hstage : stage.Holds s) (hnext : stage.next c a ≠ .broken)
    (hfresh : ∀ key, Fresh key → key ∉ s.minted) :
    t.Inv storage ∧ (stage.next c a).Holds t := by
  cases h with
  | look hc =>
    rw [Stage.next_looks hc]
    exact ⟨hs, hstage⟩
  | attach => exact ⟨hs.held true _, by cases stage <;> trivial⟩
  | attachFailed => exact ⟨hs, by cases stage <;> trivial⟩
  | unlock => exact ⟨hs.wiped true, by cases stage <;> trivial⟩
  | unlockFailed => exact ⟨hs.wiped _, by cases stage <;> trivial⟩
  | write hl =>
    cases stage with
    | flashed key =>
      obtain ⟨-, hoff, hkey, hused⟩ := hstage hl
      exact ⟨hs.written hoff hkey hused _, hstage⟩
    | _ => exact absurd rfl hnext
  | writeFailed hb =>
    cases stage with
    | flashed key =>
      rcases hb with rfl | ⟨hl, -⟩
      · exact ⟨hs, hstage⟩
      · obtain ⟨-, hoff, hkey, hused⟩ := hstage hl
        exact ⟨hs.written hoff hkey hused _, hstage⟩
    | _ => exact absurd rfl hnext
  | eraseRecord hl =>
    cases stage with
    | minted key => exact ⟨hs.erased _, hstage⟩
    | _ => exact absurd rfl hnext
  | eraseRecordFailed hr =>
    cases stage with
    | minted key =>
      rcases hr with rfl | ⟨-, rfl⟩
      · exact ⟨hs.configured _, hstage⟩
      · exact ⟨hs.erased _, hstage⟩
    | _ => exact absurd rfl hnext
  | @writeRecord key _ hl =>
    cases stage with
    | minted key' =>
      by_cases hkey : key = key'
      · subst hkey
        obtain ⟨hhalted, hmem, hused⟩ := hstage hl
        rw [Stage.next, if_pos rfl]
        exact ⟨hs.recorded hmem hused _, fun _ => ⟨hhalted, rfl, hused⟩⟩
      · exact absurd (if_neg hkey) hnext
    | _ => exact absurd rfl hnext
  | @writeRecordFailed key _ _ _ hr =>
    cases stage with
    | minted key' =>
      by_cases hkey : key = key'
      · subst hkey
        rw [Stage.next, if_pos rfl]
        refine ⟨?_, trivial⟩
        rcases hr with rfl | ⟨hl, rfl | rfl⟩
        · exact hs.configured _
        · exact hs.erased _
        · obtain ⟨-, hmem, hused⟩ := hstage hl
          exact hs.recorded hmem hused _
      · exact absurd (if_neg hkey) hnext
    | _ => exact absurd rfl hnext
  | download hl hregion hsame =>
    refine ⟨hs.stopped hsame fun _ h => (Option.some.inj h).symm, ?_⟩
    cases stage with
    | early => trivial
    | replaced key =>
      obtain ⟨-, hkey, hused⟩ := hstage hl
      exact fun _ => ⟨rfl, rfl, hkey, hused⟩
    | _ => exact absurd rfl hnext
  | @downloadFailed _ _ firmware _ _ _ hsame hf hc =>
    refine ⟨?_, by cases stage <;> trivial⟩
    have hregions : ∀ region, firmware = some region → region = storage := by
      rcases hf with rfl | rfl | ⟨rfl, -⟩
      · exact hs.firmware
      · rintro _ ⟨⟩
      · exact fun _ h => (Option.some.inj h).symm
    rcases hc with rfl | ⟨rfl, hmemory⟩
    · exact hs.stopped hsame hregions
    · refine ⟨hs.used_minted, hs.used_nodup, hs.record_minted, hregions, ?_⟩
      dsimp only
      rw [hmemory]
      exact hs.core
  | halt hl =>
    refine ⟨hs.held _ true, ?_⟩
    cases stage with
    | early => exact fun _ => rfl
    | _ => exact absurd rfl hnext
  | haltFailed => exact ⟨hs.held _ _, by cases stage <;> trivial⟩
  | reset hl => exact ⟨hs.restarted, by cases stage <;> trivial⟩
  | resetFailed ht =>
    rcases ht with rfl | rfl
    · exact ⟨hs, by cases stage <;> trivial⟩
    · exact ⟨hs.restarted, by cases stage <;> trivial⟩
  | provision hkey hf => exact ⟨hs.mint _, hs.mint_holds hstage hkey (hfresh _ hf) hnext⟩
  | provisionFailed => exact ⟨hs, hstage⟩
  | rotate hkey hf => exact ⟨hs.mint _, hs.mint_holds hstage hkey (hfresh _ hf) hnext⟩
  | rotateFailed => exact ⟨hs, hstage⟩

/-! ### What holds of the fleet -/

/-- The firmware goes on, with what it used up to then. -/
theorem Node.Inv.counted {storage : Storage} {s : Node} (h : s.Inv storage) {board : Board}
    {core : Core} {used : DeviceKey → List Word} (hminted : ∀ key, used key ≠ [] → key ∈ s.minted)
    (hnodup : ∀ key, (used key).Nodup)
    (hcore : core.Counting storage board.memory s.minted used s.record) :
    Node.Inv storage { s with board, core, used } :=
  ⟨hminted, hnodup, h.record_minted, h.firmware, hcore⟩

/-- The firmware has a step, or the seq of a packet. -/
theorem Node.Inv.sensor {storage region : Storage} {s : Node} {key : DeviceKey} {mode mode' : Mode}
    {m : Memory} {issued : List Word} (h : s.Inv storage) (hon : s.core = .on key region mode)
    (hroom : mode.Room) (hstep : SensorStep region (s.sensor key mode) ⟨m, mode', issued⟩) :
    Node.Inv storage { s with
      board.memory := m, core := Core.ofMode key region mode'
      used := Function.update s.used key issued } ∧ key ∈ s.minted ∧ issued.Nodup := by
  have hcore := h.core
  rw [hon] at hcore
  obtain ⟨hkey, rfl, hcount, hrecord⟩ := hcore
  obtain ⟨hcount', hnodup⟩ := Sensor.counting_step hstep hroom ⟨hcount, h.used_nodup key⟩
  have hself : Function.update s.used key issued key = issued := Function.update_self ..
  have hother : ∀ key', key' ≠ key → Function.update s.used key issued key' = s.used key' :=
    fun key' hk => Function.update_of_ne hk ..
  have hserved : ∀ key', s.record = some key' →
      key' = key ∨ Function.update s.used key issued key' = [] := by
    intro key' hkey'
    by_cases hk : key' = key
    · exact .inl hk
    · exact .inr ((hother key' hk).trans ((hrecord key' hkey').resolve_left hk))
  refine ⟨h.counted (fun key' hused => ?_) (fun key' => ?_) ?_, hkey, hnodup⟩
  · by_cases hk : key' = key
    · rw [hk]
      exact hkey
    · rw [hother key' hk] at hused
      exact h.used_minted key' hused
  · by_cases hk : key' = key
    · rw [hk, hself]
      exact hnodup
    · rw [hother key' hk]
      exact h.used_nodup key'
  · cases mode' with
    | off =>
      intro key' hkey'
      rcases hserved key' hkey' with rfl | hnone
      · rw [hself]
        exact hcount'
      · rw [hnone]
        exact .nil
    | _ =>
      refine ⟨hkey, rfl, ?_, hserved⟩
      rw [hself]
      exact hcount'

/-- A boot with the record. -/
theorem Node.Inv.boot {storage region : Storage} {s : Node} {key : DeviceKey} (h : s.Inv storage)
    (hfirmware : s.firmware = some region) (hrecord : s.record = some key) :
    Node.Inv storage
      { s with core := .on key region (.booting (SeqCounter.load region).run) } where
  used_minted := h.used_minted
  used_nodup := h.used_nodup
  record_minted := h.record_minted
  firmware := h.firmware
  core := by
    obtain rfl := h.firmware region hfirmware
    refine ⟨h.record_minted key hrecord, rfl, ?_, fun key' hkey' => ?_⟩
    · have hstep : SensorStep region ⟨s.board.memory, .off, s.used key⟩
          ⟨s.board.memory, .booting (SeqCounter.load region).run, s.used key⟩ := .boot
      exact (Sensor.counting_step hstep trivial ⟨h.above hrecord, h.used_nodup key⟩).1
    · exact .inl (Option.some.inj (hkey'.symm.trans hrecord))

theorem NodeStep.minted {storage : Storage} {Fresh : DeviceKey → Prop} {s t : Node} {c : ToolCmd}
    {a : c.Answer} (h : NodeStep storage Fresh s c a t) :
    ∀ key ∈ t.minted, key ∈ s.minted ∨ Fresh key := by
  intro key hkey
  cases h with
  | provision _ hf =>
    rcases List.mem_cons.mp hkey with rfl | hkey
    · exact .inr hf
    · exact .inl hkey
  | rotate _ hf =>
    rcases List.mem_cons.mp hkey with rfl | hkey
    · exact .inr hf
    · exact .inl hkey
  | resetFailed ht => rcases ht with rfl | rfl <;> exact .inl hkey
  | _ => exact .inl hkey

theorem NodeStep.used {storage : Storage} {Fresh : DeviceKey → Prop} {s t : Node} {c : ToolCmd}
    {a : c.Answer} (h : NodeStep storage Fresh s c a t) : t.used = s.used := by
  cases h with
  | resetFailed ht => rcases ht with rfl | rfl <;> rfl
  | _ => rfl

theorem ToolRun.staged (run : ToolRun) : Staged run.program .early := by
  cases run with
  | provision args name => exact provision_staged args name
  | rotateKey args => exact rotateKey_staged args
  | flash firmware serial logs => exact flash_staged firmware serial logs

theorem used_cons (used : DeviceKey → List Word) (key : DeviceKey) (seq : Word) :
    ∀ key', ∀ seq' ∈ used key', seq' ∈ Function.update used key (seq :: used key) key' := by
  intro key' seq' hseq'
  by_cases hk : key' = key
  · rw [hk, Function.update_self]
    exact List.mem_cons_of_mem _ (hk ▸ hseq')
  · rw [Function.update_of_ne hk]
    exact hseq'

namespace Fleet

variable {ι : Type} [DecidableEq ι]

structure Inv (storage : Storage) (s : Fleet ι) : Prop where
  nodes : ∀ i, (s.nodes i).Inv storage
  tools : ∀ i p, s.tools i = some p → ∃ stage, Staged p stage ∧ stage.Holds (s.nodes i)
  minted : ∀ i j key, key ∈ (s.nodes i).minted → key ∈ (s.nodes j).minted → i = j
  sealed : ∀ e ∈ s.sealed, ∃ i, e.seq ∈ (s.nodes i).used e.key
  nodup : (s.sealed.map fun e => (e.key, e.seq)).Nodup

variable {storage : Storage} {s : Fleet ι} {i : ι}

namespace Inv

/-- One board and the tool on it move on. -/
theorem put (h : s.Inv storage) {node : Node}
    {tool : Option (Prog ToolCmd ToolCmd.Answer (Except Anyhow Unit))} (hnode : node.Inv storage)
    (hminted : ∀ key ∈ node.minted, key ∈ (s.nodes i).minted ∨ s.Fresh key)
    (hused : ∀ key, ∀ seq ∈ (s.nodes i).used key, seq ∈ node.used key)
    (htool : ∀ p, tool = some p → ∃ stage, Staged p stage ∧ stage.Holds node) :
    ((s.set i node).setTool i tool).Inv storage := by
  have hself : ((s.set i node).setTool i tool).nodes i = node := Function.update_self ..
  have hother : ∀ j, j ≠ i → ((s.set i node).setTool i tool).nodes j = s.nodes j :=
    fun j hj => Function.update_of_ne hj ..
  have hmint : ∀ j key, key ∈ (((s.set i node).setTool i tool).nodes j).minted →
      key ∈ (s.nodes j).minted ∨ j = i ∧ s.Fresh key := by
    intro j key hkey
    by_cases hj : j = i
    · rw [hj, hself] at hkey
      rw [hj]
      exact (hminted key hkey).imp_right fun hf => ⟨rfl, hf⟩
    · rw [hother j hj] at hkey
      exact .inl hkey
  refine ⟨fun j => ?_, fun j p hp => ?_, fun j k key hj hk => ?_, fun e he => ?_, h.nodup⟩
  · by_cases hj : j = i
    · rw [hj, hself]
      exact hnode
    · rw [hother j hj]
      exact h.nodes j
  · by_cases hj : j = i
    · subst hj
      have htool' : ((s.set j node).setTool j tool).tools j = tool := Function.update_self ..
      rw [hself]
      exact htool p (htool'.symm.trans hp)
    · have htool' : ((s.set i node).setTool i tool).tools j = s.tools j :=
        Function.update_of_ne hj ..
      rw [hother j hj]
      exact h.tools j p (htool'.symm.trans hp)
  · rcases hmint j key hj with hold | ⟨hji, hf⟩
    · rcases hmint k key hk with hold' | ⟨-, hf⟩
      · exact h.minted j k key hold hold'
      · exact absurd hold (hf j)
    · rcases hmint k key hk with hold | ⟨hki, -⟩
      · exact absurd hold (hf k)
      · exact hji.trans hki.symm
  · obtain ⟨j, hj⟩ := h.sealed e he
    refine ⟨j, ?_⟩
    by_cases hji : j = i
    · rw [hji, hself]
      exact hused _ _ (hji ▸ hj)
    · rw [hother j hji]
      exact hj

/-- One board moves on, without the tool on it. -/
theorem set (h : s.Inv storage) {node : Node} (hnode : node.Inv storage)
    (hminted : node.minted = (s.nodes i).minted)
    (hused : ∀ key, ∀ seq ∈ (s.nodes i).used key, seq ∈ node.used key)
    (htool : ∀ stage : Stage, stage.Holds (s.nodes i) → stage.Holds node) :
    (s.set i node).Inv storage := by
  have hput : ((s.set i node).setTool i (s.tools i)).Inv storage := by
    refine h.put hnode (fun key hkey => .inl (hminted ▸ hkey)) hused fun p hp => ?_
    obtain ⟨stage, hstaged, hholds⟩ := h.tools i p hp
    exact ⟨stage, hstaged, htool stage hholds⟩
  have hsame : (s.set i node).setTool i (s.tools i) = s.set i node := by
    simp only [setTool, Fleet.set, Function.update_eq_self]
  rwa [hsame] at hput

omit [DecidableEq ι] in
/-- A packet under a seq that its key has not had. -/
theorem sealed_cons (h : s.Inv storage) (e : Sealed) (hmem : e.seq ∈ (s.nodes i).used e.key)
    (hnew : ∀ e' ∈ s.sealed, (e'.key, e'.seq) ≠ (e.key, e.seq)) :
    Inv storage { s with sealed := e :: s.sealed } where
  nodes := h.nodes
  tools := h.tools
  minted := h.minted
  sealed e' he' := by
    rcases List.mem_cons.mp he' with rfl | he'
    · exact ⟨i, hmem⟩
    · exact h.sealed e' he'
  nodup := by
    refine List.nodup_cons.mpr ⟨fun hm => ?_, h.nodup⟩
    obtain ⟨e', he', heq⟩ := List.mem_map.mp hm
    exact hnew e' he' heq

theorem step {env : Surroundings} {t : Fleet ι} (hst : FleetStep env storage s t)
    (h : s.Inv storage) : t.Inv storage := by
  cases hst with
  | @start i hidle run =>
    have hput : ((s.set i (s.nodes i)).setTool i (some run.program)).Inv storage := by
      refine h.put (h.nodes i) (fun _ hkey => .inl hkey) (fun _ _ hseq => hseq) fun p hp => ?_
      cases hp
      exact ⟨.early, run.staged, trivial⟩
    rwa [Fleet.set, Function.update_eq_self] at hput
  | @command i c k a node hp hn =>
    obtain ⟨stage, hstaged, hholds⟩ := h.tools i _ hp
    have hnext := hstaged.2 a _ rfl
    obtain ⟨hnode, hholds'⟩ := hn.keeps (h.nodes i) hholds hnext.now fun key hf => hf i
    refine h.put hnode hn.minted (fun _ _ hseq => hn.used ▸ hseq) fun p hp => ?_
    cases hp
    exact ⟨_, hnext, hholds'⟩
  | @stop i =>
    exact h.put ((h.nodes i).held false false) (fun _ hkey => .inl hkey) (fun _ _ hseq => hseq) nofun
  | @unplug i =>
    exact h.set ((h.nodes i).held false false) rfl (fun _ _ hseq => hseq)
      fun _ hstage => hstage.unlinked rfl
  | @powerCut i =>
    exact h.set (h.nodes i).powerCut rfl (fun _ _ hseq => hseq) fun _ hstage => hstage.unlinked rfl
  | @boot i key region hoff hrun hfirmware hrecord =>
    exact h.set ((h.nodes i).boot hfirmware hrecord) rfl (fun _ _ hseq => hseq)
      fun _ hstage => hstage.running hrun rfl
  | @sensor i key region mode mode' m hon hrun hroom hstep =>
    obtain ⟨hnode, -, -⟩ := (h.nodes i).sensor hon hroom hstep
    rw [Function.update_eq_self] at hnode
    exact h.set hnode rfl (fun _ _ hseq => hseq) fun _ hstage => hstage.running hrun rfl
  | @build i key region mode mode' m seq measurements hon hrun hroom hstep =>
    obtain ⟨hnode, hkey, hnodup⟩ := (h.nodes i).sensor hon hroom hstep
    have hset := h.set hnode rfl (used_cons _ _ seq) fun _ hstage => hstage.running hrun rfl
    cases hpacket : ReadingPath.sensor env ⟨key, (s.nodes i).addr⟩ seq measurements with
    | none => exact hset
    | some packet =>
      refine hset.sealed_cons ⟨key, seq, packet⟩ (i := i) ?_ fun e he heq => ?_
      · simp only [Fleet.set, Function.update_self]
        exact List.mem_cons_self
      -- a packet with this key is from this board, and the seq is new there
      · obtain ⟨j, hj⟩ := h.sealed e he
        obtain ⟨hek, hes⟩ := Prod.mk.inj heq
        rw [hek, hes] at hj
        have hmem := (h.nodes j).used_minted key (List.ne_nil_of_mem hj)
        obtain rfl := h.minted i j key hkey hmem
        exact (List.nodup_cons.mp hnodup).1 hj

end Inv

/-- Boards as they come: no record, nothing that runs, whatever their memory. -/
structure Blank (storage : Storage) (s : Fleet ι) : Prop where
  record : ∀ i, (s.nodes i).record = none
  core : ∀ i, (s.nodes i).core = .off
  firmware : ∀ i region, (s.nodes i).firmware = some region → region = storage
  minted : ∀ i, (s.nodes i).minted = []
  used : ∀ i key, (s.nodes i).used key = []
  tools : ∀ i, s.tools i = none
  sealed : s.sealed = []

omit [DecidableEq ι] in
theorem Blank.inv (h : s.Blank storage) : s.Inv storage where
  nodes i :=
    { used_minted := fun key hused => absurd (h.used i key) hused
      used_nodup := fun key => (h.used i key).symm ▸ List.nodup_nil
      record_minted := fun _ hkey => nomatch (h.record i).symm.trans hkey
      firmware := h.firmware i
      core := (h.core i).symm ▸ fun _ hkey => nomatch (h.record i).symm.trans hkey }
  tools i _ hp := nomatch (h.tools i).symm.trans hp
  minted i _ _ hkey := nomatch (h.minted i) ▸ hkey
  sealed _ he := nomatch h.sealed ▸ he
  nodup := h.sealed.symm ▸ List.nodup_nil

/-- Over every run of the boards, the tool and the firmware, no two packets are
sealed under one key and seq. -/
theorem nonces_unique {env : Surroundings} {t : Fleet ι} (hs : s.Blank storage)
    (h : Relation.ReflTransGen (FleetStep env storage) s t) :
    (t.sealed.map fun e => (e.key, e.seq)).Nodup :=
  (invariant_run h (fun _ _ hst hi => Inv.step hst hi) hs.inv).nodup

/-! ### One board that is provisioned and reports -/

def single (node : Node) (tool : Option (Prog ToolCmd ToolCmd.Answer (Except Anyhow Unit)))
    (packets : List Sealed) : Fleet Unit :=
  ⟨fun _ => node, fun _ => tool, packets⟩

section Single

variable {env : Surroundings} {storage : Storage} {node node' : Node} {key : DeviceKey}
  {tool : Option (Prog ToolCmd ToolCmd.Answer (Except Anyhow Unit))} {packets : List Sealed}

theorem update_unit {α : Type} (f : Unit → α) (a : α) : Function.update f () a = fun _ => a :=
  funext fun _ => Function.update_self ..

theorem single_fresh : (single node tool packets).Fresh = (· ∉ node.minted) :=
  funext fun _ => propext ⟨fun h => h (), fun h _ => h⟩

theorem tool_run {p q : Prog ToolCmd ToolCmd.Answer (Except Anyhow Unit)}
    (h : Steps (fun s => NodeStep storage (· ∉ s.minted) s) (p, node) (q, node')) :
    Relation.ReflTransGen (FleetStep env storage) (single node (some p) packets)
      (single node' (some q) packets) := by
  refine h.lift (fun c => single c.2 (some c.1) packets) fun a b hab => ?_
  cases hab with
  | @cmd c k s t a hd =>
    have hn : NodeStep storage (single s (some (.cmd c k)) packets).Fresh s c a t := by
      rw [single_fresh]
      exact hd
    have hstep : FleetStep env storage (single s (some (.cmd c k)) packets) _ :=
      .command (i := ()) rfl hn
    simpa only [Fleet.set, setTool, single, update_unit] using hstep

/-- The board while its firmware counts. -/
def counting (node : Node) (key : DeviceKey) (storage : Storage) (m : Memory) (mode : Mode) : Node :=
  { node with board.memory := m, core := .on key storage mode }

theorem sensor_step {m m' : Memory} {mode mode' : Mode} (hrun : node.halted = false)
    (hroom : mode.Room) (hon : mode' ≠ .off)
    (h : SensorStep storage ⟨m, mode, node.used key⟩ ⟨m', mode', node.used key⟩) :
    FleetStep env storage (single (counting node key storage m mode) tool packets)
      (single (counting node key storage m' mode') tool packets) := by
  have hstep : FleetStep env storage (single (counting node key storage m mode) tool packets) _ :=
    .sensor (i := ()) rfl hrun hroom h
  have hcore : Core.ofMode key storage mode' = .on key storage mode' := by
    cases mode' with
    | off => exact absurd rfl hon
    | _ => rfl
  rw [hcore] at hstep
  simpa only [Fleet.set, single, update_unit, counting] using hstep

theorem load_run {m m' : Memory} {p q} (hrun : node.halted = false)
    (h : Steps flashStep (p, m) (q, m')) :
    Relation.ReflTransGen (FleetStep env storage)
      (single (counting node key storage m (.booting p)) tool packets)
      (single (counting node key storage m' (.booting q)) tool packets) :=
  h.lift (fun c : _ × Memory => single (counting node key storage c.2 (.booting c.1)) tool packets)
    fun _ _ hs => sensor_step hrun trivial nofun (.load hs)

theorem next_run {m m' : Memory} {c : SeqCounter} {p q} (hrun : node.halted = false)
    (h : Steps flashStep (p, m) (q, m')) :
    Relation.ReflTransGen (FleetStep env storage)
      (single (counting node key storage m (.issuing c p)) tool packets)
      (single (counting node key storage m' (.issuing c q)) tool packets) :=
  h.lift (fun d : _ × Memory => single (counting node key storage d.2 (.issuing c d.1)) tool packets)
    fun _ _ hs => sensor_step hrun trivial nofun (.next hs)

/-- One packet, from a call that succeeds. -/
theorem build_run {m : Memory} {c c' : SeqCounter} {seq : Word} {packet : List Byte}
    (measurements : List Measurement) (hrun : node.halted = false) (hroom : c.Room)
    (hcall : ((SeqCounter.next storage c).run.run flashRun m).1 = .ok (seq, c'))
    (hpacket : ReadingPath.sensor env ⟨key, node.addr⟩ seq measurements = some packet) :
    Relation.ReflTransGen (FleetStep env storage)
      (single (counting node key storage m (.ready c)) tool packets)
      (single (counting { node with
          used := Function.update node.used key (seq :: node.used key) } key storage
        ((SeqCounter.next storage c).run.run flashRun m).2 (.ready c')) tool
        (⟨key, seq, packet⟩ :: packets)) := by
  have hnext := Prog.run_steps flashRun_step (SeqCounter.next storage c).run m
  rw [hcall] at hnext
  generalize ((SeqCounter.next storage c).run.run flashRun m).2 = m' at hnext ⊢
  have hcalled : FleetStep env storage (single (counting node key storage m (.ready c)) tool packets)
      (single (counting node key storage m (.issuing c (SeqCounter.next storage c).run)) tool packets) :=
    sensor_step hrun hroom nofun .call
  refine .head hcalled ((next_run hrun hnext).tail ?_)
  have hstep : FleetStep env storage (single (counting node key storage m'
      (.issuing c (.ret (.ok (seq, c'))))) tool packets) _ :=
    .build (i := ()) measurements rfl hrun trivial .issue
  have hsealed : (ReadingPath.sensor env ⟨key, node.addr⟩ seq measurements).elim packets
      (fun packet => ⟨key, seq, packet⟩ :: packets) = ⟨key, seq, packet⟩ :: packets := by
    rw [hpacket]
    rfl
  simpa only [Fleet.set, single, update_unit, counting, Core.ofMode, hsealed] using hstep

end Single

open ReadingPath (sensorKey sensorCipher sensed sampleAead)

/-- A board and a probe that do what they are told, and an API with one key. -/
def boardRun (s : Node) : (c : ToolCmd) → c.Answer × Node
  | .listAll => ([⟨"probe", none⟩], s)
  | .attach _ _ => (.ok (), { s with linked := true })
  | .openCore => (.ok (), s)
  | .readWord32 _ => (.ok erased, s)
  | .read32 _ len => (.ok (List.replicate len erased), s)
  | .writeWord32 _ _ => (.error .failed, s)
  | .flush => (.ok (), s)
  | .pollReady => (.ok (), s)
  | .eraseUicrRecord => (.error (.probe .failed), s)
  | .writeUicrRecord key =>
    if s.linked then (.ok (), { s with record := some key }) else (.error (.probe .failed), s)
  | .downloadFile _ => (.error .download, s)
  | .streamLogs _ => (.error .failed, s)
  | .coreStatus => (.error .failed, s)
  | .halt => if s.linked then (.ok (), { s with halted := true }) else (.error .failed, s)
  | .reset => if s.linked then (.ok (), s.restarted) else (.error .failed, s)
  | .chooseFirmware _ => (.error .failed, s)
  | .readImage _ => (.ok (), s)
  | .resolveClient => (.ok "http://localhost:3000", s)
  | .checkAuth => (.ok (), s)
  | .apiDevice _ => (.ok none, s)
  | .apiProvision payload =>
    if sensorKey ∈ s.minted then (.error .transportError, s)
    else (.ok ⟨payload.deviceAddr, payload.name, 0, sensorKey.toHex⟩,
      { s with minted := sensorKey :: s.minted })
  | .apiRotateKey _ => (.error .transportError, s)
  | .stdinIsTerminal => (false, s)
  | .stderrLine => (.ok (), s)
  | .readLine => (.error .failed, s)

theorem boardRun_step (storage : Storage) (s : Node) (c : ToolCmd) :
    NodeStep storage (· ∉ s.minted) s c (boardRun s c).1 (boardRun s c).2 := by
  cases c with
  | attach => exact .attach
  | writeWord32 => exact .writeFailed (.inl rfl)
  | eraseUicrRecord => exact .eraseRecordFailed (.inl rfl)
  | downloadFile => exact .downloadFailed (fun _ => rfl) (.inl rfl) (.inr ⟨rfl, rfl⟩)
  | apiRotateKey => exact .rotateFailed
  | writeUicrRecord key =>
    rw [boardRun]
    by_cases hl : s.linked = true
    · rw [if_pos hl]
      exact .writeRecord hl
    · rw [if_neg hl]
      exact .writeRecordFailed (.inl rfl)
  | halt =>
    rw [boardRun]
    by_cases hl : s.linked = true
    · rw [if_pos hl]
      exact .halt hl
    · rw [if_neg hl]
      exact .haltFailed
  | reset =>
    rw [boardRun]
    by_cases hl : s.linked = true
    · rw [if_pos hl]
      exact .reset hl
    · rw [if_neg hl]
      exact .resetFailed (.inl rfl)
  | apiProvision payload =>
    rw [boardRun]
    by_cases hk : sensorKey ∈ s.minted
    · rw [if_pos hk]
      exact .provisionFailed
    · rw [if_neg hk]
      exact .provision rfl hk
  | _ => exact .look trivial

def sampleNode : Node where
  addr := sensorCipher.deviceAddr
  board := ⟨0, fun _ => erased⟩
  record := none
  firmware := some sampleRegion
  core := .off
  linked := false
  halted := false
  minted := []
  used _ := []

def sampleRun : ToolRun := .provision ⟨none, none, 0, false, false⟩ "kitchen"

def provisionedNode : Node := (sampleRun.program.run boardRun sampleNode).2

theorem sampleRun_ends : Relation.ReflTransGen (FleetStep env sampleRegion)
    (single sampleNode (some sampleRun.program) [])
    (single provisionedNode (some (.ret (sampleRun.program.run boardRun sampleNode).1)) []) :=
  tool_run (Prog.run_steps (boardRun_step sampleRegion) sampleRun.program sampleNode)

/-- The board is provisioned, boots and builds two packets. -/
theorem nonces_unique_first : ∃ (env : Surroundings) (t : Fleet Unit),
    Relation.ReflTransGen (FleetStep env sampleRegion) (single sampleNode none []) t ∧
    (t.sealed.map fun e => (e.key, e.seq)) = [(sensorKey, 1), (sensorKey, 0)] ∧
    (t.sealed.map fun e => (e.key, e.seq)).Nodup := by
  obtain ⟨format, hformat, -⟩ := ReadingPath.exists_format
  let env : Surroundings := ⟨sampleAead, crc16IbmSdlc, format, ReadingPath.timestampRange⟩
  have hlawful : env.Lawful := ⟨ReadingPath.sampleAead_lawful, hformat⟩
  have hne : sensed ≠ [] := List.cons_ne_nil _ _
  have hnodup : (sensed.map Measurement.id).Nodup := by decide
  have haddr : provisionedNode.addr = sensorCipher.deviceAddr := by decide +kernel
  have hpacket : ∀ seq, ∃ packet,
      ReadingPath.sensor env ⟨sensorKey, provisionedNode.addr⟩ seq sensed = some packet := by
    intro seq
    rw [haddr]
    obtain ⟨packet, -, hsensor, -⟩ := ReadingPath.sensor_ok hlawful sensorCipher seq hne hnodup
    exact ⟨_, hsensor⟩
  obtain ⟨first, hfirst⟩ := hpacket 0
  obtain ⟨second, hsecond⟩ := hpacket 1
  have hrecord : provisionedNode.record = some sensorKey := by decide +kernel
  have hhalted : provisionedNode.halted = false := by decide +kernel
  have hfirmware : provisionedNode.firmware = some sampleRegion := by decide +kernel
  have hcore : provisionedNode.core = .off := by
    have h : (match provisionedNode.core with
        | .off => true
        | .on .. => false) = true := by decide +kernel
    cases hc : provisionedNode.core with
    | off => rfl
    | on => simp [hc] at h
  have hload : ((SeqCounter.load sampleRegion).run.run flashRun provisionedNode.board.memory).1 =
      .ok ⟨0, 0, Page.A.start⟩ := by decide +kernel
  have hcall : ((SeqCounter.next sampleRegion ⟨0, 0, Page.A.start⟩).run.run flashRun
      ((SeqCounter.load sampleRegion).run.run flashRun provisionedNode.board.memory).2).1 =
        .ok (0, ⟨1, 1024, ⟨1, by decide⟩⟩) := by decide +kernel
  have hblank : (single sampleNode none []).Blank sampleRegion := by
    refine ⟨fun _ => rfl, fun _ => rfl, fun _ _ h => (Option.some.inj h).symm, fun _ => rfl,
      fun _ _ => rfl, fun _ => rfl, rfl⟩
  have hstart : FleetStep env sampleRegion (single sampleNode none [])
      (single sampleNode (some sampleRun.program) []) := by
    have hstep : FleetStep env sampleRegion (single sampleNode none []) _ :=
      .start (i := ()) rfl sampleRun
    simpa only [setTool, single, update_unit] using hstep
  have hboot : ∀ tool, FleetStep env sampleRegion (single provisionedNode tool [])
      (single (counting provisionedNode sensorKey sampleRegion provisionedNode.board.memory
        (.booting (SeqCounter.load sampleRegion).run)) tool []) := by
    intro tool
    have hstep : FleetStep env sampleRegion (single provisionedNode tool []) _ :=
      .boot (i := ()) hcore hhalted hfirmware hrecord
    simpa only [Fleet.set, single, update_unit, counting] using hstep
  have hloaded := Prog.run_steps flashRun_step (SeqCounter.load sampleRegion).run
    provisionedNode.board.memory
  rw [hload] at hloaded
  generalize ((SeqCounter.load sampleRegion).run.run flashRun provisionedNode.board.memory).2 = m at *
  have hready : ∀ tool, FleetStep env sampleRegion
      (single (counting provisionedNode sensorKey sampleRegion m
        (.booting (.ret (.ok ⟨0, 0, Page.A.start⟩)))) tool [])
      (single (counting provisionedNode sensorKey sampleRegion m (.ready ⟨0, 0, Page.A.start⟩)) tool []) :=
    fun _ => sensor_step hhalted trivial nofun .loaded
  have hrun : Relation.ReflTransGen (FleetStep env sampleRegion) (single sampleNode none []) _ :=
    .head hstart <| sampleRun_ends.trans <| .head (hboot _) <| (load_run hhalted hloaded).trans <|
      .head (hready _) <| (build_run sensed hhalted (Or.inr (by decide)) hcall hfirst).trans <|
      build_run sensed hhalted (Or.inl (by decide)) rfl hsecond
  exact ⟨env, _, hrun, rfl, nonces_unique hblank hrun⟩

end Fleet

end Homescope
