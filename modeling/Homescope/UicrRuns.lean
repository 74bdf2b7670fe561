import Homescope.InstallSpec

/-! Any number of `install_key` attempts on one board, each stopped anywhere.
The header is a commit marker as long as no attempt writes it over old key
words that lack bits of its own key. -/

namespace Homescope

open Commands Provision

/-- `record` and `found` are what the board held when the attempt began. -/
structure Attempt where
  key : Option DeviceKey
  record : RecordHeader
  found : RecordWords
  program : Prog ToolCmd ToolCmd.Answer (Except Anyhow Unit)

structure InstallState where
  bench : Bench
  attempt : Option Attempt

def Attempt.begin (s : Bench) (response : DeviceKeyResponse) (firmware : Option Artifact)
    (logs : Nat) (retryCommand : String) : Attempt where
  key := (DeviceKey.fromHex response.key).toOption
  record := UicrRecord.decodeHeader (s.record 0)
  found := s.record
  program := (onProbe (installKey (UicrRecord.decodeHeader (s.record 0)) response firmware logs
    retryCommand)).run

inductive InstallStep : InstallState → InstallState → Prop
  | start {s : Bench} (response : DeviceKeyResponse) (firmware : Option Artifact) (logs : Nat)
      (retryCommand : String) :
      InstallStep ⟨s, none⟩ ⟨s, some (.begin s response firmware logs retryCommand)⟩
  | step {s t : Bench} {a : Attempt} {p} (h : Step (benchStep True True a.key) (a.program, s) (p, t)) :
      InstallStep ⟨s, some a⟩ ⟨t, some { a with program := p }⟩
  | stop {s : Bench} {a : Attempt} (config : Word) :
      InstallStep ⟨s, some a⟩ ⟨s.setConfig config, none⟩

/-- The words are those of a key, where a word has a bit for each of the
key's. -/
def Covers (words : RecordWords) (k : DeviceKey) : Prop :=
  ∀ i : Fin 8, words i.succ &&& UicrRecord.encode k i.succ = UicrRecord.encode k i.succ

instance (words : RecordWords) (k : DeviceKey) : Decidable (Covers words k) :=
  inferInstanceAs (Decidable (∀ _, _))

/-- The attempt erases the record, or finds words that cover its key. -/
def Attempt.Covered (a : Attempt) : Prop :=
  a.record.isBlank = false ∨ ∀ k, a.key = some k → Covers a.found k

/-- Only a covered attempt writes the header. -/
def CoveredStep (s t : InstallState) : Prop :=
  ∀ a, s.attempt = some a → WritesHeader s.bench.board t.bench.board → a.Covered

/-- The header is erased, or it stands before the key that it was written
for. -/
def Bench.Sound (s : Bench) : Prop :=
  s.record 0 = erased ∨ ∃ k, s.writer = some k ∧ s.record = UicrRecord.encode k

def InstallState.Inv (s : InstallState) : Prop :=
  s.bench.Sound ∧ ∀ a, s.attempt = some a →
    Safe (benchStep True a.Covered a.key) Bench.Sound a.program (fun _ _ => True) s.bench

theorem Bench.Sound.alike {s t : Bench} (h : s.Alike t) (hs : s.Sound) : t.Sound := by
  rw [Sound, h.1, h.2]
  exact hs

theorem oldWords_covers {s : Bench} {k : DeviceKey} :
    Covers (oldWords s) k ↔
      (UicrRecord.decodeHeader (s.record 0)).isBlank = false ∨ Covers s.record k := by
  by_cases hb : (UicrRecord.decodeHeader (s.record 0)).isBlank = true
  · simp [Covers, oldWords, hb]
  · have hall : Covers (oldWords s) k := by
      intro i
      rw [oldWords, if_neg hb, erased, BitVec.allOnes_and]
    exact iff_of_true hall (Or.inl (Bool.eq_false_of_not_eq_true hb))

theorem Written.record_eq {old : RecordWords} {allowed : Prop} {key : Option DeviceKey}
    {k : DeviceKey} {t : Bench} (h : Written old allowed key k t) :
    t.record = UicrRecord.encode k ↔ Covers old k := by
  refine ⟨fun hk i => by rw [← h.words i, hk], fun hc => funext fun i => ?_⟩
  refine Fin.cases ?_ (fun i => ?_) i
  · rw [h.header, UicrRecord.encode_zero]
  · rw [h.words i, hc i]

theorem onProbe_installKey_error {record : RecordHeader} {response : DeviceKeyResponse}
    {firmware : Option Artifact} {logs : Nat} {retryCommand : String} {e : FromHexError}
    (h : DeviceKey.fromHex response.key = .error e) :
    (onProbe (installKey record response firmware logs retryCommand)).run =
      .ret (.error (.fromHex e)) := by
  rw [installKey, onProbe_bind, h]
  rfl

theorem onProbe_installKey_ok {record : RecordHeader} {response : DeviceKeyResponse}
    {firmware : Option Artifact} {logs : Nat} {retryCommand : String} {k : DeviceKey}
    (h : DeviceKey.fromHex response.key = .ok k) :
    onProbe (installKey record response firmware logs retryCommand) =
      ToolM.call (onProbe (install record k firmware logs)).run
        (.installFailed response.deviceAddr response.name retryCommand) := by
  rw [installKey, onProbe_bind, h]
  exact onProbe_call _ _

/-- An attempt keeps the record sound wherever it is stopped. -/
theorem begin_safe {s : Bench} {response : DeviceKeyResponse} {firmware : Option Artifact}
    {logs : Nat} {retryCommand : String} (hs : s.Sound) {a : Attempt}
    (ha : a = .begin s response firmware logs retryCommand) :
    Safe (benchStep True a.Covered a.key) Bench.Sound a.program (fun _ _ => True) s := by
  subst ha
  cases hk : DeviceKey.fromHex response.key with
  | error e =>
    rw [Attempt.begin, onProbe_installKey_error hk]
    exact ⟨hs, trivial⟩
  | ok k =>
    rw [Attempt.begin, onProbe_installKey_ok hk, hk]
    apply ToolM.call_safe
    refine (install_safe (fun _ _ => Bench.Sound.alike) (fun _ => Or.inl) ?_ hs).mono
      (fun _ h => h) (fun _ _ _ => trivial)
    intro t ht
    have hcov : Covers (oldWords s) k := oldWords_covers.mpr (ht.allowed.imp_right fun h => h k rfl)
    exact Or.inr ⟨k, ht.writer, ht.record_eq.mpr hcov⟩

theorem InstallState.inv_step {s t : InstallState} (h : InstallStep s t) (hc : CoveredStep s t)
    (hs : s.Inv) : t.Inv := by
  cases h with
  | start response firmware logs retryCommand =>
    refine ⟨hs.1, fun a ha => ?_⟩
    exact begin_safe hs.1 (Option.some.inj ha).symm
  | @step s t a p h =>
    obtain ⟨key, record, found, program⟩ := a
    cases h with
    | cmd hd =>
      have hsafe := (hs.2 _ rfl).2 _ _ ⟨hd.1, hd.2.1, hc _ rfl, hd.2.2.2⟩
      refine ⟨hsafe.now, fun b hb => ?_⟩
      obtain rfl := Option.some.inj hb
      exact hsafe
  | stop config => exact ⟨hs.1.alike (Bench.setConfig_alike _ _), fun a ha => nomatch ha⟩

/-! ### Runs of one attempt -/

theorem InstallStep.attempt {s t : Bench} {a : Attempt} {q}
    (h : Steps (benchStep True True a.key) (a.program, s) (q, t)) :
    Relation.ReflTransGen InstallStep ⟨s, some a⟩ ⟨t, some { a with program := q }⟩ :=
  Relation.ReflTransGen.lift
    (fun c : _ × Bench => InstallState.mk c.2 (some { a with program := c.1 }))
    (fun _ _ hs => .step hs) _ _ h

theorem InstallStep.coveredAttempt {s t : Bench} {a : Attempt} {q} (ha : a.Covered)
    (h : Steps (benchStep True True a.key) (a.program, s) (q, t)) :
    Relation.ReflTransGen (fun s t => InstallStep s t ∧ CoveredStep s t) ⟨s, some a⟩
      ⟨t, some { a with program := q }⟩ :=
  Relation.ReflTransGen.lift
    (fun c : _ × Bench => InstallState.mk c.2 (some { a with program := c.1 }))
    (fun _ _ hs => ⟨.step hs, fun b hb _ => by
      obtain rfl := Option.some.inj hb
      exact ha⟩) _ _ h

theorem answer_steps (ready : Bool) (key : Option DeviceKey) {α : Type}
    (p : Prog ToolCmd ToolCmd.Answer α) (s : Bench) :
    Steps (benchStep True True key) (p, s)
      (.ret (p.run (Bench.answer ready key) s).1, (p.run (Bench.answer ready key) s).2) :=
  Prog.run_steps (Bench.answer_step (fun _ => trivial) trivial) p s

/-- A board whose UICR was never written. -/
def Bench.blank : Bench := ⟨⟨0, fun _ => erased⟩, none⟩

def keyResponse (key : String) : DeviceKeyResponse where
  deviceAddr := ⟨List.replicate 6 0, rfl⟩
  name := "kitchen"
  keyValidFrom := 0
  key

def firstKey : DeviceKeyResponse :=
  keyResponse "0F00000000000000000000000000000000000000000000000000000000000000"

def secondKey : DeviceKeyResponse :=
  keyResponse "F000000000000000000000000000000000000000000000000000000000000000"

def attemptOn (s : Bench) (response : DeviceKeyResponse) : Attempt :=
  .begin s response none 0 "provision"

/-- What an attempt leaves behind, whose first key word is programmed and
whose NVMC then times out. -/
def interrupted : Bench :=
  ((attemptOn .blank firstKey).program.run (Bench.answer false (attemptOn .blank firstKey).key)
    .blank).2

def retried : Bench :=
  ((attemptOn interrupted secondKey).program.run
    (Bench.answer true (attemptOn interrupted secondKey).key) interrupted).2

def installed : Bench :=
  ((attemptOn .blank firstKey).program.run (Bench.answer true (attemptOn .blank firstKey).key)
    .blank).2

theorem attempt_reaches (ready : Bool) (s : Bench) (a : Attempt) :
    ∃ b, Relation.ReflTransGen InstallStep ⟨s, some a⟩
      ⟨(a.program.run (Bench.answer ready a.key) s).2, some b⟩ :=
  ⟨_, InstallStep.attempt (answer_steps ready a.key a.program s)⟩

theorem coveredAttempt_reaches {a : Attempt} (ha : a.Covered) (ready : Bool) (s : Bench) :
    ∃ b, Relation.ReflTransGen (fun s t => InstallStep s t ∧ CoveredStep s t) ⟨s, some a⟩
      ⟨(a.program.run (Bench.answer ready a.key) s).2, some b⟩ :=
  ⟨_, InstallStep.coveredAttempt ha (answer_steps ready a.key a.program s)⟩

theorem interrupted_reachable :
    Relation.ReflTransGen InstallStep ⟨.blank, none⟩ ⟨interrupted, none⟩ := by
  obtain ⟨b, hb⟩ := attempt_reaches false .blank (attemptOn .blank firstKey)
  exact .head (.start firstKey none 0 "provision") (hb.tail (.stop interrupted.board.config))

theorem retried_reachable :
    ∃ b, Relation.ReflTransGen InstallStep ⟨.blank, none⟩ ⟨retried, some b⟩ := by
  obtain ⟨b, hb⟩ := attempt_reaches true interrupted (attemptOn interrupted secondKey)
  exact ⟨b, interrupted_reachable.trans (.head (.start secondKey none 0 "provision") hb)⟩

theorem retried_eq : retried = ((attemptOn interrupted secondKey).program.run
    (Bench.answer true (attemptOn interrupted secondKey).key) interrupted).2 := rfl

theorem installed_reachable :
    ∃ b, Relation.ReflTransGen (fun s t => InstallStep s t ∧ CoveredStep s t) ⟨.blank, none⟩
      ⟨installed, some b⟩ := by
  have hcov : (attemptOn .blank firstKey).Covered := by
    refine Or.inr fun k _ i => ?_
    change erased &&& _ = _
    rw [erased, BitVec.allOnes_and]
  obtain ⟨b, hb⟩ := coveredAttempt_reaches hcov true .blank
  exact ⟨b, .head ⟨.start firstKey none 0 "provision", by rintro a ⟨⟩⟩ hb⟩

-- only the kernel is to evaluate these runs
attribute [irreducible] interrupted retried installed

/-- In a run whose header writes are all covered, a present header stands
before the key of the attempt that wrote it. -/
theorem present_header_commits {s : Bench} {t : InstallState} (hs : ∀ i, s.record i = erased)
    (hrun : Relation.ReflTransGen (fun s t => InstallStep s t ∧ CoveredStep s t) ⟨s, none⟩ t)
    (hp : UicrRecord.decodeHeader (t.bench.record 0) = .present) :
    ∃ k, t.bench.writer = some k ∧ (∀ i : Fin 8, t.bench.record i.succ = UicrRecord.encode k i.succ) ∧
      UicrRecord.decode t.bench.record = .provisioned k := by
  have hinit : InstallState.Inv ⟨s, none⟩ := ⟨Or.inl (hs 0), fun a ha => nomatch ha⟩
  have hinv := invariant_run hrun (fun _ _ h => InstallState.inv_step h.1 h.2) hinit
  rcases hinv.1 with h0 | ⟨k, hw, hk⟩
  · rw [h0, UicrRecord.decodeHeader_erased] at hp
    cases hp
  · have hwords : ∀ i : Fin 8, t.bench.record i.succ = UicrRecord.encode k i.succ := fun i => by rw [hk]
    exact ⟨k, hw, hwords, (UicrRecord.decode_eq_provisioned hp).mpr hwords⟩

/-- A first attempt that finishes. -/
theorem present_header_commits_first :
    ∃ k, installed.writer = some k ∧
      (∀ i : Fin 8, installed.record i.succ = UicrRecord.encode k i.succ) ∧
      UicrRecord.decode installed.record = .provisioned k := by
  obtain ⟨b, hb⟩ := installed_reachable
  have hp : UicrRecord.decodeHeader (installed.record 0) = .present := by decide +kernel
  exact present_header_commits (fun _ => rfl) hb hp

/-- The second attempt finds a blank header before the first key's word, and
writes its header over bits of both keys. -/
theorem present_header_not_committed :
    ¬∀ t, Relation.ReflTransGen InstallStep ⟨.blank, none⟩ t →
      UicrRecord.decodeHeader (t.bench.record 0) = .present →
      ∃ k, t.bench.writer = some k ∧
        ∀ i : Fin 8, t.bench.record i.succ = UicrRecord.encode k i.succ := by
  intro h
  obtain ⟨b, hb⟩ := retried_reachable
  have hp : UicrRecord.decodeHeader (retried.record 0) = .present := by decide +kernel
  have hne : retried.writer.map (fun k => UicrRecord.encode k 1) ≠ some (retried.record 1) := by
    decide +kernel
  obtain ⟨k, hk, hwords⟩ := h _ hb hp
  have hk' : retried.writer = some k := hk
  rw [hk'] at hne
  exact hne (congrArg some (hwords 0).symm)

/-! ### Running the tool again -/

/-- The record methods failed inside `install_key`. -/
def WriteFailed (r : Except Anyhow Unit) : Prop :=
  ∃ deviceAddr name retryCommand e,
    r = .error (.installFailed deviceAddr name retryCommand (.writeRecord e))

/-- An attempt without probe errors passes its write and its verification, and
leaves the record of its key. -/
def Recovers (s : Bench) (response : DeviceKeyResponse) (firmware : Option Artifact) (logs : Nat)
    (retryCommand : String) (k : DeviceKey) : Prop :=
  ∀ r t, Steps (benchStep False True (some k))
      ((Attempt.begin s response firmware logs retryCommand).program, s) (.ret r, t) →
    ¬WriteFailed r ∧ UicrRecord.decode t.record = .provisioned k

theorem begin_ended {s t : Bench} {response : DeviceKeyResponse} {firmware : Option Artifact}
    {logs : Nat} {retryCommand : String} {k : DeviceKey} {r : Except Anyhow Unit}
    (hk : DeviceKey.fromHex response.key = .ok k)
    (h : Steps (benchStep False True (some k))
      ((Attempt.begin s response firmware logs retryCommand).program, s) (.ret r, t)) :
    Written (oldWords s) True (some k) k t ∧ (¬WriteFailed r ∨ ¬Covers (oldWords s) k) := by
  have hsafe : Safe (benchStep False True (some k)) (fun _ => True)
      (Attempt.begin s response firmware logs retryCommand).program
      (fun r t => Written (oldWords s) True (some k) k t ∧
        (¬WriteFailed r ∨ ¬Covers (oldWords s) k)) s := by
    rw [Attempt.begin, onProbe_installKey_ok hk]
    apply ToolM.call_safe
    refine (install_safe (fun _ _ _ _ => trivial) (fun _ _ => trivial) (fun _ _ => trivial)
      trivial).mono (fun _ h => h) ?_
    rintro r t (⟨ht, ⟨hr, -⟩ | ⟨-, hf | hne⟩⟩ | hf)
    · refine ⟨ht, Or.inl ?_⟩
      rintro ⟨deviceAddr, name, cmd, e, he⟩
      cases r with
      | ok u => cases he
      | error e' =>
        cases he
        exact hr e rfl
    · exact hf.elim
    · exact ⟨ht, Or.inr fun hc => hne (ht.record_eq.mpr hc)⟩
    · exact hf.elim
  exact (hsafe.steps h).2

/-- Running the tool again installs its key exactly if it erases the record,
or the words behind the blank header have a bit for each of the key's. -/
theorem recovers_iff_covered {s : Bench} {response : DeviceKeyResponse} {firmware : Option Artifact}
    {logs : Nat} {retryCommand : String} {k : DeviceKey}
    (hk : DeviceKey.fromHex response.key = .ok k) :
    Recovers s response firmware logs retryCommand k ↔
      (UicrRecord.decodeHeader (s.record 0)).isBlank = false ∨ Covers s.record k := by
  rw [← oldWords_covers]
  constructor
  · intro h
    have hstep : ∀ s c, benchStep False True (some k) s c (s.answer true (some k) c).1
        (s.answer true (some k) c).2 :=
      Bench.answer_step (fun h => nomatch h) trivial
    have hrun := Prog.run_steps hstep (Attempt.begin s response firmware logs retryCommand).program s
    have hw := (begin_ended hk hrun).1
    have hdec := (h _ _ hrun).2
    have hwords := (UicrRecord.decode_eq_provisioned
      (by rw [hw.header]; exact UicrRecord.decodeHeader_header)).mp hdec
    exact fun i => by rw [← hw.words i, hwords i]
  · intro hc r t hrun
    obtain ⟨hw, hr | hne⟩ := begin_ended hk hrun
    · refine ⟨hr, ?_⟩
      rw [UicrRecord.decode_eq_provisioned (by rw [hw.header]; exact UicrRecord.decodeHeader_header),
        hw.record_eq.mpr hc]
      exact fun _ => rfl
    · exact absurd hc hne

theorem fromHex_of_isSome (hex : String) (h : (DeviceKey.fromHex hex).toOption.isSome = true) :
    ∃ k, DeviceKey.fromHex hex = .ok k := by
  cases hk : DeviceKey.fromHex hex with
  | error e => rw [hk] at h; cases h
  | ok k => exact ⟨k, rfl⟩

theorem recovers_iff_covered_first : ∃ k, Recovers .blank firstKey none 0 "provision" k ↔
    (UicrRecord.decodeHeader (Bench.blank.record 0)).isBlank = false ∨ Covers Bench.blank.record k := by
  obtain ⟨k, hk⟩ := fromHex_of_isSome firstKey.key (by decide +kernel)
  exact ⟨k, recovers_iff_covered hk⟩

/-- The key of an attempt after an interrupted one is not installed. -/
theorem interrupted_not_recovered :
    ¬∀ s, Relation.ReflTransGen InstallStep ⟨.blank, none⟩ ⟨s, none⟩ →
      ∀ response firmware logs retryCommand k, DeviceKey.fromHex response.key = .ok k →
        Recovers s response firmware logs retryCommand k := by
  intro h
  obtain ⟨k, hk⟩ := fromHex_of_isSome secondKey.key (by decide +kernel)
  have hkey : (attemptOn interrupted secondKey).key = some k := by
    change (DeviceKey.fromHex secondKey.key).toOption = some k
    rw [hk]
    rfl
  have hstep : ∀ s c, benchStep False True (some k) s c (s.answer true (some k) c).1
      (s.answer true (some k) c).2 :=
    Bench.answer_step (fun h => nomatch h) trivial
  have hdec := (h interrupted interrupted_reachable secondKey none 0 "provision" k hk _ _
    (Prog.run_steps hstep (attemptOn interrupted secondKey).program interrupted)).2
  have hretried : UicrRecord.decode retried.record = .provisioned k := by
    rw [retried_eq, hkey]
    exact hdec
  have hne : UicrRecord.decode retried.record ≠
      ((DeviceKey.fromHex secondKey.key).toOption.map UicrRecord.provisioned).getD .blank := by
    decide +kernel
  rw [hk] at hne
  exact hne hretried

end Homescope
