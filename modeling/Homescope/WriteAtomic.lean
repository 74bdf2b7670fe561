import Homescope.Directory
import Homescope.ProfileStore

/-! How the tool replaces one of its files (`write_atomic` and `save` in
`provision/src/store.rs`): through a temporary file beside it and a rename. -/

namespace Homescope

open Commands Directory

abbrev OsString := List UInt8

abbrev StoreIo (ε α : Type) := FileM OsString UInt8 ε α

/-- The name of the temporary file of process `pid`. -/
def tmpName (name : OsString) (pid : Nat) : OsString :=
  name ++ utf8 (".tmp.".toList ++ Nat.toDigits 10 pid)

def writeTmp (tmp name : OsString) (contents : List UInt8) (mode : Directory.Mode) :
    StoreIo Directory.IoError Unit := do
  ExceptT.mk (Prog.perform (Directory.Cmd.createNew tmp mode))
  ExceptT.mk (writeAll tmp contents)
  ExceptT.mk (Prog.perform (Directory.Cmd.syncAll tmp))
  ExceptT.mk (Prog.perform (Directory.Cmd.rename tmp name))

/-- `fileName` is the last component of the path, if it has one. -/
def writeAtomic (pid : Nat) (fileName : Option OsString) (contents : Text) (mode : Directory.Mode) :
    StoreIo StoreError Unit :=
  match fileName with
  | none => throw .invalidFilename
  | some name => ExceptT.mk do
    let tmp := tmpName name pid
    let _ ← Prog.perform (Directory.Cmd.removeFile tmp)
    let written ← (writeTmp tmp name (utf8 contents) mode).run
    match written with
    | .ok _ => return .ok ()
    | .error _ =>
      let _ ← Prog.perform (Directory.Cmd.removeFile tmp)
      return .error .write

theorem tmpName_ne (name : OsString) (pid : Nat) : tmpName name pid ≠ name := by
  intro h
  have hlength := congrArg List.length h
  rw [tmpName, utf8_append, List.length_append, List.length_append] at hlength
  have hdots : (utf8 ".tmp.".toList).length = 5 := by decide
  omega

section Rules

variable {umask mode : Directory.Mode} {faults : Prop} {tmp name : OsString} {contents : List UInt8}
  {I : Traced OsString UInt8 → Prop} {s : Traced OsString UInt8}

/-- The temporary file becomes the target, or all that is left is a temporary file. -/
theorem writeTmp_safe (hne : tmp ≠ name)
    (htmp : ∀ t x, t.dir = Function.update s.dir tmp x → I t)
    (hnew : ∀ t, t.dir = Function.update (Function.update s.dir tmp none) name
      (some (.file ⟨contents, mode &&& ~~~umask⟩)) → I t) :
    Safe (device umask faults) I (writeTmp tmp name contents mode).run
      (fun r t => r = .ok () ∧ t.dir = Function.update (Function.update s.dir tmp none) name
          (some (.file ⟨contents, mode &&& ~~~umask⟩)) ∨
        (∃ e, r = .error e) ∧ (∃ x, t.dir = Function.update s.dir tmp x) ∧
          (faults ∨ s.dir tmp ≠ none ∨ s.dir name = some .directory)) s := by
  have hself : s.dir = Function.update s.dir tmp (s.dir tmp) := (Function.update_eq_self _ _).symm
  apply Safe.bindExcept
  refine ⟨htmp s _ hself, fun a t hd => ?_⟩
  rcases hd.createNew_cases with ⟨rfl, ht⟩ | ⟨⟨e, rfl⟩, ht, hwhy⟩
  · have hcreated : t.dir tmp = some (.file ⟨[], mode &&& ~~~umask⟩) := by
      rw [ht, Function.update_self]
    refine ⟨htmp t _ ht, ?_⟩
    apply Safe.bindExcept
    refine (writeAll_safe hcreated fun u written hu => htmp u _ (hu.trans (by
      rw [ht, Function.update_idem]))).mono (fun _ h => h) ?_
    rintro r u (⟨rfl, hu⟩ | ⟨hfaults, ⟨e, rfl⟩, written, hu⟩)
    · rw [ht, Function.update_idem, List.nil_append] at hu
      apply Safe.bindExcept
      refine ⟨htmp u _ hu, fun a v hd => ?_⟩
      have hv : v.dir = u.dir := hd.1
      rw [hu] at hv
      refine ⟨htmp v _ hv, ?_⟩
      cases a with
      | error e =>
        exact ⟨htmp v _ hv, .inr ⟨⟨e, rfl⟩, ⟨_, hv⟩, .inl (hd.2.2 trivial)⟩⟩
      | ok _ =>
        have hwritten : v.dir tmp = some (.file ⟨contents, mode &&& ~~~umask⟩) := by
          rw [hv, Function.update_self]
        refine ⟨htmp v _ hv, fun a w hd => ?_⟩
        rcases hd.rename_cases hwritten with ⟨rfl, hw⟩ | ⟨⟨e, rfl⟩, hw, hwhy⟩
        · rw [hv, Function.update_idem] at hw
          exact ⟨hnew w hw, .inl ⟨rfl, hw⟩⟩
        · rw [hv] at hw hwhy
          rw [Function.update_of_ne hne.symm] at hwhy
          exact ⟨htmp w _ hw, .inr ⟨⟨e, rfl⟩, ⟨_, hw⟩, hwhy.imp_right .inr⟩⟩
    · rw [ht, Function.update_idem] at hu
      exact ⟨htmp u _ hu, .inr ⟨⟨e, rfl⟩, ⟨_, hu⟩, .inl hfaults⟩⟩
  · have ht' := ht.trans hself
    exact ⟨htmp t _ ht', htmp t _ ht', .inr ⟨⟨e, rfl⟩, ⟨_, ht'⟩, hwhy.imp_right .inl⟩⟩

/-- What `write_atomic` leaves behind. An error leaves everything but the
temporary file as it was, and that only if it could not be deleted. -/
theorem writeAtomic_safe {pid : Nat} {contents : Text}
    (htmp : ∀ t x, t.dir = Function.update s.dir (tmpName name pid) x → I t)
    (hnew : ∀ t, t.dir = Function.update (Function.update s.dir (tmpName name pid) none) name
      (some (.file ⟨utf8 contents, mode &&& ~~~umask⟩)) → I t) :
    Safe (device umask faults) I (writeAtomic pid (some name) contents mode).run
      (fun r t => r = .ok () ∧
          t.dir = Function.update (Function.update s.dir (tmpName name pid) none) name
            (some (.file ⟨utf8 contents, mode &&& ~~~umask⟩)) ∨
        (∃ e, r = .error e) ∧
          (∃ x, t.dir = Function.update s.dir (tmpName name pid) x ∧
            (x = none ∨ t.undeleted = true)) ∧
          (faults ∨ s.dir (tmpName name pid) = some .directory ∨ s.dir name = some .directory)) s := by
  have hne := tmpName_ne name pid
  have hself : s.dir = Function.update s.dir (tmpName name pid) (s.dir (tmpName name pid)) :=
    (Function.update_eq_self _ _).symm
  refine ⟨htmp s _ hself, fun a t hd => ?_⟩
  -- the stale temporary file is gone, or there is a reason for it
  obtain ⟨x, ht, hx⟩ : ∃ x, t.dir = Function.update s.dir (tmpName name pid) x ∧
      (x = none ∨ faults ∨ s.dir (tmpName name pid) = some .directory) := by
    rcases hd.removeFile_cases with ht | ⟨ht, -, hwhy⟩
    · exact ⟨none, ht, .inl rfl⟩
    · exact ⟨_, ht.trans hself, .inr hwhy⟩
  apply Safe.bind
  refine ⟨htmp t x ht, ?_⟩
  apply Safe.bind
  refine (writeTmp_safe (s := t) (I := I) hne ?_ ?_).mono (fun _ h => h) ?_
  · intro u y hu
    rw [ht, Function.update_idem] at hu
    exact htmp u y hu
  · intro u hu
    rw [ht, Function.update_idem] at hu
    exact hnew u hu
  rintro r u (⟨rfl, hu⟩ | ⟨⟨e, rfl⟩, ⟨y, hu⟩, hwhy⟩)
  · rw [ht, Function.update_idem] at hu
    exact ⟨hnew u hu, .inl ⟨rfl, hu⟩⟩
  · rw [ht, Function.update_idem] at hu
    have hreason : faults ∨ s.dir (tmpName name pid) = some .directory ∨
        s.dir name = some .directory := by
      rw [ht, Function.update_self, Function.update_of_ne hne.symm] at hwhy
      rcases hwhy with hfaults | hstale | htarget
      · exact .inl hfaults
      · rcases hx with rfl | hfaults | hdirectory
        · exact absurd rfl hstale
        · exact .inl hfaults
        · exact .inr (.inl hdirectory)
      · exact .inr (.inr htarget)
    refine ⟨htmp u y hu, fun a v hd => ?_⟩
    rcases hd.removeFile_cases with hv | ⟨hv, hundeleted, -⟩
    · rw [hu, Function.update_idem] at hv
      exact ⟨htmp v _ hv, .inr ⟨⟨_, rfl⟩, ⟨none, hv, .inl rfl⟩, hreason⟩⟩
    · rw [hu] at hv
      exact ⟨htmp v _ hv, .inr ⟨⟨_, rfl⟩, ⟨y, hv, .inr hundeleted⟩, hreason⟩⟩

end Rules

/-- The target as it was, or as it is to be; no other file changes. -/
structure OldOrNew (d : Dir OsString UInt8) (pid : Nat) (name : OsString) (new : File UInt8)
    (d' : Dir OsString UInt8) : Prop where
  target : d' name = d name ∨ d' name = some (.file new)
  others : ∀ n, n ≠ name → n ≠ tmpName name pid → d' n = d n

section Atomic

variable {d : Dir OsString UInt8} {pid : Nat} {name : OsString} {new : File UInt8}
  {d' : Dir OsString UInt8}

theorem oldOrNew_of_tmp {x : Option (Entry UInt8)}
    (h : d' = Function.update d (tmpName name pid) x) : OldOrNew d pid name new d' where
  target := .inl (by rw [h, Function.update_of_ne (tmpName_ne name pid).symm])
  others n _ hn := by rw [h, Function.update_of_ne hn]

theorem oldOrNew_of_new
    (h : d' = Function.update (Function.update d (tmpName name pid) none) name (some (.file new))) :
    OldOrNew d pid name new d' where
  target := .inr (by rw [h, Function.update_self])
  others n hname hn := by rw [h, Function.update_of_ne hname, Function.update_of_ne hn]

end Atomic

/-- `write_atomic` under a cut or a failure at any of its calls, and without. -/
theorem writeAtomic_atomic (umask mode : Directory.Mode) (pid : Nat) (fileName : Option OsString)
    (contents : Text) (s : Traced OsString UInt8) :
    (∀ p t, Steps (device umask True) ((writeAtomic pid fileName contents mode).run, s) (p, t) →
      (fileName = none → t.dir = s.dir) ∧ ∀ name, fileName = some name →
        OldOrNew s.dir pid name ⟨utf8 contents, mode &&& ~~~umask⟩ t.dir) ∧
    (∀ t, Steps (device umask True) ((writeAtomic pid fileName contents mode).run, s)
        (.ret (.ok ()), t) → ∃ name, fileName = some name ∧
      t.dir name = some (.file ⟨utf8 contents, mode &&& ~~~umask⟩) ∧
      t.dir (tmpName name pid) = none) ∧
    (∀ e t, Steps (device umask True) ((writeAtomic pid fileName contents mode).run, s)
        (.ret (.error e), t) → ∀ name, fileName = some name →
      t.dir name = s.dir name ∧ (t.dir (tmpName name pid) = none ∨ t.undeleted = true)) ∧
    ∀ name, fileName = some name → s.dir name ≠ some .directory →
      s.dir (tmpName name pid) ≠ some .directory →
      (∃ t, Steps (device umask False) ((writeAtomic pid fileName contents mode).run, s)
        (.ret (.ok ()), t)) ∧
      ∀ r t, Steps (device umask False) ((writeAtomic pid fileName contents mode).run, s)
        (.ret r, t) → r = .ok () ∧
          t.dir name = some (.file ⟨utf8 contents, mode &&& ~~~umask⟩) ∧
          t.dir (tmpName name pid) = none := by
  cases fileName with
  | none =>
    have hstays : ∀ p t, Steps (device umask True) ((writeAtomic pid none contents mode).run, s) (p, t) →
        t = s ∧ p = .ret (.error .invalidFilename) := by
      intro p t hrun
      rcases Relation.ReflTransGen.cases_head hrun with heq | ⟨c, hstep, -⟩
      · cases heq
        exact ⟨rfl, rfl⟩
      · cases hstep
    refine ⟨?_, ?_, ?_, ?_⟩
    · intro p t hrun
      exact ⟨fun _ => by rw [(hstays p t hrun).1], by rintro _ ⟨⟩⟩
    · intro t hrun
      cases (hstays _ t hrun).2
    · rintro e t - _ ⟨⟩
    · rintro _ ⟨⟩
  | some name =>
    have hne := tmpName_ne name pid
    have hsafe (faults : Prop) : Safe (device umask faults)
        (fun t => OldOrNew s.dir pid name ⟨utf8 contents, mode &&& ~~~umask⟩ t.dir)
        (writeAtomic pid (some name) contents mode).run _ s :=
      writeAtomic_safe (fun t x => oldOrNew_of_tmp) (fun t => oldOrNew_of_new)
    have hdone : ∀ t : Traced OsString UInt8, t.dir = Function.update
        (Function.update s.dir (tmpName name pid) none) name
          (some (.file ⟨utf8 contents, mode &&& ~~~umask⟩)) →
        t.dir name = some (.file ⟨utf8 contents, mode &&& ~~~umask⟩) ∧
          t.dir (tmpName name pid) = none := by
      intro t ht
      rw [ht, Function.update_self, Function.update_of_ne hne, Function.update_self]
      exact ⟨rfl, rfl⟩
    refine ⟨?_, ?_, ?_, ?_⟩
    · intro p t hrun
      refine ⟨by rintro ⟨⟩, ?_⟩
      rintro _ ⟨⟩
      exact ((hsafe True).steps hrun).now
    · intro t hrun
      rcases ((hsafe True).steps hrun).2 with ⟨-, ht⟩ | ⟨⟨e, he⟩, -, -⟩
      · exact ⟨name, rfl, hdone t ht⟩
      · cases he
    · rintro e t hrun _ ⟨⟩
      rcases ((hsafe True).steps hrun).2 with ⟨he, -⟩ | ⟨-, ⟨x, ht, hx⟩, -⟩
      · cases he
      · rw [ht, Function.update_of_ne hne.symm, Function.update_self]
        exact ⟨rfl, hx⟩
    · rintro _ ⟨⟩ htarget hstale
      have hok : ∀ r t, Steps (device umask False)
          ((writeAtomic pid (some name) contents mode).run, s) (.ret r, t) → r = .ok () ∧
            t.dir name = some (.file ⟨utf8 contents, mode &&& ~~~umask⟩) ∧
            t.dir (tmpName name pid) = none := by
        intro r t hrun
        rcases ((hsafe False).steps hrun).2 with ⟨rfl, ht⟩ | ⟨-, -, hwhy⟩
        · exact ⟨rfl, hdone t ht⟩
        · rcases hwhy with hfalse | hdirectory | hdirectory
          · exact hfalse.elim
          · exact absurd hdirectory hstale
          · exact absurd hdirectory htarget
      obtain ⟨r, t, hrun⟩ := exists_steps (exists_step umask)
        (writeAtomic pid (some name) contents mode).run s
      obtain ⟨rfl, -⟩ := hok r t hrun
      exact ⟨⟨t, hrun⟩, hok⟩

/-! ### The tool's two files -/

def configFile : OsString := utf8 "config.toml".toList
def credentialsFile : OsString := utf8 "credentials.toml".toList

def configMode : Directory.Mode := 0o644
def credentialsMode : Directory.Mode := 0o600

/-- `toToml` fails where the value cannot be written as TOML. -/
def save {α : Type} (toToml : α → Option Text) (pid : Nat) (name : OsString) (value : α)
    (mode : Directory.Mode) : StoreIo StoreError Unit := do
  ExceptT.mk do return (← Prog.perform Directory.Cmd.ensureDir).mapError fun _ => StoreError.write
  match toToml value with
  | none => throw .serialize
  | some contents => writeAtomic pid (some name) contents mode

/-- The file of that name holds a value, or there is none. -/
def Holds {α : Type} (fromToml : List UInt8 → Option α) (d : Dir OsString UInt8) (name : OsString) :
    Option α → Prop
  | none => d name = none
  | some value => ∃ f, d name = some (.file f) ∧ fromToml f.contents = some value

section Save

variable {α : Type} {toToml : α → Option Text} {fromToml : List UInt8 → Option α}
  {umask mode : Directory.Mode}
  {faults : Prop} {pid : Nat} {name : OsString} {value : α} {s : Traced OsString UInt8}

theorem Holds.congr {d d' : Dir OsString UInt8} (h : d' name = d name) {file : Option α}
    (hd : Holds fromToml d name file) : Holds fromToml d' name file := by
  cases file with
  | none => exact h.trans hd
  | some value =>
    obtain ⟨f, hf, hvalue⟩ := hd
    exact ⟨f, h.trans hf, hvalue⟩

/-- A file of the tool is replaced whole or not at all, and no other changes. -/
theorem save_safe (hround : ∀ contents, toToml value = some contents →
      fromToml (utf8 contents) = some value) {old : Option α} (hold : Holds fromToml s.dir name old) :
    Safe (device umask faults)
      (fun t => Holds fromToml t.dir name old ∨ Holds fromToml t.dir name (some value))
      (save toToml pid name value mode).run
      (fun r t => (∀ n, n ≠ name → n ≠ tmpName name pid → t.dir n = s.dir n) ∧
        Holds fromToml t.dir name (if r = .ok () then some value else old)) s := by
  apply Safe.bindExcept
  refine ⟨.inl hold, fun a t hd => ?_⟩
  have ht : t.dir = s.dir := hd.1
  have hkept : Holds fromToml t.dir name old := ht ▸ hold
  refine ⟨.inl hkept, ?_⟩
  cases a with
  | error e => exact ⟨.inl hkept, fun n _ _ => by rw [ht], hkept⟩
  | ok _ =>
    dsimp only [Except.mapError]
    cases hcontents : toToml value with
    | none => exact ⟨.inl hkept, fun n _ _ => by rw [ht], hkept⟩
    | some contents =>
      have hnew : ∀ u : Dir OsString UInt8,
          u name = some (.file ⟨utf8 contents, mode &&& ~~~umask⟩) →
            Holds fromToml u name (some value) :=
        fun u hu => ⟨_, hu, hround contents hcontents⟩
      have hsafe : Safe (device umask faults)
          (fun u => OldOrNew t.dir pid name ⟨utf8 contents, mode &&& ~~~umask⟩ u.dir)
          (writeAtomic pid (some name) contents mode).run _ t :=
        writeAtomic_safe (fun u x => oldOrNew_of_tmp) (fun u => oldOrNew_of_new)
      refine hsafe.result.mono ?_ ?_
      · intro u hu
        exact hu.target.imp (fun h => hkept.congr h) (hnew u.dir)
      · rintro r u ⟨hu, hr⟩
        refine ⟨fun n hn hn' => (hu.others n hn hn').trans (by rw [ht]), ?_⟩
        rcases hr with ⟨rfl, hdir⟩ | ⟨⟨e, rfl⟩, ⟨x, hdir, -⟩, -⟩
        · exact hnew u.dir (by rw [hdir, Function.update_self])
        · exact hkept.congr (by rw [hdir, Function.update_of_ne (tmpName_ne name pid).symm])

end Save

/-- The directory holds the two files of a disk. -/
structure Represents (fromConfig : List UInt8 → Option ConfigFile)
    (fromCredentials : List UInt8 → Option CredentialsFile) (d : Dir OsString UInt8) (disk : Disk) :
    Prop where
  config : Holds fromConfig d configFile disk.config
  credentials : Holds fromCredentials d credentialsFile disk.credentials

theorem tmpName_ne_of_take {name other : OsString} (pid : Nat) (hlength : 2 ≤ name.length)
    (h : other.take 2 ≠ name.take 2) : other ≠ tmpName name pid := by
  rintro rfl
  rw [tmpName, List.take_append_of_le_length hlength] at h
  exact h rfl

section FilesStep

variable {fromConfig : List UInt8 → Option ConfigFile}
  {fromCredentials : List UInt8 → Option CredentialsFile} {umask : Directory.Mode} {pid : Nat}
  {s : Traced OsString UInt8} {files : Files}

/-- Saving a file is one step on the disk, whatever fails on the way. -/
theorem saveConfig_filesStep {toToml : ConfigFile → Option Text} {file : ConfigFile}
    (hround : ∀ contents, toToml file = some contents → fromConfig (utf8 contents) = some file)
    (h : Represents fromConfig fromCredentials s.dir files.disk) :
    Safe (device umask True) (fun _ => True) (save toToml pid configFile file configMode).run
      (fun r t => ∃ files', filesStep files (.writeConfig file) (r.mapError .store) files' ∧
        Represents fromConfig fromCredentials t.dir files'.disk) s := by
  have hother : credentialsFile ≠ tmpName configFile pid :=
    tmpName_ne_of_take pid (by decide) (by decide)
  refine (save_safe hround h.config).mono (fun _ _ => trivial) ?_
  rintro r t ⟨hothers, hconfig⟩
  have hcredentials := h.credentials.congr (hothers credentialsFile (by decide) hother)
  cases r with
  | ok _ => exact ⟨_, rfl, hconfig, hcredentials⟩
  | error e => exact ⟨files, rfl, hconfig, hcredentials⟩

theorem saveCredentials_filesStep {toToml : CredentialsFile → Option Text} {file : CredentialsFile}
    (hround : ∀ contents, toToml file = some contents → fromCredentials (utf8 contents) = some file)
    (h : Represents fromConfig fromCredentials s.dir files.disk) :
    Safe (device umask True) (fun _ => True)
      (save toToml pid credentialsFile file credentialsMode).run
      (fun r t => ∃ files', filesStep files (.writeCredentials file) (r.mapError .store) files' ∧
        Represents fromConfig fromCredentials t.dir files'.disk) s := by
  have hother : configFile ≠ tmpName credentialsFile pid :=
    tmpName_ne_of_take pid (by decide) (by decide)
  refine (save_safe hround h.credentials).mono (fun _ _ => trivial) ?_
  rintro r t ⟨hothers, hcredentials⟩
  have hconfig := h.config.congr (hothers configFile (by decide) hother)
  cases r with
  | ok _ => exact ⟨_, rfl, hconfig, hcredentials⟩
  | error e => exact ⟨files, rfl, hconfig, hcredentials⟩

end FilesStep

end Homescope
