import Homescope.Commands
import Mathlib.Data.BitVec
import Mathlib.Logic.Function.Basic

/-! One directory and the calls that a program makes on it. A call answers
with an error and leaves the directory as it is, or does all it was asked. -/

namespace Directory

open Commands

abbrev Mode := BitVec 32

structure File (B : Type) where
  contents : List B
  mode : Mode

inductive Entry (B : Type)
  | file (f : File B)
  | symlink (target : List B)
  | directory

/-- The entries by name. -/
abbrev Dir (N B : Type) := N → Option (Entry B)

inductive IoError
  | notFound
  | alreadyExists
  | writeZero
  | os (code : Nat)
  deriving DecidableEq, Repr

inductive Cmd (N B : Type)
  | ensureDir
  | removeFile (name : N)
  | createNew (name : N) (mode : Mode)
  | write (name : N) (buf : List B)
  | syncAll (name : N)
  | rename (name target : N)

variable {N B : Type} [DecidableEq N]

/-- `write` answers with how many of the bytes it took. -/
@[reducible] def Cmd.Answer : Cmd N B → Type
  | write _ _ => Except IoError Nat
  | _ => Except IoError Unit

abbrev FileM (N B ε α : Type) := ExceptT ε (Prog (Cmd N B) Cmd.Answer) α

/-- A file is created with the mode that the umask leaves of what was asked
for, and a rename replaces its target at once. -/
def step (umask : Mode) : Device (Cmd N B) Cmd.Answer (Dir N B)
  | d, .removeFile name, .ok _, d' =>
    (∃ e, d name = some e ∧ e ≠ .directory) ∧ d' = Function.update d name none
  | d, .createNew name mode, .ok _, d' =>
    d name = none ∧ d' = Function.update d name (some (.file ⟨[], mode &&& ~~~umask⟩))
  | d, .write name buf, .ok n, d' =>
    n ≤ buf.length ∧ ∃ f, d name = some (.file f) ∧
      d' = Function.update d name (some (.file ⟨f.contents ++ buf.take n, f.mode⟩))
  | d, .rename name target, .ok _, d' =>
    ∃ f, d name = some (.file f) ∧ d target ≠ some .directory ∧
      d' = Function.update (Function.update d name none) target (some (.file f))
  | d, .ensureDir, _, d' => d' = d
  | d, .syncAll _, _, d' => d' = d
  | d, .removeFile _, .error _, d' => d' = d
  | d, .createNew _ _, .error _, d' => d' = d
  | d, .write _ _, .error _, d' => d' = d
  | d, .rename _ _, .error _, d' => d' = d

/-- The call failed though the directory gave no reason for it. -/
def Fault (d : Dir N B) : (c : Cmd N B) → c.Answer → Prop
  | .ensureDir, .error _ => True
  | .removeFile name, .error _ => ∃ e, d name = some e ∧ e ≠ .directory
  | .createNew name _, .error _ => d name = none
  | .write name _, .error _ => ∃ f, d name = some (.file f)
  | .write _ buf, .ok n => buf ≠ [] ∧ n = 0
  | .syncAll _, .error _ => True
  | .rename name target, .error _ => (∃ f, d name = some (.file f)) ∧ d target ≠ some .directory
  | _, _ => False

/-- A directory, and whether the last file that was to be deleted is still there. -/
structure Traced (N B : Type) where
  dir : Dir N B
  undeleted : Bool

def noteDelete (s : Traced N B) : (c : Cmd N B) → c.Answer → Bool
  | .removeFile _, .ok _ => false
  | .removeFile name, .error _ => (s.dir name).isSome
  | _, _ => s.undeleted

/-- The directory under a program. A call that could work fails only if `faults`. -/
def device (umask : Mode) (faults : Prop) : Device (Cmd N B) Cmd.Answer (Traced N B) :=
  fun s c a t => step umask s.dir c a t.dir ∧ t.undeleted = noteDelete s c a ∧
    (Fault s.dir c a → faults)

/-- `write_all`: what a short write left over is written next. -/
def writeAll (name : N) (buf : List B) : Prog (Cmd N B) Cmd.Answer (Except IoError Unit) :=
  if buf = [] then .ret (.ok ())
  else .cmd (.write name buf) fun
    | .error e => .ret (.error e)
    | .ok 0 => .ret (.error .writeZero)
    | .ok (n + 1) => writeAll name (buf.drop (n + 1))
termination_by buf.length
decreasing_by
  have hlength : 0 < buf.length := List.length_pos_iff.mpr ‹_›
  rw [List.length_drop]
  omega

section Rules

variable {umask : Mode} {faults : Prop} {I : Traced N B → Prop} {s : Traced N B}

/-- Some call of the directory can always be answered. -/
theorem exists_step (umask : Mode) {faults : Prop} (s : Traced N B) (c : Cmd N B) :
    ∃ a t, device umask faults s c a t := by
  cases c with
  | ensureDir => exact ⟨.ok (), ⟨s.dir, s.undeleted⟩, rfl, rfl, False.elim⟩
  | removeFile name =>
    by_cases h : ∃ e, s.dir name = some e ∧ e ≠ .directory
    · exact ⟨.ok (), ⟨Function.update s.dir name none, false⟩, ⟨h, rfl⟩, rfl, False.elim⟩
    · exact ⟨.error .notFound, ⟨s.dir, (s.dir name).isSome⟩, rfl, rfl, fun hf => absurd hf h⟩
  | createNew name mode =>
    by_cases h : s.dir name = none
    · exact ⟨.ok (), ⟨_, s.undeleted⟩, ⟨h, rfl⟩, rfl, False.elim⟩
    · exact ⟨.error .alreadyExists, ⟨s.dir, s.undeleted⟩, rfl, rfl, fun hf => absurd hf h⟩
  | write name buf =>
    by_cases h : ∃ f, s.dir name = some (.file f)
    · obtain ⟨f, hf⟩ := h
      refine ⟨.ok buf.length, ⟨_, s.undeleted⟩, ⟨le_rfl, f, hf, rfl⟩, rfl, ?_⟩
      rintro ⟨hne, hzero⟩
      exact absurd (List.eq_nil_of_length_eq_zero hzero) hne
    · exact ⟨.error (.os 0), ⟨s.dir, s.undeleted⟩, rfl, rfl, fun hf => absurd hf h⟩
  | syncAll name => exact ⟨.ok (), ⟨s.dir, s.undeleted⟩, rfl, rfl, False.elim⟩
  | rename name target =>
    by_cases h : (∃ f, s.dir name = some (.file f)) ∧ s.dir target ≠ some .directory
    · obtain ⟨⟨f, hf⟩, htarget⟩ := h
      exact ⟨.ok (), ⟨_, s.undeleted⟩, ⟨f, hf, htarget, rfl⟩, rfl, False.elim⟩
    · exact ⟨.error (.os 0), ⟨s.dir, s.undeleted⟩, rfl, rfl, fun hf => absurd hf h⟩

theorem device.removeFile_cases {name : N} {a : Except IoError Unit} {t : Traced N B}
    (h : device umask faults s (.removeFile name) a t) :
    t.dir = Function.update s.dir name none ∨
      t.dir = s.dir ∧ t.undeleted = true ∧ (faults ∨ s.dir name = some .directory) := by
  obtain ⟨hstep, hdelete, hfault⟩ := h
  cases a with
  | ok _ => exact .inl hstep.2
  | error e =>
    have hdir : t.dir = s.dir := hstep
    cases hname : s.dir name with
    | none => exact .inl (hdir.trans (Function.update_eq_self_iff.mpr hname.symm).symm)
    | some entry =>
      have hundeleted : t.undeleted = true := hdelete.trans (by rw [noteDelete, hname]; rfl)
      cases entry with
      | directory => exact .inr ⟨hdir, hundeleted, .inr rfl⟩
      | file f => exact .inr ⟨hdir, hundeleted, .inl (hfault ⟨_, hname, by rintro ⟨⟩⟩)⟩
      | symlink l => exact .inr ⟨hdir, hundeleted, .inl (hfault ⟨_, hname, by rintro ⟨⟩⟩)⟩

theorem device.createNew_cases {name : N} {mode : Mode} {a : Except IoError Unit} {t : Traced N B}
    (h : device umask faults s (.createNew name mode) a t) :
    a = .ok () ∧ t.dir = Function.update s.dir name (some (.file ⟨[], mode &&& ~~~umask⟩)) ∨
      (∃ e, a = .error e) ∧ t.dir = s.dir ∧ (faults ∨ s.dir name ≠ none) := by
  obtain ⟨hstep, -, hfault⟩ := h
  cases a with
  | ok _ => exact .inl ⟨rfl, hstep.2⟩
  | error e =>
    refine .inr ⟨⟨e, rfl⟩, hstep, ?_⟩
    by_cases hname : s.dir name = none
    · exact .inl (hfault hname)
    · exact .inr hname

theorem device.rename_cases {name target : N} {f : File B} (hf : s.dir name = some (.file f))
    {a : Except IoError Unit} {t : Traced N B}
    (h : device umask faults s (.rename name target) a t) :
    a = .ok () ∧ t.dir = Function.update (Function.update s.dir name none) target (some (.file f)) ∨
      (∃ e, a = .error e) ∧ t.dir = s.dir ∧ (faults ∨ s.dir target = some .directory) := by
  obtain ⟨hstep, -, hfault⟩ := h
  cases a with
  | ok _ =>
    obtain ⟨g, hg, -, ht⟩ := hstep
    rw [hf] at hg
    obtain rfl : f = g := Entry.file.inj (Option.some.inj hg)
    exact .inl ⟨rfl, ht⟩
  | error e =>
    refine .inr ⟨⟨e, rfl⟩, hstep, ?_⟩
    by_cases htarget : s.dir target = some .directory
    · exact .inr htarget
    · exact .inl (hfault ⟨⟨f, hf⟩, htarget⟩)

/-- All of the bytes, or a fault after some of them. -/
theorem writeAll_safe {name : N} {f : File B} {buf : List B} (hf : s.dir name = some (.file f))
    (hI : ∀ t contents, t.dir = Function.update s.dir name (some (.file ⟨contents, f.mode⟩)) → I t) :
    Safe (device umask faults) I (writeAll name buf)
      (fun r t => r = .ok () ∧
          t.dir = Function.update s.dir name (some (.file ⟨f.contents ++ buf, f.mode⟩)) ∨
        faults ∧ (∃ e, r = .error e) ∧
          ∃ contents, t.dir = Function.update s.dir name (some (.file ⟨contents, f.mode⟩))) s := by
  induction buf using writeAll.induct generalizing s f with
  | case1 =>
    have hself : s.dir = Function.update s.dir name (some (.file f)) :=
      (Function.update_eq_self_iff.mpr hf.symm).symm
    rw [writeAll, if_pos rfl, List.append_nil]
    exact ⟨hI s f.contents hself, .inl ⟨rfl, hself⟩⟩
  | case2 buf hne ih =>
    have hself : s.dir = Function.update s.dir name (some (.file f)) :=
      (Function.update_eq_self_iff.mpr hf.symm).symm
    rw [writeAll, if_neg hne]
    refine ⟨hI s f.contents hself, ?_⟩
    rintro (e | _ | n) t ⟨hstep, -, hfault⟩
    · have ht : t.dir = Function.update s.dir name (some (.file f)) := hstep.trans hself
      exact ⟨hI t f.contents ht, .inr ⟨hfault ⟨f, hf⟩, ⟨e, rfl⟩, f.contents, ht⟩⟩
    · obtain ⟨-, g, hg, ht⟩ := hstep
      obtain rfl : f = g := by
        rw [hf] at hg
        exact Entry.file.inj (Option.some.inj hg)
      exact ⟨hI t _ ht, .inr ⟨hfault ⟨hne, rfl⟩, ⟨_, rfl⟩, _, ht⟩⟩
    · obtain ⟨-, g, hg, ht⟩ := hstep
      obtain rfl : f = g := by
        rw [hf] at hg
        exact Entry.file.inj (Option.some.inj hg)
      have hrest := ih n (s := t) (f := ⟨f.contents ++ buf.take (n + 1), f.mode⟩)
        (by rw [ht, Function.update_self]) (by
          intro u contents hu
          rw [ht, Function.update_idem] at hu
          exact hI u contents hu)
      refine hrest.mono (fun _ h => h) ?_
      intro r u hu
      rw [ht] at hu
      simp only [Function.update_idem, List.append_assoc, List.take_append_drop] at hu
      exact hu

end Rules

end Directory
