import Homescope.ApiUrl
import Homescope.Commands
import Homescope.Elf
import Homescope.Tool
import Mathlib.Data.List.Nodup
import Mathlib.Data.String.Basic

/-! The firmware store (`provision/src/firmware.rs`): a manifest of named rows,
and the images they name by hash. The manifest is edited in memory and then
written whole. -/

namespace Homescope.Firmware

open Commands

def idLen : Nat := 12

/-- A row of the manifest. -/
structure Artifact extends Homescope.Artifact where
  builtAt : Timestamp
  git : Option String
  dirty : Bool
  deriving DecidableEq, Repr

inductive FirmwareError
  | read (path : String)
  | write (path : String)
  | parse
  | serialize
  | elf (path : String) (e : Elf.Error)
  | invalidName (name : String)
  deriving DecidableEq, Repr

inductive ManifestFile
  | notFound
  | unreadable
  | malformed
  | contents (artifacts : List Artifact)

/-- What the store does to the file system. `git` answers what the command
prints, trimmed, and nothing where it fails or the path has no parent. -/
inductive Cmd
  | readManifest
  | readFile (path : String)
  | git (path : String) (args : List String)
  | now
  | createDirAll
  | writeImage (id : String) (bytes : List Byte)
  | serialize (artifacts : List Artifact)
  | writeManifest (artifacts : List Artifact)
  | removeImage (id : String)

@[reducible] def Cmd.Answer : Cmd → Type
  | readManifest => ManifestFile
  | readFile _ => Option (List Byte)
  | git _ _ => Option String
  | now => Timestamp
  | createDirAll => Bool
  | writeImage _ _ => Bool
  | serialize _ => Bool
  | writeManifest _ => Bool
  | removeImage _ => Bool

abbrev FirmwareM := Prog Cmd Cmd.Answer

/-- The manifest as the tool holds it. -/
structure Store where
  artifacts : List Artifact

def hexDigit (n : Nat) : Char := "0123456789abcdef".toList.getD n '0'

def hex (bytes : List Byte) : String :=
  String.ofList (bytes.flatMap fun b => [hexDigit (b.toNat / 16), hexDigit (b.toNat % 16)])

def imagePath (id : String) : String := id ++ ".elf"

/-- `char::is_control`. -/
def isControl (c : Char) : Bool := c.toNat < 0x20 || (0x7F ≤ c.toNat && c.toNat < 0xA0)

def validName (name : String) : Bool :=
  name ≠ "" && !name.toList.any fun c => isWhitespace c || isControl c

def provenance (path : String) : FirmwareM (Option String × Bool) := do
  match (← Prog.perform (Cmd.git path ["rev-parse", "--short", "HEAD"])).filter (· ≠ "") with
  | none => return (none, false)
  | some commit =>
    let status ← Prog.perform (Cmd.git path ["status", "--porcelain", "--untracked-files=no"])
    return (some commit, status.any (· ≠ ""))

namespace Store

def get (self : Store) (name : String) : Option Artifact :=
  self.artifacts.find? fun a => a.name = name

def load : FirmwareM (Except FirmwareError Store) := do
  match ← Prog.perform Cmd.readManifest with
  | .notFound => return .ok ⟨[]⟩
  | .unreadable => return .error (.read "manifest.toml")
  | .malformed => return .error .parse
  | .contents artifacts => return .ok ⟨artifacts⟩

/-- The row put in place of the first one of its name, before sorting. -/
def put (artifact : Artifact) : List Artifact → Option Artifact × List Artifact
  | [] => (none, [artifact])
  | a :: rest =>
    if a.name = artifact.name then (some a, artifact :: rest)
    else ((put artifact rest).1, a :: (put artifact rest).2)

def replace (self : Store) (artifact : Artifact) : Option Artifact × Store :=
  ((put artifact self.artifacts).1,
    ⟨(put artifact self.artifacts).2.mergeSort fun a b => a.name ≤ b.name⟩)

def save (self : Store) : FirmwareM (Except FirmwareError Unit) := do
  if ← Prog.perform (Cmd.serialize self.artifacts) then
    if ← Prog.perform (Cmd.writeManifest self.artifacts) then return .ok ()
    else return .error (.write "manifest.toml")
  else return .error .serialize

/-- The end of an `add`: the new manifest is saved, and then the image that it
replaced goes. -/
def commit (self : Store) (artifact : Artifact) :
    FirmwareM (Except FirmwareError Artifact × Store) := do
  let (replaced, self) := self.replace artifact
  match ← self.save with
  | .error e => return (.error e, self)
  | .ok _ =>
    match replaced with
    | none => return (.ok artifact, self)
    | some old =>
      if old.id ≠ artifact.id ∧ ¬∃ a ∈ self.artifacts, a.id = old.id then
        let _ ← Prog.perform (Cmd.removeImage old.id)
      return (.ok artifact, self)

def add (digest : List Byte → List Byte) (parse : List Byte → Option Elf.File) (self : Store)
    (path name : String) : FirmwareM (Except FirmwareError Artifact × Store) := do
  if !validName name then return (.error (.invalidName name), self)
  match ← Prog.perform (Cmd.readFile path) with
  | none => return (.error (.read path), self)
  | some bytes =>
    match Elf.read parse bytes with
    | .error e => return (.error (.elf path e), self)
    | .ok image =>
      let id := hex ((digest bytes).take (idLen / 2))
      let (git, dirty) ← provenance path
      let builtAt ← Prog.perform Cmd.now
      let artifact : Artifact :=
        { id, name, appStart := image.appStart, storage := image.storage, builtAt, git, dirty }
      if ← Prog.perform Cmd.createDirAll then
        if ← Prog.perform (Cmd.writeImage id bytes) then self.commit artifact
        else return (.error (.write (imagePath id)), self)
      else return (.error (.write "firmware"), self)

def remove (self : Store) (name : String) :
    FirmwareM (Except FirmwareError (Option Artifact) × Store) := do
  match self.get name with
  | none => return (.ok none, self)
  | some removed =>
    let self : Store := ⟨self.artifacts.eraseP fun a => a.name = name⟩
    match ← self.save with
    | .error e => return (.error e, self)
    | .ok _ =>
      if ¬∃ a ∈ self.artifacts, a.id = removed.id then
        let _ ← Prog.perform (Cmd.removeImage removed.id)
      return (.ok (some removed), self)

end Store

/-! ### The directory -/

structure Disk where
  manifest : Option (List Artifact)
  images : String → Option (List Byte)

def Disk.rows (s : Disk) : List Artifact := s.manifest.getD []

/-- The directory, and the images that the operation could not delete. -/
structure Files where
  disk : Disk
  undeleted : List String

/-- A file is written, replaced or deleted as a whole; an operation that
reports a failure may have taken place. -/
def filesStep (s : Files) : (c : Cmd) → c.Answer → Files → Prop
  | .readManifest, a, t => t = s ∧ match a with
    | .notFound => s.disk.manifest = none
    | .contents artifacts => s.disk.manifest = some artifacts
    | _ => True
  | .writeImage id bytes, a, t =>
    t = { s with disk.images := Function.update s.disk.images id (some bytes) } ∨ a = false ∧ t = s
  | .writeManifest artifacts, a, t =>
    t = { s with disk.manifest := some artifacts } ∨ a = false ∧ t = s
  | .removeImage id, a, t => match a with
    | true => t = { s with disk.images := Function.update s.disk.images id none }
    | false =>
      t = { s with undeleted := id :: s.undeleted } ∨
        t = { disk := { s.disk with images := Function.update s.disk.images id none }
              undeleted := id :: s.undeleted }
  | _, _, t => t = s

def imageId (digest : List Byte → List Byte) (bytes : List Byte) : String :=
  hex ((digest bytes).take (idLen / 2))

section Sound

variable {digest : List Byte → List Byte}

/-- The file named by `id` exists and its hash is `id`. -/
def Holds (digest : List Byte → List Byte) (images : String → Option (List Byte)) (id : String) :
    Prop :=
  ∃ bytes, images id = some bytes ∧ imageId digest bytes = id

/-- Rows in the order of their names, no name twice, each with its image. -/
structure Sound (digest : List Byte → List Byte) (images : String → Option (List Byte))
    (rows : List Artifact) : Prop where
  sorted : rows.Pairwise fun a b => a.name < b.name
  stored : ∀ a ∈ rows, Holds digest images a.id

def Disk.Consistent (digest : List Byte → List Byte) (s : Disk) : Prop :=
  Sound digest s.images s.rows

theorem Holds.write {images : String → Option (List Byte)} {id : String} (bytes : List Byte)
    (h : Holds digest images id) :
    Holds digest (Function.update images (imageId digest bytes) (some bytes)) id := by
  obtain ⟨b, hb, hid⟩ := h
  by_cases he : id = imageId digest bytes
  · subst he
    exact ⟨bytes, Function.update_self .., rfl⟩
  · exact ⟨b, (Function.update_of_ne he ..).trans hb, hid⟩

theorem Sound.write {images : String → Option (List Byte)} {rows : List Artifact}
    (bytes : List Byte) (h : Sound digest images rows) :
    Sound digest (Function.update images (imageId digest bytes) (some bytes)) rows :=
  ⟨h.sorted, fun a ha => (h.stored a ha).write bytes⟩

theorem Sound.delete {images : String → Option (List Byte)} {rows : List Artifact} {id : String}
    (h : Sound digest images rows) (hid : ¬∃ a ∈ rows, a.id = id) :
    Sound digest (Function.update images id none) rows := by
  refine ⟨h.sorted, fun a ha => ?_⟩
  obtain ⟨bytes, hb, he⟩ := h.stored a ha
  exact ⟨bytes, (Function.update_of_ne (fun h => hid ⟨a, ha, h⟩) ..).trans hb, he⟩

theorem Sound.get_of_mem {images : String → Option (List Byte)} {self : Store} {a : Artifact}
    (h : Sound digest images self.artifacts) (ha : a ∈ self.artifacts) :
    self.get a.name = some a := by
  obtain ⟨b, hb⟩ : ∃ b, self.get a.name = some b :=
    Option.isSome_iff_exists.mp (List.find?_isSome.mpr ⟨a, ha, decide_eq_true rfl⟩)
  have hname : b.name = a.name := of_decide_eq_true (List.find?_some (p := fun r : Artifact =>
    decide (r.name = a.name)) hb)
  have hnodup : (self.artifacts.map fun a => a.name).Nodup :=
    List.pairwise_map.mpr (h.sorted.imp ne_of_lt)
  rw [hb]
  exact congrArg some (List.inj_on_of_nodup_map hnodup (List.mem_of_find?_eq_some hb) ha hname)

/-! ### Editing the rows -/

theorem put_fst (artifact : Artifact) (rows : List Artifact) :
    (Store.put artifact rows).1 = rows.find? fun a => a.name = artifact.name := by
  induction rows with
  | nil => rfl
  | cons a rest ih =>
    rw [Store.put, List.find?_cons]
    by_cases h : a.name = artifact.name
    · rw [if_pos h, decide_eq_true h]
    · rw [if_neg h, decide_eq_false h]
      exact ih

theorem put_perm (artifact : Artifact) {rows : List Artifact}
    (h : rows.Pairwise fun a b => a.name < b.name) :
    ((Store.put artifact rows).2).Perm
      (artifact :: rows.filter fun a => a.name ≠ artifact.name) := by
  induction rows with
  | nil => exact .refl _
  | cons a rest ih =>
    obtain ⟨hlt, hrest⟩ := List.pairwise_cons.mp h
    rw [Store.put]
    by_cases ha : a.name = artifact.name
    · have hall : rest.filter (fun b => b.name ≠ artifact.name) = rest := by
        refine List.filter_eq_self.mpr fun b hb => decide_eq_true fun he => ?_
        exact absurd (ha.trans he.symm) (hlt b hb).ne
      rw [if_pos ha, List.filter_cons_of_neg (by simpa using ha), hall]
    · rw [if_neg ha, List.filter_cons_of_pos (by simpa using ha)]
      exact ((ih hrest).cons a).trans (.swap ..)

theorem Sound.replace {images : String → Option (List Byte)} {self : Store} {artifact : Artifact}
    (h : Sound digest images self.artifacts) (ha : Holds digest images artifact.id) :
    Sound digest images (self.replace artifact).2.artifacts ∧
      artifact ∈ (self.replace artifact).2.artifacts := by
  have hperm : (self.replace artifact).2.artifacts.Perm
      (artifact :: self.artifacts.filter fun a => a.name ≠ artifact.name) :=
    (List.mergeSort_perm _ _).trans (put_perm artifact h.sorted)
  have hle : (self.replace artifact).2.artifacts.Pairwise fun a b => a.name ≤ b.name := by
    have htrans : ∀ a b c : Artifact, decide (a.name ≤ b.name) = true →
        decide (b.name ≤ c.name) = true → decide (a.name ≤ c.name) = true := by
      intro a b c hab hbc
      exact decide_eq_true ((of_decide_eq_true hab).trans (of_decide_eq_true hbc))
    have htotal : ∀ a b : Artifact,
        (decide (a.name ≤ b.name) || decide (b.name ≤ a.name)) = true := by
      intro a b
      simpa using le_total a.name b.name
    exact (List.pairwise_mergeSort htrans htotal _).imp of_decide_eq_true
  have hne : (self.replace artifact).2.artifacts.Pairwise fun a b => a.name ≠ b.name := by
    refine (hperm.pairwise_iff fun h => h.symm).mpr (List.pairwise_cons.mpr ⟨fun b hb => ?_, ?_⟩)
    · exact (of_decide_eq_true (List.mem_filter.mp hb).2).symm
    · exact (h.sorted.imp ne_of_lt).filter _
  refine ⟨⟨(hle.and hne).imp fun h => lt_of_le_of_ne h.1 h.2, fun a hmem => ?_⟩,
    hperm.mem_iff.mpr List.mem_cons_self⟩
  rcases List.mem_cons.mp (hperm.mem_iff.mp hmem) with rfl | hold
  · exact ha
  · exact h.stored a (List.mem_filter.mp hold).1

end Sound

/-! ### One operation -/

/-- The image is deleted, or a row names it, or deleting it failed. -/
def Files.Gone (s : Files) (id : String) : Prop :=
  s.disk.images id = none ∨ (∃ a ∈ s.disk.rows, a.id = id) ∨ id ∈ s.undeleted

section Operations

variable {digest : List Byte → List Byte} {s : Files}

def Files.Consistent (digest : List Byte → List Byte) (s : Files) : Prop :=
  s.disk.Consistent digest

/-- What an operation on `name` that began with `before` leaves: rows that the
store may go on with, and on success no image without a row. -/
def Store.Done (digest : List Byte → List Byte) (before : Store) (name : String) (succeeded : Bool)
    (self : Store) (t : Files) : Prop :=
  Sound digest t.disk.images self.artifacts ∧
    (succeeded = true → ∀ old, before.get name = some old → t.Gone old.id)

theorem Store.save_safe {self : Store} (hs : s.Consistent digest)
    (hself : Sound digest s.disk.images self.artifacts) :
    Safe filesStep (Files.Consistent digest) self.save
      (fun r t => Sound digest t.disk.images self.artifacts ∧
        (r = .ok () → t.disk.rows = self.artifacts)) s := by
  refine ⟨hs, ?_⟩
  rintro (_ | _) t rfl
  · exact ⟨hs, hself, nofun⟩
  · refine ⟨hs, ?_⟩
    rintro a t (rfl | ⟨rfl, rfl⟩)
    · cases a with
      | false => exact ⟨hself, hself, nofun⟩
      | true => exact ⟨hself, hself, fun _ => rfl⟩
    · exact ⟨hs, hself, nofun⟩

/-- The end of an operation: the image goes when no row names it. -/
theorem discard_safe {α : Type} {x : α} {id : String} {c : Prop} [Decidable c]
    (hs : s.Consistent digest) (hc : c → ¬∃ a ∈ s.disk.rows, a.id = id)
    (hnot : ¬c → ∃ a ∈ s.disk.rows, a.id = id) :
    Safe filesStep (Files.Consistent digest)
      (if c then Prog.perform (Cmd.removeImage id) >>= fun _ => pure x else pure x)
      (fun r t => r = x ∧ Sound digest t.disk.images s.disk.rows ∧ t.Gone id) s := by
  by_cases h : c
  · rw [if_pos h]
    have hdeleted := Sound.delete hs (hc h)
    refine ⟨hs, ?_⟩
    rintro (_ | _) t ht
    · rcases ht with rfl | rfl
      · exact ⟨hs, rfl, hs, .inr (.inr List.mem_cons_self)⟩
      · exact ⟨hdeleted, rfl, hdeleted, .inr (.inr List.mem_cons_self)⟩
    · obtain rfl : t = _ := ht
      exact ⟨hdeleted, rfl, hdeleted, .inl (Function.update_self ..)⟩
  · rw [if_neg h]
    exact ⟨hs, rfl, hs, .inr (.inl (hnot h))⟩

theorem Store.commit_safe {self : Store} {artifact : Artifact} (hs : s.Consistent digest)
    (hself : Sound digest s.disk.images self.artifacts)
    (hheld : Holds digest s.disk.images artifact.id) :
    Safe filesStep (Files.Consistent digest) (self.commit artifact)
      (fun r t => self.Done digest artifact.name r.1.isOk r.2 t) s := by
  obtain ⟨hsound, hmem⟩ := hself.replace hheld
  have hget : self.get artifact.name = (self.replace artifact).1 :=
    (put_fst artifact self.artifacts).symm
  rw [Store.commit]
  generalize self.replace artifact = replaced at hsound hmem hget ⊢
  obtain ⟨replaced, self'⟩ := replaced
  apply Safe.bind
  apply (Store.save_safe hs hsound).result.mono (fun _ h => h)
  rintro (e | _) t ⟨ht, hrows, hsaved⟩
  · exact ⟨ht, hrows, nofun⟩
  · have hrow : t.disk.rows = self'.artifacts := hsaved rfl
    cases replaced with
    | none =>
      refine ⟨ht, hrows, fun _ old h => ?_⟩
      rw [hget] at h
      cases h
    | some old =>
      dsimp only at hmem ⊢
      rw [← hrow] at hmem ⊢
      apply (discard_safe ht (fun h => h.2) fun h => ?_).mono (fun _ h => h)
      · rintro _ t' ⟨rfl, hsound', hgone⟩
        refine ⟨hrow ▸ hsound', fun _ old' h => ?_⟩
        rw [hget] at h
        cases h
        exact hgone
      · by_cases he : old.id = artifact.id
        · exact ⟨artifact, hmem, he.symm⟩
        · by_contra hnone
          exact h ⟨he, hnone⟩

theorem Store.remove_safe {self : Store} {name : String} (hs : s.Consistent digest)
    (hself : Sound digest s.disk.images self.artifacts) :
    Safe filesStep (Files.Consistent digest) (self.remove name)
      (fun r t => self.Done digest name r.1.isOk r.2 t) s := by
  rw [Store.remove]
  cases hold : self.get name with
  | none =>
    refine ⟨hs, hself, fun _ old h => ?_⟩
    rw [hold] at h
    cases h
  | some old =>
    have hsub := List.eraseP_sublist (p := fun a : Artifact => decide (a.name = name))
      (l := self.artifacts)
    have hsound : Sound digest s.disk.images
        (Store.mk (self.artifacts.eraseP fun a => decide (a.name = name))).artifacts :=
      ⟨hself.sorted.sublist hsub, fun a ha => hself.stored a (hsub.subset ha)⟩
    apply Safe.bind
    apply (Store.save_safe hs hsound).result.mono (fun _ h => h)
    rintro (e | _) t ⟨ht, hrows, hsaved⟩
    · exact ⟨ht, hrows, nofun⟩
    · have hrow := hsaved rfl
      dsimp only at hrow ⊢
      rw [← hrow]
      apply (discard_safe ht (fun h => h) not_not.mp).mono (fun _ h => h)
      rintro _ t' ⟨rfl, hsound', hgone⟩
      refine ⟨hrow ▸ hsound', fun _ old' h => ?_⟩
      rw [hold] at h
      cases h
      exact hgone

theorem provenance_safe {path : String} (hs : s.Consistent digest) :
    Safe filesStep (Files.Consistent digest) (provenance path) (fun _ t => t = s) s := by
  apply Safe.bind
  refine Safe.perform hs ?_
  rintro commit _ rfl
  refine ⟨hs, ?_⟩
  cases commit.filter (· ≠ "") with
  | none => exact ⟨hs, rfl⟩
  | some commit =>
    refine ⟨hs, ?_⟩
    rintro status _ rfl
    exact ⟨hs, rfl⟩

theorem Store.add_safe {parse : List Byte → Option Elf.File} {self : Store} {path name : String}
    (hs : s.Consistent digest) (hself : Sound digest s.disk.images self.artifacts) :
    Safe filesStep (Files.Consistent digest) (self.add digest parse path name)
      (fun r t => self.Done digest name r.1.isOk r.2 t) s := by
  have hfailed : self.Done digest name false self s := ⟨hself, nofun⟩
  rw [Store.add]
  by_cases hname : !validName name
  · rw [if_pos hname]
    exact ⟨hs, hfailed⟩
  rw [if_neg hname]
  apply Safe.bind
  refine Safe.perform hs ?_
  rintro (_ | bytes) _ rfl
  · exact ⟨hs, hs, hfailed⟩
  refine ⟨hs, ?_⟩
  dsimp only
  cases Elf.read parse bytes with
  | error e => exact ⟨hs, hfailed⟩
  | ok image =>
    apply Safe.bind
    apply (provenance_safe hs).mono (fun _ h => h)
    rintro ⟨git, dirty⟩ _ rfl
    refine ⟨hs, ?_⟩
    rintro builtAt _ rfl
    refine ⟨hs, ?_⟩
    rintro (_ | _) _ rfl
    · exact ⟨hs, hfailed⟩
    refine ⟨hs, ?_⟩
    rintro wrote t (rfl | ⟨rfl, rfl⟩)
    · have hwritten := Sound.write bytes hs
      have hself' := hself.write bytes
      cases wrote with
      | false => exact ⟨hwritten, hself', nofun⟩
      | true => exact Store.commit_safe hwritten hself' ⟨bytes, Function.update_self .., rfl⟩
    · exact ⟨hs, hfailed⟩

end Operations

/-! ### Runs of the tool -/

inductive Op
  | add (path name : String)
  | remove (name : String)

def Op.name : Op → String
  | add _ name => name
  | remove name => name

/-- An operation that has started, with the rows the store held and the rows on
disk at that moment. -/
structure Process where
  before : Store
  found : List Artifact
  op : Op
  program : FirmwareM (Bool × Store)

structure Machine where
  files : Files
  store : Option Store
  process : Option Process

def Machine.init : Machine := ⟨⟨⟨none, fun _ => none⟩, []⟩, none, none⟩

section Runs

variable {digest : List Byte → List Byte} {parse : List Byte → Option Elf.File}

/-- Whether the operation succeeds, and the store it leaves in memory. -/
def Op.program (digest : List Byte → List Byte) (parse : List Byte → Option Elf.File)
    (self : Store) : Op → FirmwareM (Bool × Store)
  | add path name => do
    let (result, self) ← self.add digest parse path name
    return (result.isOk, self)
  | remove name => do
    let (result, self) ← self.remove name
    return (result.isOk, self)

/-- A store that an operation leaves, also a failed one, may be used again. -/
inductive MachineStep (digest : List Byte → List Byte) (parse : List Byte → Option Elf.File) :
    Machine → Machine → Prop
  | load {s t : Files} {store : Option Store} {loaded : Except FirmwareError Store}
      (h : Steps filesStep (Store.load, s) (.ret loaded, t)) :
      MachineStep digest parse ⟨s, store, none⟩ ⟨t, loaded.toOption, none⟩
  | start {s : Files} {self : Store} (op : Op) :
      MachineStep digest parse ⟨s, some self, none⟩
        ⟨⟨s.disk, []⟩, none, some ⟨self, s.disk.rows, op, op.program digest parse self⟩⟩
  | ran {s t : Files} {before : Store} {found : List Artifact} {op : Op}
      {p q : FirmwareM (Bool × Store)} (h : Step filesStep (p, s) (q, t)) :
      MachineStep digest parse ⟨s, none, some ⟨before, found, op, p⟩⟩
        ⟨t, none, some ⟨before, found, op, q⟩⟩
  | finish {s : Files} {before self : Store} {found : List Artifact} {op : Op} {succeeded : Bool} :
      MachineStep digest parse ⟨s, none, some ⟨before, found, op, .ret (succeeded, self)⟩⟩
        ⟨s, some self, none⟩
  | kill {s : Files} {p : Process} : MachineStep digest parse ⟨s, none, some p⟩ ⟨s, none, none⟩

abbrev MachineRun (digest : List Byte → List Byte) (parse : List Byte → Option Elf.File) :
    Machine → Machine → Prop :=
  Relation.ReflTransGen (MachineStep digest parse)

structure Machine.Inv (digest : List Byte → List Byte) (s : Machine) : Prop where
  consistent : s.files.Consistent digest
  store : ∀ self, s.store = some self → Sound digest s.files.disk.images self.artifacts
  process : ∀ p, s.process = some p →
    (∀ a ∈ p.before.artifacts, p.before.get a.name = some a) ∧
      Safe filesStep (Files.Consistent digest) p.program
        (fun r t => p.before.Done digest p.op.name r.1 r.2 t) s.files

theorem Op.program_safe {s : Files} {self : Store} (op : Op) (hs : s.Consistent digest)
    (hself : Sound digest s.disk.images self.artifacts) :
    Safe filesStep (Files.Consistent digest) (op.program digest parse self)
      (fun r t => self.Done digest op.name r.1 r.2 t) s := by
  cases op with
  | add path name =>
    apply Safe.bind
    exact (Store.add_safe hs hself).result.mono (fun _ h => h) fun _ _ h => h
  | remove name =>
    apply Safe.bind
    exact (Store.remove_safe hs hself).result.mono (fun _ h => h) fun _ _ h => h

theorem Store.load_safe {s : Files} (hs : s.Consistent digest) :
    Safe filesStep (Files.Consistent digest) Store.load
      (fun r t => ∀ self, r.toOption = some self → Sound digest t.disk.images self.artifacts) s := by
  refine ⟨hs, ?_⟩
  rintro (_ | _ | _ | artifacts) _ ⟨rfl, hread⟩
  · refine ⟨hs, fun self h => ?_⟩
    cases h
    exact ⟨.nil, nofun⟩
  · exact ⟨hs, nofun⟩
  · exact ⟨hs, nofun⟩
  · refine ⟨hs, fun self h => ?_⟩
    cases h
    rw [Files.Consistent, Disk.Consistent, Disk.rows, hread] at hs
    exact hs

theorem Machine.Inv.step {s t : Machine} (h : MachineStep digest parse s t) (hs : s.Inv digest) :
    t.Inv digest := by
  cases h with
  | load h =>
    have hloaded := (Store.load_safe hs.consistent).steps h
    exact ⟨hloaded.1, hloaded.2, nofun⟩
  | start op =>
    have hself := hs.store _ rfl
    refine ⟨hs.consistent, nofun, fun p h => ?_⟩
    cases h
    exact ⟨fun a ha => hself.get_of_mem ha, op.program_safe hs.consistent hself⟩
  | ran h =>
    obtain ⟨hget, hsafe⟩ := hs.process _ rfl
    refine ⟨(hsafe.step h).now, nofun, fun p hp => ?_⟩
    cases hp
    exact ⟨hget, hsafe.step h⟩
  | finish =>
    refine ⟨hs.consistent, fun self h => ?_, nofun⟩
    cases h
    exact (hs.process _ rfl).2.2.1
  | kill => exact ⟨hs.consistent, nofun, nofun⟩

theorem Machine.Inv.init : Machine.init.Inv digest := ⟨⟨.nil, nofun⟩, nofun, nofun⟩

/-- The rows on disk are sorted, unique and have their images. An operation that
succeeds leaves no image of the row that its store held under its name, which is
the row on disk where the store held what was on disk. -/
theorem store_consistent {t : Machine} (h : MachineRun digest parse .init t) :
    (t.files.disk.rows.Pairwise fun a b => a.name < b.name) ∧
      (∀ a ∈ t.files.disk.rows, ∃ bytes, t.files.disk.images a.id = some bytes ∧
        imageId digest bytes = a.id) ∧
      ∀ p self, t.process = some p → p.program = .ret (true, self) → ∀ old : Artifact,
        (p.before.get p.op.name = some old ∨
          p.before.artifacts = p.found ∧ old ∈ p.found ∧ old.name = p.op.name) →
        t.files.disk.images old.id = none ∨ (∃ a ∈ t.files.disk.rows, a.id = old.id) ∨
          old.id ∈ t.files.undeleted := by
  have hinv : t.Inv digest := invariant_run h (fun _ _ => Machine.Inv.step) .init
  refine ⟨hinv.consistent.sorted, hinv.consistent.stored, fun p self hp hret old hold => ?_⟩
  obtain ⟨hget, hsafe⟩ := hinv.process p hp
  rw [hret] at hsafe
  refine hsafe.2.2 rfl old ?_
  rcases hold with hold | ⟨hfound, hmem, hname⟩
  · exact hold
  · rw [← hfound] at hmem
    exact hname ▸ hget old hmem

end Runs

/-! ### A store in use -/

/-- A device that carries everything out, with `saved` deciding whether the
manifest can be written. -/
def filesRun (file : String → List Byte) (saved : Bool) (s : Files) : (c : Cmd) → c.Answer × Files
  | .readManifest => (s.disk.manifest.elim .notFound .contents, s)
  | .readFile path => (some (file path), s)
  | .git _ _ => (none, s)
  | .now => (0, s)
  | .createDirAll => (true, s)
  | .writeImage id bytes =>
    (true, { s with disk.images := Function.update s.disk.images id (some bytes) })
  | .serialize _ => (true, s)
  | .writeManifest artifacts =>
    if saved then (true, { s with disk.manifest := some artifacts }) else (false, s)
  | .removeImage id => (true, { s with disk.images := Function.update s.disk.images id none })

theorem filesRun_step (file : String → List Byte) (saved : Bool) (s : Files) (c : Cmd) :
    filesStep s c (filesRun file saved s c).1 (filesRun file saved s c).2 := by
  cases c with
  | readManifest =>
    obtain ⟨⟨_ | artifacts, images⟩, undeleted⟩ := s
    · exact ⟨rfl, rfl⟩
    · exact ⟨rfl, rfl⟩
  | writeManifest artifacts =>
    cases saved with
    | false => exact .inr ⟨rfl, rfl⟩
    | true => exact .inl rfl
  | writeImage id bytes => exact .inl rfl
  | _ => rfl

/-- One load segment of one byte. -/
def sampleElf (filler : Byte) : List Byte :=
  [0x7F, 0x45, 0x4C, 0x46, 0x01, 0x01, 0x01, 0x00, 0x00, 0x00, 0x00, 0x00, 0x00, 0x00, 0x00, 0x00,
    0x02, 0x00, 0x28, 0x00, 0x01, 0x00, 0x00, 0x00, 0x00, 0x00, 0x00, 0x00, 0x34, 0x00, 0x00, 0x00,
    0x00, 0x00, 0x00, 0x00, 0x00, 0x00, 0x00, 0x00, 0x34, 0x00, 0x20, 0x00, 0x01, 0x00, 0x28, 0x00,
    0x00, 0x00, 0x00, 0x00, 0x01, 0x00, 0x00, 0x00, 0x54, 0x00, 0x00, 0x00, 0x00, 0x00, 0x00, 0x00,
    0x00, 0x00, 0x00, 0x00, 0x01, 0x00, 0x00, 0x00, 0x01, 0x00, 0x00, 0x00, 0x05, 0x00, 0x00, 0x00,
    0x04, 0x00, 0x00, 0x00, filler]

def sampleParse (_ : List Byte) : Option Elf.File := some ⟨[⟨Elf.ptLoad, 1, 0⟩], []⟩

def sampleDigest (bytes : List Byte) : List Byte :=
  if bytes = sampleElf 0xAA then
    [0x44, 0x9A, 0x8D, 0x99, 0x8B, 0xFF, 0x31, 0x88, 0x40, 0x90, 0xF1, 0x81, 0xF7, 0x1C, 0x6B, 0xE2,
      0x8F, 0x7B, 0x11, 0xCE, 0x6F, 0x5C, 0xEA, 0x6C, 0x0F, 0x70, 0x6D, 0x71, 0xAD, 0xC2, 0xA2, 0x80]
  else
    [0xCC, 0xB0, 0xED, 0xB2, 0x28, 0x98, 0x79, 0xBD, 0xE6, 0x1A, 0x93, 0x08, 0x9F, 0x9F, 0x9D, 0x70,
      0x07, 0xB6, 0x2C, 0x6F, 0xA9, 0xFD, 0x5B, 0xA2, 0x3E, 0x03, 0x9F, 0xE9, 0x42, 0x2A, 0x5E, 0x62]

def sampleFile (path : String) : List Byte := sampleElf (if path = "a.elf" then 0xAA else 0xBB)

def Op.runOn (op : Op) (saved : Bool) (self : Store) (s : Files) : (Bool × Store) × Files :=
  (op.program sampleDigest sampleParse self).run (filesRun sampleFile saved) ⟨s.disk, []⟩

abbrev SampleRun : Machine → Machine → Prop := MachineRun sampleDigest sampleParse

theorem MachineRun.ran {digest : List Byte → List Byte} {parse : List Byte → Option Elf.File}
    {before : Store} {found : List Artifact} {op : Op} {p q : FirmwareM (Bool × Store)} {s t : Files}
    (h : Steps filesStep (p, s) (q, t)) :
    MachineRun digest parse ⟨s, none, some ⟨before, found, op, p⟩⟩
      ⟨t, none, some ⟨before, found, op, q⟩⟩ := by
  refine h.lift (fun c => Machine.mk c.2 none (some ⟨before, found, op, c.1⟩)) fun a b hab => ?_
  exact MachineStep.ran hab

/-- An operation up to its result. -/
theorem SampleRun.ran (op : Op) (saved : Bool) (self : Store) (s : Files) :
    SampleRun ⟨s, some self, none⟩ ⟨(op.runOn saved self s).2, none,
      some ⟨self, s.disk.rows, op, .ret (op.runOn saved self s).1⟩⟩ :=
  .head (.start op) (MachineRun.ran (Prog.run_steps (filesRun_step sampleFile saved)
    (op.program sampleDigest sampleParse self) ⟨s.disk, []⟩))

theorem SampleRun.run (op : Op) (saved : Bool) (self : Store) (s : Files) :
    SampleRun ⟨s, some self, none⟩
      ⟨(op.runOn saved self s).2, some (op.runOn saved self s).1.2, none⟩ :=
  (SampleRun.ran op saved self s).tail .finish

theorem SampleRun.load : SampleRun .init ⟨Machine.init.files, some ⟨[]⟩, none⟩ :=
  .single (.load (Prog.run_steps (filesRun_step sampleFile true) Store.load Machine.init.files))

def sampleAdded : (Bool × Store) × Files :=
  (Op.add "a.elf" "xiao").runOn true ⟨[]⟩ Machine.init.files

def sampleReplaced : (Bool × Store) × Files :=
  (Op.add "b.elf" "xiao").runOn true sampleAdded.1.2 sampleAdded.2

/-- Adding under a stored name deletes the image that the row named before. -/
theorem store_consistent_replaced :
    sampleReplaced.2.disk.images "449a8d998bff" = none ∨
      (∃ a ∈ sampleReplaced.2.disk.rows, a.id = "449a8d998bff") ∨
      "449a8d998bff" ∈ sampleReplaced.2.undeleted := by
  have hrun := (SampleRun.load.trans (SampleRun.run (.add "a.elf" "xiao") true ⟨[]⟩ _)).trans
    (SampleRun.ran (.add "b.elf" "xiao") true sampleAdded.1.2 sampleAdded.2)
  obtain ⟨old, hold, hid⟩ : ∃ old, sampleAdded.1.2.get "xiao" = some old ∧
      old.id = "449a8d998bff" :=
    ⟨⟨⟨"449a8d998bff", "xiao", 0, none⟩, 0, none, false⟩, by decide +kernel, rfl⟩
  have hsucceeded : sampleReplaced.1 = (true, sampleReplaced.1.2) := by
    have h : sampleReplaced.1.1 = true := by decide +kernel
    exact Prod.ext h rfl
  have hgone := (store_consistent hrun).2.2 _ sampleReplaced.1.2 rfl
    (congrArg Prog.ret hsucceeded) old (.inl hold)
  rwa [hid] at hgone

def sampleKept : (Bool × Store) × Files :=
  (Op.remove "xiao").runOn false sampleAdded.1.2 sampleAdded.2

def sampleReadded : (Bool × Store) × Files :=
  (Op.add "b.elf" "xiao").runOn true sampleKept.1.2 sampleKept.2

/-- A row whose removal could not be saved, and which is then replaced through
the same store, leaves its image behind. -/
theorem not_store_consistent :
    ¬∀ t, SampleRun .init t → ∀ p self, t.process = some p → p.program = .ret (true, self) →
      ∀ old ∈ p.found, old.name = p.op.name → t.files.Gone old.id := by
  intro hall
  have hrun := ((SampleRun.load.trans (SampleRun.run (.add "a.elf" "xiao") true ⟨[]⟩ _)).trans
    (SampleRun.run (.remove "xiao") false sampleAdded.1.2 sampleAdded.2)).trans
      (SampleRun.ran (.add "b.elf" "xiao") true sampleKept.1.2 sampleKept.2)
  have hsucceeded : sampleReadded.1 = (true, sampleReadded.1.2) := by
    have h : sampleReadded.1.1 = true := by decide +kernel
    exact Prod.ext h rfl
  have hfound : (⟨⟨"449a8d998bff", "xiao", 0, none⟩, 0, none, false⟩ : Artifact) ∈
      sampleKept.2.disk.rows := by decide +kernel
  have himage : sampleReadded.2.disk.images "449a8d998bff" ≠ none := by decide +kernel
  have hrow : ¬∃ a ∈ sampleReadded.2.disk.rows, a.id = "449a8d998bff" := by decide +kernel
  have hundeleted : "449a8d998bff" ∉ sampleReadded.2.undeleted := by decide +kernel
  rcases hall _ hrun _ sampleReadded.1.2 rfl (congrArg Prog.ret hsucceeded) _ hfound rfl with h | h | h
  · exact himage h
  · exact hrow h
  · exact hundeleted h

end Homescope.Firmware
