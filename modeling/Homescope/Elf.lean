import Homescope.Words

/-! What a firmware image says about itself (`provision/src/elf.rs`), read from
the headers and symbols that the object-file reader finds. -/

namespace Homescope

namespace Elf

def ptLoad : Nat := 1

def shnAbs : Nat := 0xFFF1

def storageStart : String := "__storage_start"

def storageEnd : String := "__storage_end"

structure ProgramHeader where
  pType : Nat
  pFilesz : Nat
  pPaddr : Nat
  deriving DecidableEq, Repr

/-- `name` is `none` where it cannot be read. -/
structure Symbol where
  stShndx : Nat
  name : Option String
  address : Nat
  deriving DecidableEq, Repr

/-- What `ElfFile32::parse` finds in a file. -/
structure File where
  programHeaders : List ProgramHeader
  symbols : List Symbol
  deriving DecidableEq, Repr

inductive Error
  | notAnElf
  | noLoadableSegments
  | storageIncomplete
  | storageNotAscending (start stop : Nat)
  | storageUnaligned (start stop : Nat)
  deriving DecidableEq, Repr

structure Image where
  appStart : Nat
  storage : Option (Nat × Nat)
  deriving DecidableEq, Repr

def pageSize : Nat := 4096

/-- One turn of the loop over the symbols. -/
def note (found : Option Nat × Option Nat) (symbol : Symbol) : Option Nat × Option Nat :=
  if symbol.stShndx ≠ shnAbs then found
  else if symbol.name = some storageStart then (some symbol.address, found.2)
  else if symbol.name = some storageEnd then (found.1, some symbol.address)
  else found

def storage (file : File) : Except Error (Option (Nat × Nat)) :=
  match file.symbols.foldl note (none, none) with
  | (none, none) => .ok none
  | (some start, some stop) =>
    if stop ≤ start then .error (.storageNotAscending start stop)
    else if start % pageSize ≠ 0 ∨ stop % pageSize ≠ 0 then .error (.storageUnaligned start stop)
    else .ok (some (start, stop))
  | _ => .error .storageIncomplete

def read (parse : List Byte → Option File) (bytes : List Byte) : Except Error Image :=
  match parse bytes with
  | none => .error .notAnElf
  | some file =>
    let flash := file.programHeaders.filter fun h => h.pType == ptLoad && decide (0 < h.pFilesz)
    match (flash.map ProgramHeader.pPaddr).min? with
    | none => .error .noLoadableSegments
    | some appStart => do return { appStart, storage := ← storage file }

/-- A region that an image declares is made of whole pages. -/
theorem storage_eq_ok {file : File} {start stop : Nat} (h : storage file = .ok (some (start, stop))) :
    start < stop ∧ start % pageSize = 0 ∧ stop % pageSize = 0 := by
  rw [storage] at h
  split at h
  · cases h
  · split at h
    · cases h
    · split at h
      · cases h
      · rename_i hlt haligned
        cases h
        push Not at hlt haligned
        exact ⟨hlt, haligned⟩
  · cases h

theorem read_storage {parse : List Byte → Option File} {bytes : List Byte} {file : File}
    {image : Image} (hparse : parse bytes = some file) (h : read parse bytes = .ok image) :
    storage file = .ok image.storage := by
  simp only [read, hparse] at h
  split at h
  · cases h
  · cases hstorage : storage file with
    | error e =>
      rw [hstorage] at h
      cases h
    | ok region =>
      rw [hstorage] at h
      cases h
      rfl

theorem read_eq_ok {parse : List Byte → Option File} {bytes : List Byte} {image : Image}
    {start stop : Nat} (h : read parse bytes = .ok image) (hs : image.storage = some (start, stop)) :
    start < stop ∧ start % pageSize = 0 ∧ stop % pageSize = 0 := by
  cases hparse : parse bytes with
  | none =>
    rw [read, hparse] at h
    cases h
  | some file =>
    have hstorage := read_storage hparse h
    rw [hs] at hstorage
    exact storage_eq_ok hstorage

end Elf

end Homescope
