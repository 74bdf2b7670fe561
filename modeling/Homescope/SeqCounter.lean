import Homescope.Commands
import Homescope.Flash

/-! The sensor's flash-checkpointed packet counter
(`firmware/sensor/src/seq_counter.rs`): a two-page circular log of ceilings,
scanned at boot, and the counter that reserves the next block of it. -/

namespace Homescope

open Commands

/-- The failure reported by the flash driver. -/
inductive FlashError
  | failed
  deriving DecidableEq, Repr

/-- How a counter function ends early: `?` on a driver error, or a failed
`defmt` assertion, which halts the firmware. -/
inductive Stop
  | flash (error : FlashError)
  | panic
  deriving DecidableEq, Repr

/-- What the counter asks of the flash driver. -/
inductive FlashCmd
  | read (address : Nat)
  | write (address : Nat) (data : Word)
  | erase (start stop : Nat)

@[reducible] def FlashCmd.Answer : FlashCmd → Type
  | read _ => Except FlashError Word
  | write _ _ => Except FlashError Unit
  | erase _ _ => Except FlashError Unit

/-- Each command takes place whole or not at all, also when it reports an
error. -/
def flashStep : Device FlashCmd FlashCmd.Answer Memory
  | m, .read a, .ok w, m' => w = m a ∧ m' = m
  | m, .read _, .error _, m' => m' = m
  | m, .write a w, .ok _, m' => m' = m.program a w
  | m, .write a w, .error _, m' => m' = m ∨ m' = m.program a w
  | m, .erase a b, .ok _, m' => m' = m.erase a b
  | m, .erase a b, .error _, m' => m' = m ∨ m' = m.erase a b

abbrev FlashM := ExceptT Stop (Prog FlashCmd FlashCmd.Answer)

def reservationBlock : Word := 1024

def wordsPerPage : Nat := pageSize / 4
def totalSlots : Nat := 2 * wordsPerPage

theorem wordsPerPage_eq : wordsPerPage = 1024 := rfl
theorem totalSlots_eq : totalSlots = 2048 := rfl

/-- The bounds that the linker symbols `__storage_start` and `__storage_end`
declare. -/
structure Storage where
  start : Nat
  stop : Nat
  deriving DecidableEq, Repr

inductive Page
  | A
  | B
  deriving DecidableEq, Repr

/-- An index into the storage region, so the source's `unreachable!` arm for
larger ones has no counterpart. -/
abbrev Slot := Fin totalSlots

namespace Page

def start : Page → Slot
  | A => ⟨0, by decide⟩
  | B => ⟨wordsPerPage, by decide⟩

theorem start_A : (start A : Nat) = 0 := rfl

theorem start_B : (start B : Nat) = 1024 := rfl

def all : List Page := [A, B]

theorem slot_lt (page : Page) (i : Fin wordsPerPage) :
    (page.start : Nat) + i < totalSlots := by
  have hi : (i : Nat) < 1024 := i.isLt
  cases page
  · rw [start_A, totalSlots_eq]; omega
  · rw [start_B, totalSlots_eq]; omega

def slot (page : Page) (i : Fin wordsPerPage) : Slot := ⟨page.start + i, page.slot_lt i⟩

def slots (page : Page) : List Slot := (List.finRange wordsPerPage).map page.slot

theorem slots_eq (page : Page) : page.slots = (List.finRange wordsPerPage).map page.slot := rfl

-- evaluating a whole page is what no proof should do by accident
attribute [irreducible] slots

end Page

namespace Slot

def next (slot : Slot) : Slot := ⟨(slot + 1) % totalSlots, Nat.mod_lt _ (by decide)⟩

def addr (storage : Storage) (slot : Slot) : Nat := storage.start + slot * 4

def page (slot : Slot) : Page := if (slot : Nat) < wordsPerPage then .A else .B

def pageStarted (slot : Slot) : Option Page :=
  if slot.page.start = slot then some slot.page else none

end Slot

def Page.byteRange (storage : Storage) (page : Page) : Nat × Nat :=
  (page.start.addr storage, page.start.addr storage + pageSize)

def isValidRecord (w : Word) : Bool := w != 0 && w % reservationBlock == 0

/-- `flash` is the device the counter's commands go to. -/
structure SeqCounter where
  nextSeq : Word
  reservedUntil : Word
  nextSlot : Slot
  deriving DecidableEq, Repr

namespace SeqCounter

variable (storage : Storage)

def ofAnswer {α : Type} (p : Prog FlashCmd FlashCmd.Answer (Except FlashError α)) : FlashM α :=
  ExceptT.mk (do return (← p).mapError Stop.flash)

def read (slot : Slot) : FlashM Word := ofAnswer (Prog.perform (FlashCmd.read (slot.addr storage)))

def write (slot : Slot) (data : Word) : FlashM Unit :=
  ofAnswer (Prog.perform (FlashCmd.write (slot.addr storage) data))

def erase (page : Page) : FlashM Unit :=
  ofAnswer (Prog.perform (FlashCmd.erase (page.byteRange storage).1 (page.byteRange storage).2))

/-- `defmt::assert_eq!`. -/
def assertEq {α : Type} [DecidableEq α] (a b : α) : FlashM Unit :=
  if a = b then pure () else throw .panic

/-- The inner loop of `load`: the best record so far, up to the page's first
invalid word. -/
def scanSlots : List Slot → Word × Slot → FlashM (Word × Slot)
  | [], best => pure best
  | slot :: slots, best => do
    let reservedUntil ← read storage slot
    if !isValidRecord reservedUntil then
      pure best
    else if best.1 < reservedUntil then
      scanSlots slots (reservedUntil, slot)
    else
      scanSlots slots best

def scanPages : List Page → Word × Slot → FlashM (Word × Slot)
  | [], best => pure best
  | page :: pages, best => do scanPages pages (← scanSlots storage page.slots best)

def load : FlashM SeqCounter := do
  assertEq (storage.stop - storage.start) (totalSlots * 4)
  let (maxReservedUntil, maxSlot) ← scanPages storage Page.all (0, Page.A.start)
  let nextSlot := if maxReservedUntil = 0 then Page.A.start else maxSlot.next
  return { reservedUntil := maxReservedUntil, nextSeq := maxReservedUntil, nextSlot }

/-- Every `?` comes before the first assignment to `self`, so an error leaves
the caller's counter as it was. -/
def advanceReservation (self : SeqCounter) : FlashM SeqCounter := do
  match self.nextSlot.pageStarted with
  | some page => erase storage page
  | none => pure ()
  let newCeiling := self.reservedUntil + reservationBlock
  write storage self.nextSlot newCeiling
  let val ← read storage self.nextSlot
  assertEq newCeiling val
  return { self with reservedUntil := newCeiling, nextSlot := self.nextSlot.next }

def next (self : SeqCounter) : FlashM (Word × SeqCounter) := do
  let self ← if self.reservedUntil ≤ self.nextSeq then advanceReservation storage self
    else pure self
  return (self.nextSeq, { self with nextSeq := self.nextSeq + 1 })

end SeqCounter

end Homescope
