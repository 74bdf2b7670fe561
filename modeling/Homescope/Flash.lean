import Homescope.Words

/-! The nRF52840's memory-mapped flash, word by word under its byte address.
Programming only clears bits, and only an erase sets them. -/

namespace Homescope

/-- Words by byte address, code flash and UICR alike. -/
abbrev Memory := Nat → Word

/-- Erase granularity of the nRF52840. -/
abbrev pageSize : Nat := 4096

namespace Memory

/-- Programming a word ANDs it into what is there. -/
def program (m : Memory) (address : Nat) (word : Word) : Memory :=
  Function.update m address (m address &&& word)

/-- Sets every bit of the words in `[start, stop)`. -/
def erase (m : Memory) (start stop : Nat) : Memory :=
  fun address => if start ≤ address ∧ address < stop then erased else m address

/-- Another word in one place. -/
def set (m : Memory) (address : Nat) (word : Word) : Memory := Function.update m address word

theorem set_same (m : Memory) (a : Nat) (w : Word) : m.set a w a = w := by simp [set]

theorem set_other (m : Memory) {a b : Nat} (w : Word) (h : b ≠ a) : m.set a w b = m b := by
  simp [set, h]

theorem set_set (m : Memory) (a : Nat) (v w : Word) : (m.set a v).set a w = m.set a w := by
  simp [set]

theorem set_eq_self (m : Memory) {a : Nat} {w : Word} (h : m a = w) : m.set a w = m := by
  simp [set, ← h]

theorem program_eq_set (m : Memory) (a : Nat) (w : Word) : m.program a w = m.set a (m a &&& w) := rfl

theorem program_same (m : Memory) (a : Nat) (w : Word) : m.program a w a = (m a &&& w) := by
  simp [program]

theorem program_other (m : Memory) {a b : Nat} (w : Word) (h : b ≠ a) :
    m.program a w b = m b := by
  simp [program, h]

theorem program_erased (m : Memory) {a : Nat} (w : Word) (h : m a = erased) :
    m.program a w a = w := by
  rw [program_same, h, erased, BitVec.allOnes_and]

theorem erase_inside (m : Memory) {a b x : Nat} (h : a ≤ x ∧ x < b) : m.erase a b x = erased :=
  if_pos h

theorem erase_outside (m : Memory) {a b x : Nat} (h : ¬(a ≤ x ∧ x < b)) :
    m.erase a b x = m x :=
  if_neg h

end Memory

end Homescope
