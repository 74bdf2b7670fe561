import Homescope.BenchSpec

/-! What `find_mismatch` finds (`provision/src/chip/memory.rs`), with the `u64`
arithmetic of its addresses. -/

namespace Homescope.Chip

open Commands ToolM

/-- `a + b` on `u64`: a panic or a wrap when the sum does not fit, as the build
profile says. -/
def addU64 (overflowChecks : Bool) (a b : Nat) : Option Nat :=
  if a + b < 2 ^ 64 then some (a + b) else if overflowChecks then none else some ((a + b) % 2 ^ 64)

/-- The loop over a chunk, from its word `i` on. The outer `none` is a panic. -/
def mismatchFrom (overflowChecks : Bool) (address i : Nat) :
    List Word → List Word → Option (Option Mismatch)
  | actual :: actuals, expected :: expecteds => do
    let mismatchAddress ← addU64 overflowChecks address (i * 4)
    if actual ≠ expected then return some ⟨mismatchAddress, expected, actual⟩
    mismatchFrom overflowChecks address (i + 1) actuals expecteds
  | _, _ => some none

def findMismatchFrom (overflowChecks : Bool) (address : Nat) :
    List (List Word) → ToolM ProbeError (Option (Option Mismatch))
  | [] => pure (some none)
  | chunk :: rest => do
    let buf ← ExceptT.mk (command (.read32 address chunk.length))
    match mismatchFrom overflowChecks address 0 buf chunk with
    | none => pure none
    | some (some mismatch) => pure (some (some mismatch))
    | some none =>
      match addU64 overflowChecks address (chunk.length * 4) with
      | none => pure none
      | some address => findMismatchFrom overflowChecks address rest

def findMismatchU64 (overflowChecks : Bool) (address : Nat) (words : List Word) :
    ToolM ProbeError (Option (Option Mismatch)) :=
  findMismatchFrom overflowChecks address (chunks (words.length + 1) words)

theorem addU64_eq {overflowChecks : Bool} {a b : Nat} (h : a + b < 2 ^ 64) :
    addU64 overflowChecks a b = some (a + b) := if_pos h

theorem mismatchFrom_eq {overflowChecks : Bool} {address i : Nat} {actual expected : List Word}
    (h : address + 4 * (i + expected.length) ≤ 2 ^ 64) :
    mismatchFrom overflowChecks address i actual expected =
      some (firstMismatch (address + 4 * i) actual expected) := by
  induction expected generalizing i actual with
  | nil => cases actual <;> rfl
  | cons e expected ih =>
    cases actual with
    | nil => rfl
    | cons a actual =>
      simp only [List.length_cons] at h
      have hnext : mismatchFrom overflowChecks address (i + 1) actual expected =
          some (firstMismatch (address + 4 * i + 4) actual expected) := ih (by omega)
      have haddr : addU64 overflowChecks address (i * 4) = some (address + 4 * i) := by
        rw [addU64_eq (by omega), Nat.mul_comm]
      by_cases he : a = e
      · simp [mismatchFrom, firstMismatch, he, haddr, hnext]
      · simp [mismatchFrom, firstMismatch, he, haddr]

/-- The words end within the address space. Where overflow is checked, their end
is an address too: `address += ..` after the last chunk would panic. -/
def EndsWithin (overflowChecks : Bool) (address len : Nat) : Prop :=
  address + 4 * len < 2 ^ 64 ∨ (overflowChecks = false ∧ address + 4 * len = 2 ^ 64)

theorem chunks_ne_nil {n : Nat} {words : List Word} : ∀ c ∈ chunks n words, c ≠ [] := by
  induction n generalizing words with
  | zero => simp [chunks]
  | succ n ih =>
    cases words with
    | nil => simp [chunks]
    | cons word words =>
      rw [chunks, List.isEmpty_cons, if_neg Bool.false_ne_true]
      refine List.forall_mem_cons.mpr ⟨?_, ih⟩
      simp [chunkSize]

/-- No address overflows before the end of the words. -/
theorem findMismatchFrom_eq {overflowChecks : Bool} {address : Nat} {cs : List (List Word)}
    (hcs : ∀ c ∈ cs, c ≠ []) (h : EndsWithin overflowChecks address cs.flatten.length) :
    findMismatchFrom overflowChecks address cs = some <$> findMismatchIn address cs := by
  induction cs generalizing address with
  | nil => rfl
  | cons chunk cs ih =>
    obtain ⟨hchunk, hrest⟩ := List.forall_mem_cons.mp hcs
    rw [List.flatten_cons, List.length_append] at h
    have hbound : address + 4 * (0 + chunk.length) ≤ 2 ^ 64 := by
      rcases h with h | ⟨-, h⟩ <;> omega
    refine congrArg (Prog.cmd (ToolCmd.read32 address chunk.length)) (funext fun answer => ?_)
    cases answer with
    | error e => rfl
    | ok buf =>
      have hfirst : mismatchFrom overflowChecks address 0 buf chunk =
          some (firstMismatch address buf chunk) := mismatchFrom_eq hbound
      simp only [Prog.bind, ExceptT.bindCont, hfirst]
      cases firstMismatch address buf chunk with
      | some mismatch => rfl
      | none =>
        have hends : EndsWithin overflowChecks (address + chunk.length * 4) cs.flatten.length := by
          rw [EndsWithin, Nat.add_assoc, Nat.mul_comm, ← Nat.mul_add]
          exact h
        by_cases hlt : address + chunk.length * 4 < 2 ^ 64
        · simp only [addU64_eq hlt, ih hrest hends]
          rfl
        · -- The words end with the address space: this was the last chunk.
          obtain ⟨rfl, hend⟩ := hends.resolve_left (by omega)
          have hlen : cs.flatten.length = 0 := by omega
          obtain rfl : cs = [] := by
            refine List.eq_nil_iff_forall_not_mem.mpr fun c hc => hrest c hc ?_
            exact List.flatten_eq_nil_iff.mp (List.eq_nil_of_length_eq_zero hlen) c hc
          simp only [addU64, hlt, if_false, Bool.false_eq_true]
          rfl

/-! ### The first difference -/

theorem firstMismatch_append {address : Nat} {xs ys us vs : List Word} (h : xs.length = us.length) :
    firstMismatch address (xs ++ ys) (us ++ vs) =
      (firstMismatch address xs us).or (firstMismatch (address + us.length * 4) ys vs) := by
  induction us generalizing address xs with
  | nil =>
    obtain rfl := List.eq_nil_of_length_eq_zero h
    simp [firstMismatch]
  | cons u us ih =>
    cases xs with
    | nil => cases h
    | cons x xs =>
      by_cases hx : x = u
      · simp only [List.cons_append, firstMismatch, hx, ne_eq, not_true_eq_false, if_false,
          ih (Nat.succ.inj h), List.length_cons]
        congr 2
        omega
      · simp [firstMismatch, hx]

theorem findMismatchIn_run (ready : Bool) (key : Option DeviceKey) (s : Bench) (address : Nat)
    (cs : List (List Word)) : (findMismatchIn address cs).run.run (Bench.answer ready key) s =
      (.ok (firstMismatch address (s.board.memory.words address cs.flatten.length) cs.flatten), s) := by
  induction cs generalizing address with
  | nil => rfl
  | cons chunk cs ih =>
    have hlen : (s.board.memory.words address chunk.length).length = chunk.length := by
      simp [Memory.words]
    rw [List.flatten_cons, List.length_append, Memory.words_append, firstMismatch_append hlen,
      Nat.mul_comm 4]
    change (Prog.run _ (ExceptT.bindCont _ (.ok (s.board.memory.words address chunk.length))) s) = _
    simp only [ExceptT.bindCont]
    cases firstMismatch address (s.board.memory.words address chunk.length) chunk with
    | some mismatch => rfl
    | none => exact ih _

/-- Every word before the mismatch was read back as expected. -/
theorem firstMismatch_eq_some {address : Nat} {actual expected : List Word} {m : Mismatch}
    (h : firstMismatch address actual expected = some m) :
    ∃ (i : Nat) (ha : i < actual.length) (he : i < expected.length),
      m = ⟨address + 4 * i, expected[i], actual[i]⟩ ∧ actual[i] ≠ expected[i] ∧
        actual.take i = expected.take i := by
  induction actual generalizing address expected with
  | nil => cases h
  | cons a actual ih =>
    cases expected with
    | nil => cases h
    | cons e expected =>
      by_cases he : a = e
      · subst he
        simp only [firstMismatch, ne_eq, not_true_eq_false, if_false] at h
        obtain ⟨i, ha, hi, rfl, hne, htake⟩ := ih h
        refine ⟨i + 1, by simpa using ha, by simpa using hi, ?_, hne, by simp [htake]⟩
        simp [Nat.mul_succ, Nat.add_assoc, Nat.add_comm 4]
      · simp only [firstMismatch, he, ne_eq, not_false_eq_true, if_true, Option.some.injEq] at h
        subst h
        exact ⟨0, by simp, by simp, rfl, he, rfl⟩

theorem words_getElem (m : Memory) (address len : Nat) {i : Nat}
    (h : i < (m.words address len).length) : (m.words address len)[i] = m (address + 4 * i) := by
  simp [Memory.words]

theorem findMismatchU64_eq {overflowChecks : Bool} {address : Nat} {words : List Word}
    (h : EndsWithin overflowChecks address words.length) :
    findMismatchU64 overflowChecks address words = some <$> findMismatch address words := by
  refine findMismatchFrom_eq chunks_ne_nil ?_
  rwa [chunks_flatten (Nat.lt_succ_self words.length)]

theorem findMismatchU64_run {overflowChecks : Bool} {address : Nat} {words : List Word}
    (h : EndsWithin overflowChecks address words.length) (ready : Bool) (key : Option DeviceKey)
    (s : Bench) : (findMismatchU64 overflowChecks address words).run.run (Bench.answer ready key) s =
      (.ok (some (firstMismatch address (s.board.memory.words address words.length) words)), s) := by
  have hrun := findMismatchIn_run ready key s address (chunks (words.length + 1) words)
  rw [chunks_flatten (Nat.lt_succ_self words.length)] at hrun
  rw [findMismatchU64_eq h]
  change Prog.run _ ((findMismatch address words).run >>= _) s = _
  rw [Prog.run_bind, findMismatch, hrun]
  rfl

/-- The check passes exactly on memory that holds the words, and else names the
lowest word that differs. -/
theorem findMismatch_first (overflowChecks ready : Bool) (key : Option DeviceKey) (s : Bench)
    (address : Nat) (words : List Word) (h : EndsWithin overflowChecks address words.length) :
    ∃ found, (findMismatchU64 overflowChecks address words).run.run (Bench.answer ready key) s =
        (.ok (some found), s) ∧
      (found = none ↔
        ∀ (i : Nat) (hi : i < words.length), s.board.memory (address + 4 * i) = words[i]) ∧
      ∀ m, found = some m → ∃ (i : Nat) (hi : i < words.length),
        m = ⟨address + 4 * i, words[i], s.board.memory (address + 4 * i)⟩ ∧
        s.board.memory (address + 4 * i) ≠ words[i] ∧
        ∀ (j : Nat) (hj : j < i), s.board.memory (address + 4 * j) = words[j] := by
  have hlen : (s.board.memory.words address words.length).length = words.length := by
    simp [Memory.words]
  refine ⟨_, findMismatchU64_run h ready key s, ?_, fun m hm => ?_⟩
  · rw [firstMismatch_eq_none hlen]
    constructor
    · intro heq i hi
      have hget := words_getElem s.board.memory address words.length (hlen ▸ hi)
      rw [← hget]
      exact getElem_congr_coll heq
    · intro hall
      refine List.ext_getElem hlen fun i hi hi' => ?_
      rw [words_getElem]
      exact hall i hi'
  · obtain ⟨i, ha, hi, rfl, hne, htake⟩ := firstMismatch_eq_some hm
    simp only [words_getElem] at hne ⊢
    refine ⟨i, hi, rfl, hne, fun j hj => ?_⟩
    have hget := congrArg (fun l => l[j]?) htake
    simp only [List.getElem?_take, hj, if_true, List.getElem?_eq_getElem (hj.trans ha),
      List.getElem?_eq_getElem (hj.trans hi), Option.some.injEq] at hget
    rwa [words_getElem] at hget

/-- A page of erased words but one, in the second chunk. -/
def smudged : Bench := ⟨⟨0, fun addr => if addr = 800 then 0 else erased⟩, none⟩

theorem findMismatch_first_smudged :
    (findMismatchU64 true 0 (List.replicate 300 erased)).run.run (Bench.answer true none) smudged =
      (.ok (some (some ⟨800, erased, 0⟩)), smudged) := by
  have hends : EndsWithin true 0 (List.replicate 300 erased).length := by
    rw [List.length_replicate]
    exact .inl (by decide)
  obtain ⟨found, hrun, hnone, hsome⟩ := findMismatch_first true true none smudged 0 _ hends
  rw [hrun]
  cases found with
  | none =>
    have hsame := hnone.mp rfl 200 (by rw [List.length_replicate]; decide)
    rw [List.getElem_replicate] at hsame
    exact absurd hsame (by decide)
  | some m =>
    obtain ⟨i, hi, rfl, hne, -⟩ := hsome m rfl
    rw [List.getElem_replicate] at hne
    obtain rfl : i = 200 := by
      by_contra hi
      exact hne (if_neg (by omega))
    rw [List.getElem_replicate]
    rfl

end Homescope.Chip
