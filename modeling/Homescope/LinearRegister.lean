import Mathlib.Data.List.Basic
import Mathlib.Logic.Function.Iterate

/-! A shift register with linear feedback, fed one bit at a time, lowest bit
first. Where the highest bit of the feedback is set, no step loses anything, so
a burst of errors no longer than the register cannot leave it empty. -/

namespace LinearRegister

variable {w : Nat} (g : BitVec w)

def step (x : BitVec w) : BitVec w := if x.getLsbD 0 then x >>> 1 ^^^ g else x >>> 1

def ofBit (b : Bool) : BitVec w := BitVec.setWidth w (BitVec.ofBool b)

def feed (x : BitVec w) (b : Bool) : BitVec w := step g (x ^^^ ofBit b)

def run (x : BitVec w) (bs : List Bool) : BitVec w := bs.foldl (feed g) x

/-- The bits of a word, lowest first. -/
def bits {n : Nat} (v : BitVec n) : List Bool := (List.range n).map v.getLsbD

/-- As many bits as fit, the first one lowest. -/
def word (bs : List Bool) : BitVec w := (BitVec.ofBoolListLE bs).setWidth w

/-- Some bit is flipped, and all that are lie within `n` consecutive ones. -/
def Burst (n : Nat) (error : List Bool) : Prop :=
  true ∈ error ∧ ∃ start, ∀ i, error[i]? = some true → start ≤ i ∧ i < start + n

/-! ### Linearity -/

theorem step_xor (x y : BitVec w) : step g (x ^^^ y) = step g x ^^^ step g y := by
  simp only [step, BitVec.getLsbD_xor, BitVec.ushiftRight_xor_distrib]
  cases x.getLsbD 0 <;> cases y.getLsbD 0
  · rfl
  · exact BitVec.xor_assoc _ _ _
  · simp only [Bool.xor_false, if_true, Bool.false_eq_true, if_false]
    ac_rfl
  · have hcancel : x >>> 1 ^^^ g ^^^ (y >>> 1 ^^^ g) = x >>> 1 ^^^ y >>> 1 ^^^ (g ^^^ g) := by ac_rfl
    simp [hcancel]

theorem step_zero : step g 0 = 0 := by
  simp [step]

theorem ofBit_xor (b c : Bool) : (ofBit (b ^^ c) : BitVec w) = ofBit b ^^^ ofBit c := by
  cases b <;> cases c <;> simp [ofBit]

theorem feed_xor (x y : BitVec w) (b c : Bool) :
    feed g (x ^^^ y) (b ^^ c) = feed g x b ^^^ feed g y c := by
  have hswap : x ^^^ y ^^^ (ofBit b ^^^ ofBit c) = x ^^^ ofBit b ^^^ (y ^^^ ofBit c) := by ac_rfl
  rw [feed, ofBit_xor, hswap, step_xor, feed, feed]

theorem run_append (x : BitVec w) (bs cs : List Bool) :
    run g x (bs ++ cs) = run g (run g x bs) cs :=
  List.foldl_append

theorem run_xor {bs cs : List Bool} (h : bs.length = cs.length) (x y : BitVec w) :
    run g (x ^^^ y) (List.zipWith (· ^^ ·) bs cs) = run g x bs ^^^ run g y cs := by
  induction bs generalizing cs x y with
  | nil => rw [List.length_eq_zero_iff.mp h.symm]; rfl
  | cons b bs ih =>
    cases cs with
    | nil => simp at h
    | cons c cs =>
      have hrest := ih (by simpa using h) (feed g x b) (feed g y c)
      rw [← feed_xor] at hrest
      exact hrest

theorem getLsbD_ofBit (b : Bool) (i : Nat) :
    (ofBit b : BitVec w).getLsbD i = (decide (i < w) && (decide (i = 0) && b)) := by
  rw [ofBit, BitVec.getLsbD_setWidth]
  cases i <;> simp

theorem getLsbD_word (bs : List Bool) (i : Nat) :
    (word bs : BitVec w).getLsbD i = (decide (i < w) && bs.getD i false) := by
  rw [word, BitVec.getLsbD_setWidth, BitVec.getLsbD_ofBoolListLE]

theorem length_bits {n : Nat} (v : BitVec n) : (bits v).length = n := by
  simp [bits]

theorem getD_bits {n : Nat} (v : BitVec n) (i : Nat) : (bits v).getD i false = v.getLsbD i := by
  by_cases h : i < n
  · simp [bits, h]
  · simp [bits, h, BitVec.getLsbD_of_ge v i (by omega)]

/-- A word that fits is laid in as it is. -/
theorem word_bits {n : Nat} (v : BitVec n) : (word (bits v) : BitVec w) = v.setWidth w := by
  apply BitVec.eq_of_getLsbD_eq
  intro i _
  rw [getLsbD_word, getD_bits, BitVec.getLsbD_setWidth]

theorem bits_xor {n : Nat} (u v : BitVec n) :
    bits (u ^^^ v) = List.zipWith (· ^^ ·) (bits u) (bits v) := by
  simp [bits, List.zipWith_map, List.zipWith_self]

theorem bits_append {m n : Nat} (u : BitVec m) (v : BitVec n) : bits (u ++ v) = bits v ++ bits u := by
  have hrange : List.range (m + n) = List.range n ++ (List.range m).map (n + ·) := by
    rw [Nat.add_comm, List.range_add]
  rw [bits, hrange, List.map_append, List.map_map]
  congr 1
  · refine List.map_congr_left fun i hi => ?_
    simp [BitVec.getLsbD_append, List.mem_range.mp hi]
  · refine List.map_congr_left fun i _ => ?_
    simp [BitVec.getLsbD_append]

theorem word_cons (b : Bool) (bs : List Bool) :
    (word (b :: bs) : BitVec w) = ofBit b ^^^ word bs <<< 1 := by
  apply BitVec.eq_of_getLsbD_eq
  intro i hi
  rw [BitVec.getLsbD_xor, getLsbD_word, getLsbD_ofBit, BitVec.getLsbD_shiftLeft, getLsbD_word]
  cases i with
  | zero => simp
  | succ i => simp [hi, Nat.lt_of_succ_lt hi]

/-- A word that leaves the highest bit free moves up and down again. -/
theorem step_shiftLeft {bs : List Bool} (h : bs.length < w) : step g (word bs <<< 1) = word bs := by
  have hlow : (word bs <<< 1 : BitVec w).getLsbD 0 = false := by simp
  rw [step, if_neg (by simp [hlow])]
  apply BitVec.eq_of_getLsbD_eq
  intro i hi
  rw [BitVec.getLsbD_ushiftRight, BitVec.getLsbD_shiftLeft, getLsbD_word, getLsbD_word]
  by_cases htop : 1 + i < w
  · simp [htop, hi]
  · have hend : bs[i]? = none := List.getElem?_eq_none (by omega)
    simp [htop, hend]

/-- Feeding bits one by one is stepping over them laid into the register. -/
theorem run_eq_iterate {bs : List Bool} (h : bs.length ≤ w) (x : BitVec w) :
    run g x bs = (step g)^[bs.length] (x ^^^ word bs) := by
  induction bs generalizing x with
  | nil =>
    have hzero : (word [] : BitVec w) = 0#w := by
      apply BitVec.eq_of_getLsbD_eq
      intro i _
      simp [getLsbD_word]
    simp [run, hzero]
  | cons b bs ih =>
    have hstep : step g (x ^^^ word (b :: bs)) = feed g x b ^^^ word bs := by
      rw [word_cons, ← BitVec.xor_assoc, step_xor, step_shiftLeft g h, feed]
    rw [List.length_cons, Function.iterate_succ_apply, hstep, ← ih (Nat.le_of_succ_le h)]
    rfl

/-! ### Bursts -/

section Injective

variable {g} (hg : g.msb = true)

include hg

/-- Only the empty register steps to the empty register. -/
theorem step_eq_zero {x : BitVec w} (h : step g x = 0) : x = 0 := by
  cases hx : x.getLsbD 0 with
  | true =>
    rw [step, if_pos hx] at h
    have hmsb := congrArg BitVec.msb h
    simp [BitVec.msb_ushiftRight, hg] at hmsb
  | false =>
    rw [step, if_neg (by simp [hx])] at h
    apply BitVec.eq_of_getLsbD_eq
    intro i hi
    cases i with
    | zero => simpa using hx
    | succ i =>
      have hbit := congrArg (BitVec.getLsbD · i) h
      simpa [Nat.add_comm] using hbit

theorem iterate_step_ne_zero {x : BitVec w} (h : x ≠ 0) (n : Nat) : (step g)^[n] x ≠ 0 := by
  induction n generalizing x with
  | zero => exact h
  | succ n ih => exact ih fun hstep => h (step_eq_zero hg hstep)

omit hg in
theorem run_replicate_false (x : BitVec w) (n : Nat) :
    run g x (List.replicate n false) = (step g)^[n] x := by
  induction n generalizing x with
  | zero => rfl
  | succ n ih =>
    have hfeed : feed g x false = step g x := by simp [feed, ofBit]
    rw [List.replicate_succ, run, List.foldl_cons, hfeed]
    exact ih (step g x)

theorem run_short_ne_zero {bs : List Bool} (h : bs.length ≤ w) (hmem : true ∈ bs) :
    run g 0 bs ≠ 0 := by
  obtain ⟨i, hi, hbit⟩ := List.mem_iff_getElem.mp hmem
  have hone : (word bs : BitVec w).getLsbD i = true := by
    rw [getLsbD_word, decide_eq_true (Nat.lt_of_lt_of_le hi h), Bool.true_and,
      List.getD_eq_getElem?_getD, List.getElem?_eq_getElem hi, hbit]
    rfl
  rw [run_eq_iterate g h]
  refine iterate_step_ne_zero hg (fun hzero => ?_) _
  rw [show (0 : BitVec w) ^^^ word bs = word bs from BitVec.zero_xor] at hzero
  rw [hzero] at hone
  exact absurd hone (by simp)

/-- No burst that fits into the register leaves it empty, wherever it stands. -/
theorem run_burst_ne_zero {n : Nat} (hn : n ≤ w) {error : List Bool} (h : Burst n error) :
    run g 0 error ≠ 0 := by
  obtain ⟨hmem, start, hwindow⟩ := h
  have hclear : ∀ i (hi : i < error.length), ¬ (start ≤ i ∧ i < start + n) → error[i] = false := by
    intro i hi hout
    by_contra hbit
    exact hout (hwindow i (by simpa [List.getElem?_eq_getElem hi] using hbit))
  have hbefore : error.take start = List.replicate (error.take start).length false := by
    refine List.eq_replicate_of_mem fun b hb => ?_
    obtain ⟨i, hi, rfl⟩ := List.mem_iff_getElem.mp hb
    rw [List.length_take] at hi
    rw [List.getElem_take]
    exact hclear i (by omega) (by omega)
  have hafter : error.drop (start + n) = List.replicate (error.drop (start + n)).length false := by
    refine List.eq_replicate_of_mem fun b hb => ?_
    obtain ⟨i, hi, rfl⟩ := List.mem_iff_getElem.mp hb
    rw [List.length_drop] at hi
    rw [List.getElem_drop]
    exact hclear (start + n + i) (by omega) (by omega)
  have hsplit : error = error.take start ++ ((error.drop start).take n ++ error.drop (start + n)) := by
    rw [← List.drop_drop, List.take_append_drop, List.take_append_drop]
  have hmid : true ∈ (error.drop start).take n := by
    rw [hsplit, List.mem_append, List.mem_append] at hmem
    rcases hmem with hmem | hmem | hmem
    · rw [hbefore] at hmem
      exact absurd (List.eq_of_mem_replicate hmem) (by decide)
    · exact hmem
    · rw [hafter] at hmem
      exact absurd (List.eq_of_mem_replicate hmem) (by decide)
  have hshort : ((error.drop start).take n).length ≤ w :=
    Nat.le_trans (List.length_take_le n _) hn
  have hfirst : run g 0 (error.take start) = 0 := by
    rw [hbefore, run_replicate_false]
    exact Function.iterate_fixed (step_zero g) _
  rw [hsplit, run_append, run_append, hfirst, hafter, run_replicate_false]
  exact iterate_step_ne_zero hg (run_short_ne_zero hg hshort hmid) _

end Injective

end LinearRegister
