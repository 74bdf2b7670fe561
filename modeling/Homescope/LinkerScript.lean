import Mathlib.Data.List.Basic

/-! Linker scripts made of memory regions, symbols and assertions: their text,
and what a linker computes from them. -/

namespace Homescope.LinkerScript

/-- `0x` and the digits in upper case, filled up with zeros to `width` digits. -/
def hexPadded (width n : Nat) : String :=
  let digits := (Nat.toDigits 16 n).map Char.toUpper
  "0x" ++ String.ofList (List.replicate (width - digits.length) '0' ++ digits)

def hex (n : Nat) : String := hexPadded 0 n

structure Region where
  name : String
  origin : Nat
  length : Nat

def Region.stop (r : Region) : Nat := r.origin + r.length

inductive Expr
  | decimal (n : Nat)
  | hexadecimal (n : Nat)
  | origin (region : String)
  | length (region : String)
  | add (a b : Expr)
  | mod (a b : Expr)
  | eq (a b : Expr)

namespace Expr

def text : Expr → String
  | decimal n => toString n
  | hexadecimal n => hex n
  | origin region => "ORIGIN(" ++ region ++ ")"
  | length region => "LENGTH(" ++ region ++ ")"
  | add a b => a.text ++ " + " ++ b.text
  | mod a b => a.text ++ " % " ++ b.text
  | eq a b => a.text ++ " == " ++ b.text

def eval (regions : List Region) : Expr → Option Nat
  | decimal n => some n
  | hexadecimal n => some n
  | origin region => (regions.find? (·.name == region)).map Region.origin
  | length region => (regions.find? (·.name == region)).map Region.length
  | add a b => do return (← a.eval regions) + (← b.eval regions)
  | mod a b => do
    let divisor ← b.eval regions
    if divisor = 0 then none
    return (← a.eval regions) % divisor
  | eq a b => do return if (← a.eval regions) = (← b.eval regions) then 1 else 0

end Expr

structure Script where
  regions : List Region
  symbols : List (String × Expr)
  asserts : List (Expr × String)

namespace Script

/-- The value of an assertion that holds is not zero. -/
def Holds (s : Script) (e : Expr) : Prop := ∃ n, e.eval s.regions = some n ∧ n ≠ 0

/-- The absolute symbols of a link that succeeds. -/
structure Links (s : Script) (symbols : List (String × Nat)) : Prop where
  holds : ∀ a ∈ s.asserts, s.Holds a.1
  values : List.Forall₂ (fun p q => p.1 = q.1 ∧ p.2.eval s.regions = some q.2) s.symbols symbols

end Script

theorem find?_region {r : Region} {regions : List Region} (hr : r ∈ regions)
    (hnames : (regions.map Region.name).Nodup) : regions.find? (·.name == r.name) = some r := by
  induction regions with
  | nil => cases hr
  | cons r' regions ih =>
    obtain ⟨hfresh, hnames⟩ := List.nodup_cons.mp hnames
    rcases List.mem_cons.mp hr with rfl | hr
    · simp
    · have hne : r'.name ≠ r.name := fun h => hfresh (h ▸ List.mem_map_of_mem hr)
      simpa [hne] using ih hr hnames

section

variable {r : Region} {regions : List Region}

/-- The end of a region, as a script writes it. -/
theorem eval_stop (hr : r ∈ regions) (hnames : (regions.map Region.name).Nodup) :
    (Expr.add (.origin r.name) (.length r.name)).eval regions = some r.stop := by
  simp [Expr.eval, find?_region hr hnames, Region.stop]

theorem eval_origin (hr : r ∈ regions) (hnames : (regions.map Region.name).Nodup) :
    (Expr.origin r.name).eval regions = some r.origin := by
  simp [Expr.eval, find?_region hr hnames]

theorem eval_length (hr : r ∈ regions) (hnames : (regions.map Region.name).Nodup) :
    (Expr.length r.name).eval regions = some r.length := by
  simp [Expr.eval, find?_region hr hnames]

theorem eval_mod {a b : Expr} {m n : Nat} (ha : a.eval regions = some m)
    (hb : b.eval regions = some n) (hn : n ≠ 0) : (a.mod b).eval regions = some (m % n) := by
  simp [Expr.eval, ha, hb, hn]

theorem holds_eq {s : Script} {a b : Expr} {n : Nat} (ha : a.eval s.regions = some n)
    (hb : b.eval s.regions = some n) : s.Holds (a.eq b) :=
  ⟨1, by simp [Expr.eval, ha, hb], Nat.one_ne_zero⟩

end

end Homescope.LinkerScript
