import Homescope.Commands

/-! Finished runs of a program: what was asked and answered, and the result. -/

namespace Commands

universe u v w

variable {C : Type u} {A : C → Type v} {α β γ ε : Type w}

/-- `p` was asked and answered `tr`, and returned the result. -/
inductive Runs : Prog C A α → List (Σ c, A c) → α → Prop
  | ret (a : α) : Runs (.ret a) [] a
  | cmd {c : C} {k : A c → Prog C A α} {a : A c} {tr : List (Σ c, A c)} {r : α}
      (h : Runs (k a) tr r) : Runs (.cmd c k) (⟨c, a⟩ :: tr) r

namespace Runs

variable {p : Prog C A α} {tr tr' more more' : List (Σ c, A c)} {r r' : α}

theorem ret_inv {a : α} (h : Runs (.ret a : Prog C A α) tr r) : tr = [] ∧ r = a := by
  cases h
  exact ⟨rfl, rfl⟩

theorem cmd_inv {c : C} {k : A c → Prog C A α} (h : Runs (.cmd c k) tr r) :
    ∃ a rest, tr = ⟨c, a⟩ :: rest ∧ Runs (k a) rest r := by
  cases h with
  | cmd h => exact ⟨_, _, rfl, h⟩

/-- A finished run is one that a device with a memory takes. -/
theorem steps (h : Runs p tr r) (s : List (Σ c, A c)) : Steps history (p, s) (.ret r, s ++ tr) := by
  induction h generalizing s with
  | ret a => simpa using Relation.ReflTransGen.refl
  | @cmd c k a tr r _ ih =>
    have hrest := ih (s ++ [⟨c, a⟩])
    rw [List.append_assoc] at hrest
    exact .cmd rfl hrest

theorem of_steps {q : Prog C A α} {s t : List (Σ c, A c)} (h : Steps history (p, s) (q, t))
    (hq : q = .ret r) : ∃ tr, t = s ++ tr ∧ Runs p tr r := by
  subst hq
  induction p generalizing s with
  | ret a =>
    rcases h.cases_head with he | ⟨_, hstep, -⟩
    · cases he
      exact ⟨[], (List.append_nil _).symm, .ret r⟩
    · cases hstep
  | cmd c k ih =>
    rcases h.cases_head with he | ⟨_, hstep, hsteps⟩
    · cases he
    · cases hstep with
      | @cmd _ _ _ _ a hd =>
        cases hd
        obtain ⟨tr, rfl, hr⟩ := ih a hsteps
        exact ⟨⟨c, a⟩ :: tr, List.append_assoc s _ _, .cmd hr⟩

theorem bind_inv {f : α → Prog C A β} {b : β} (h : Runs (p >>= f) tr b) :
    ∃ first rest a, tr = first ++ rest ∧ Runs p first a ∧ Runs (f a) rest b := by
  induction p generalizing tr with
  | ret a => exact ⟨[], tr, a, rfl, .ret a, h⟩
  | cmd c k ih =>
    obtain ⟨answer, rest, rfl, hrest⟩ := h.cmd_inv
    obtain ⟨first, rest, a, rfl, hk, hf⟩ := ih answer hrest
    exact ⟨⟨c, answer⟩ :: first, rest, a, rfl, .cmd hk, hf⟩

/-- A failing program ends with the error of its first part, or goes on after it. -/
theorem bindExcept_inv {x : ExceptT ε (Prog C A) α} {f : α → ExceptT ε (Prog C A) β} {b : Except ε β}
    (h : Runs (x >>= f).run tr b) :
    (∃ e, Runs x.run tr (.error e) ∧ b = .error e) ∨
    ∃ first rest a, tr = first ++ rest ∧ Runs x.run first (.ok a) ∧ Runs (f a).run rest b := by
  obtain ⟨first, rest, result, rfl, hx, hf⟩ := bind_inv (p := x.run) h
  cases result with
  | error e =>
    obtain ⟨rfl, rfl⟩ := ret_inv hf
    exact .inl ⟨e, (List.append_nil first).symm ▸ hx, rfl⟩
  | ok a => exact .inr ⟨first, rest, a, rfl, hx, hf⟩

/-- Of two runs that were answered alike, neither stops before the other. -/
theorem unique (h : Runs p tr r) (h' : Runs p tr' r') (he : tr ++ more = tr' ++ more') :
    tr = tr' ∧ r = r' := by
  induction h generalizing tr' with
  | ret a =>
    obtain ⟨rfl, rfl⟩ := h'.ret_inv
    exact ⟨rfl, rfl⟩
  | cmd _ ih =>
    obtain ⟨a, rest, rfl, hrest⟩ := h'.cmd_inv
    obtain ⟨ha, htl⟩ := List.cons.inj he
    cases ha
    obtain ⟨rfl, rfl⟩ := ih hrest htl
    exact ⟨rfl, rfl⟩

theorem only {P : C → Prop} {R : α → Prop} (h : Runs p tr r) (hp : p.Only P R) :
    (∀ e ∈ tr, P e.1) ∧ R r := by
  induction h with
  | ret a =>
    refine ⟨?_, hp⟩
    intro e he
    cases he
  | cmd _ ih =>
    obtain ⟨hrest, hr⟩ := ih (hp.2 _)
    exact ⟨List.forall_mem_cons.mpr ⟨hp.1, hrest⟩, hr⟩

end Runs

theorem Prog.Only.imp {P P' : C → Prop} {R : α → Prop} {p : Prog C A α} (h : p.Only P R)
    (hP : ∀ c, P c → P' c) : p.Only P' R := by
  induction p with
  | ret a => exact h
  | cmd c k ih => exact ⟨hP c h.1, fun a => ih a (h.2 a)⟩

theorem bindExcept_assoc (x : ExceptT ε (Prog C A) α) (f : α → ExceptT ε (Prog C A) β)
    (g : β → ExceptT ε (Prog C A) γ) : (x >>= f) >>= g = x >>= fun a => f a >>= g := by
  refine (Prog.bind_assoc x.run _ _).trans ?_
  refine congrArg (x.run >>= ·) (funext fun r => ?_)
  cases r <;> rfl

/-! ### What a failure is due to -/

/-- Whatever the program is answered, it fails exactly if one of the answers is
`bad`. -/
def FailsBy (bad : (Σ c, A c) → Prop) (x : ExceptT ε (Prog C A) α) : Prop :=
  ∀ tr r, Runs x.run tr r → ((∃ e, r = .error e) ↔ ∃ e ∈ tr, bad e)

section FailsBy

variable {bad : (Σ c, A c) → Prop}

theorem failsBy_pure (a : α) : FailsBy bad (pure a : ExceptT ε (Prog C A) α) := by
  intro tr r h
  obtain ⟨rfl, rfl⟩ := h.ret_inv
  simp

theorem FailsBy.bind {x : ExceptT ε (Prog C A) α} {f : α → ExceptT ε (Prog C A) β}
    (hx : FailsBy bad x) (hf : ∀ a, FailsBy bad (f a)) : FailsBy bad (x >>= f) := by
  intro tr b h
  rcases h.bindExcept_inv with ⟨e, hrun, rfl⟩ | ⟨first, rest, a, rfl, hrun, hrest⟩
  · have hbad := (hx _ _ hrun).mp ⟨e, rfl⟩
    exact ⟨fun _ => hbad, fun _ => ⟨e, rfl⟩⟩
  · have hfirst : ¬ ∃ e ∈ first, bad e := by
      intro hbad
      obtain ⟨e, he⟩ := (hx _ _ hrun).mpr hbad
      cases he
    rw [hf a _ _ hrest]
    constructor
    · rintro ⟨e, he, hbad⟩
      exact ⟨e, List.mem_append_right first he, hbad⟩
    · rintro ⟨e, he, hbad⟩
      rcases List.mem_append.mp he with he | he
      · exact absurd ⟨e, he, hbad⟩ hfirst
      · exact ⟨e, he, hbad⟩

/-- One command, whose answer is the result. -/
theorem failsBy_command (c : C) {g : A c → Except ε α}
    (h : ∀ a, (∃ e, g a = .error e) ↔ bad ⟨c, a⟩) :
    FailsBy bad (ExceptT.mk (.cmd c fun a => .ret (g a))) := by
  intro tr r hr
  obtain ⟨a, rest, rfl, hrest⟩ := hr.cmd_inv
  obtain ⟨rfl, rfl⟩ := hrest.ret_inv
  simpa using h a

end FailsBy

end Commands
