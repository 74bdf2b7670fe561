import Mathlib.Logic.Relation

/-! Programs over a device, as trees of commands. The device decides what a
command answers and what it leaves behind, so a failed command and a cut
between two commands are ordinary behaviours of the same tree. -/

namespace Commands

universe u v w x

/-- A program is finished, or issues a command and goes on with its answer. -/
inductive Prog (C : Type u) (A : C → Type v) (α : Type w) : Type (max u v w)
  | ret (a : α)
  | cmd (c : C) (k : A c → Prog C A α)

namespace Prog

variable {C : Type u} {A : C → Type v} {α β γ : Type w}

def bind : Prog C A α → (α → Prog C A β) → Prog C A β
  | ret a, f => f a
  | cmd c k, f => cmd c (fun a => (k a).bind f)

instance : Monad (Prog C A) where
  pure := ret
  bind := bind

/-- The program that issues one command and returns its answer. -/
def perform {A : C → Type w} (c : C) : Prog C A (A c) := cmd c ret

/-- The program issues only commands of `P` and ends only in results of `R`. -/
def Only (P : C → Prop) (R : α → Prop) : Prog C A α → Prop
  | ret a => R a
  | cmd c k => P c ∧ ∀ a, Only P R (k a)

theorem Only.bind {P : C → Prop} {R : α → Prop} {S : β → Prop} {p : Prog C A α} {f : α → Prog C A β}
    (h : Only P R p) (hf : ∀ a, R a → Only P S (f a)) : Only P S (p >>= f) := by
  induction p with
  | ret a => exact hf a h
  | cmd c k ih => exact ⟨h.1, fun a => ih a (h.2 a)⟩

theorem Only.bindExcept {ε : Type w} {P : C → Prop} {S : Except ε β → Prop}
    {x : ExceptT ε (Prog C A) α} {f : α → ExceptT ε (Prog C A) β}
    (h : Only P (fun r => match r with
      | .ok a => Only P S (f a).run
      | .error e => S (.error e)) x.run) : Only P S (x >>= f).run := by
  refine Only.bind (p := x.run) h ?_
  intro r hr
  cases r <;> exact hr

theorem Only.mono {P : C → Prop} {R S : α → Prop} {p : Prog C A α} (h : Only P R p)
    (hR : ∀ a, R a → S a) : Only P S p := by
  induction p with
  | ret a => exact hR a h
  | cmd c k ih => exact ⟨h.1, fun a => ih a (h.2 a)⟩

/-- Replaces every command by a program over other commands. -/
def expand {A : C → Type w} {C' : Type u} {A' : C' → Type w} (h : (c : C) → Prog C' A' (A c)) :
    Prog C A α → Prog C' A' α
  | ret a => ret a
  | cmd c k => h c >>= fun a => (k a).expand h

theorem bind_assoc (p : Prog C A α) (f : α → Prog C A β) (g : β → Prog C A γ) :
    (p >>= f) >>= g = p >>= fun a => f a >>= g := by
  induction p with
  | ret a => rfl
  | cmd c k ih => exact congrArg (cmd c) (funext ih)

section Expand

variable {A : C → Type w} {C' : Type u} {A' : C' → Type w} {h : (c : C) → Prog C' A' (A c)}

theorem expand_bind (p : Prog C A α) (f : α → Prog C A β) :
    (p >>= f).expand h = p.expand h >>= fun a => (f a).expand h := by
  induction p with
  | ret a => rfl
  | cmd c k ih =>
    change (h c >>= fun a => (k a >>= f).expand h) = (h c >>= fun a => (k a).expand h) >>= _
    rw [bind_assoc]
    exact congrArg _ (funext ih)

theorem bind_ret (p : Prog C A α) : p >>= ret = p := by
  induction p with
  | ret a => rfl
  | cmd c k ih => exact congrArg (cmd c) (funext ih)

theorem expand_perform (c : C) : (perform c).expand h = h c := bind_ret (h c)

end Expand

/-- Commands that stand for themselves are left alone. -/
theorem Only.expand {A : C → Type w} {h : (c : C) → Prog C A (A c)} {P : C → Prop} {R : α → Prop}
    {p : Prog C A α} (hp : p.Only P R) (hP : ∀ c, P c → h c = perform c) : p.expand h = p := by
  induction p with
  | ret a => rfl
  | cmd c k ih =>
    change (h c >>= fun a => (k a).expand h) = cmd c k
    rw [hP c hp.1]
    exact congrArg (cmd c) (funext fun a => ih a (hp.2 a))

end Prog

/-- What a device in one state may answer to a command, and its next state. -/
abbrev Device (C : Type u) (A : C → Type v) (σ : Type x) := σ → (c : C) → A c → σ → Prop

/-- What every step keeps, every run keeps. -/
theorem invariant_run {σ : Type x} {step : σ → σ → Prop} {I : σ → Prop} {s t : σ}
    (h : Relation.ReflTransGen step s t) (hstep : ∀ s t, step s t → I s → I t) (hs : I s) : I t := by
  induction h with
  | refl => exact hs
  | tail _ hst ih => exact hstep _ _ hst ih

section Runs

variable {C : Type u} {A : C → Type v} {σ : Type x} {α β : Type w}

/-- A device that carries out one command of a program. -/
inductive Step (D : Device C A σ) : Prog C A α × σ → Prog C A α × σ → Prop
  | cmd {c : C} {k : A c → Prog C A α} {s t : σ} {a : A c} (h : D s c a t) :
      Step D (.cmd c k, s) (k a, t)

abbrev Steps (D : Device C A σ) : Prog C A α × σ → Prog C A α × σ → Prop :=
  Relation.ReflTransGen (Step D)

/-- Whatever the device answers, `I` holds wherever the program can be cut
off, and `Q` holds of its result if it finishes. -/
def Safe (D : Device C A σ) (I : σ → Prop) : Prog C A α → (α → σ → Prop) → σ → Prop
  | .ret a, Q, s => I s ∧ Q a s
  | .cmd c k, Q, s => I s ∧ ∀ a t, D s c a t → Safe D I (k a) Q t

theorem Steps.cmd {D : Device C A σ} {c : C} {k : A c → Prog C A α} {s t u : σ} {a : A c}
    {q : Prog C A α} (h : D s c a t) (hs : Steps D (k a, t) (q, u)) :
    Steps D (.cmd c k, s) (q, u) :=
  .head (.cmd h) hs

theorem Steps.bind {D : Device C A σ} {p q : Prog C A α} {s t : σ} (h : Steps D (p, s) (q, t))
    (f : α → Prog C A β) : Steps D (p >>= f, s) (q >>= f, t) := by
  refine h.lift (fun c : Prog C A α × σ => (c.1 >>= f, c.2)) fun a b hab => ?_
  cases hab with
  | cmd hd => exact .cmd hd

theorem Steps.ret_eq {D : Device C A σ} {a b : α} {s t : σ} (h : Steps D (.ret a, s) (.ret b, t)) :
    a = b ∧ s = t := by
  rcases h.cases_head with heq | ⟨_, hstep, -⟩
  · cases heq
    exact ⟨rfl, rfl⟩
  · cases hstep

/-- A run to the end of two programs is one of each. -/
theorem Steps.of_bind {D : Device C A σ} {p : Prog C A α} {f : α → Prog C A β} {b : β} {s u : σ}
    (h : Steps D (p >>= f, s) (.ret b, u)) :
    ∃ a t, Steps D (p, s) (.ret a, t) ∧ Steps D (f a, t) (.ret b, u) := by
  induction p generalizing s with
  | ret a => exact ⟨a, s, .refl, h⟩
  | cmd c k ih =>
    change Steps D (.cmd c fun a => k a >>= f, s) (.ret b, u) at h
    rcases h.cases_head with heq | ⟨_, hstep, hsteps⟩
    · cases heq
    · cases hstep with
      | cmd hd =>
        obtain ⟨a, t, hfirst, hrest⟩ := ih _ hsteps
        exact ⟨a, t, .cmd hd hfirst, hrest⟩

/-- A device that always answers runs a program to its end. -/
theorem exists_steps {D : Device C A σ} (h : ∀ s c, ∃ a t, D s c a t) (p : Prog C A α) (s : σ) :
    ∃ r t, Steps D (p, s) (.ret r, t) := by
  induction p generalizing s with
  | ret a => exact ⟨a, s, .refl⟩
  | cmd c k ih =>
    obtain ⟨a, t, hd⟩ := h s c
    obtain ⟨r, u, hsteps⟩ := ih a t
    exact ⟨r, u, .cmd hd hsteps⟩

variable {D : Device C A σ} {I J : σ → Prop} {Q R : α → σ → Prop}

theorem Safe.now {p : Prog C A α} {s : σ} (h : Safe D I p Q s) : I s := by
  cases p <;> exact h.1

theorem Safe.step {p q : Prog C A α} {s t : σ} (h : Safe D I p Q s)
    (hs : Step D (p, s) (q, t)) : Safe D I q Q t := by
  cases hs with
  | cmd hd => exact h.2 _ _ hd

theorem Safe.steps {p q : Prog C A α} {s t : σ} (h : Safe D I p Q s)
    (hs : Steps D (p, s) (q, t)) : Safe D I q Q t := by
  generalize he : (q, t) = c at hs
  induction hs generalizing q t with
  | refl => cases he; exact h
  | @tail b _ _ hstep ih => cases he; exact (ih (q := b.1) (t := b.2) rfl).step hstep

theorem Safe.mono {p : Prog C A α} {s : σ} (h : Safe D I p Q s)
    (hI : ∀ s, I s → J s) (hQ : ∀ a s, Q a s → R a s) : Safe D J p R s := by
  induction p generalizing s with
  | ret a => exact ⟨hI s h.1, hQ a s h.2⟩
  | cmd c k ih => exact ⟨hI s h.1, fun a t hd => ih a (h.2 a t hd)⟩

/-- The invariant holds where the program ends. -/
theorem Safe.result {p : Prog C A α} {s : σ} (h : Safe D I p Q s) :
    Safe D I p (fun a t => I t ∧ Q a t) s := by
  induction p generalizing s with
  | ret a => exact ⟨h.1, h.1, h.2⟩
  | cmd c k ih => exact ⟨h.1, fun a t hd => ih a (h.2 a t hd)⟩

theorem Safe.bind {Q : β → σ → Prop} {p : Prog C A α} {f : α → Prog C A β} {s : σ}
    (h : Safe D I p (fun a t => Safe D I (f a) Q t) s) : Safe D I (p >>= f) Q s := by
  induction p generalizing s with
  | ret a => exact h.2
  | cmd c k ih => exact ⟨h.1, fun a t hd => ih a (h.2 a t hd)⟩

theorem Safe.perform {A : C → Type w} {D : Device C A σ} {c : C} {Q : A c → σ → Prop} {s : σ}
    (hs : I s) (h : ∀ a t, D s c a t → I t ∧ Q a t) : Safe D I (Prog.perform c) Q s :=
  ⟨hs, h⟩

/-- A step of a failing program: an error ends it, a result is handed on. -/
theorem Safe.bindExcept {ε : Type w} {x : ExceptT ε (Prog C A) α} {f : α → ExceptT ε (Prog C A) β}
    {Q : Except ε β → σ → Prop} {s : σ}
    (h : Safe D I x.run (fun r t => match r with
      | .ok a => Safe D I (f a).run Q t
      | .error e => I t ∧ Q (.error e) t) s) :
    Safe D I (x >>= f).run Q s := by
  apply Safe.bind (p := x.run)
  apply h.mono (fun _ h => h)
  intro r t hr
  cases r <;> exact hr

/-- Every command that the program issues is one that `G` allows where it is
issued, and `Q` holds of its result. -/
def Guarded (D : Device C A σ) (G : σ → C → Prop) : Prog C A α → (α → σ → Prop) → σ → Prop
  | .ret a, Q, s => Q a s
  | .cmd c k, Q, s => G s c ∧ ∀ a t, D s c a t → Guarded D G (k a) Q t

section Guards

variable {G : σ → C → Prop}

theorem Guarded.step {p q : Prog C A α} {s t : σ} (h : Guarded D G p Q s)
    (hs : Step D (p, s) (q, t)) : Guarded D G q Q t := by
  cases hs with
  | cmd hd => exact h.2 _ _ hd

theorem Guarded.bind {Q : β → σ → Prop} {p : Prog C A α} {f : α → Prog C A β} {s : σ}
    (h : Guarded D G p (fun a t => Guarded D G (f a) Q t) s) : Guarded D G (p >>= f) Q s := by
  induction p generalizing s with
  | ret a => exact h
  | cmd c k ih => exact ⟨h.1, fun a t hd => ih a (h.2 a t hd)⟩

theorem Guarded.mono {p : Prog C A α} {s : σ} (h : Guarded D G p Q s)
    (hQ : ∀ a s, Q a s → R a s) : Guarded D G p R s := by
  induction p generalizing s with
  | ret a => exact hQ a s h
  | cmd c k ih => exact ⟨h.1, fun a t hd => ih a (h.2 a t hd)⟩

/-- What the allowed commands keep, the program keeps. -/
theorem Guarded.steps {I : σ → Prop} {p q : Prog C A α} {s t : σ} (h : Guarded D G p Q s) (hs : I s)
    (hI : ∀ s c a t, G s c → D s c a t → I s → I t) (hsteps : Steps D (p, s) (q, t)) :
    Guarded D G q Q t ∧ I t := by
  generalize he : (q, t) = c at hsteps
  induction hsteps generalizing q t with
  | refl => cases he; exact ⟨h, hs⟩
  | @tail b _ _ hstep ih =>
    cases he
    obtain ⟨hguard, hinv⟩ := ih (q := b.1) (t := b.2) rfl
    obtain ⟨p', s'⟩ := b
    cases hstep with
    | cmd hd => exact ⟨hguard.2 _ _ hd, hI _ _ _ _ hguard.1 hd hinv⟩

theorem Prog.Only.guarded {P : C → Prop} {S : α → Prop} {p : Prog C A α} {s : σ} (h : p.Only P S)
    (hP : ∀ s c, P c → G s c) : Guarded D G p (fun a _ => S a) s := by
  induction p generalizing s with
  | ret a => exact h
  | cmd c k ih => exact ⟨hP s c h.1, fun a t _ => ih a (h.2 a)⟩

/-- Commands replaced by programs that answer as they may. -/
theorem Guarded.expand {A : C → Type w} {D : Device C A σ} {C' : Type u} {A' : C' → Type w}
    {D' : Device C' A' σ} {G' : σ → C' → Prop} {h : (c : C) → Prog C' A' (A c)} {p : Prog C A α}
    {s : σ} (hp : Guarded D G p Q s)
    (hh : ∀ s c, G s c → Guarded D' G' (h c) (fun a t => D s c a t) s) :
    Guarded D' G' (p.expand h) Q s := by
  induction p generalizing s with
  | ret a => exact hp
  | cmd c k ih =>
    apply Guarded.bind
    exact (hh s c hp.1).mono fun a t hd => ih a (hp.2 a t hd)

theorem Guarded.bindExcept {ε : Type w} {x : ExceptT ε (Prog C A) α}
    {f : α → ExceptT ε (Prog C A) β} {Q : Except ε β → σ → Prop} {s : σ}
    (h : Guarded D G x.run (fun r t => match r with
      | .ok a => Guarded D G (f a).run Q t
      | .error e => Q (.error e) t) s) :
    Guarded D G (x >>= f).run Q s := by
  apply Guarded.bind (p := x.run)
  refine h.mono fun r t hr => ?_
  cases r <;> exact hr

/-- What is guarded in a state is so in those that it simulates. -/
theorem Guarded.simulate {R : σ → σ → Prop} {p : Prog C A α} {s s' : σ} (h : Guarded D G p Q s)
    (hs : R s s') (hG : ∀ s s' c, R s s' → G s c → G s' c)
    (hD : ∀ s s' c a t', R s s' → D s' c a t' → ∃ t, D s c a t ∧ R t t') :
    Guarded D G p (fun a t' => ∃ t, R t t' ∧ Q a t) s' := by
  induction p generalizing s s' with
  | ret a => exact ⟨s, hs, h⟩
  | cmd c k ih =>
    refine ⟨hG s s' c hs h.1, fun a t' ht' => ?_⟩
    obtain ⟨t, ht, hrel⟩ := hD s s' c a t' hs ht'
    exact ih a (h.2 a t ht) hrel

/-- `Q` holds of a value that the failing program returns. -/
def Returns {ε : Type w} (D : Device C A σ) (G : σ → C → Prop) (x : ExceptT ε (Prog C A) α)
    (Q : α → σ → Prop) : σ → Prop :=
  Guarded D G x.run fun r t => ∀ a, r = .ok a → Q a t

namespace Returns

variable {ε : Type w} {x : ExceptT ε (Prog C A) α} {s t : σ}

theorem bind {f : α → ExceptT ε (Prog C A) β} {Q : β → σ → Prop}
    (h : Returns D G x (fun a t => Returns D G (f a) Q t) s) : Returns D G (x >>= f) Q s := by
  apply Guarded.bindExcept
  refine Guarded.mono h fun r t hr => ?_
  cases r with
  | ok a => exact hr a rfl
  | error e => exact fun _ he => by cases he

theorem mono (h : Returns D G x Q s) (hQ : ∀ a t, Q a t → R a t) : Returns D G x R s :=
  Guarded.mono h fun _ t hr a ha => hQ a t (hr a ha)

theorem pure {a : α} (h : Q a s) : Returns D G (Pure.pure a : ExceptT ε (Prog C A) α) Q s := by
  rintro b ⟨⟩
  exact h

theorem throw (e : ε) : Returns D G (throw e : ExceptT ε (Prog C A) α) Q s :=
  fun _ he => by cases he

theorem lift {A : C → Type w} {D : Device C A σ} {c : C} {Q : A c → σ → Prop} (hc : G s c)
    (h : ∀ a t, D s c a t → Q a t) :
    Returns D G (ExceptT.lift (Prog.perform c) : ExceptT ε (Prog C A) (A c)) Q s := by
  refine ⟨hc, fun a t ht => ?_⟩
  rintro b ⟨⟩
  exact h a t ht

/-- A run to the end. -/
theorem result {a : α} (h : Returns D G x Q s) (hrun : Steps D (x.run, s) (.ret (.ok a), t)) : Q a t :=
  (Guarded.steps (I := fun _ => True) h trivial (fun _ _ _ _ _ _ _ => trivial) hrun).1 a rfl

end Returns

end Guards

/-- Commands that keep the invariant make a program that keeps it. -/
theorem Safe.ofOnly {P : C → Prop} {R : α → Prop} {p : Prog C A α} {s : σ} (h : p.Only P R)
    (hP : ∀ s c a t, P c → D s c a t → I s → I t) (hs : I s) :
    Safe D I p (fun a t => R a ∧ I t) s := by
  induction p generalizing s with
  | ret a => exact ⟨hs, h, hs⟩
  | cmd c k ih => exact ⟨hs, fun a t hd => ih a (h.2 a) (hP s c a t h.1 hd hs)⟩

end Runs

/-! ### Monitors -/

section Monitors

variable {C : Type u} {A : C → Type v} {σ : Type x} {α β : Type w}

/-- A state that only follows the commands and their answers. -/
def monitor (next : σ → (c : C) → A c → σ) : Device C A σ := fun s c a t => t = next s c a

/-- A command that leaves the monitor where it is. -/
def Unnoticed (next : σ → (c : C) → A c → σ) (s : σ) (c : C) : Prop := ∀ a, next s c a = s

variable {next : σ → (c : C) → A c → σ} {I : σ → Prop} {s : σ}

theorem Prog.Only.unnoticed {R : α → Prop} {p : Prog C A α} (h : p.Only (Unnoticed next s) R)
    (hs : I s) : Safe (monitor next) I p (fun a t => R a ∧ t = s) s := by
  induction p with
  | ret a => exact ⟨hs, h, rfl⟩
  | cmd c k ih =>
    refine ⟨hs, fun a t ht => ?_⟩
    obtain rfl : t = s := ht.trans (h.1 a)
    exact ih a (h.2 a)

/-- An unnoticed part of a failing program, and what comes after it. -/
theorem Prog.Only.bind_unnoticed {ε : Type w} {x : ExceptT ε (Prog C A) α}
    {f : α → ExceptT ε (Prog C A) β} {Q : Except ε β → σ → Prop}
    (h : x.run.Only (Unnoticed next s) fun _ => True) (hs : I s) (herror : ∀ e, Q (.error e) s)
    (hf : ∀ a, Safe (monitor next) I (f a).run Q s) :
    Safe (monitor next) I (x >>= f).run Q s := by
  apply Safe.bindExcept
  refine (h.unnoticed hs).mono (fun _ h => h) ?_
  rintro r _ ⟨-, rfl⟩
  cases r with
  | ok a => exact hf a
  | error e => exact ⟨hs, herror e⟩

end Monitors

/-! ### Histories -/

section Histories

variable {C : Type u} {A : C → Type v} {α β : Type w}

/-- A device that answers anything and remembers what it was asked. -/
def history : Device C A (List (Σ c, A c)) := monitor fun tr c a => tr ++ [⟨c, a⟩]

/-- Every command was allowed by what came before it. -/
def Lawful (allowed : List (Σ c, A c) → C → Prop) (tr : List (Σ c, A c)) : Prop :=
  ∀ pre e post, tr = pre ++ e :: post → allowed pre e.1

variable {allowed : List (Σ c, A c) → C → Prop} {tr : List (Σ c, A c)}

theorem lawful_nil : Lawful allowed [] := by
  intro pre e post h
  simp at h

theorem Lawful.snoc {c : C} (h : Lawful allowed tr) (hc : allowed tr c) (a : A c) :
    Lawful allowed (tr ++ [⟨c, a⟩]) := by
  intro pre e post he
  rcases List.append_eq_append_iff.mp he with ⟨mid, rfl, hmid⟩ | ⟨mid, rfl, hmid⟩
  · -- `e` is the new event
    cases mid with
    | nil =>
      obtain ⟨rfl, -⟩ := List.cons.inj hmid
      simpa using hc
    | cons f mid => simp at hmid
  · cases mid with
    | nil =>
      obtain ⟨rfl, -⟩ := List.cons.inj hmid
      simpa using hc
    | cons f mid =>
      obtain ⟨rfl, -⟩ := List.cons.inj hmid
      exact h pre e mid rfl

/-- The program issues only what is allowed, and where it returns a value the
history holds what `F` says of it. -/
def Orderly {ε : Type w} (allowed : List (Σ c, A c) → C → Prop) (p : Prog C A (Except ε α))
    (F : α → List (Σ c, A c) → Prop) (tr : List (Σ c, A c)) : Prop :=
  Safe history (Lawful allowed) p (fun r t => tr <+: t ∧ ∀ a, r = .ok a → F a t) tr

namespace Orderly

variable {ε ε' : Type w} {F : α → List (Σ c, A c) → Prop}

theorem ok {a : α} (htr : Lawful allowed tr) (h : F a tr) :
    Orderly allowed (.ret (.ok a) : Prog C A (Except ε α)) F tr :=
  ⟨htr, List.prefix_rfl, fun _ he => Except.ok.inj he ▸ h⟩

theorem error {e : ε} (htr : Lawful allowed tr) : Orderly allowed (.ret (.error e)) F tr :=
  ⟨htr, List.prefix_rfl, nofun⟩

theorem mono {G : α → List (Σ c, A c) → Prop} {p : Prog C A (Except ε α)} (h : Orderly allowed p F tr)
    (hF : ∀ a t, tr <+: t → F a t → G a t) : Orderly allowed p G tr :=
  Safe.mono h (fun _ h => h) fun _ t hr => ⟨hr.1, fun a ha => hF a t hr.1 (hr.2 a ha)⟩

theorem bind {β : Type w} {G : β → List (Σ c, A c) → Prop} {x : ExceptT ε (Prog C A) α}
    {f : α → ExceptT ε (Prog C A) β} (hx : Orderly allowed x.run F tr)
    (hf : ∀ a t, tr <+: t → Lawful allowed t → F a t → Orderly allowed (f a).run G t) :
    Orderly allowed (x >>= f).run G tr := by
  apply Safe.bindExcept
  refine (Safe.result hx).mono (fun _ h => h) ?_
  rintro (e | a) t ⟨ht, hpre, hF⟩
  · exact ⟨ht, hpre, nofun⟩
  · have hfa := hf a t hpre ht (hF a rfl)
    exact Safe.mono hfa (fun _ h => h) fun _ u hu => ⟨hpre.trans hu.1, hu.2⟩

/-- One command, which hands its answer on. -/
theorem perform {A : C → Type w} {allowed : List (Σ c, A c) → C → Prop} {tr : List (Σ c, A c)}
    {c : C} {h : A c → Except ε α} {F : α → List (Σ c, A c) → Prop} (htr : Lawful allowed tr)
    (hc : allowed tr c) (hF : ∀ answer a, h answer = .ok a → F a (tr ++ [⟨c, answer⟩])) :
    Orderly allowed (.cmd c fun answer => .ret (h answer)) F tr := by
  refine ⟨htr, fun answer t ht => ?_⟩
  cases ht
  exact ⟨htr.snoc hc answer, List.prefix_append _ _, hF answer⟩

end Orderly

/-- A command that is allowed from now on. -/
def Permitted (allowed : List (Σ c, A c) → C → Prop) (tr : List (Σ c, A c)) (c : C) : Prop :=
  ∀ t, tr <+: t → allowed t c

theorem Prog.Only.orderly {ε : Type w} {R : Except ε α → Prop} {p : Prog C A (Except ε α)}
    (h : p.Only (Permitted allowed tr) R) (htr : Lawful allowed tr) :
    Orderly allowed p (fun a _ => R (.ok a)) tr := by
  have hstep : ∀ s c a t, Permitted allowed tr c → history s c a t → tr <+: s ∧ Lawful allowed s →
      tr <+: t ∧ Lawful allowed t := by
    rintro s c a t hc rfl ⟨hpre, hs⟩
    exact ⟨hpre.trans (List.prefix_append _ _), hs.snoc (hc s hpre) a⟩
  refine (Safe.ofOnly (I := fun t => tr <+: t ∧ Lawful allowed t) h hstep ⟨List.prefix_rfl, htr⟩).mono
    (fun _ h => h.2) ?_
  rintro r t ⟨hr, hpre, -⟩
  refine ⟨hpre, fun a ha => ?_⟩
  subst ha
  exact hr

end Histories

/-! ### Runs without a choice -/

section Deterministic

variable {C : Type u} {A : C → Type v} {σ : Type x} {α β : Type w}

/-- The run in which every command is answered by `f`. -/
def Prog.run (f : σ → (c : C) → A c × σ) : Prog C A α → σ → α × σ
  | .ret a, s => (a, s)
  | .cmd c k, s => (k (f s c).1).run f (f s c).2

variable {f : σ → (c : C) → A c × σ}

theorem Prog.run_bind (p : Prog C A α) (g : α → Prog C A β) (s : σ) :
    (p >>= g).run f s = (g (p.run f s).1).run f (p.run f s).2 := by
  induction p generalizing s with
  | ret a => rfl
  | cmd c k ih => exact ih _ _

/-- Answers that the device may give make a run that it may take. -/
theorem Prog.run_steps {D : Device C A σ} (hf : ∀ s c, D s c (f s c).1 (f s c).2)
    (p : Prog C A α) (s : σ) : Steps D (p, s) (.ret (p.run f s).1, (p.run f s).2) := by
  induction p generalizing s with
  | ret a => exact .refl
  | cmd c k ih => exact .head (.cmd (hf s c)) (ih _ _)

end Deterministic

section Never

variable {C : Type u} {A : C → Type v} {ε α β : Type w} {e : ε}

/-- The program does not end with the error `e`, whatever it is answered. -/
def Never (e : ε) (x : ExceptT ε (Prog C A) α) : Prop :=
  x.run.Only (fun _ => True) (· ≠ .error e)

theorem Never.bind {x : ExceptT ε (Prog C A) α} {f : α → ExceptT ε (Prog C A) β} (h : Never e x)
    (hf : ∀ a, Never e (f a)) : Never e (x >>= f) := by
  refine Prog.Only.bindExcept (h.mono fun r hr => ?_)
  cases r with
  | ok a => exact hf a
  | error e' =>
    rintro ⟨⟩
    exact hr rfl

end Never

/-- A loop in which no call fails. -/
theorem mapM_eq_pure {m : Type u → Type v} [Monad m] [LawfulMonad m] {α : Type w} {β : Type u}
    {f : α → m β} {g : α → β} {l : List α} (h : ∀ x ∈ l, f x = pure (g x)) :
    l.mapM f = pure (l.map g) := by
  induction l with
  | nil => rfl
  | cons x l ih =>
    have hl := ih fun y hy => h y (List.mem_cons_of_mem x hy)
    simp [List.mapM_cons, h x List.mem_cons_self, hl]

end Commands
