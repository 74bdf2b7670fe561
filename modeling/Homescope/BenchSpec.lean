import Homescope.Bench

/-! What each method of the tool does to a board on the bench, whichever of
its commands fails. -/

namespace Homescope

open Commands ToolM

variable {faults allowed : Prop} {key : Option DeviceKey} {I : Bench → Prop} {s : Bench}

theorem WritesHeader.irrefl (b : Board) : ¬WritesHeader b b := fun h => h.2 h.1

namespace Bench

theorem ext {s t : Bench} (hb : s.board = t.board) (hw : s.writer = t.writer) : s = t := by
  cases s
  cases t
  cases hb
  cases hw
  rfl

/-- The same record, written by the same attempt. -/
def Alike (s t : Bench) : Prop := t.record = s.record ∧ t.writer = s.writer

theorem Alike.refl (s : Bench) : s.Alike s := ⟨rfl, rfl⟩

def setConfig (s : Bench) (config : Word) : Bench := ⟨⟨config, s.board.memory⟩, s.writer⟩

theorem setConfig_alike (s : Bench) (config : Word) : s.Alike (s.setConfig config) := ⟨rfl, rfl⟩

theorem write_config (s : Bench) (word : Word) : s.write key nvmcConfig word = s.setConfig word := by
  have hb : s.board.writeWord32 nvmcConfig word = ⟨word, s.board.memory⟩ := if_pos rfl
  apply ext hb
  simp only [write, hb, setConfig]
  exact if_neg (fun h => h.2 h.1)

end Bench

theorem benchStep.writer_eq {c : ToolCmd} {a : c.Answer} {t : Bench}
    (h : benchStep faults allowed key s c a t) (hm : t.record = s.record) : s.Alike t := by
  refine ⟨hm, h.2.2.2.trans (if_neg fun hw => ?_)⟩
  exact hw.2 ((congrFun hm 0).trans hw.1)

theorem benchStep.eq_of_board {c : ToolCmd} {a : c.Answer} {t : Bench}
    (h : benchStep faults allowed key s c a t) (hb : t.board = s.board) : t = s :=
  Bench.ext hb (h.writer_eq (by rw [Bench.record, hb]; rfl)).2

theorem benchStep.write_cases {address : Nat} {word : Word} {a : Except ProbeError Unit} {t : Bench}
    (h : benchStep faults allowed key s (.writeWord32 address word) a t) :
    t = s ∧ (∃ e, a = .error e) ∧ faults ∨
      t = s.write key address word ∧ (WritesHeader s.board t.board → allowed) ∧
        (a = .ok () ∨ (∃ e, a = .error e) ∧ faults) := by
  have hwrite : t.board = s.board.writeWord32 address word → t = s.write key address word := by
    intro hb
    apply Bench.ext hb
    rw [h.2.2.2, hb]
    rfl
  cases a with
  | ok u => exact Or.inr ⟨hwrite h.1, h.2.2.1, Or.inl rfl⟩
  | error e =>
    have hf := h.2.1 trivial
    rcases h.1 with hb | hb
    · exact Or.inl ⟨h.eq_of_board hb, ⟨e, rfl⟩, hf⟩
    · exact Or.inr ⟨hwrite hb, h.2.2.1, Or.inr ⟨⟨e, rfl⟩, hf⟩⟩

theorem Bench.answer_step {ready : Bool} (hf : ready = false → faults) (ha : allowed) (s : Bench)
    (c : ToolCmd) :
    benchStep faults allowed key s c (s.answer ready key c).1 (s.answer ready key c).2 := by
  have hsame : ∀ b : Board, s.writer = if WritesHeader b b then key else s.writer :=
    fun b => (if_neg (WritesHeader.irrefl b)).symm
  cases c with
  | writeWord32 address word => exact ⟨rfl, fun h => h.elim, fun _ => ha, rfl⟩
  | pollReady =>
    refine ⟨rfl, fun h => hf ?_, fun _ => ha, hsame _⟩
    cases ready
    · rfl
    · exact h.elim
  | readWord32 address =>
    exact ⟨⟨rfl, fun _ h => (Except.ok.inj h).symm⟩, fun h => h.elim, fun _ => ha, hsame _⟩
  | read32 address len =>
    exact ⟨⟨rfl, fun _ h => (Except.ok.inj h).symm⟩, fun h => h.elim, fun _ => ha, hsame _⟩
  | _ => exact ⟨rfl, fun h => h.elim, fun _ => ha, hsame _⟩

namespace Nvmc

theorem setMode_safe (hI : ∀ t, s.Alike t → I t) (mode : NvmcMode) :
    Safe (benchStep faults allowed key) I (setMode mode).run
      (fun r t => r = .ok () ∧ t = s.setConfig mode.word ∨ faults ∧ (∃ e, r = .error e) ∧ s.Alike t)
      s := by
  refine ⟨hI s (.refl s), fun a t hd => ?_⟩
  rcases hd.write_cases with ⟨rfl, he, hf⟩ | ⟨rfl, -, ha⟩
  · exact ⟨hI _ (.refl _), Or.inr ⟨hf, he, .refl _⟩⟩
  · rw [Bench.write_config]
    refine ⟨hI _ (s.setConfig_alike _), ?_⟩
    rcases ha with rfl | ⟨he, hf⟩
    · exact Or.inl ⟨rfl, rfl⟩
    · exact Or.inr ⟨hf, he, s.setConfig_alike _⟩

theorem flush_safe (hs : I s) :
    Safe (benchStep faults allowed key) I flush.run
      (fun r t => t = s ∧ (r = .ok () ∨ faults ∧ ∃ e, r = .error e)) s := by
  refine ⟨hs, fun a t hd => ?_⟩
  obtain rfl := hd.eq_of_board hd.1
  refine ⟨hs, rfl, ?_⟩
  cases a with
  | ok u => exact Or.inl rfl
  | error e => exact Or.inr ⟨hd.2.1 trivial, e, rfl⟩

/-- The closure's result, or a fault on the way out. -/
theorem finish_safe {α : Type} (hI : ∀ t, s.Alike t → I t) (closureResult : Except NvmcError α) :
    Safe (benchStep faults allowed key) I (finish closureResult).run
      (fun r t => s.Alike t ∧ (r = closureResult ∨ faults ∧ ∃ e, r = .error e)) s := by
  apply Safe.bindExcept
  apply attempt_safe
  refine (setMode_safe hI .readOnly).mono (fun _ h => h) ?_
  intro restored t ht
  have hst : s.Alike t := by
    rcases ht with ⟨-, rfl⟩ | ⟨-, -, hst⟩
    · exact s.setConfig_alike _
    · exact hst
  apply Safe.bindExcept
  apply attempt_safe
  refine (flush_safe (hI t hst)).mono (fun _ h => h) ?_
  rintro flushed u ⟨rfl, hflushed⟩
  cases closureResult with
  | error e => exact ⟨hI u hst, hst, Or.inl rfl⟩
  | ok value =>
    rcases ht with ⟨rfl, -⟩ | ⟨hf, ⟨e, rfl⟩, -⟩
    · rcases hflushed with rfl | ⟨hf, e, rfl⟩
      · exact ⟨hI u hst, hst, Or.inl rfl⟩
      · exact ⟨hI u hst, hst, Or.inr ⟨hf, _, rfl⟩⟩
    · exact ⟨hI u hst, hst, Or.inr ⟨hf, _, rfl⟩⟩

theorem withMode_safe {α : Type} {mode : NvmcMode} {f : ToolM NvmcError α}
    {R : Except NvmcError α → Bench → Prop} (hI : ∀ s t : Bench, s.Alike t → I s → I t) (hs : I s)
    (hf : Safe (benchStep faults allowed key) I f.run R (s.setConfig mode.word)) :
    Safe (benchStep faults allowed key) I (withMode mode f).run
      (fun r t => faults ∧ (∃ e, r = .error e) ∧ s.Alike t ∨
        ∃ closureResult u, R closureResult u ∧ u.Alike t ∧
          (r = closureResult ∨ faults ∧ ∃ e, r = .error e)) s := by
  apply Safe.bindExcept
  apply call_safe
  refine (setMode_safe (fun t ht => hI s t ht hs) mode).mono (fun _ h => h) ?_
  rintro r t (⟨rfl, rfl⟩ | ⟨hfault, ⟨e, rfl⟩, hst⟩)
  · apply Safe.bindExcept
    apply attempt_safe
    refine hf.result.mono (fun _ h => h) ?_
    rintro closureResult u ⟨hu, hR⟩
    refine (finish_safe (fun t ht => hI u t ht hu) closureResult).mono (fun _ h => h) ?_
    rintro r t ⟨hut, hr⟩
    exact Or.inr ⟨closureResult, u, hR, hut, hr⟩
  · exact ⟨hI s t hst hs, Or.inl ⟨hfault, ⟨_, rfl⟩, hst⟩⟩

theorem writeWord_safe {address : Nat} {word : Word} (hs : I s)
    (hw : (WritesHeader s.board (s.board.writeWord32 address word) → allowed) →
      I (s.write key address word)) :
    Safe (benchStep faults allowed key) I (writeWord address word).run
      (fun r t => t = s.write key address word ∧ (WritesHeader s.board t.board → allowed) ∧
          (r = .ok () ∨ faults ∧ ∃ e, r = .error e) ∨ t = s ∧ faults ∧ ∃ e, r = .error e) s := by
  apply Safe.bindExcept
  apply call_safe
  refine ⟨hs, fun a t hd => ?_⟩
  rcases hd.write_cases with ⟨rfl, ⟨e, rfl⟩, hf⟩ | ⟨rfl, hallowed, ha⟩
  · exact ⟨hs, hs, Or.inr ⟨rfl, hf, _, rfl⟩⟩
  · refine ⟨hw hallowed, ?_⟩
    rcases ha with rfl | ⟨⟨e, rfl⟩, hf⟩
    · refine ⟨hw hallowed, fun a u hd => ?_⟩
      obtain rfl := hd.eq_of_board hd.1
      refine ⟨hw hallowed, Or.inl ⟨rfl, hallowed, ?_⟩⟩
      cases a with
      | ok u => exact Or.inl rfl
      | error e => exact Or.inr ⟨hd.2.1 trivial, _, rfl⟩
    · exact ⟨hw hallowed, Or.inl ⟨rfl, hallowed, Or.inr ⟨hf, _, rfl⟩⟩⟩

/-- A key word does not touch the header. -/
theorem write_keyWord {address : Nat} {word : Word}
    (hc : s.board.config = NvmcMode.writeEnabled.word) (ha : uicrCustomer < address)
    (ha' : address < uicrStop) :
    s.write key address word = ⟨⟨s.board.config, s.board.memory.program address word⟩, s.writer⟩ := by
  have hn : NonVolatile address := Or.inr ⟨by unfold uicrStart uicrCustomer at *; omega, ha'⟩
  have hb : s.board.writeWord32 address word =
      ⟨s.board.config, s.board.memory.program address word⟩ := by
    unfold uicrStop at ha'
    have h1 : address ≠ nvmcConfig := by unfold nvmcConfig; omega
    have h2 : address ≠ nvmcEraseUicr := by unfold nvmcEraseUicr; omega
    have h3 : address ≠ nvmcErasePage := by unfold nvmcErasePage; omega
    rw [Board.writeWord32, if_neg h1, if_neg h2, if_neg h3, if_pos ⟨hc, hn⟩]
  apply Bench.ext hb
  rw [Bench.write, hb]
  refine if_neg fun hw => hw.2 ?_
  exact (Memory.program_other _ _ (Nat.ne_of_lt ha)).trans hw.1

/-- Key words go in while the header stays erased. -/
theorem writeWords_safe {address : Nat} {words : List Word} (hI : ∀ t : Bench, t.record 0 = erased → I t)
    (h0 : s.record 0 = erased) (hc : s.board.config = NvmcMode.writeEnabled.word)
    (ha : uicrCustomer < address) (ha' : address + 4 * words.length ≤ uicrStop) :
    Safe (benchStep faults allowed key) I (writeWords address words).run
      (fun r t => t.record 0 = erased ∧ (r = .ok () ∧
        t = ⟨⟨s.board.config, s.board.memory.programWords address words⟩, s.writer⟩ ∨
          faults ∧ ∃ e, r = .error e)) s := by
  induction words generalizing address s with
  | nil => exact ⟨hI s h0, h0, Or.inl ⟨rfl, rfl⟩⟩
  | cons word words ih =>
    simp only [List.length_cons] at ha'
    have hw : s.write key address word = _ := write_keyWord hc ha (by omega)
    have h0' : (s.write key address word).record 0 = erased := by
      rw [hw]
      exact (Memory.program_other _ _ (Nat.ne_of_lt ha)).trans h0
    apply Safe.bindExcept
    refine (writeWord_safe (hI s h0) (fun _ => hI _ h0')).mono (fun _ h => h) ?_
    rintro r t (⟨rfl, -, hr⟩ | ⟨rfl, hf, e, rfl⟩)
    · rcases hr with rfl | ⟨hf, e, rfl⟩
      · rw [hw] at h0' ⊢
        exact ih h0' hc (by omega) (by omega)
      · exact ⟨hI _ h0', h0', Or.inr ⟨hf, e, rfl⟩⟩
    · exact ⟨hI _ h0, h0, Or.inr ⟨hf, e, rfl⟩⟩

end Nvmc

/-! ### Reading back -/

theorem Memory.words_append (m : Memory) (a k n : Nat) :
    m.words a (k + n) = m.words a k ++ m.words (a + 4 * k) n := by
  simp only [words, List.range_add, List.map_append, List.map_map]
  congr 1
  apply List.map_congr_left
  intro i _
  simp only [Function.comp, Nat.mul_add, Nat.add_assoc]

namespace Chip

theorem firstMismatch_eq_none {address : Nat} {actual expected : List Word}
    (h : actual.length = expected.length) :
    firstMismatch address actual expected = none ↔ actual = expected := by
  induction actual generalizing address expected with
  | nil =>
    obtain rfl := List.eq_nil_of_length_eq_zero h.symm
    exact iff_of_true rfl rfl
  | cons a actual ih =>
    cases expected with
    | nil => cases h
    | cons e expected =>
      by_cases he : a = e
      · simp [firstMismatch, he, ih (Nat.succ.inj h)]
      · simp [firstMismatch, he]

theorem chunks_flatten {n : Nat} {words : List Word} (h : words.length < n) :
    (chunks n words).flatten = words := by
  induction n generalizing words with
  | zero => exact absurd h (Nat.not_lt_zero _)
  | succ n ih =>
    cases words with
    | nil => rfl
    | cons word words =>
      have hlt : ((word :: words).drop chunkSize).length < n := by
        simp only [List.length_drop, List.length_cons, chunkSize] at h ⊢
        omega
      rw [chunks, List.isEmpty_cons, if_neg Bool.false_ne_true, List.flatten_cons, ih hlt,
        List.take_append_drop]

theorem findMismatchIn_safe (hs : I s) (address : Nat) (cs : List (List Word)) :
    Safe (benchStep faults allowed key) I (findMismatchIn address cs).run
      (fun r t => t = s ∧ ((∃ found, r = .ok found ∧ (found = none ↔
        s.board.memory.words address cs.flatten.length = cs.flatten)) ∨ faults ∧ ∃ e, r = .error e))
      s := by
  induction cs generalizing address with
  | nil => exact ⟨hs, rfl, Or.inl ⟨none, rfl, iff_of_true rfl rfl⟩⟩
  | cons chunk cs ih =>
    apply Safe.bindExcept
    refine ⟨hs, fun a t hd => ?_⟩
    obtain rfl := hd.eq_of_board hd.1.1
    refine ⟨hs, ?_⟩
    cases a with
    | error e => exact ⟨hs, rfl, Or.inr ⟨hd.2.1 trivial, e, rfl⟩⟩
    | ok buf =>
      obtain rfl := hd.1.2 buf rfl
      have hlen : (t.board.memory.words address chunk.length).length = chunk.length := by
        simp [Memory.words]
      have hsplit : t.board.memory.words address (chunk :: cs).flatten.length =
          (chunk :: cs).flatten ↔ t.board.memory.words address chunk.length = chunk ∧
            t.board.memory.words (address + chunk.length * 4) cs.flatten.length = cs.flatten := by
        rw [List.flatten_cons, List.length_append, Memory.words_append, Nat.mul_comm 4]
        exact ⟨fun h => List.append_inj h hlen, fun h => by rw [h.1, h.2]⟩
      have hfirst : firstMismatch address _ chunk = none ↔ _ := firstMismatch_eq_none hlen
      dsimp only
      cases hm : firstMismatch address (t.board.memory.words address chunk.length) chunk with
      | none =>
        refine (ih (address + chunk.length * 4)).mono (fun _ h => h) ?_
        rintro r u ⟨rfl, hr⟩
        refine ⟨rfl, hr.imp_left fun ⟨found, hr, hfound⟩ => ⟨found, hr, ?_⟩⟩
        rw [hfound, hsplit, hfirst.mp hm, eq_self_iff_true, true_and]
      | some mismatch =>
        refine ⟨hs, rfl, Or.inl ⟨some mismatch, rfl, ?_⟩⟩
        have hne : ¬t.board.memory.words address chunk.length = chunk := by
          rw [← hfirst, hm]
          exact Option.some_ne_none _
        rw [hsplit]
        exact ⟨fun h => (Option.some_ne_none _ h).elim, fun h => (hne h.1).elim⟩

theorem findMismatch_safe (hs : I s) (address : Nat) (words : List Word) :
    Safe (benchStep faults allowed key) I (findMismatch address words).run
      (fun r t => t = s ∧ ((∃ found, r = .ok found ∧ (found = none ↔
        s.board.memory.words address words.length = words)) ∨ faults ∧ ∃ e, r = .error e)) s := by
  have hflat := chunks_flatten (Nat.lt_succ_self words.length)
  refine (findMismatchIn_safe hs address (chunks (words.length + 1) words)).mono (fun _ h => h) ?_
  rintro r t ⟨ht, hr⟩
  rw [hflat] at hr
  exact ⟨ht, hr⟩

end Chip

end Homescope
