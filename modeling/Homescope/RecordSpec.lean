import Homescope.BenchSpec

/-! What erasing and writing the UICR record leaves behind. Over a record that
was not erased first, writing leaves the old words' bits and the new ones'. -/

namespace Homescope

open Commands ToolM

variable {faults allowed : Prop} {key : Option DeviceKey} {I : Bench → Prop} {s : Bench}

namespace Memory

theorem words_record {m : Memory} {words : RecordWords} :
    m.words uicrCustomer 9 = List.ofFn words ↔ m.record = words := by
  have hh : m.words uicrCustomer 9 = List.ofFn m.record := by
    rw [Memory.words, List.ofFn_eq_map, ← List.map_coe_finRange_eq_range, List.map_map]
    rfl
  rw [hh, List.ofFn_inj]

theorem erase_uicr_record (m : Memory) (i : Fin 9) :
    (m.erase uicrStart uicrStop).record i = erased := by
  have hi := i.isLt
  apply erase_inside
  unfold uicrStart uicrStop uicrCustomer
  omega

end Memory

namespace Chip

theorem openCore_safe {ε : Type} {wrap : ProbeError → ε} (hs : I s) :
    Safe (benchStep faults allowed key) I (openCore wrap).run
      (fun r t => t = s ∧ (r = .ok () ∨ faults ∧ ∃ e, r = .error e)) s := by
  apply call_safe
  refine ⟨hs, fun a t hd => ?_⟩
  obtain rfl := hd.eq_of_board hd.1
  refine ⟨hs, rfl, ?_⟩
  cases a with
  | ok u => exact Or.inl rfl
  | error e => exact Or.inr ⟨hd.2.1 trivial, _, rfl⟩

/-- The read-back succeeds on the words it expects and on no others. -/
theorem verify_safe (hs : I s) (words : RecordWords) :
    Safe (benchStep faults allowed key) I (do
      let mismatch ← call (findMismatch uicrCustomer (List.ofFn words)).run .probe
      match mismatch with
      | some mismatch => throw (.verificationFailed mismatch)
      | none => pure () : ToolM WriteRecordError Unit).run
      (fun r t => t = s ∧ (r = .ok () ∧ s.record = words ∨
        (∃ e, r = .error e) ∧ (faults ∨ s.record ≠ words))) s := by
  apply Safe.bindExcept
  apply call_safe
  refine (findMismatch_safe hs uicrCustomer (List.ofFn words)).mono (fun _ h => h) ?_
  rintro r t ⟨rfl, ⟨found, rfl, hfound⟩ | ⟨hf, e, rfl⟩⟩
  · rw [List.length_ofFn, Memory.words_record] at hfound
    cases found with
    | none => exact ⟨hs, rfl, Or.inl ⟨rfl, hfound.mp rfl⟩⟩
    | some mismatch =>
      exact ⟨hs, rfl, Or.inr ⟨⟨_, rfl⟩, Or.inr fun h => Option.some_ne_none _ (hfound.mpr h)⟩⟩
  · exact ⟨hs, rfl, Or.inr ⟨⟨_, rfl⟩, Or.inl hf⟩⟩

/-- A verified erase leaves nine erased words. -/
theorem eraseUicrRecord_safe (hI : ∀ s t : Bench, s.Alike t → I s → I t)
    (h0 : ∀ t : Bench, t.record 0 = erased → I t) (hs : I s) :
    Safe (benchStep faults allowed key) I eraseUicrRecord.run
      (fun r t => (r = .ok () ∧ ∀ i, t.record i = erased) ∨ faults ∧ ∃ e, r = .error e) s := by
  apply Safe.bindExcept
  refine (openCore_safe hs).mono (fun _ h => h) ?_
  rintro r s' ⟨rfl, rfl | ⟨hf, e, rfl⟩⟩
  swap
  · exact ⟨hs, Or.inr ⟨hf, e, rfl⟩⟩
  have hwrite : ∀ i, ((s'.setConfig NvmcMode.eraseEnabled.word).write key nvmcEraseUicr
      eraseUicr).record i = erased := fun i => Memory.erase_uicr_record _ i
  apply Safe.bindExcept
  apply call_safe
  refine (Nvmc.withMode_safe hI hs (Nvmc.writeWord_safe
    (hI _ _ (s'.setConfig_alike _) hs) (fun _ => h0 _ (hwrite 0)))).result.mono (fun _ h => h) ?_
  rintro r t ⟨ht, ⟨hf, ⟨e, rfl⟩, -⟩ | ⟨closureResult, u, hu, hut, hr⟩⟩
  · exact ⟨ht, Or.inr ⟨hf, _, rfl⟩⟩
  rcases hr with rfl | ⟨hf, e, rfl⟩
  swap
  · exact ⟨ht, Or.inr ⟨hf, _, rfl⟩⟩
  rcases hu with ⟨rfl, -, rfl | ⟨hf, e, rfl⟩⟩ | ⟨-, hf, e, rfl⟩
  · have hall : ∀ i, t.record i = erased := fun i => (congrFun hut.1 i).trans (hwrite i)
    refine (verify_safe ht (fun _ => erased)).mono (fun _ h => h) ?_
    rintro r v ⟨rfl, ⟨rfl, -⟩ | ⟨⟨e, rfl⟩, hf | hne⟩⟩
    · exact Or.inl ⟨rfl, hall⟩
    · exact Or.inr ⟨hf, e, rfl⟩
    · exact absurd (funext hall) hne
  · exact ⟨ht, Or.inr ⟨hf, _, rfl⟩⟩
  · exact ⟨ht, Or.inr ⟨hf, _, rfl⟩⟩

end Chip

/-- The header is written, over key words that hold the bits common to the
old words and the new. -/
structure Written (old : RecordWords) (allowed : Prop) (key : Option DeviceKey) (k : DeviceKey)
    (t : Bench) : Prop where
  header : t.record 0 = UicrRecord.header
  words : ∀ i : Fin 8, t.record i.succ = old i.succ &&& UicrRecord.encode k i.succ
  writer : t.writer = key
  allowed : allowed

theorem Written.alike {old : RecordWords} {k : DeviceKey} {t u : Bench}
    (h : Written old allowed key k t) (htu : t.Alike u) : Written old allowed key k u :=
  ⟨(congrFun htu.1 0).trans h.header, fun i => (congrFun htu.1 i.succ).trans (h.words i),
    htu.2.trans h.writer, h.allowed⟩

namespace Chip

theorem writeWord32_header {b : Board} (hc : b.config = NvmcMode.writeEnabled.word)
    (h0 : b.memory uicrCustomer = erased) :
    b.writeWord32 uicrCustomer UicrRecord.header =
      ⟨b.config, b.memory.program uicrCustomer UicrRecord.header⟩ ∧
    WritesHeader b (b.writeWord32 uicrCustomer UicrRecord.header) := by
  have hb : b.writeWord32 uicrCustomer UicrRecord.header =
      ⟨b.config, b.memory.program uicrCustomer UicrRecord.header⟩ := by
    rw [Board.writeWord32, if_neg (by decide), if_neg (by decide), if_neg (by decide),
      if_pos ⟨hc, by decide⟩]
  refine ⟨hb, h0, ?_⟩
  rw [hb]
  change (b.memory.program uicrCustomer UicrRecord.header) uicrCustomer ≠ erased
  rw [Memory.program_erased _ _ h0]
  decide

theorem programWords_record (m : Memory) (words : RecordWords) (i : Fin 8) :
    (m.programWords (uicrCustomer + 4) (List.ofFn fun i : Fin 8 => words i.succ)).record i.succ =
      m.record i.succ &&& words i.succ := by
  have hi := i.isLt
  have haddr : uicrCustomer + 4 * (i.succ : Nat) = uicrCustomer + 4 + 4 * (i : Nat) := by
    rw [Fin.val_succ]
    omega
  simp only [Memory.record, haddr]
  rw [Memory.programWords_inside _ (by rw [List.length_ofFn]; exact hi), List.getElem_ofFn]

/-- The header goes in after all the key words. -/
theorem header_written {k : DeviceKey} {t : Bench} (h0 : t.record 0 = erased)
    (hc : t.board.config = NvmcMode.writeEnabled.word)
    (hwords : ∀ i : Fin 8, t.record i.succ = s.record i.succ &&& UicrRecord.encode k i.succ)
    (hallowed : WritesHeader t.board (t.write key uicrCustomer UicrRecord.header).board → allowed) :
    Written s.record allowed key k (t.write key uicrCustomer UicrRecord.header) := by
  obtain ⟨hb, hwrites⟩ := writeWord32_header hc h0
  refine ⟨?_, fun i => ?_, if_pos hwrites, hallowed hwrites⟩
  · rw [Bench.record, Bench.write, hb]
    exact Memory.program_erased _ _ h0
  · rw [← hwords i, Bench.record, Bench.write, hb]
    refine Memory.program_other _ _ ?_
    rw [Fin.val_succ]
    omega

/-- The closure of `writeUicrRecord`, with writing enabled. -/
theorem writeWords_header_safe {k : DeviceKey} (h0 : ∀ t : Bench, t.record 0 = erased → I t)
    (hw : ∀ t, Written s.record allowed key k t → I t) (hs : s.record 0 = erased)
    (hc : s.board.config = NvmcMode.writeEnabled.word) :
    Safe (benchStep faults allowed key) I (do
      Nvmc.writeWords (uicrCustomer + 4) ((List.ofFn (UicrRecord.encode k)).drop 1)
      Nvmc.writeWord uicrCustomer ((List.ofFn (UicrRecord.encode k)).headD 0) : ToolM NvmcError Unit).run
      (fun r t => Written s.record allowed key k t ∧ (r = .ok () ∨ faults ∧ ∃ e, r = .error e) ∨
        faults ∧ ∃ e, r = .error e) s := by
  have hsplit : List.ofFn (UicrRecord.encode k) =
      UicrRecord.header :: List.ofFn (fun i : Fin 8 => UicrRecord.encode k i.succ) := by
    rw [List.ofFn_succ, UicrRecord.encode_zero]
  rw [hsplit, List.drop_one, List.tail_cons, List.headD_cons]
  apply Safe.bindExcept
  refine (Nvmc.writeWords_safe h0 hs hc (by decide)
    (by rw [List.length_ofFn]; decide)).mono (fun _ h => h) ?_
  rintro r t ⟨ht, ⟨rfl, hst⟩ | ⟨hf, e, rfl⟩⟩
  swap
  · exact ⟨h0 t ht, Or.inr ⟨hf, e, rfl⟩⟩
  have hct : t.board.config = NvmcMode.writeEnabled.word := by rw [hst]; exact hc
  have hwords : ∀ i : Fin 8, t.record i.succ = s.record i.succ &&& UicrRecord.encode k i.succ := by
    rw [hst]
    exact programWords_record s.board.memory (UicrRecord.encode k)
  refine (Nvmc.writeWord_safe (h0 _ ht)
    (fun h => hw _ (header_written ht hct hwords h))).mono (fun _ h => h) ?_
  rintro r u (⟨rfl, hallowed, hr⟩ | ⟨rfl, hf, e, rfl⟩)
  · exact Or.inl ⟨header_written ht hct hwords hallowed, hr⟩
  · exact Or.inr ⟨hf, e, rfl⟩

theorem writeUicrRecord_safe {k : DeviceKey} (hI : ∀ s t : Bench, s.Alike t → I s → I t)
    (h0 : ∀ t : Bench, t.record 0 = erased → I t) (hw : ∀ t, Written s.record allowed key k t → I t)
    (hs : s.record 0 = erased) :
    Safe (benchStep faults allowed key) I (writeUicrRecord k).run
      (fun r t => Written s.record allowed key k t ∧ (r = .ok () ∧ t.record = UicrRecord.encode k ∨
          (∃ e, r = .error e) ∧ (faults ∨ t.record ≠ UicrRecord.encode k)) ∨
        faults ∧ ∃ e, r = .error e) s := by
  apply Safe.bindExcept
  refine (openCore_safe (h0 s hs)).mono (fun _ h => h) ?_
  rintro r s' ⟨rfl, rfl | ⟨hf, e, rfl⟩⟩
  swap
  · exact ⟨h0 _ hs, Or.inr ⟨hf, e, rfl⟩⟩
  apply Safe.bindExcept
  apply call_safe
  refine (Nvmc.withMode_safe hI (h0 _ hs) (writeWords_header_safe h0
    hw hs rfl)).result.mono (fun _ h => h) ?_
  rintro r t ⟨ht, ⟨hf, ⟨e, rfl⟩, -⟩ | ⟨closureResult, u, hu, hut, hr⟩⟩
  · exact ⟨ht, Or.inr ⟨hf, _, rfl⟩⟩
  rcases hr with rfl | ⟨hf, e, rfl⟩
  swap
  · exact ⟨ht, Or.inr ⟨hf, _, rfl⟩⟩
  rcases hu with ⟨hu, rfl | ⟨hf, e, rfl⟩⟩ | ⟨hf, e, rfl⟩
  · refine (verify_safe ht (UicrRecord.encode k)).mono (fun _ h => h) ?_
    rintro r v ⟨rfl, hr⟩
    exact Or.inl ⟨hu.alike hut, hr⟩
  · exact ⟨ht, Or.inr ⟨hf, _, rfl⟩⟩
  · exact ⟨ht, Or.inr ⟨hf, _, rfl⟩⟩

end Chip

end Homescope
