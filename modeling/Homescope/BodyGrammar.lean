import Homescope.Packet
import Mathlib.Data.List.Induction

/-! What a version 1 body is, as a grammar of items. -/

namespace Homescope

def MeasurementId.valueSize : MeasurementId → Nat
  | battery => Wire.size Millivolts
  | temperature => Wire.size CentiCelsius
  | humidity => Wire.size CentiPercent

theorem MeasurementId.tryFrom_unknown {id : Byte} (h : ∀ k : MeasurementId, id ≠ k.toByte) :
    tryFrom id = .error ⟨id⟩ := by
  have hbattery : ¬id = 0x01 := h .battery
  have htemperature : ¬id = 0x02 := h .temperature
  have hhumidity : ¬id = 0x03 := h .humidity
  rw [tryFrom, if_neg hbattery, if_neg htemperature, if_neg hhumidity]

namespace Measurement

theorem decode_unknown {id : Byte} (h : ∀ k : MeasurementId, id ≠ k.toByte) (rest : List Byte) :
    decode (id :: rest) = .error (.unknownId ⟨id⟩) := by
  rw [decode, MeasurementId.tryFrom_unknown h]

theorem decode_truncated {k : MeasurementId} {rest : List Byte} (h : rest.length < k.valueSize) :
    decode (k.toByte :: rest) = .error (.truncated .mk) := by
  rw [decode, MeasurementId.tryFrom_toByte]
  cases k with
  | battery => simp only [decodeValue, Wire.decode_short (U := Millivolts) h]
  | temperature => simp only [decodeValue, Wire.decode_short (U := CentiCelsius) h]
  | humidity => simp only [decodeValue, Wire.decode_short (U := CentiPercent) h]

theorem exists_bytes {k : MeasurementId} {rest : List Byte} (h : k.valueSize ≤ rest.length) :
    ∃ (m : Measurement) (more : List Byte), k.toByte :: rest = m.bytes ++ more := by
  cases k with
  | battery =>
    obtain ⟨value, more, rfl⟩ := Wire.exists_bytes Millivolts (fun _ => rfl) h
    exact ⟨.battery value, more, rfl⟩
  | temperature =>
    obtain ⟨value, more, rfl⟩ := Wire.exists_bytes CentiCelsius (fun _ => rfl) h
    exact ⟨.temperature value, more, rfl⟩
  | humidity =>
    obtain ⟨value, more, rfl⟩ := Wire.exists_bytes CentiPercent (fun _ => rfl) h
    exact ⟨.humidity value, more, rfl⟩

end Measurement

namespace V1

open SensorPacket (DecodeError)

/-- The bytes that no measurement can be read from. -/
inductive Stuck : List Byte → Measurement.DecodeError → Prop
  | unknownId {id : Byte} {rest : List Byte} (h : ∀ k : MeasurementId, id ≠ k.toByte) :
      Stuck (id :: rest) (.unknownId ⟨id⟩)
  | truncated {k : MeasurementId} {rest : List Byte} (h : rest.length < k.valueSize) :
      Stuck (k.toByte :: rest) (.truncated .mk)

theorem Stuck.decode {tail : List Byte} {e : Measurement.DecodeError} (h : Stuck tail e) :
    Measurement.decode tail = .error e := by
  cases h with
  | unknownId h => exact Measurement.decode_unknown h _
  | truncated h => exact Measurement.decode_truncated h

/-- A body is measurements, and perhaps something that is none behind them. -/
theorem exists_items (body : List Byte) : ∃ (ms : List Measurement) (tail : List Byte),
    body = ms.flatMap Measurement.bytes ++ tail ∧ (tail = [] ∨ ∃ e, Stuck tail e) := by
  induction hn : body.length using Nat.strong_induction_on generalizing body with
  | _ n ih =>
    cases body with
    | nil => exact ⟨[], [], rfl, .inl rfl⟩
    | cons id rest =>
      by_cases hid : ∃ k : MeasurementId, id = k.toByte
      · obtain ⟨k, rfl⟩ := hid
        by_cases hlen : k.valueSize ≤ rest.length
        · obtain ⟨m, more, hbytes⟩ := Measurement.exists_bytes hlen
          have hless : more.length < n := by
            have hlength := congrArg List.length hbytes
            have hm : m.bytes.length = 3 := m.bytes_length
            rw [List.length_append, hm] at hlength
            omega
          obtain ⟨ms, tail, hmore, htail⟩ := ih _ hless more rfl
          refine ⟨m :: ms, tail, ?_, htail⟩
          rw [hbytes, List.flatMap_cons, List.append_assoc, hmore]
        · exact ⟨[], _, rfl, .inr ⟨_, .truncated (Nat.lt_of_not_le hlen)⟩⟩
      · exact ⟨[], _, rfl, .inr ⟨_, .unknownId fun k hk => hid ⟨k, hk⟩⟩⟩

theorem measurements_stuck (ms : List Measurement) {tail : List Byte} {e : Measurement.DecodeError}
    (h : Stuck tail e) :
    measurements (ms.flatMap Measurement.bytes ++ tail).length
      (ms.flatMap Measurement.bytes ++ tail) = ms.map .ok ++ [.error e] := by
  have hfuel : (ms.flatMap Measurement.bytes ++ tail).length =
      ms.length + (2 * ms.length + tail.length) := by
    rw [List.length_append, length_flatMap_bytes]
    omega
  rw [hfuel, measurements_append]
  have hdecode := h.decode
  cases tail with
  | nil => cases h
  | cons id rest =>
    rw [List.length_cons, ← Nat.add_assoc]
    simp only [measurements, hdecode]

/-! ### The fold -/

theorem fold_append (items items' : List (Except Measurement.DecodeError Measurement))
    (metrics : Metrics) (hasMeasurements : Bool) :
    fold (items ++ items') metrics hasMeasurements =
      (fold items metrics hasMeasurements).bind fun p => fold items' p.1 p.2 := by
  induction items generalizing metrics hasMeasurements with
  | nil => rfl
  | cons item items ih =>
    cases item with
    | error e => rfl
    | ok m =>
      simp only [List.cons_append, fold]
      cases put metrics m with
      | error e => rfl
      | ok next => exact ih next true

theorem put_duplicate {metrics : Metrics} {m m' : Measurement} (h : metrics.slot m.id = some m') :
    put metrics m = .error (.duplicate m) := by
  cases m with
  | battery bat =>
    obtain ⟨value, hslot, -⟩ := Option.map_eq_some_iff.mp h
    simp only [put, set, hslot]
    rfl
  | temperature temp =>
    obtain ⟨value, hslot, -⟩ := Option.map_eq_some_iff.mp h
    simp only [put, set, hslot]
    rfl
  | humidity rh =>
    obtain ⟨value, hslot, -⟩ := Option.map_eq_some_iff.mp h
    simp only [put, set, hslot]
    rfl

theorem eq_of_slot {metrics metrics' : Metrics} (h : ∀ k, metrics.slot k = metrics'.slot k) :
    metrics = metrics' := by
  have hbattery : metrics.battery = metrics'.battery :=
    Option.map_injective (fun _ _ => Measurement.battery.inj) (h .battery)
  have htemperature : metrics.temperature = metrics'.temperature :=
    Option.map_injective (fun _ _ => Measurement.temperature.inj) (h .temperature)
  have hhumidity : metrics.relativeHumidity = metrics'.relativeHumidity :=
    Option.map_injective (fun _ _ => Measurement.humidity.inj) (h .humidity)
  cases metrics
  cases metrics'
  cases hbattery
  cases htemperature
  cases hhumidity
  rfl

/-- The first measurement of a kind that was there before. -/
theorem exists_duplicate {ms : List Measurement} (h : ¬(ms.map Measurement.id).Nodup) :
    ∃ before m rest, ms = before ++ m :: rest ∧ (before.map Measurement.id).Nodup ∧
      m.id ∈ before.map Measurement.id := by
  induction ms using List.reverseRecOn with
  | nil => exact absurd List.nodup_nil h
  | append_singleton ms m ih =>
    by_cases hms : (ms.map Measurement.id).Nodup
    · refine ⟨ms, m, [], rfl, hms, ?_⟩
      by_contra hnew
      rw [List.map_append, List.map_singleton] at h
      refine h (List.nodup_append.mpr ⟨hms, by simp, fun a ha b hb hab => hnew ?_⟩)
      rwa [← List.mem_singleton.mp hb, ← hab]
    · obtain ⟨before, m', rest, rfl, hbefore, hdup⟩ := ih hms
      exact ⟨before, m', rest ++ [m], by simp, hbefore, hdup⟩

/-! ### The grammar -/

/-- Nonempty, of pairwise distinct kinds. -/
def WellFormed (ms : List Measurement) : Prop := ms ≠ [] ∧ (ms.map Measurement.id).Nodup

/-- The slots hold the measurements, and nothing else. -/
def Holds (metrics : Metrics) (ms : List Measurement) : Prop :=
  ∀ k m, metrics.slot k = some m ↔ m ∈ ms ∧ m.id = k

/-- The first thing that is wrong with a body, behind measurements that are not. -/
inductive Offends : List Byte → DecodeError → Prop
  | stuck {before : List Measurement} {tail : List Byte} {e : Measurement.DecodeError}
      (hbefore : (before.map Measurement.id).Nodup) (h : Stuck tail e) :
      Offends (before.flatMap Measurement.bytes ++ tail) (.measurement e)
  | duplicate {before : List Measurement} {m : Measurement} {rest : List Byte}
      (hbefore : (before.map Measurement.id).Nodup) (h : m.id ∈ before.map Measurement.id) :
      Offends (before.flatMap Measurement.bytes ++ (m.bytes ++ rest)) (.duplicate m)
  | empty : Offends [] .empty

theorem slot_empty (k : MeasurementId) : ({} : Metrics).slot k = none := by
  cases k <;> rfl

theorem decode_of_wellFormed {ms : List Measurement} {metrics : Metrics} (h : WellFormed ms)
    (hholds : Holds metrics ms) : decode (ms.flatMap Measurement.bytes) = .ok metrics := by
  obtain ⟨metrics', hdecode, hslot⟩ := decode_ok h.1 h.2
  rw [hdecode, eq_of_slot fun k => Option.ext fun m => (hslot k m).trans (hholds k m).symm]

theorem decode_of_offends {body : List Byte} {e : DecodeError} (h : Offends body e) :
    decode body = .error e := by
  cases h with
  | @stuck before tail e hbefore h =>
    obtain ⟨metrics, hfold, -⟩ := fold_ok hbefore (fun m _ => slot_empty m.id) false
    rw [decode, measurements_stuck before h, fold_append, hfold]
    rfl
  | @duplicate before m rest hbefore h =>
    obtain ⟨metrics, hfold, hslot⟩ := fold_ok hbefore (fun m _ => slot_empty m.id) false
    obtain ⟨m', hm', hid⟩ := List.mem_map.mp h
    have hput := put_duplicate ((hslot m.id m').mpr (.inr ⟨hm', hid⟩))
    have hbytes : before.flatMap Measurement.bytes ++ (m.bytes ++ rest) =
        (before ++ [m]).flatMap Measurement.bytes ++ rest := by
      rw [List.flatMap_append, List.flatMap_singleton, List.append_assoc]
    have hfuel : ((before ++ [m]).flatMap Measurement.bytes ++ rest).length =
        (before ++ [m]).length + (2 * (before ++ [m]).length + rest.length) := by
      rw [List.length_append, length_flatMap_bytes]
      omega
    rw [decode, hbytes, hfuel, measurements_append, List.map_append, List.append_assoc, fold_append,
      hfold]
    simp only [Except.bind, List.map_singleton, List.singleton_append, fold, hput]
    rfl
  | empty => rfl

theorem wellFormed_or_offends (body : List Byte) :
    (∃ ms, WellFormed ms ∧ body = ms.flatMap Measurement.bytes) ∨ ∃ e, Offends body e := by
  obtain ⟨ms, tail, rfl, htail⟩ := exists_items body
  by_cases hnodup : (ms.map Measurement.id).Nodup
  · rcases htail with rfl | ⟨e, he⟩
    · by_cases hempty : ms = []
      · subst hempty
        exact .inr ⟨_, .empty⟩
      · exact .inl ⟨ms, ⟨hempty, hnodup⟩, List.append_nil _⟩
    · exact .inr ⟨_, .stuck hnodup he⟩
  · obtain ⟨before, m, rest, rfl, hbefore, hdup⟩ := exists_duplicate hnodup
    have hduplicate : Offends (before.flatMap Measurement.bytes ++
        (m.bytes ++ (rest.flatMap Measurement.bytes ++ tail))) (.duplicate m) := .duplicate hbefore hdup
    refine .inr ⟨.duplicate m, ?_⟩
    simpa only [List.flatMap_append, List.flatMap_cons, List.append_assoc] using hduplicate

theorem decode_eq_ok {body : List Byte} {metrics : Metrics} : decode body = .ok metrics ↔
    ∃ ms, WellFormed ms ∧ body = ms.flatMap Measurement.bytes ∧ Holds metrics ms := by
  constructor
  · intro h
    rcases wellFormed_or_offends body with ⟨ms, hms, rfl⟩ | ⟨e, he⟩
    · obtain ⟨metrics', hdecode, hslot⟩ := decode_ok hms.1 hms.2
      obtain rfl := Except.ok.inj (hdecode.symm.trans h)
      exact ⟨ms, hms, rfl, hslot⟩
    · rw [decode_of_offends he] at h
      cases h
  · rintro ⟨ms, hms, rfl, hholds⟩
    exact decode_of_wellFormed hms hholds

theorem decode_eq_error {body : List Byte} {e : DecodeError} :
    decode body = .error e ↔ Offends body e := by
  constructor
  · intro h
    rcases wellFormed_or_offends body with ⟨ms, hms, rfl⟩ | ⟨e', he'⟩
    · obtain ⟨metrics, hdecode, -⟩ := decode_ok hms.1 hms.2
      rw [hdecode] at h
      cases h
    · rwa [Except.error.inj (h.symm.trans (decode_of_offends he'))]
  · exact decode_of_offends

theorem flatMap_bytes_injective {ms ms' : List Measurement}
    (h : ms.flatMap Measurement.bytes = ms'.flatMap Measurement.bytes) : ms = ms' := by
  have hitems := measurements_bytes ms le_rfl
  rw [h, measurements_bytes ms' le_rfl] at hitems
  exact (List.map_injective_iff.mpr (fun _ _ => Except.ok.inj) hitems).symm

theorem decode_perm {ms ms' : List Measurement} (h : ms.Perm ms') {metrics : Metrics}
    (hdecode : decode (ms.flatMap Measurement.bytes) = .ok metrics) :
    decode (ms'.flatMap Measurement.bytes) = .ok metrics := by
  obtain ⟨items, hitems, hbytes, hholds⟩ := decode_eq_ok.mp hdecode
  obtain rfl := flatMap_bytes_injective hbytes
  have hne : ms' ≠ [] := fun hnil => hitems.1 (List.perm_nil.mp (hnil ▸ h))
  refine decode_of_wellFormed ⟨hne, (h.map _).nodup_iff.mp hitems.2⟩ fun k m => ?_
  rw [hholds k m, h.mem_iff]

/-- A body is decoded just when it is a list of measurements of distinct kinds, to those; otherwise
the error is about the first item that offends. -/
theorem decode_grammar :
    (∀ body metrics, decode body = .ok metrics ↔
      ∃ ms, WellFormed ms ∧ body = ms.flatMap Measurement.bytes ∧ Holds metrics ms) ∧
    (∀ body e, decode body = .error e ↔ Offends body e) ∧
    ∀ ms ms' : List Measurement, ms.Perm ms' → ∀ metrics,
      decode (ms.flatMap Measurement.bytes) = .ok metrics ↔
        decode (ms'.flatMap Measurement.bytes) = .ok metrics :=
  ⟨fun _ _ => decode_eq_ok, fun _ _ => decode_eq_error,
    fun _ _ h _ => ⟨decode_perm h, decode_perm h.symm⟩⟩

end V1

end Homescope
