import Homescope.Commands
import Homescope.Measurement
import Homescope.UsbWriter
import Mathlib.Algebra.Order.Group.Abs
import Mathlib.Algebra.Order.Group.Int

/-! One cycle of measurements (`firmware/sensor/src/sensors.rs`, `sensors/`): the
power rail, the conversions, and what the packet builder is given. -/

namespace Homescope

open Commands Commands.Prog

/-- The wirings of `firmware/board`, one for each board feature. -/
inductive BoardFeature
  | db40
  | xiaoExpansion
  | xiaoBreadboard
  deriving DecidableEq, Repr

namespace BoardFeature

/-- Whether there is a `sensors_power` pin. -/
def sensorsPower : BoardFeature → Bool
  | db40 => true
  | xiaoExpansion => false
  | xiaoBreadboard => true

def batteryDividerRatio : BoardFeature → BitVec 32
  | db40 => 1
  | xiaoExpansion => 1
  | xiaoBreadboard => 1

end BoardFeature

/-- `Duration::from_millis` in ticks. -/
def fromMillis (ms : Nat) : Nat := (ms * tickHz + 999) / 1000

def sht4xPowerUpDuration : Nat := fromMillis 10

namespace Battery

/-- The product and the result wrap as the code's integers do. -/
def ofRaw (batteryDividerRatio : BitVec 32) (raw : BitVec 16) : Millivolts :=
  let raw := BitVec.ofInt 32 (max raw.toInt 0)
  ⟨(raw * (3600 * batteryDividerRatio) / 4096).setWidth 16⟩

end Battery

/-- What the driver makes of its raw values. -/
structure ShtMeasurement where
  temperatureMilliCelsius : Int
  humidityMilliPercent : Int

inductive Sht4xError
  | bus
  | timeout
  deriving DecidableEq, Repr

structure Readings where
  temperature : CentiCelsius
  relativeHumidity : CentiPercent

namespace Readings

/-- A tenth, rounded half away from zero. -/
def tenth (t : Int) : Int := (if t ≥ 0 then t + 5 else t - 5).tdiv 10

def clamp (lo hi t : Int) : Int := max lo (min t hi)

def ofMeasurement (value : ShtMeasurement) : Readings where
  temperature := ⟨BitVec.ofInt 16 (clamp (-4500) 13000 (tenth value.temperatureMilliCelsius))⟩
  relativeHumidity := ⟨BitVec.ofInt 16 ((clamp 0 100000 value.humidityMilliPercent + 5).tdiv 10)⟩

end Readings

inductive SensorCmd
  | setHigh
  | setLow
  | now
  | sample
  | timerAt (time : Nat)
  | shtMeasure

abbrev SensorCmd.Answer : SensorCmd → Type
  | setHigh => Unit
  | setLow => Unit
  | now => Nat
  | sample => BitVec 16
  | timerAt _ => Unit
  | shtMeasure => Except Sht4xError ShtMeasurement

abbrev SensorM (α : Type) := Prog SensorCmd SensorCmd.Answer α

namespace RailGuard

/-- Returns the time from which the rail is on. -/
def enable (power : Bool) : SensorM Nat := do
  if power then perform SensorCmd.setHigh
  perform SensorCmd.now

def settle (power : Bool) (enabledAt duration : Nat) : SensorM Unit := do
  if power then perform (SensorCmd.timerAt (enabledAt + duration))

def drop (power : Bool) : SensorM Unit := do
  if power then perform SensorCmd.setLow

end RailGuard

namespace Sensors

def measure (board : BoardFeature) : SensorM (List Measurement) := do
  let enabledAt ← RailGuard.enable board.sensorsPower
  let raw ← perform SensorCmd.sample
  let battery := Measurement.battery (Battery.ofRaw board.batteryDividerRatio raw)
  RailGuard.settle board.sensorsPower enabledAt sht4xPowerUpDuration
  let r ← perform SensorCmd.shtMeasure
  RailGuard.drop board.sensorsPower
  match r with
  | .ok r =>
    let r := Readings.ofMeasurement r
    return [battery, .temperature r.temperature, .humidity r.relativeHumidity]
  | .error _ => return [battery]

end Sensors

/-- The pin of the rail, since when it is as it is, and the time; `samples` and
`answers` are what the converter and the sensor have said, which no code reads. -/
structure Rail where
  high : Bool
  since : Nat
  now : Nat
  samples : List (BitVec 16)
  answers : List (Except Sht4xError ShtMeasurement)

/-- Time passes with every command; a timer waits at least until its time. -/
def railStep : Commands.Device SensorCmd SensorCmd.Answer Rail := fun s c a t =>
  s.now ≤ t.now ∧ match c with
    | .setHigh => t = { s with high := true, since := t.since, now := t.now } ∧ t.since ≤ t.now
    | .setLow => t = { s with high := false, since := t.since, now := t.now } ∧ t.since ≤ t.now
    | .now => a = t.now ∧ t = { s with now := t.now }
    | .timerAt time => time ≤ t.now ∧ t = { s with now := t.now }
    | .sample => t = { s with now := t.now, samples := s.samples ++ [a] }
    | .shtMeasure => t = { s with now := t.now, answers := s.answers ++ [a] }

/-! ### The conversions -/

theorem Battery.ofRaw_toNat {ratio : BitVec 32} {raw : BitVec 16} (hraw : raw.toInt ≤ 4095)
    (hratio : ratio.toNat ≤ 5) :
    (Battery.ofRaw ratio raw).repr.toNat = (max raw.toInt 0).toNat * (3600 * ratio.toNat) / 4096 ∧
    (Battery.ofRaw ratio raw).repr.toNat ≤ 18000 := by
  obtain ⟨n, hn⟩ : ∃ n : Nat, max raw.toInt 0 = n := ⟨(max raw.toInt 0).toNat, by omega⟩
  have hle : n ≤ 4095 := by omega
  have hscale : 3600 * ratio.toNat ≤ 18000 := by omega
  have hproduct : n * (3600 * ratio.toNat) ≤ 4095 * 18000 := Nat.mul_le_mul hle hscale
  have hdiv : n * (3600 * ratio.toNat) / 4096 ≤ 17995 := by omega
  have hvalue : (Battery.ofRaw ratio raw).repr.toNat = n * (3600 * ratio.toNat) / 4096 := by
    simp only [ofRaw, hn, BitVec.toNat_setWidth, BitVec.toNat_udiv, BitVec.toNat_mul,
      BitVec.ofInt_natCast, BitVec.toNat_ofNat]
    change n % 2 ^ 32 * (3600 * ratio.toNat % 2 ^ 32) % 2 ^ 32 / 4096 % 2 ^ 16 = _
    rw [Nat.mod_eq_of_lt (show n < 2 ^ 32 by omega),
      Nat.mod_eq_of_lt (show 3600 * ratio.toNat < 2 ^ 32 by omega),
      Nat.mod_eq_of_lt (show n * (3600 * ratio.toNat) < 2 ^ 32 by omega),
      Nat.mod_eq_of_lt (show n * (3600 * ratio.toNat) / 4096 < 2 ^ 16 by omega)]
  rw [hvalue, hn, Int.toNat_natCast]
  exact ⟨rfl, by omega⟩

namespace Readings

theorem tenth_error (t : Int) : |10 * tenth t - t| ≤ 5 := by
  rw [tenth, abs_le]
  split
  · rename_i hpos
    rw [Int.tdiv_eq_ediv_of_nonneg (by omega)]
    omega
  · rename_i hneg
    have hneg' : (t - 5).tdiv 10 = -((5 - t) / 10) := by
      rw [← Int.neg_sub 5 t, Int.neg_tdiv, Int.tdiv_eq_ediv_of_nonneg (by omega)]
    rw [hneg']
    omega

/-- The rounded values are those of the clamped ones, to half a unit. -/
structure Accurate (r : Readings) (value : ShtMeasurement) : Prop where
  temperature : |10 * r.temperature.repr.toInt - clamp (-45000) 130000 value.temperatureMilliCelsius| ≤ 5
  humidity : |10 * (r.relativeHumidity.repr.toNat : Int) - clamp 0 100000 value.humidityMilliPercent| ≤ 5

theorem ofMeasurement_accurate (value : ShtMeasurement) : (ofMeasurement value).Accurate value where
  temperature := by
    have herror := abs_le.mp (tenth_error value.temperatureMilliCelsius)
    have hrange : -4500 ≤ clamp (-4500) 13000 (tenth value.temperatureMilliCelsius) ∧
        clamp (-4500) 13000 (tenth value.temperatureMilliCelsius) ≤ 13000 := by
      simp only [clamp]
      omega
    have hvalue : (ofMeasurement value).temperature.repr.toInt =
        clamp (-4500) 13000 (tenth value.temperatureMilliCelsius) := by
      simp only [ofMeasurement, BitVec.toInt_ofInt]
      exact Int.bmod_eq_of_le (by omega) (by omega)
    rw [hvalue, abs_le]
    simp only [clamp]
    omega
  humidity := by
    obtain ⟨n, hn⟩ : ∃ n : Nat, clamp 0 100000 value.humidityMilliPercent = n :=
      ⟨(clamp 0 100000 value.humidityMilliPercent).toNat, by simp only [clamp]; omega⟩
    have hle : n ≤ 100000 := by
      simp only [clamp] at hn
      omega
    have hvalue : (ofMeasurement value).relativeHumidity.repr.toNat = (n + 5) / 10 := by
      simp only [ofMeasurement, hn]
      rw [Int.tdiv_eq_ediv_of_nonneg (by omega)]
      have hcast : ((n : Int) + 5) / 10 = ((n + 5) / 10 : Nat) := by omega
      rw [hcast, BitVec.ofInt_natCast, BitVec.toNat_ofNat]
      exact Nat.mod_eq_of_lt (by omega)
    rw [hvalue, hn, abs_le]
    omega

end Readings

/-! ### A cycle -/

/-- The sensor is only read on a rail that has settled. -/
def SensorCmd.OnRail (board : BoardFeature) (s : Rail) : SensorCmd → Prop
  | .shtMeasure => board.sensorsPower = true →
    s.high = true ∧ s.since + sht4xPowerUpDuration ≤ s.now
  | _ => True

/-- The battery, with or without what the sensor said. -/
inductive Measured (board : BoardFeature) : List Measurement → Prop
  | battery (raw : BitVec 16) :
      Measured board [.battery (Battery.ofRaw board.batteryDividerRatio raw)]
  | all (raw : BitVec 16) (value : ShtMeasurement) :
      Measured board [.battery (Battery.ofRaw board.batteryDividerRatio raw),
        .temperature (Readings.ofMeasurement value).temperature,
        .humidity (Readings.ofMeasurement value).relativeHumidity]

theorem Measured.ne_nil {board : BoardFeature} {ms : List Measurement} (h : Measured board ms) : ms ≠ [] := by
  cases h <;> exact List.cons_ne_nil _ _

theorem Measured.nodup {board : BoardFeature} {ms : List Measurement} (h : Measured board ms) :
    (ms.map Measurement.id).Nodup := by
  cases h <;> simp [Measurement.id]

namespace Sensors

/-- The cycle after the rail is on: `settled` is when the sensor is read. -/
theorem measure_eq (board : BoardFeature) : measure board =
    (RailGuard.enable board.sensorsPower >>= fun enabledAt => .cmd .sample fun raw =>
      RailGuard.settle board.sensorsPower enabledAt sht4xPowerUpDuration >>= fun _ =>
        .cmd .shtMeasure fun r => RailGuard.drop board.sensorsPower >>= fun _ =>
          .ret (match r with
            | .ok r => [.battery (Battery.ofRaw board.batteryDividerRatio raw),
                .temperature (Readings.ofMeasurement r).temperature,
                .humidity (Readings.ofMeasurement r).relativeHumidity]
            | .error _ => [.battery (Battery.ofRaw board.batteryDividerRatio raw)])) := by
  refine congrArg (RailGuard.enable board.sensorsPower >>= ·) (funext fun enabledAt => ?_)
  refine congrArg (Prog.cmd SensorCmd.sample) (funext fun raw => ?_)
  refine congrArg (RailGuard.settle _ _ _ >>= ·) (funext fun _ => ?_)
  refine congrArg (Prog.cmd SensorCmd.shtMeasure) (funext fun r => ?_)
  refine congrArg (RailGuard.drop _ >>= ·) (funext fun _ => ?_)
  cases r <;> rfl

theorem measure_only (board : BoardFeature) :
    (measure board).Only (fun _ => True) (Measured board) := by
  have hany : ∀ {α : Type} (p : SensorM α), p.Only (fun _ => True) fun _ => True := by
    intro α p
    induction p with
    | ret a => trivial
    | cmd c k ih => exact ⟨trivial, ih⟩
  rw [measure_eq]
  refine Only.bind (hany _) fun enabledAt _ => ⟨trivial, fun raw => ?_⟩
  refine Only.bind (hany _) fun _ _ => ⟨trivial, fun r => ?_⟩
  refine Only.bind (hany _) fun _ _ => ?_
  cases r with
  | error e => exact .battery raw
  | ok value => exact .all raw value

/-- A cycle that starts on some rail returns these measurements. -/
def Returns (board : BoardFeature) (ms : List Measurement) : Prop :=
  ∃ s t, Steps railStep (measure board, s) (.ret ms, t)

theorem Returns.measured {board : BoardFeature} {ms : List Measurement} (h : Returns board ms) :
    Measured board ms := by
  obtain ⟨s, t, hsteps⟩ := h
  have hsafe := Safe.ofOnly (D := railStep) (I := fun _ => True) (measure_only board)
    (fun _ _ _ _ _ _ _ => trivial) (s := s) trivial
  exact (hsafe.steps hsteps).2.1

theorem exists_returns (board : BoardFeature) : ∃ ms, Returns board ms := by
  have hanswers : ∀ (s : Rail) (c : SensorCmd), ∃ a t, railStep s c a t := by
    intro s c
    cases c with
    | setHigh => exact ⟨(), { s with high := true, since := s.now }, le_rfl, rfl, le_rfl⟩
    | setLow => exact ⟨(), { s with high := false, since := s.now }, le_rfl, rfl, le_rfl⟩
    | now => exact ⟨s.now, s, le_rfl, rfl, rfl⟩
    | sample => exact ⟨0, { s with samples := s.samples ++ [0] }, le_rfl, rfl⟩
    | timerAt time => exact ⟨(), { s with now := max s.now time }, le_max_left .., le_max_right .., rfl⟩
    | shtMeasure =>
      exact ⟨.error .timeout, { s with answers := s.answers ++ [.error .timeout] }, le_rfl, rfl⟩
  obtain ⟨ms, t, hsteps⟩ := exists_steps hanswers (measure board) ⟨false, 0, 0, [], []⟩
  exact ⟨ms, _, t, hsteps⟩

abbrev OnRail (board : BoardFeature) (s : Rail) (c : SensorCmd) : Prop := c.OnRail board s

/-- Nothing was read in between. -/
def Unread (s t : Rail) : Prop := t.samples = s.samples ∧ t.answers = s.answers

theorem enable_on (board : BoardFeature) (s : Rail) : Guarded railStep (OnRail board)
    (RailGuard.enable board.sensorsPower)
    (fun enabledAt t => (board.sensorsPower = true → t.high = true ∧ t.since ≤ enabledAt) ∧
      Unread s t) s := by
  cases hpower : board.sensorsPower with
  | false =>
    refine ⟨trivial, fun enabledAt t ht => ⟨fun h => (by cases h), ?_⟩⟩
    obtain ⟨-, -, hsame⟩ := ht
    rw [hsame]
    exact ⟨rfl, rfl⟩
  | true =>
    refine ⟨trivial, fun _ t ht => ⟨trivial, fun enabledAt u hu => ?_⟩⟩
    obtain ⟨-, hhigh, hsince⟩ := ht
    obtain ⟨hnow, rfl, hsame⟩ := hu
    rw [hsame, hhigh]
    rw [hhigh] at hsince hnow
    exact ⟨fun _ => ⟨rfl, hsince.trans hnow⟩, rfl, rfl⟩

theorem settle_on {board : BoardFeature} {enabledAt : Nat} {s : Rail}
    (h : board.sensorsPower = true → s.high = true ∧ s.since ≤ enabledAt) : Guarded railStep (OnRail board)
    (RailGuard.settle board.sensorsPower enabledAt sht4xPowerUpDuration)
    (fun _ t => OnRail board t .shtMeasure ∧ Unread s t) s := by
  cases hpower : board.sensorsPower with
  | false =>
    refine ⟨fun htrue => ?_, rfl, rfl⟩
    rw [hpower] at htrue
    cases htrue
  | true =>
    refine ⟨trivial, fun _ t ht => ?_⟩
    obtain ⟨hhigh, hsince⟩ := h hpower
    obtain ⟨-, htime, hsame⟩ := ht
    rw [hsame]
    exact ⟨fun _ => ⟨hhigh, (Nat.add_le_add_right hsince _).trans htime⟩, rfl, rfl⟩

theorem drop_off (board : BoardFeature) (s : Rail) : Guarded railStep (OnRail board)
    (RailGuard.drop board.sensorsPower)
    (fun _ t => (board.sensorsPower = true → t.high = false) ∧ Unread s t) s := by
  cases hpower : board.sensorsPower with
  | false => exact ⟨fun h => (by cases h), rfl, rfl⟩
  | true =>
    refine ⟨trivial, fun _ t ht => ?_⟩
    obtain ⟨-, hlow, -⟩ := ht
    rw [hlow]
    exact ⟨fun _ => rfl, rfl, rfl⟩

/-- The packet builder is given the voltage of the sample and, if the sensor
answered, the values of its answer, to half a unit and within their range. -/
structure Tells (board : BoardFeature) (raw : BitVec 16) (r : Except Sht4xError ShtMeasurement)
    (ms : List Measurement) : Prop where
  voltage : raw.toInt ≤ 4095 → (Battery.ofRaw board.batteryDividerRatio raw).repr.toNat ≤ 18000 ∧
    (Battery.ofRaw board.batteryDividerRatio raw).repr.toNat =
      (max raw.toInt 0).toNat * (3600 * board.batteryDividerRatio.toNat) / 4096
  error : ∀ e, r = .error e → ms = [.battery (Battery.ofRaw board.batteryDividerRatio raw)]
  ok : ∀ value, r = .ok value → ∃ readings : Readings, readings.Accurate value ∧
    ms = [.battery (Battery.ofRaw board.batteryDividerRatio raw), .temperature readings.temperature,
      .humidity readings.relativeHumidity]

theorem voltage_exact (board : BoardFeature) {raw : BitVec 16} (hraw : raw.toInt ≤ 4095) :
    (Battery.ofRaw board.batteryDividerRatio raw).repr.toNat ≤ 18000 ∧
      (Battery.ofRaw board.batteryDividerRatio raw).repr.toNat =
        (max raw.toInt 0).toNat * (3600 * board.batteryDividerRatio.toNat) / 4096 := by
  have hratio : board.batteryDividerRatio.toNat ≤ 5 := by cases board <;> decide
  exact (Battery.ofRaw_toNat hraw hratio).symm

/-- In every cycle the sensor is only read on a rail that has been on for its
time, and the rail is off when the cycle ends, however it was read. The cycle
takes one sample and reads the sensor once, and tells what they said. -/
theorem measure_settled (board : BoardFeature) (s : Rail) : Guarded railStep (OnRail board) (measure board)
    (fun ms t => (board.sensorsPower = true → t.high = false) ∧ ms ≠ [] ∧
      (ms.map Measurement.id).Nodup ∧ ∃ raw r, t.samples = s.samples ++ [raw] ∧
        t.answers = s.answers ++ [r] ∧ Tells board raw r ms) s := by
  rw [measure_eq]
  refine Guarded.bind ((enable_on board s).mono fun enabledAt t ht => ⟨trivial, fun raw u hu => ?_⟩)
  obtain ⟨hon, hsamples, hanswers⟩ := ht
  obtain ⟨-, hu⟩ := hu
  have hraised : board.sensorsPower = true → u.high = true ∧ u.since ≤ enabledAt := by
    rw [hu]
    exact hon
  refine Guarded.bind ((settle_on hraised).mono fun _ v hv => ⟨hv.1, fun r w hw => ?_⟩)
  obtain ⟨-, hsamples', hanswers'⟩ := hv
  obtain ⟨-, hw⟩ := hw
  refine Guarded.bind ((drop_off board w).mono fun _ x hx => ?_)
  obtain ⟨hoff, hsamples'', hanswers''⟩ := hx
  have hsample : x.samples = s.samples ++ [raw] := by
    rw [hsamples'', hw, hsamples', hu, hsamples]
  have hanswer : x.answers = s.answers ++ [r] := by
    rw [hanswers'', hw, hanswers', hu, hanswers]
  cases r with
  | error e =>
    have hms : Measured board _ := .battery raw
    exact ⟨hoff, hms.ne_nil, hms.nodup, raw, _, hsample, hanswer, voltage_exact board, fun _ _ => rfl,
      fun _ h => (by cases h)⟩
  | ok value =>
    have hms : Measured board _ := .all raw value
    refine ⟨hoff, hms.ne_nil, hms.nodup, raw, _, hsample, hanswer, voltage_exact board,
      fun _ h => (by cases h), ?_⟩
    rintro _ ⟨⟩
    exact ⟨_, Readings.ofMeasurement_accurate value, rfl⟩

end Sensors

end Homescope
