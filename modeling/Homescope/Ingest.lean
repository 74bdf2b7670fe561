import Homescope.CacheRuns
import Homescope.EnvelopeTopic

/-! The ingest of published envelopes (`api/src/ingest.rs`), without the log of
unknown devices. -/

namespace Homescope

open Commands Commands.Prog

structure ReceivedEnvelope where
  site : Site
  envelope : ObservationEnvelope
  deriving DecidableEq

inductive RejectedPublish
  | topic (e : EnvelopeTopicParseError)
  | payload
  | deviceAddrMismatch (topic envelope : DeviceAddr)
  deriving DecidableEq

structure Publish where
  topic : String
  payload : List Byte

namespace Ingest

variable (format : TextFormat) (aead : Aead)

def decodePublish (topic : String) (payload : List Byte) : Except RejectedPublish ReceivedEnvelope :=
  match EnvelopeTopic.fromStr topic with
  | .error e => .error (.topic e)
  | .ok topic =>
    match ObservationEnvelope.deserialize format payload with
    | none => .error .payload
    | some envelope =>
      if topic.deviceAddr ≠ envelope.deviceAddr then
        .error (.deviceAddrMismatch topic.deviceAddr envelope.deviceAddr)
      else .ok { site := topic.site, envelope }

/-- The loop over the queue, until nothing more is received. -/
def storeEnvelopes : List ReceivedEnvelope → ApiM Unit
  | [] => return
  | received :: rest => do
    handleEnvelope aead received.envelope
    storeEnvelopes rest

/-- What a publish is decoded to on its way into the queue. -/
def received (p : Publish) : Option ReceivedEnvelope :=
  (decodePublish format p.topic p.payload).toOption

/-- The ingest of the publishes in the order of their delivery. -/
def run (publishes : List Publish) : ApiM Unit :=
  storeEnvelopes aead (publishes.filterMap (received format))

/-- The row that an envelope becomes, where it is accepted. -/
def rowOf (registry : DeviceAddr → Option Device) (e : ObservationEnvelope) : Option StoredReading :=
  match registry e.deviceAddr with
  | none => none
  | some device =>
    match SensorReading.openEnvelope aead e device.cipher with
    | .error _ => none
    | .ok reading => some (.ofReading reading device.deviceAddr device.cipher.key)

def accepted (registry : DeviceAddr → Option Device) (p : Publish) : Option StoredReading :=
  (received format p).bind fun r => rowOf aead registry r.envelope

/-- The store, where no insert fails. -/
def insertsSucceed : Commands.Device ApiCmd ApiCmd.Answer ApiStore := fun s c a t =>
  apiStep s c a t ∧ match c, a with
    | .insertReading .., .error _ => False
    | _, _ => True

variable {format : TextFormat} {aead : Aead}

theorem steps_of_succeed {c d : ApiM Unit × ApiStore} (h : Steps insertsSucceed c d) :
    Steps apiStep c d := by
  refine Relation.ReflTransGen.mono ?_ _ _ h
  rintro _ _ ⟨hc⟩
  exact .cmd hc.1

/-- What the ingest of an envelope leaves: the row, and nothing else changed. -/
def Stored (rows : List StoredReading) (s t : ApiStore) : Prop :=
  t.cache = s.cache ∧ t.devices = s.devices ∧
    t.readings = rows.foldl (KeyedRows.insertNew StoredReading.triple) s.readings

theorem handleEnvelope_stores (e : ObservationEnvelope) (s : ApiStore) :
    Safe insertsSucceed (fun _ => True) (handleEnvelope aead e)
      (fun _ t => Stored (rowOf aead s.cache e).toList s t) s := by
  rw [handleEnvelope_eq]
  refine ⟨trivial, fun device t hd => ?_⟩
  obtain ⟨⟨rfl, rfl⟩, -⟩ := hd
  simp only [rowOf]
  cases t.cache e.deviceAddr with
  | none => exact ⟨trivial, rfl, rfl, rfl⟩
  | some device =>
    dsimp only
    cases SensorReading.openEnvelope aead e device.cipher with
    | error e => exact ⟨trivial, rfl, rfl, rfl⟩
    | ok reading =>
      refine ⟨trivial, fun a u hd => ?_⟩
      cases a with
      | error e => exact hd.2.elim
      | ok _ =>
        obtain ⟨⟨-, rfl⟩, -⟩ := hd
        exact ⟨trivial, rfl, rfl, rfl⟩

theorem storeEnvelopes_stores (es : List ReceivedEnvelope) (s : ApiStore) :
    Safe insertsSucceed (fun _ => True) (storeEnvelopes aead es)
      (fun _ t => Stored (es.filterMap fun r => rowOf aead s.cache r.envelope) s t) s := by
  induction es generalizing s with
  | nil => exact ⟨trivial, rfl, rfl, rfl⟩
  | cons r es ih =>
    refine Safe.bind ((handleEnvelope_stores r.envelope s).mono (fun _ h => h) ?_)
    rintro - t ⟨hcache, hdev, hread⟩
    refine (ih t).mono (fun _ h => h) ?_
    rintro - u ⟨hcache', hdev', hread'⟩
    refine ⟨hcache'.trans hcache, hdev'.trans hdev, ?_⟩
    rw [hread', hread, hcache, List.filterMap_cons]
    cases rowOf aead s.cache r.envelope <;> rfl

theorem run_stores {publishes : List Publish} {s t : ApiStore}
    (h : Steps insertsSucceed (run format aead publishes, s) (.ret (), t)) :
    Stored (publishes.filterMap (accepted format aead s.cache)) s t := by
  have hs := ((storeEnvelopes_stores (publishes.filterMap (received format)) s).steps h).2
  rwa [List.filterMap_filterMap] at hs

/-- Every cached device has its row, so an insert can always succeed. -/
def Referenced (s : ApiStore) : Prop :=
  ∀ addr device, s.cache addr = some device → (s.devices device.deviceAddr).isSome = true

theorem handleEnvelope_completes {s : ApiStore} (h : Referenced s) (e : ObservationEnvelope) :
    ∃ t, Steps insertsSucceed (handleEnvelope aead e, s) (.ret (), t) := by
  rw [handleEnvelope_eq]
  have hget : insertsSucceed s (.cacheGet e.deviceAddr) (s.cache e.deviceAddr) s :=
    ⟨⟨rfl, rfl⟩, trivial⟩
  cases hdevice : s.cache e.deviceAddr with
  | none =>
    rw [hdevice] at hget
    exact ⟨s, Steps.cmd hget .refl⟩
  | some device =>
    rw [hdevice] at hget
    cases hopen : SensorReading.openEnvelope aead e device.cipher with
    | error err =>
      refine ⟨s, Steps.cmd hget ?_⟩
      simp only [hopen]
      exact .refl
    | ok reading =>
      have hinsert : insertsSucceed s
          (.insertReading reading device.deviceAddr device.cipher.key) (.ok ())
          (s.insertReading (.ofReading reading device.deviceAddr device.cipher.key)) :=
        ⟨⟨h _ _ hdevice, rfl⟩, trivial⟩
      refine ⟨s.insertReading (.ofReading reading device.deviceAddr device.cipher.key),
        Steps.cmd hget ?_⟩
      simp only [hopen]
      exact Steps.cmd hinsert .refl

theorem storeEnvelopes_completes (es : List ReceivedEnvelope) {s : ApiStore} (h : Referenced s) :
    ∃ t, Steps insertsSucceed (storeEnvelopes aead es, s) (.ret (), t) := by
  induction es generalizing s with
  | nil => exact ⟨s, .refl⟩
  | cons r es ih =>
    obtain ⟨t, ht⟩ : ∃ t, Steps insertsSucceed (handleEnvelope aead r.envelope, s) (.ret (), t) :=
      handleEnvelope_completes h r.envelope
    obtain ⟨hcache, hdev, -⟩ := ((handleEnvelope_stores r.envelope s).steps ht).2
    obtain ⟨u, hu⟩ := ih (s := t) fun addr device hd => by
      rw [hdev]
      rw [hcache] at hd
      exact h addr device hd
    exact ⟨u, (ht.bind _).trans hu⟩

theorem run_completes (format : TextFormat) (aead : Aead) (publishes : List Publish) {s : ApiStore}
    (h : Referenced s) : ∃ t, Steps insertsSucceed (run format aead publishes, s) (.ret (), t) :=
  storeEnvelopes_completes _ h

/-- Deliveries of the same publishes, in whatever order and however often, leave
the same table: one row for each triple, with the values of its envelope. -/
theorem run_same_table {publishes publishes' : List Publish} {s t t' : ApiStore}
    (hset : ∀ p, p ∈ publishes ↔ p ∈ publishes')
    (hunique : KeyedRows.Unique StoredReading.triple s.readings)
    (hagree : ∀ p ∈ publishes, ∀ p' ∈ publishes, ∀ r r', accepted format aead s.cache p = some r →
      accepted format aead s.cache p' = some r' → r.triple = r'.triple → r = r')
    (h : Steps insertsSucceed (run format aead publishes, s) (.ret (), t))
    (h' : Steps insertsSucceed (run format aead publishes', s) (.ret (), t')) :
    t.readings.Perm t'.readings ∧
    (∀ q, q ∈ t.readings ↔ q ∈ s.readings ∨
      ((∃ p ∈ publishes, accepted format aead s.cache p = some q) ∧
        ∀ q' ∈ s.readings, q'.triple ≠ q.triple)) ∧
    ∀ p ∈ publishes, ∀ r, accepted format aead s.cache p = some r →
      ∃! q, q ∈ t.readings ∧ q.triple = r.triple := by
  have hagree' : ∀ r ∈ publishes.filterMap (accepted format aead s.cache),
      ∀ r' ∈ publishes.filterMap (accepted format aead s.cache), r.triple = r'.triple → r = r' := by
    intro r hr r' hr'
    obtain ⟨p, hp, hpr⟩ := List.mem_filterMap.mp hr
    obtain ⟨p', hp', hpr'⟩ := List.mem_filterMap.mp hr'
    exact hagree p hp p' hp' r r' hpr hpr'
  have hsame : ∀ r, r ∈ publishes.filterMap (accepted format aead s.cache) ↔
      r ∈ publishes'.filterMap (accepted format aead s.cache) := by
    intro r
    simp only [List.mem_filterMap, hset]
  obtain ⟨-, -, ht⟩ := run_stores h
  obtain ⟨-, -, ht'⟩ := run_stores h'
  have hmem : ∀ q, q ∈ t.readings ↔ q ∈ s.readings ∨
      ((∃ p ∈ publishes, accepted format aead s.cache p = some q) ∧
        ∀ q' ∈ s.readings, q'.triple ≠ q.triple) := by
    intro q
    rw [ht, KeyedRows.mem_foldl hagree', List.mem_filterMap]
  refine ⟨?_, hmem, fun p hp r hr => ?_⟩
  · rw [ht, ht']
    exact KeyedRows.foldl_perm hunique hagree' hsame
  · have hone : ∀ q ∈ t.readings, ∀ q' ∈ t.readings, q.triple = q'.triple → q = q' := by
      rw [ht]
      exact (hunique.foldl _).eq_of_key
    by_cases htaken : ∃ q ∈ s.readings, q.triple = r.triple
    · obtain ⟨q, hq, hkey⟩ := htaken
      have hqt := (hmem q).mpr (.inl hq)
      exact ⟨q, ⟨hqt, hkey⟩, fun q' ⟨hq', hkey'⟩ => hone q' hq' q hqt (hkey'.trans hkey.symm)⟩
    · push Not at htaken
      have hrt := (hmem r).mpr (.inr ⟨⟨p, hp, hr⟩, htaken⟩)
      exact ⟨r, ⟨hrt, rfl⟩, fun q' ⟨hq', hkey'⟩ => hone q' hq' r hrt hkey'⟩

/-! ### Two envelopes that are a nanosecond apart -/

section Sample

open ReadingPath (sampleAead sensedJson sensedText sensedPacket)

def laterJson : EnvelopeJson := { sensedJson with receivedAt := 1753000000000000001 }

def laterText : String :=
  "\x7b\"deviceAddr\":\"060504030201\",\"rssi\":-50," ++
    "\"receivedAt\":\"2025-07-20T08:26:40.000000001Z\"," ++
    "\"packet\":\"AQUAAADT0iuq4dcRc0fIHWKouutvYFF+7l4typwQ\"\x7d"

def asciiBytes (s : String) : List Byte := s.toList.map fun c => BitVec.ofNat 8 c.toNat

/-- JSON and base64 on two payloads. -/
def sampleFormat : TextFormat where
  toVec json := asciiBytes (if json = laterJson then laterText else sensedText)
  fromSlice payload :=
    if payload = asciiBytes sensedText then some sensedJson
    else if payload = asciiBytes laterText then some laterJson
    else none
  base64Encode _ := sensedJson.packet
  base64Decode s := if s = sensedJson.packet then some sensedPacket else none

def sensorTopic : String := "homescope/odin/sensors/060504030201/envelope"

def sensedPublish : Publish := ⟨sensorTopic, asciiBytes sensedText⟩

def laterPublish : Publish := ⟨sensorTopic, asciiBytes laterText⟩

def sampleStore : ApiStore := (sampleConfig.loaded sampleDevices []).store

theorem sampleStore_referenced : Referenced sampleStore := by
  intro addr device h
  obtain ⟨row, hrow, hdevice⟩ := Option.bind_eq_some_iff.mp h
  have haddr : device.deviceAddr = addr := by
    simp only [DeviceRegistry.deviceOf] at hdevice
    split at hdevice <;> cases hdevice
    rfl
  rw [haddr]
  exact Option.isSome_of_eq_some hrow

theorem sampleStore_unique : KeyedRows.Unique StoredReading.triple sampleStore.readings :=
  List.Pairwise.nil

theorem nanosecond_apart : ∃ t,
    Steps insertsSucceed (run sampleFormat sampleAead [sensedPublish, laterPublish], sampleStore)
      (.ret (), t) ∧
    (∃ e e' : ReceivedEnvelope, received sampleFormat sensedPublish = some e ∧
      received sampleFormat laterPublish = some e' ∧
      (rowOf sampleAead sampleStore.cache e.envelope).isSome = true ∧
      (rowOf sampleAead sampleStore.cache e'.envelope).isSome = true ∧
      e.envelope.receivedAt ≠ e'.envelope.receivedAt) ∧
    sampleStore.readings = [] ∧ t.readings.length = 1 := by
  obtain ⟨t, ht⟩ := run_completes sampleFormat sampleAead [sensedPublish, laterPublish]
    sampleStore_referenced
  obtain ⟨-, -, hread⟩ := run_stores ht
  refine ⟨t, ht, ?_, rfl, ?_⟩
  · exact ⟨⟨⟨"odin", by decide, List.all_eq_true.mp (by decide)⟩, ⟨sensorAddr, ⟨0xCE⟩, 1753000000000000000, sensedPacket⟩⟩,
      ⟨⟨"odin", by decide, List.all_eq_true.mp (by decide)⟩, ⟨sensorAddr, ⟨0xCE⟩, 1753000000000000001, sensedPacket⟩⟩,
      by decide +kernel, by decide +kernel, by decide +kernel, by decide +kernel, by decide⟩
  · rw [hread]
    decide +kernel

/-- One publish, delivered once and twice. -/
theorem run_same_table_redelivered : ∃ t t',
    Steps insertsSucceed (run sampleFormat sampleAead [sensedPublish], sampleStore) (.ret (), t) ∧
    Steps insertsSucceed (run sampleFormat sampleAead [sensedPublish, sensedPublish], sampleStore)
      (.ret (), t') ∧
    t.readings.Perm t'.readings := by
  obtain ⟨t, ht⟩ := run_completes sampleFormat sampleAead [sensedPublish] sampleStore_referenced
  obtain ⟨t', ht'⟩ := run_completes sampleFormat sampleAead [sensedPublish, sensedPublish]
    sampleStore_referenced
  refine ⟨t, t', ht, ht', (run_same_table (by simp) sampleStore_unique ?_ ht ht').1⟩
  simp only [List.mem_singleton]
  rintro p rfl p' rfl r r' hr hr' -
  exact Option.some.inj (hr.symm.trans hr')

end Sample

end Ingest

end Homescope
