import Homescope.BleScan
import Homescope.Ingest
import Homescope.UnknownDevices

/-! The two tasks of the ingest (`api/src/ingest.rs`) and the bounded queue
between them, next to the requests that the process serves. -/

namespace Homescope

open Commands Commands.Prog

/-- An envelope in the store task's hands: what is left of its handling, and the
answers so far, which no code reads. -/
structure Handling where
  received : ReceivedEnvelope
  work : ApiM Unit
  answers : List (Σ c : ApiCmd, c.Answer)

/-- `polled` lists the publishes that the event loop was given, `offered` the
envelopes that it offered to the queue, each with how many waited there, `missed`
packets of unknown devices and `handled` the envelopes that the store task is
done with, each with its answers; no code reads them. -/
structure IngestTask where
  store : ApiStore
  queue : Channel ReceivedEnvelope 256
  task : Option Handling
  unknownDevices : UnknownDevices
  polled : List Publish
  offered : List (ReceivedEnvelope × Nat)
  missed : List UnknownDevices.Call
  handled : List (ReceivedEnvelope × List (Σ c : ApiCmd, c.Answer))

/-- What the event loop is given: on all but a publish it only logs, waits or
asks for the subscription. -/
inductive MqttEvent
  | publish (p : Publish)
  | other

/-- The statements of the requests. -/
def ApiCmd.Requested : ApiCmd → Prop
  | .cacheGet _ | .insertReading .. => False
  | _ => True

namespace IngestTask

def start (store : ApiStore) : IngestTask := ⟨store, .empty, none, {}, [], [], [], []⟩

section Steps

variable (format : TextFormat) (aead : Aead)

/-- The body of the event loop; a full queue drops the envelope. -/
def poll (s : IngestTask) : MqttEvent → IngestTask
  | .publish p =>
    match Ingest.decodePublish format p.topic p.payload with
    | .error _ => { s with polled := s.polled ++ [p] }
    | .ok received => { s with
        queue := s.queue.trySend received
        polled := s.polled ++ [p]
        offered := s.offered ++ [(received, s.queue.queue.length)] }
  | .other => s

/-- The packet that an answer tells to be of an unknown device. -/
def missedBy (now : Nat) : (c : ApiCmd) → c.Answer → Option UnknownDevices.Call
  | .cacheGet addr, none => some ⟨now, addr⟩
  | _, _ => none

/-- A command of the store task has been answered at `now`. -/
def answer (s : IngestTask) (now : Nat) (c : ApiCmd) (a : c.Answer) (store : ApiStore)
    (task : Handling) : IngestTask where
  store := store
  queue := s.queue
  task := some task
  unknownDevices := match missedBy now c a with
    | some call => (s.unknownDevices.record call.time call.addr).2
    | none => s.unknownDevices
  polled := s.polled
  offered := s.offered
  missed := s.missed ++ (missedBy now c a).toList
  handled := s.handled

/-- One step of the event loop, of the store task, or of a request. -/
inductive Step : IngestTask → IngestTask → Prop
  | poll {s : IngestTask} (event : MqttEvent) : Step s (s.poll format event)
  | recv {s : IngestTask} {received : ReceivedEnvelope} {queue : Channel ReceivedEnvelope 256}
      (hs : s.task = none) (h : s.queue.tryReceive = (some received, queue)) :
      Step s { s with queue, task := some ⟨received, handleEnvelope aead received.envelope, []⟩ }
  | ran {s : IngestTask} {received : ReceivedEnvelope} {c : ApiCmd} {k : c.Answer → ApiM Unit}
      {answers : List (Σ c : ApiCmd, c.Answer)} {a : c.Answer} {store : ApiStore} (now : Nat)
      (hs : s.task = some ⟨received, .cmd c k, answers⟩) (hc : apiStep s.store c a store) :
      Step s (s.answer now c a store ⟨received, k a, answers ++ [⟨c, a⟩]⟩)
  | finished {s : IngestTask} {received : ReceivedEnvelope}
      {answers : List (Σ c : ApiCmd, c.Answer)} (hs : s.task = some ⟨received, .ret (), answers⟩) :
      Step s { s with task := none, handled := s.handled ++ [(received, answers)] }
  | request {s : IngestTask} {c : ApiCmd} {a : c.Answer} {store : ApiStore} (h : c.Requested)
      (hc : apiStep s.store c a store) : Step s { s with store }

end Steps

/-- What became of an envelope, by the answers that its handling got, and the
row that it became. -/
inductive Outcome (aead : Aead) (e : ObservationEnvelope) :
    List (Σ c : ApiCmd, c.Answer) → Option StoredReading → Prop
  | unknown : Outcome aead e [⟨.cacheGet e.deviceAddr, none⟩] none
  | invalid {device : Device} {err : SensorPacket.DecodeError}
      (h : SensorReading.openEnvelope aead e device.cipher = .error err) :
      Outcome aead e [⟨.cacheGet e.deviceAddr, some device⟩] none
  | dbError {device : Device} {reading : SensorReading} {err : SqlxError}
      (h : SensorReading.openEnvelope aead e device.cipher = .ok reading) :
      Outcome aead e [⟨.cacheGet e.deviceAddr, some device⟩,
        ⟨.insertReading reading device.deviceAddr device.cipher.key, .error err⟩] none
  | stored {device : Device} {reading : SensorReading}
      (h : SensorReading.openEnvelope aead e device.cipher = .ok reading) :
      Outcome aead e [⟨.cacheGet e.deviceAddr, some device⟩,
        ⟨.insertReading reading device.deviceAddr device.cipher.key, .ok ()⟩]
        (some (.ofReading reading device.deviceAddr device.cipher.key))

def rows (answers : List (Σ c : ApiCmd, c.Answer)) : List StoredReading :=
  answers.filterMap fun ca => ca.1.stores ca.2

/-- The answer tells of an unknown device. -/
def misses (answers : List (Σ c : ApiCmd, c.Answer)) : List DeviceAddr :=
  answers.filterMap fun ca => (missedBy 0 ca.1 ca.2).map UnknownDevices.Call.addr

theorem handleEnvelope_outcome (aead : Aead) (e : ObservationEnvelope) :
    Safe history (fun _ => True) (handleEnvelope aead e)
      (fun _ answers => ∃ row, Outcome aead e answers row) [] := by
  rw [handleEnvelope_eq]
  refine ⟨trivial, ?_⟩
  rintro device t rfl
  cases device with
  | none => exact ⟨trivial, none, .unknown⟩
  | some device =>
    dsimp only
    cases hopen : SensorReading.openEnvelope aead e device.cipher with
    | error err => exact ⟨trivial, none, .invalid hopen⟩
    | ok reading =>
      refine ⟨trivial, ?_⟩
      rintro a t rfl
      cases a with
      | error err => exact ⟨trivial, none, .dbError hopen⟩
      | ok _ => exact ⟨trivial, _, .stored hopen⟩

/-- A row comes of the last answer. -/
theorem stored_outcome {aead : Aead} {e : ObservationEnvelope} {work : ApiM Unit}
    {answers : List (Σ c : ApiCmd, c.Answer)}
    (h : Steps history (handleEnvelope aead e, []) (work, answers)) {q : StoredReading}
    (hq : q ∈ rows answers) : Outcome aead e answers (some q) := by
  have hsafe : Safe history (fun answers => ∀ q ∈ rows answers, Outcome aead e answers (some q))
      (handleEnvelope aead e) (fun _ _ => True) [] := by
    rw [handleEnvelope_eq]
    have hnone (a : Option Device) : ∀ q ∈ rows [⟨.cacheGet e.deviceAddr, a⟩],
        Outcome aead e [⟨.cacheGet e.deviceAddr, a⟩] (some q) := fun q hq => by cases hq
    refine ⟨fun q hq => (by cases hq), ?_⟩
    rintro device t rfl
    cases device with
    | none => exact ⟨hnone none, trivial⟩
    | some device =>
      dsimp only
      cases hopen : SensorReading.openEnvelope aead e device.cipher with
      | error err => exact ⟨hnone (some device), trivial⟩
      | ok reading =>
        refine ⟨hnone (some device), ?_⟩
        rintro a t rfl
        cases a with
        | error err => exact ⟨fun q hq => (by cases hq), trivial⟩
        | ok _ =>
          refine ⟨fun q hq => ?_, trivial⟩
          rw [List.mem_singleton.mp hq]
          exact .stored hopen
  exact (hsafe.steps h).now q hq

theorem Outcome.rows {aead : Aead} {e : ObservationEnvelope} {answers : List (Σ c : ApiCmd, c.Answer)}
    {row : Option StoredReading} (h : Outcome aead e answers row) :
    IngestTask.rows answers = row.toList := by
  cases h <;> rfl

/-- All the answers that the store task got. -/
def answers (s : IngestTask) : List (Σ c : ApiCmd, c.Answer) :=
  s.handled.flatMap Prod.snd ++ s.task.elim [] Handling.answers

/-- The envelopes that are done with, and the one that is being handled. -/
def handlings (s : IngestTask) : List (ReceivedEnvelope × List (Σ c : ApiCmd, c.Answer)) :=
  s.handled ++ (s.task.map fun h => (h.received, h.answers)).toList

def inHand (s : IngestTask) : List ReceivedEnvelope := (s.task.map Handling.received).toList

variable {format : TextFormat} {aead : Aead} {store : ApiStore}

/-- What the tasks keep, next to whatever is requested. -/
structure Inv (format : TextFormat) (aead : Aead) (store : ApiStore) (s : IngestTask) : Prop where
  offered : s.offered.map Prod.fst = s.polled.filterMap (Ingest.received format)
  kept : (s.offered.filter fun o => o.2 < 256).map Prod.fst =
    s.handled.map Prod.fst ++ s.inHand ++ s.queue.queue
  handled : ∀ h ∈ s.handled, ∃ row, Outcome aead h.1.envelope h.2 row
  handling : ∀ h, s.task = some h →
    Steps history (handleEnvelope aead h.received.envelope, []) (h.work, h.answers)
  readings : s.store.readings =
    (rows s.answers).foldl (KeyedRows.insertNew StoredReading.triple) store.readings
  missed : s.missed.map UnknownDevices.Call.addr = misses s.answers
  unknownDevices : s.unknownDevices = UnknownDevices.table s.missed

theorem inv_start (store : ApiStore) : (start store).Inv format aead store where
  offered := rfl
  kept := rfl
  handled h hh := by cases hh
  handling h hh := by cases hh
  readings := rfl
  missed := rfl
  unknownDevices := rfl

theorem poll_inv {s : IngestTask} (hs : s.Inv format aead store) (event : MqttEvent) :
    (s.poll format event).Inv format aead store := by
  cases event with
  | other => exact hs
  | publish p =>
    simp only [poll]
    cases hdecode : Ingest.decodePublish format p.topic p.payload with
    | error e =>
      refine { hs with offered := ?_ }
      rw [List.filterMap_append, ← hs.offered]
      simp [Ingest.received, hdecode, Except.toOption]
    | ok received =>
      refine { hs with offered := ?_, kept := ?_ }
      · rw [List.filterMap_append, ← hs.offered, List.map_append]
        simp [Ingest.received, hdecode, Except.toOption]
      · change _ = s.handled.map Prod.fst ++ s.inHand ++ (s.queue.trySend received).queue
        by_cases hroom : s.queue.queue.length < 256
        · rw [List.filter_append, List.map_append, hs.kept, Channel.trySend_queue hroom]
          simp [hroom]
        · have hsame : s.queue.trySend received = s.queue := dif_neg hroom
          rw [List.filter_append, List.map_append, hs.kept, hsame]
          simp [hroom]

variable (format) in
/-- On an empty queue. -/
theorem poll_empty {s : IngestTask} (hqueue : s.queue.queue = []) (p : Publish) :
    (s.poll format (.publish p)).task = s.task ∧ (s.poll format (.publish p)).store = s.store ∧
      (s.poll format (.publish p)).queue.queue = (Ingest.received format p).toList ∧
      (s.poll format (.publish p)).polled = s.polled ++ [p] ∧
      (s.poll format (.publish p)).handled = s.handled := by
  have hroom : s.queue.queue.length < 256 := by
    rw [hqueue]
    decide
  rw [Ingest.received]
  simp only [poll]
  cases Ingest.decodePublish format p.topic p.payload with
  | error err => exact ⟨rfl, rfl, hqueue, rfl, rfl⟩
  | ok r =>
    refine ⟨rfl, rfl, (Channel.trySend_queue hroom _).trans ?_, rfl, rfl⟩
    rw [hqueue]
    rfl

theorem rows_append (as bs : List (Σ c : ApiCmd, c.Answer)) : rows (as ++ bs) = rows as ++ rows bs :=
  List.filterMap_append

theorem misses_append (as bs : List (Σ c : ApiCmd, c.Answer)) :
    misses (as ++ bs) = misses as ++ misses bs :=
  List.filterMap_append

theorem missedBy_addr (now : Nat) (c : ApiCmd) (a : c.Answer) :
    (missedBy now c a).toList.map UnknownDevices.Call.addr = misses [⟨c, a⟩] := by
  cases c with
  | cacheGet addr => cases a <;> rfl
  | _ => rfl

theorem readings_of_requested {s t : ApiStore} {c : ApiCmd} {a : c.Answer} (hc : apiStep s c a t)
    (h : c.Requested) : t.readings = s.readings := by
  rw [apiStep_readings hc]
  cases c with
  | insertReading => cases h
  | _ => rfl

theorem readings_of_answer {s t : ApiStore} {c : ApiCmd} {a : c.Answer} (hc : apiStep s c a t) :
    t.readings = (rows [⟨c, a⟩]).foldl (KeyedRows.insertNew StoredReading.triple) s.readings := by
  rw [apiStep_readings hc]
  cases hstores : c.stores a with
  | none => simp [rows, hstores]
  | some r =>
    simp only [rows, List.filterMap_cons, hstores, List.filterMap_nil]
    rfl

theorem Step.inv {s t : IngestTask} (ht : Step format aead s t) (hs : s.Inv format aead store) :
    t.Inv format aead store := by
  cases ht with
  | poll event => exact poll_inv hs event
  | @recv received queue htask hreceive =>
    have hqueue := Channel.queue_of_tryReceive hreceive
    refine { hs with kept := ?_, handling := ?_, readings := ?_, missed := ?_ }
    · rw [hs.kept, hqueue]
      simp [inHand, htask]
    · rintro h ⟨⟩
      exact .refl
    · rw [hs.readings]
      simp [answers, htask]
    · rw [hs.missed]
      simp [answers, htask]
  | @ran received c k before a store' now htask hc =>
    have hanswers : (s.answer now c a store' ⟨received, k a, before ++ [⟨c, a⟩]⟩).answers =
        s.answers ++ [⟨c, a⟩] := by
      simp [answers, answer, htask]
    refine ⟨hs.offered, ?_, hs.handled, ?_, ?_, ?_, ?_⟩
    · refine hs.kept.trans ?_
      simp [inHand, answer, htask]
    · rintro h ⟨⟩
      exact (hs.handling _ htask).tail (.cmd rfl)
    · rw [hanswers, rows_append, List.foldl_append, ← hs.readings]
      exact readings_of_answer hc
    · rw [hanswers, misses_append, ← hs.missed, ← missedBy_addr now]
      exact List.map_append
    · simp only [answer]
      cases missedBy now c a with
      | none => rw [Option.toList_none, List.append_nil, ← hs.unknownDevices]
      | some call =>
        rw [Option.toList_some, UnknownDevices.table_snoc, hs.unknownDevices]
  | @finished received before htask =>
    have hanswers : answers { s with task := none, handled := s.handled ++ [(received, before)] } =
        s.answers := by
      simp [answers, htask]
    refine ⟨hs.offered, ?_, ?_, ?_, ?_, ?_, hs.unknownDevices⟩
    · refine hs.kept.trans ?_
      simp [inHand, htask]
    · intro h hh
      rcases List.mem_append.mp hh with hold | hnew
      · exact hs.handled h hold
      · obtain rfl := List.mem_singleton.mp hnew
        exact ((handleEnvelope_outcome aead received.envelope).steps (hs.handling _ htask)).2
    · rintro h ⟨⟩
    · rw [hanswers]
      exact hs.readings
    · rw [hanswers]
      exact hs.missed
  | request hr hc =>
    refine { hs with readings := ?_ }
    exact (readings_of_requested hc hr).trans hs.readings

theorem run_inv {t : IngestTask} (h : Relation.ReflTransGen (Step format aead) (start store) t) :
    t.Inv format aead store :=
  invariant_run h (fun _ _ => Step.inv) (inv_start store)

theorem countP_log (calls : List UnknownDevices.Call) (p : DeviceAddr → Bool) :
    (UnknownDevices.log calls).countP (fun e => p e.addr) =
      (calls.map UnknownDevices.Call.addr).countP p := by
  rw [UnknownDevices.countP_log, List.countP_map]
  rfl

/-- The log of unknown devices has counted these packets: those of an id that it
tracks by themselves, the others, once it is full, in one number. -/
structure Counted (s : UnknownDevices) (missed : List DeviceAddr) : Prop where
  tracked : ∀ addr entry, s.tracked.lookup addr = some entry →
    entry.count = BitVec.ofNat 64 (missed.count addr)
  overflow : s.overflowPackets = BitVec.ofNat 64 (missed.countP (· ∉ s.tracked))
  full : ∀ addr ∈ missed, addr ∉ s.tracked → s.size = UnknownDevices.maxTracked

theorem counted_table (calls : List UnknownDevices.Call) :
    Counted (UnknownDevices.table calls) (calls.map UnknownDevices.Call.addr) := by
  have hsound := UnknownDevices.sound_run calls
  refine ⟨fun addr entry hentry => ?_, ?_, fun addr haddr hnot => ?_⟩
  · rw [hsound.count_eq addr entry hentry, UnknownDevices.packets, countP_log calls fun x => x = addr,
      List.count]
    rfl
  · rw [hsound.overflow_eq, countP_log calls fun x => x ∉ (UnknownDevices.table calls).tracked]
  · obtain ⟨c, hc, rfl⟩ := List.mem_map.mp haddr
    rw [← UnknownDevices.map_log calls] at hc
    obtain ⟨e, he, rfl⟩ := List.mem_map.mp hc
    exact hsound.full e he hnot

theorem exists_outcomes {handled : List (ReceivedEnvelope × List (Σ c : ApiCmd, c.Answer))}
    (h : ∀ h ∈ handled, ∃ row, Outcome aead h.1.envelope h.2 row) : ∃ stored,
      List.Forall₂ (fun h row => Outcome aead h.1.envelope h.2 row) handled stored ∧
      rows (handled.flatMap Prod.snd) = stored.reduceOption := by
  induction handled with
  | nil => exact ⟨[], .nil, rfl⟩
  | cons first handled ih =>
    obtain ⟨row, hrow⟩ := h first List.mem_cons_self
    obtain ⟨stored, hstored, hrows⟩ := ih fun h' hh => h h' (List.mem_cons_of_mem _ hh)
    refine ⟨row :: stored, .cons hrow hstored, ?_⟩
    rw [List.flatMap_cons, rows_append, hrow.rows, hrows]
    cases row <;> rfl

/-- Every row that the table gained came of an answer. -/
theorem gained {t : IngestTask} (h : Relation.ReflTransGen (Step format aead) (start store) t)
    {q : StoredReading} (hq : q ∈ t.store.readings) : q ∈ store.readings ∨
      ∃ h ∈ t.handlings, Outcome aead h.1.envelope h.2 (some q) := by
  have hinv := run_inv h
  rw [hinv.readings] at hq
  refine (KeyedRows.mem_of_mem_foldl hq).imp_right fun hq => ?_
  rw [answers, rows_append, List.mem_append] at hq
  rcases hq with hq | hq
  · rw [rows, List.filterMap_flatMap, List.mem_flatMap] at hq
    obtain ⟨handled, hhandled, hq⟩ := hq
    obtain ⟨row, hrow⟩ := hinv.handled handled hhandled
    have hrows := hrow.rows
    rw [rows] at hrows
    rw [hrows, Option.mem_toList] at hq
    exact ⟨handled, List.mem_append_left _ hhandled, hq ▸ hrow⟩
  · cases htask : t.task with
    | none =>
      rw [htask] at hq
      cases hq
    | some handling =>
      rw [htask] at hq
      refine ⟨(handling.received, handling.answers), List.mem_append_right _ ?_,
        stored_outcome (hinv.handling handling htask) hq⟩
      rw [htask]
      exact List.mem_singleton_self _

/-- A handling is of an envelope that came of a publish. -/
theorem handling_polled {t : IngestTask} (h : Relation.ReflTransGen (Step format aead) (start store) t)
    {received : ReceivedEnvelope} (hreceived : received ∈ t.handlings.map Prod.fst) :
    ∃ p ∈ t.polled, Ingest.received format p = some received := by
  have hinv := run_inv h
  have hmem : received ∈ t.handled.map Prod.fst ++ t.inHand ++ t.queue.queue := by
    refine List.mem_append_left _ ?_
    rw [handlings, List.map_append] at hreceived
    refine (List.mem_append.mp hreceived).elim (List.mem_append_left _) fun hin => List.mem_append_right _ ?_
    rw [inHand]
    cases htask : t.task with
    | none =>
      rw [htask] at hin
      cases hin
    | some handling =>
      rw [htask] at hin
      exact hin
  rw [← hinv.kept] at hmem
  obtain ⟨offer, hoffer, rfl⟩ := List.mem_map.mp hmem
  have hoffered := List.mem_map_of_mem (f := Prod.fst) (List.mem_filter.mp hoffer).1
  rw [hinv.offered] at hoffered
  exact List.mem_filterMap.mp hoffered

/-! ### Draining -/

/-- Whatever is asked of the database, it may answer. -/
theorem apiStep_total (s : ApiStore) (c : ApiCmd) : ∃ a t, apiStep s c a t := by
  cases c with
  | generateKey => exact ⟨.error .failed, s, rfl⟩
  | generateNonce => exact ⟨⟨List.replicate 24 0, rfl⟩, s, rfl⟩
  | insertRow name addr key => exact ⟨.error .failed, s, by rintro ⟨⟩, rfl⟩
  | selectName addr => exact ⟨.error .failed, s, rfl⟩
  | updateKey addr key => exact ⟨.error .failed, s, rfl⟩
  | cacheInsert addr device => exact ⟨(), _, rfl⟩
  | cacheGet addr => exact ⟨_, s, rfl, rfl⟩
  | insertReading reading addr key => exact ⟨.error .failed, s, rfl⟩

variable (format aead) in
/-- The store task takes the steps of its work. -/
theorem works {s : IngestTask} {received : ReceivedEnvelope} {c d : ApiM Unit × ApiStore}
    (h : Steps apiStep c d) {before : List (Σ c : ApiCmd, c.Answer)}
    (hs : s.task = some ⟨received, c.1, before⟩) (hstore : s.store = c.2) :
    ∃ t after, Relation.ReflTransGen (Step format aead) s t ∧ t.task = some ⟨received, d.1, after⟩ ∧
      t.store = d.2 ∧ t.queue = s.queue ∧ t.offered = s.offered ∧ t.polled = s.polled ∧
      t.handled = s.handled := by
  induction h with
  | refl => exact ⟨s, before, .refl, hs, hstore, rfl, rfl, rfl, rfl⟩
  | tail _ hstep ih =>
    obtain ⟨t, after, hrun, htask, hstore', hqueue, hoffered, hpolled, hhandled⟩ := ih
    cases hstep with
    | @cmd c k u v a hc =>
      have hanswered : apiStep t.store c a v := by
        rw [hstore']
        exact hc
      exact ⟨_, _, hrun.tail (.ran 0 htask hanswered), rfl, rfl, hqueue, hoffered, hpolled, hhandled⟩

variable (format) in
/-- What the loop over the queue may come to, the store task may come to with the
envelopes that wait. -/
theorem stores_queued {es : List ReceivedEnvelope} {s : IngestTask} {store : ApiStore}
    (htask : s.task = none) (hqueue : s.queue.queue = es)
    (h : Steps apiStep (Ingest.storeEnvelopes aead es, s.store) (.ret (), store)) :
    ∃ t, Relation.ReflTransGen (Step format aead) s t ∧ t.task = none ∧ t.queue.queue = [] ∧
      t.store = store ∧ t.offered = s.offered ∧ t.polled = s.polled ∧
      t.handled.map Prod.fst = s.handled.map Prod.fst ++ es := by
  induction es generalizing s with
  | nil => exact ⟨s, .refl, htask, hqueue, h.ret_eq.2, rfl, rfl, (List.append_nil _).symm⟩
  | cons received es ih =>
    obtain ⟨_, v, hfirst, hrest⟩ := Steps.of_bind h
    obtain ⟨channel, hreceive, hleft⟩ := Channel.tryReceive_of_queue hqueue
    let taken : IngestTask :=
      { s with queue := channel, task := some ⟨received, handleEnvelope aead received.envelope, []⟩ }
    have htaken : Step format aead s taken := .recv htask hreceive
    obtain ⟨t, after, hwork, hdone, hstore, hsame, hoffered, hpolled, hhandled⟩ :=
      works format aead hfirst (s := taken) rfl rfl
    let freed : IngestTask := { t with task := none, handled := t.handled ++ [(received, after)] }
    have hfreed : Step format aead t freed := .finished hdone
    obtain ⟨u, hrun, hu, hempty, hlast, hoffered', hpolled', hhandled'⟩ :=
      ih (s := freed) rfl ((congrArg Channel.queue hsame).trans hleft) (hstore ▸ hrest)
    refine ⟨u, .head htaken (hwork.trans (.head hfreed hrun)), hu, hempty, hlast, hoffered'.trans hoffered,
      hpolled'.trans hpolled, ?_⟩
    rw [hhandled', List.map_append, hhandled]
    simp [taken]

variable (format aead) in
/-- The tasks can come to the table of the ingest of one publish after the other. -/
theorem delivered {s : IngestTask} (hs : Ingest.Referenced s.store) (htask : s.task = none)
    (hqueue : s.queue.queue = []) (publishes : List Publish) :
    ∃ t, Relation.ReflTransGen (Step format aead) s t ∧ t.task = none ∧ t.queue.queue = [] ∧
      t.polled = s.polled ++ publishes ∧
      t.handled.map Prod.fst = s.handled.map Prod.fst ++ publishes.filterMap (Ingest.received format) ∧
      Ingest.Stored (publishes.filterMap (Ingest.accepted format aead s.store.cache)) s.store t.store := by
  induction publishes generalizing s with
  | nil =>
    exact ⟨s, .refl, htask, hqueue, (List.append_nil _).symm, (List.append_nil _).symm, rfl, rfl, rfl⟩
  | cons p publishes ih =>
    obtain ⟨htask', hstore, hqueue', hpolled, hhandled⟩ := poll_empty format hqueue p
    obtain ⟨store, hsteps⟩ := @Ingest.storeEnvelopes_completes aead (Ingest.received format p).toList _ hs
    obtain ⟨hcache, hdevices, hreadings⟩ := ((Ingest.storeEnvelopes_stores _ _).steps hsteps).2
    obtain ⟨t, hrun, ht, hempty, rfl, -, hpolled', hhandled'⟩ := stores_queued format
      (htask'.trans htask) hqueue' (hstore ▸ Ingest.steps_of_succeed hsteps)
    have hreferenced : Ingest.Referenced t.store := by
      intro addr device hdevice
      rw [hdevices]
      exact hs addr device (hcache ▸ hdevice)
    obtain ⟨u, hrest, hu, hempty', hpolled'', hhandled'', hcache', hdevices', hreadings'⟩ :=
      ih hreferenced ht hempty
    refine ⟨u, .head (.poll (.publish p)) (hrun.trans hrest), hu, hempty', ?_, ?_, hcache'.trans hcache,
      hdevices'.trans hdevices, ?_⟩
    · rw [hpolled'', hpolled', hpolled, List.append_assoc]
      rfl
    · rw [hhandled'', hhandled', hhandled, List.append_assoc, List.filterMap_cons]
      cases Ingest.received format p <;> rfl
    · rw [hreadings', hcache, hreadings, List.filterMap_cons, Ingest.accepted]
      cases Ingest.received format p with
      | none => rfl
      | some r => cases hrow : Ingest.rowOf aead s.store.cache r.envelope <;> simp [hrow]

variable (format aead) in
/-- The store task empties the queue in its order, whatever the statements answer. -/
theorem drains (s : IngestTask) : ∃ t, Relation.ReflTransGen (Step format aead) s t ∧ t.task = none ∧
    t.queue.queue = [] ∧ t.offered = s.offered ∧ t.polled = s.polled ∧
    t.handled.map Prod.fst = s.handled.map Prod.fst ++ s.inHand ++ s.queue.queue := by
  have hidle : ∀ s : IngestTask, s.task = none → ∃ t, Relation.ReflTransGen (Step format aead) s t ∧
      t.task = none ∧ t.queue.queue = [] ∧ t.offered = s.offered ∧ t.polled = s.polled ∧
      t.handled.map Prod.fst = s.handled.map Prod.fst ++ s.queue.queue := by
    intro s htask
    obtain ⟨_, store, hsteps⟩ :=
      exists_steps apiStep_total (Ingest.storeEnvelopes aead s.queue.queue) s.store
    obtain ⟨t, hrun, ht, hempty, -, hrest⟩ := stores_queued format htask rfl hsteps
    exact ⟨t, hrun, ht, hempty, hrest⟩
  cases htask : s.task with
  | none =>
    obtain ⟨t, hrun, ht, hempty, hoffered, hpolled, hhandled⟩ := hidle s htask
    exact ⟨t, hrun, ht, hempty, hoffered, hpolled, by simpa [inHand, htask] using hhandled⟩
  | some h =>
    obtain ⟨_, store, hsteps⟩ := exists_steps apiStep_total h.work s.store
    obtain ⟨u, after, hwork, hu, -, hsame, hoffered, hpolled, hhandled⟩ := works format aead hsteps htask rfl
    obtain ⟨t, hrun, ht, hempty, hoffered', hpolled', hhandled'⟩ :=
      hidle { u with task := none, handled := u.handled ++ [(h.received, after)] } rfl
    refine ⟨t, hwork.trans (.head (.finished hu) hrun), ht, hempty, hoffered'.trans hoffered,
      hpolled'.trans hpolled, ?_⟩
    rw [hhandled', List.map_append, hhandled, hsame]
    simp [inHand, htask]

/-- Whatever the event loop is given and whatever is requested meanwhile: each
envelope that found room is handled once, in the order of its publish, or still
waits its turn, and only those that found 256 waiting are dropped. The table
gains the rows of the handled ones and no others, the log of unknown devices
counts all packets that found no device, and the store task is never stuck. -/
theorem conserves {t : IngestTask} (h : Relation.ReflTransGen (Step format aead) (start store) t) :
    t.offered.map Prod.fst = t.polled.filterMap (Ingest.received format) ∧
    (t.offered.filter fun o => o.2 < 256).map Prod.fst =
      t.handled.map Prod.fst ++ t.inHand ++ t.queue.queue ∧
    (∃ stored, List.Forall₂ (fun h row => Outcome aead h.1.envelope h.2 row) t.handled stored ∧
      (t.task = none → t.store.readings =
        stored.reduceOption.foldl (KeyedRows.insertNew StoredReading.triple) store.readings)) ∧
    Counted t.unknownDevices (misses t.answers) ∧
    ∃ u, Relation.ReflTransGen (Step format aead) t u ∧ u.task = none ∧ u.queue.queue = [] ∧
      u.offered = t.offered ∧ u.polled = t.polled ∧
      u.handled.map Prod.fst = t.handled.map Prod.fst ++ t.inHand ++ t.queue.queue := by
  have hinv := run_inv h
  refine ⟨hinv.offered, hinv.kept, ?_, ?_, drains format aead t⟩
  · obtain ⟨stored, hstored, hrows⟩ := exists_outcomes hinv.handled
    refine ⟨stored, hstored, fun htask => ?_⟩
    have hanswers : t.answers = t.handled.flatMap Prod.snd := by
      rw [answers, htask]
      exact List.append_nil _
    rw [hinv.readings, hanswers, hrows]
  · rw [hinv.unknownDevices, ← hinv.missed]
    exact counted_table t.missed

/-- A publish that is handled to its end. -/
theorem conserves_sample : ∃ t : IngestTask,
    Relation.ReflTransGen (Step Ingest.sampleFormat ReadingPath.sampleAead) (start Ingest.sampleStore) t ∧
    t.handled.length = 1 ∧ t.store.readings.length = 1 ∧
    (t.offered.filter fun o => o.2 < 256).map Prod.fst =
      t.handled.map Prod.fst ++ t.inHand ++ t.queue.queue ∧
    Counted t.unknownDevices (misses t.answers) := by
  obtain ⟨t, hrun, -, -, -, hhandled, -, -, hreadings⟩ := delivered Ingest.sampleFormat
    ReadingPath.sampleAead (s := start Ingest.sampleStore) Ingest.sampleStore_referenced rfl rfl
      [Ingest.sensedPublish]
  obtain ⟨-, hkept, -, hcounted, -⟩ := conserves hrun
  refine ⟨t, hrun, ?_, ?_, hkept, hcounted⟩
  · rw [← List.length_map, hhandled]
    decide +kernel
  · rw [hreadings]
    decide +kernel

end IngestTask

end Homescope
