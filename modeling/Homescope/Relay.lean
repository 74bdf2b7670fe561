import Homescope.Gateway
import Homescope.IngestTask
import Homescope.UsbWriter

/-! From the receiver's backlog to the table: the USB link, the gateway, a
broker that delivers in any order, and the tasks of the API. -/

namespace Homescope

open Commands Frame Scanning UsbWriter

namespace Dongle

/-- What the link takes at an event. -/
def sends (s : Dongle) : LinkEvent → List Byte
  | .proceed _ => match s.task with
    | .write _ _ (chunk :: _) => chunk
    | _ => []
  | _ => []

def line (s : Dongle) : List LinkEvent → List Byte
  | [] => []
  | e :: events => s.sends e ++ (s.next e).elim [] fun t => t.line events

/-- The part of a frame that the link has taken. -/
def begun : Await → List Byte
  | .write _ done _ => done.flatten
  | _ => []

theorem begun_of_held {task : Await} (h : held task = []) : begun task = [] := by
  cases task <;> first | rfl | cases h

theorem sends_of_held {s : Dongle} {now : Nat} (h : held s.task = []) : s.sends (.proceed now) = [] := by
  simp only [sends]
  split
  · rename_i htask
    rw [htask] at h
    cases h
  · rfl

theorem Step.sends {s t : Dongle} {e : LinkEvent} (ht : Step s e t) (h : s.Steady e) :
    (s.written.map Prod.snd).flatten ++ (begun s.task ++ s.sends e) =
      (t.written.map Prod.snd).flatten ++ begun t.task := by
  cases ht with
  | report r => simp [Dongle.sends]
  | connection up => simp [Dongle.sends]
  | control dtr => simp [Dongle.sends]
  | waited hs hpacket htask => rw [sends_of_held hs, begun_of_held hs, begun_of_held htask, List.append_nil]
  | @received now packet channel hs hreceive =>
    have hheld : held s.task = [] := by rw [hs]; rfl
    have hnone : begun (onPacket s.dtr now packet) = [] := by
      rw [onPacket_eq]
      split <;> rfl
    rw [sends_of_held hheld, begun_of_held hheld, hnone, List.append_nil]
  | wrote hs hconnected => simp [hs, Dongle.sends, begun]
  | writing hs htodo hconnected => simp [hs, Dongle.sends, begun]
  | writeError hs => exact h.elim
  | dtrOff hs hdtr => exact h.elim

/-- On a steady run the line carries the frames that were written, and the
begun part of the next one. -/
theorem line_steady {s t : Dongle} {events : List LinkEvent} (ht : s.run events = some t)
    (h : s.SteadyRun events) : (s.written.map Prod.snd).flatten ++ (begun s.task ++ s.line events) =
      (t.written.map Prod.snd).flatten ++ begun t.task := by
  induction events generalizing s with
  | nil =>
    cases ht
    rw [line, List.append_nil]
  | cons e events ih =>
    obtain ⟨u, hu, ht⟩ := Option.bind_eq_some_iff.mp ht
    have hstep := (next_step hu).sends h.1
    rw [line, hu, Option.elim_some, ← List.append_assoc (begun s.task), ← List.append_assoc, hstep,
      List.append_assoc]
    exact ih ht (h.2 u hu)

/-- What the task says of a packet when it writes it. -/
def Observes (packet : ScannedPacket) (o : SensorObservation) : Prop := ∃ now, o = observe now packet

def frameBytes (os : List SensorObservation) : List Byte :=
  (os.map fun o => frameOf crc16IbmSdlc o.bytes).flatten

theorem exists_observations {ws : List (ScannedPacket × List Byte)} (h : ∀ w ∈ ws, Complete w) :
    ∃ os, List.Forall₂ Observes (ws.map Prod.fst) os ∧ (ws.map Prod.snd).flatten = frameBytes os := by
  induction ws with
  | nil => exact ⟨[], .nil, rfl⟩
  | cons w ws ih =>
    obtain ⟨now, hframe⟩ := h w List.mem_cons_self
    obtain ⟨os, hos, hbytes⟩ := ih fun w hw => h w (List.mem_cons_of_mem _ hw)
    refine ⟨observe now w.1 :: os, .cons ⟨now, rfl⟩ hos, ?_⟩
    rw [List.map_cons, List.flatten_cons, hframe, hbytes]
    rfl

/-- The line is a prefix of the frames of what was written and is being written. -/
theorem line_frames {t : Dongle} {events : List LinkEvent} (ht : init.run events = some t)
    (h : init.SteadyRun events) : ∃ os,
      List.Forall₂ Observes (t.written.map Prod.fst ++ held t.task) os ∧
      init.line events <+: frameBytes os ∧
      (held t.task = [] → init.line events = frameBytes os) := by
  have hframed := framed_run framed_init ht
  have hline : init.line events = (t.written.map Prod.snd).flatten ++ begun t.task := line_steady ht h
  by_cases hheld : held t.task = []
  · obtain ⟨os, hos, hbytes⟩ := exists_observations hframed.complete
    rw [begun_of_held hheld, List.append_nil, hbytes] at hline
    refine ⟨os, ?_, hline ▸ List.prefix_rfl, fun _ => hline⟩
    rwa [hheld, List.append_nil]
  · cases htask : t.task with
    | write packet done todo =>
      obtain ⟨-, hwriting⟩ := hframed.writing packet done todo htask
      have hcomplete : ∀ w ∈ t.written ++ [(packet, (done ++ todo).flatten)], Complete w := by
        intro w hw
        rcases List.mem_append.mp hw with hw | hw
        · exact hframed.complete w hw
        · exact List.mem_singleton.mp hw ▸ hwriting
      obtain ⟨os, hos, hbytes⟩ := exists_observations hcomplete
      refine ⟨os, by simpa [held] using hos, ?_, fun hnone => by cases hnone⟩
      rw [hline, htask, ← hbytes, begun]
      exact ⟨todo.flatten, by simp⟩
    | _ =>
      rw [htask] at hheld
      exact absurd rfl hheld

theorem bytes_le_of_observes {packet : ScannedPacket} {o : SensorObservation} (h : Observes packet o) :
    o.bytes.length ≤ maxPayloadLen := by
  obtain ⟨now, rfl⟩ := h
  have hpacket := packet.packet_le
  rw [SensorObservation.bytes_length]
  change 11 + packet.packet.length ≤ 1024
  change _ ≤ 252 at hpacket
  omega

end Dongle

namespace Frame

variable {crc16 : List Byte → BitVec 16}

variable (crc16) in
theorem scans_frames {payloads : List (List Byte)} (h : ∀ p ∈ payloads, p.length ≤ maxPayloadLen) :
    Scans (judge crc16 fun _ => 1) (payloads.map (frameOf crc16)).flatten payloads [] := by
  induction payloads with
  | nil => exact .wait (judge_wait.mpr parse_nil)
  | cons p payloads ih =>
    rw [List.map_cons, List.flatten_cons]
    refine .take (judge_take.mpr (parse_frameOf (h p List.mem_cons_self) _)) ?_
    rw [← frameOf_length crc16 p, List.drop_left]
    exact ih fun q hq => h q (List.mem_cons_of_mem _ hq)

/-- What a part of a line scans to the whole line scans to first. -/
theorem scans_part {a b r q : List Byte} {bs cs : List (List Byte)} (hab : a <+: b)
    (ha : Scans (judge crc16 fun _ => 1) a bs r) (hb : Scans (judge crc16 fun _ => 1) b cs q) :
    bs <+: cs := by
  obtain ⟨t, rfl⟩ := hab
  obtain ⟨ds, q', hds, -⟩ := FrameDecoder.drain_single crc16 (r ++ t)
  rw [← single_judge id] at ha hb hds
  obtain ⟨rfl, rfl⟩ := (ha.append judge_lawful hds).unique hb
  exact List.prefix_append _ _

end Frame

namespace Relay

variable {inRange : DateTime → Bool}

/-- The observation of a packet becomes this envelope, written at one time and
taken up at another. -/
def Envelops (inRange : DateTime → Bool) (packet : ScannedPacket) (envelope : ObservationEnvelope) :
    Prop :=
  ∃ written taken, ObservationEnvelope.fromObservation inRange (observe written packet) taken =
    some envelope

theorem filterMap_observationOf (os : List SensorObservation) :
    (os.map SensorObservation.bytes).filterMap Gateway.observationOf = os := by
  rw [List.filterMap_map]
  have hparse : Gateway.observationOf ∘ SensorObservation.bytes = some :=
    funext fun o => by rw [Function.comp_apply, Gateway.observationOf, o.parse_bytes]; rfl
  rw [hparse, List.filterMap_some]

/-- The gateway takes up what was written, in that order. -/
theorem stamped_observes {d : Dongle} {linkEvents : List LinkEvent} {g : Gateway}
    (hd : Dongle.init.run linkEvents = some d) (hsteady : Dongle.init.SteadyRun linkEvents)
    (hg : g.Inv crc16IbmSdlc inRange) (hline : g.line <+: Dongle.init.line linkEvents) :
    ∃ os, List.Forall₂ Dongle.Observes (d.written.map Prod.fst ++ Dongle.held d.task) os ∧
      g.stamped.map Prod.fst <+: os ∧
      (g.main = .next false → g.line = Dongle.init.line linkEvents → Dongle.held d.task = [] →
        g.stamped.map Prod.fst = os) := by
  obtain ⟨os, hos, hpre, hwhole⟩ := Dongle.line_frames hd hsteady
  have hshort : ∀ p ∈ os.map SensorObservation.bytes, p.length ≤ maxPayloadLen := by
    intro p hp
    obtain ⟨o, ho, rfl⟩ := List.mem_map.mp hp
    obtain ⟨i, hi, rfl⟩ := List.getElem_of_mem ho
    exact Dongle.bytes_le_of_observes (hos.get (hos.length_eq ▸ hi) hi)
  have hframes : Scans (judge crc16IbmSdlc fun _ => 1) (Dongle.frameBytes os)
      (os.map SensorObservation.bytes) [] := by
    have hscan := scans_frames crc16IbmSdlc hshort
    rwa [List.map_map] at hscan
  obtain ⟨all, rest, hall, -⟩ := FrameDecoder.receive_single crc16IbmSdlc [] parse_nil [g.line]
  rw [List.nil_append, List.flatten_singleton] at hall
  obtain ⟨hpart, hidle⟩ := hg.stamped_of_scans hall
  refine ⟨os, hos, ?_, fun hmain hfull hheld => ?_⟩
  · have hparts := (scans_part (hline.trans hpre) hall hframes).filterMap Gateway.observationOf
    rw [filterMap_observationOf] at hparts
    exact hpart.trans hparts
  · rw [hfull, hwhole hheld] at hall
    obtain ⟨rfl, -⟩ := hall.unique hframes
    rw [hidle hmain, filterMap_observationOf]

theorem envelops_stamped {packets : List ScannedPacket} {stamped : List (SensorObservation × DateTime)}
    {es : List ObservationEnvelope} (h : List.Forall₂ Dongle.Observes packets (stamped.map Prod.fst))
    (hes : es.map some = stamped.map (Gateway.envelopeOf inRange)) :
    List.Forall₂ (Envelops inRange) packets es := by
  induction stamped generalizing packets es with
  | nil =>
    cases h
    rw [List.map_nil, List.map_eq_nil_iff] at hes
    rw [hes]
    exact .nil
  | cons o stamped ih =>
    cases h with
    | cons hobserves h =>
      obtain ⟨written, hwritten⟩ := hobserves
      cases es with
      | nil => cases hes
      | cons e es =>
        obtain ⟨henvelope, hes⟩ := List.cons.inj hes
        refine .cons ⟨written, o.2, ?_⟩ (ih h hes)
        rw [← hwritten]
        exact henvelope.symm

/-- One run of the four: the receiver's, which loses nothing to its link, the
gateway's on what it has read of the line, and the API's, whose event loop is
given publishes of the gateway in any order and any number of times, next to
whatever requests and failing statements. -/
structure Run (format : TextFormat) (aead : Aead) (site : Site) (inRange : DateTime → Bool)
    (d : Dongle) (g : Gateway) (store : ApiStore) (t : IngestTask) where
  linkEvents : List LinkEvent
  linked : Dongle.init.run linkEvents = some d
  steady : Dongle.init.SteadyRun linkEvents
  gatewayEvents : List GatewayEvent
  relayed : Gateway.init.run crc16IbmSdlc inRange gatewayEvents = some g
  read : g.line <+: Dongle.init.line linkEvents
  ingested : Relation.ReflTransGen (IngestTask.Step format aead) (IngestTask.start store) t
  published : ∀ p ∈ t.polled, p ∈ g.published format site

/-- Everything has come through: the gateway has read the line and is done with
what it read, the broker has delivered every publish, and the store task has
emptied its queue. -/
structure Run.Complete {format : TextFormat} {aead : Aead} {site : Site} {d : Dongle} {g : Gateway}
    {store : ApiStore} {t : IngestTask} (r : Run format aead site inRange d g store t) : Prop where
  written : Dongle.held d.task = []
  read : g.line = Dongle.init.line r.linkEvents
  idle : g.Idle
  delivered : ∀ p ∈ g.published format site, p ∈ t.polled
  handled : t.task = none
  emptied : t.queue.queue = []

section Runs

variable {format : TextFormat} {aead : Aead} {site : Site} {d : Dongle} {g : Gateway} {store : ApiStore}
  {t : IngestTask}

theorem Run.envelops (r : Run format aead site inRange d g store t) :
    ∃ packets, packets <+: d.written.map Prod.fst ++ Dongle.held d.task ∧
      List.Forall₂ (Envelops inRange) packets (g.finished.map Prod.fst) ∧
      (r.Complete → packets = d.written.map Prod.fst) := by
  have hinv := Gateway.run_inv Gateway.inv_init r.relayed
  obtain ⟨os, hos, ⟨more, hmore⟩, hall⟩ := stamped_observes r.linked r.steady hinv r.read
  rw [← hmore] at hos
  have hstamped := envelops_stamped (List.forall₂_take_append _ _ _ hos) hinv.relayed
  rw [List.append_assoc, List.append_assoc] at hstamped
  have hfinished := List.forall₂_take_append _ _ _ hstamped
  rw [List.take_take] at hfinished
  refine ⟨_, List.take_prefix _ _, hfinished, fun hc => ?_⟩
  have hlength := congrArg List.length hinv.relayed
  have hone := congrArg List.length (hall hc.idle.main hc.read hc.written)
  have hlengths := hos.length_eq
  rw [← hmore] at hone
  simp only [List.length_map, List.length_append, hc.idle.sender, hc.idle.channel, hc.idle.main,
    Gateway.held, Option.toList_none, List.length_nil, Nat.add_zero, hc.written] at hlength hlengths hone ⊢
  rw [List.append_nil, List.take_of_length_le]
  rw [List.length_map]
  omega

theorem exists_of_forall₂ {α β : Type} {R : α → β → Prop} {as : List α} {bs : List β}
    (h : List.Forall₂ R as bs) {a : α} (ha : a ∈ as) : ∃ b ∈ bs, R a b := by
  obtain ⟨i, hi, rfl⟩ := List.getElem_of_mem ha
  have hi' := h.length_eq ▸ hi
  exact ⟨bs[i], List.getElem_mem hi', h.get hi hi'⟩

/-- The envelopes of the publishes are the finished ones. -/
theorem mem_published {p : Publish} : p ∈ g.published format site ↔
    ∃ e, (e, true) ∈ g.finished ∧ Gateway.publishOf format site e = p := by
  simp only [Gateway.published, List.mem_map, List.mem_filter]
  constructor
  · rintro ⟨⟨e, ok⟩, ⟨he, hok⟩, rfl⟩
    obtain rfl : ok = true := hok
    exact ⟨e, he, rfl⟩
  · rintro ⟨e, he, rfl⟩
    exact ⟨(e, true), ⟨he, rfl⟩, rfl⟩

theorem received_publishOf (hl : format.Lawful) (e : ObservationEnvelope) :
    Ingest.received format (Gateway.publishOf format site e) = some ⟨site, e⟩ := by
  rw [Ingest.received, Gateway.decodePublish_publishOf hl]
  rfl

theorem Run.noLoss (r : Run format aead site inRange d g store t) : d.NoLoss := by
  refine (Dongle.noLoss_iff (Dongle.framed_run Dongle.framed_init r.linked)).mpr ?_
  rcases Dongle.accounted_run Dongle.accounted_init r.linked with ⟨-, hfinal⟩ | ⟨hsteady, -⟩
  · exact hfinal
  · exact absurd r.steady hsteady

theorem Run.mem_packets (r : Run format aead site inRange d g store t) {packet : ScannedPacket}
    (h : packet ∈ d.written.map Prod.fst ++ Dongle.held d.task) : packet ∈ d.receiver.forwarded := by
  refine r.noLoss.accounted.mem_iff.mpr (List.mem_append_left _ ?_)
  rw [List.append_assoc]
  exact List.mem_append_right _ h

/-- What the API handles are envelopes that the gateway published. -/
theorem Run.mem_finished (hl : format.Lawful) (r : Run format aead site inRange d g store t)
    {received : ReceivedEnvelope} (h : received ∈ t.handlings.map Prod.fst) :
    (received.envelope, true) ∈ g.finished := by
  obtain ⟨p, hp, hreceived⟩ := IngestTask.handling_polled r.ingested h
  obtain ⟨e, he, rfl⟩ := mem_published.mp (r.published p hp)
  rw [received_publishOf hl] at hreceived
  obtain rfl := Option.some.inj hreceived
  exact he

/-- The envelope of a publish was offered to the queue. -/
theorem Run.offered (hl : format.Lawful) (r : Run format aead site inRange d g store t) (hc : r.Complete)
    {e : ObservationEnvelope} (he : (e, true) ∈ g.finished) : ∃ o ∈ t.offered, o.1.envelope = e := by
  have hpolled := hc.delivered _ (mem_published.mpr ⟨e, he, rfl⟩)
  have hmem : (⟨site, e⟩ : ReceivedEnvelope) ∈ t.offered.map Prod.fst := by
    rw [(IngestTask.run_inv r.ingested).offered]
    exact List.mem_filterMap.mpr ⟨_, hpolled, received_publishOf hl e⟩
  obtain ⟨o, ho, hreceived⟩ := List.mem_map.mp hmem
  exact ⟨o, ho, congrArg ReceivedEnvelope.envelope hreceived⟩

/-- An envelope that found room in the queue has an outcome, and a row that it
became is there once. -/
theorem Run.settled (hs : KeyedRows.Unique StoredReading.triple store.readings)
    (r : Run format aead site inRange d g store t) (hc : r.Complete) {o : ReceivedEnvelope × Nat}
    (ho : o ∈ t.offered) (hroom : o.2 < 256) : ∃ h ∈ t.handled, h.1 = o.1 ∧
      ∃ row, IngestTask.Outcome aead o.1.envelope h.2 row ∧
        ∀ q, row = some q → ∃! q', q' ∈ t.store.readings ∧ q'.triple = q.triple := by
  have hinv := IngestTask.run_inv r.ingested
  have hkept : o.1 ∈ (t.offered.filter fun o => o.2 < 256).map Prod.fst :=
    List.mem_map_of_mem (List.mem_filter.mpr ⟨ho, decide_eq_true hroom⟩)
  rw [hinv.kept, IngestTask.inHand, hc.handled, hc.emptied, Option.map_none, Option.toList_none,
    List.append_nil, List.append_nil] at hkept
  obtain ⟨h, hh, heq⟩ := List.mem_map.mp hkept
  obtain ⟨row, hrow⟩ := hinv.handled h hh
  refine ⟨h, hh, heq, row, heq ▸ hrow, ?_⟩
  rintro q rfl
  have hmem : q ∈ IngestTask.rows t.answers := by
    rw [IngestTask.answers, IngestTask.rows_append]
    refine List.mem_append_left _ ?_
    rw [IngestTask.rows, List.filterMap_flatMap, List.mem_flatMap]
    refine ⟨h, hh, ?_⟩
    have hrows := hrow.rows
    rw [IngestTask.rows] at hrows
    rw [hrows]
    exact List.mem_singleton_self q
  have hunique : KeyedRows.Unique StoredReading.triple t.store.readings := hinv.readings ▸ hs.foldl _
  obtain ⟨q', hq', hkey⟩ := KeyedRows.exists_key_foldl StoredReading.triple hmem store.readings
  rw [← hinv.readings] at hq'
  exact ⟨q', ⟨hq', hkey⟩, fun q'' h'' => hunique.eq_of_key q'' h''.1 q' hq' (h''.2.trans hkey.symm)⟩

/-- The gateway publishes the packets in the order of their frames, one envelope
each. Whatever the broker repeats and the statements answer, the table keeps its
rows, gains none but those of packets that the scan forwarded, and has one for
each triple. Once everything has come through, every such packet was displaced
in the backlog, is still in it, or was finished by the gateway; if published, its
envelope was offered to the API, and wherever it found room, it was handled and
the row that it became, if it became one, is there once. -/
theorem Run.stores (hl : format.Lawful) (hs : KeyedRows.Unique StoredReading.triple store.readings)
    (r : Run format aead site inRange d g store t) :
    (∃ packets, packets <+: d.written.map Prod.fst ++ Dongle.held d.task ∧
      List.Forall₂ (Envelops inRange) packets (g.finished.map Prod.fst)) ∧
    KeyedRows.Unique StoredReading.triple t.store.readings ∧
    (∀ q ∈ store.readings, q ∈ t.store.readings) ∧
    (∀ q ∈ t.store.readings, q ∈ store.readings ∨ ∃ packet ∈ d.receiver.forwarded, ∃ h ∈ t.handlings,
      Envelops inRange packet h.1.envelope ∧ IngestTask.Outcome aead h.1.envelope h.2 (some q)) ∧
    (r.Complete → ∀ packet ∈ d.receiver.forwarded,
      packet ∈ d.displaced ∨ packet ∈ d.receiver.handler.channel.queue ∨
        ∃ f ∈ g.finished, Envelops inRange packet f.1 ∧ (f.2 = true →
          (∃ o ∈ t.offered, o.1.envelope = f.1) ∧
          ∀ o ∈ t.offered, o.1.envelope = f.1 → o.2 < 256 → ∃ h ∈ t.handled, h.1 = o.1 ∧
            ∃ row, IngestTask.Outcome aead f.1 h.2 row ∧
              ∀ q, row = some q → ∃! q', q' ∈ t.store.readings ∧ q'.triple = q.triple)) := by
  obtain ⟨packets, hpre, henvelops, hall⟩ := r.envelops
  have hreadings := (IngestTask.run_inv r.ingested).readings
  refine ⟨⟨packets, hpre, henvelops⟩, hreadings ▸ hs.foldl _, fun q hq => ?_, fun q hq => ?_, ?_⟩
  · rw [hreadings]
    exact KeyedRows.mem_foldl_of_mem hq _
  · refine (IngestTask.gained r.ingested hq).imp_right fun ⟨h, hh, houtcome⟩ => ?_
    have hfinished := r.mem_finished hl (List.mem_map_of_mem hh)
    obtain ⟨packet, hpacket, henvelop⟩ :=
      exists_of_forall₂ henvelops.flip (List.mem_map_of_mem (f := Prod.fst) hfinished)
    exact ⟨packet, r.mem_packets (hpre.subset hpacket), h, hh, henvelop, houtcome⟩
  · intro hc packet hpacket
    have hperm := r.noLoss.accounted
    rw [hc.written, List.append_nil] at hperm
    rcases List.mem_append.mp (hperm.mem_iff.mp hpacket) with hleft | hqueued
    · rcases List.mem_append.mp hleft with hdisplaced | hwritten
      · exact .inl hdisplaced
      · obtain rfl := hall hc
        obtain ⟨e, he, henvelop⟩ := exists_of_forall₂ henvelops hwritten
        obtain ⟨⟨e, ok⟩, hfinished, rfl⟩ := List.mem_map.mp he
        refine .inr (.inr ⟨(e, ok), hfinished, henvelop, ?_⟩)
        rintro rfl
        refine ⟨r.offered hl hc hfinished, fun o ho heq hroom => ?_⟩
        rw [← heq]
        exact r.settled hs hc ho hroom
    · exact .inr (.inl hqueued)

end Runs

/-! ### One packet, all the way -/

theorem steady_of_written {t : Dongle} {events : List LinkEvent} (ht : Dongle.init.run events = some t)
    (h : t.written.map Prod.fst = t.receiver.forwarded) : Dongle.init.SteadyRun events := by
  rcases Dongle.accounted_run Dongle.accounted_init ht with ⟨hsteady, -⟩ | ⟨-, more, hmore, hfinal⟩
  · exact hsteady
  · obtain ⟨p, rest, rfl⟩ := List.exists_cons_of_ne_nil hmore
    have hp := hfinal p
    simp only [h, List.append_nil, List.count_cons_self] at hp
    omega

def sensedReport : Report where
  addr := sensorAddr
  rssi := ⟨0xCE⟩
  payload := airMagic ++ ReadingPath.sensedPacket
  now := 0
  payload_le := by decide

/-- The packet is heard twice and written once. -/
def sensedEvents : List LinkEvent :=
  [.connection true, .proceed 0, .control true, .proceed 0, .proceed 0, .report sensedReport,
    .report sensedReport, .proceed 33, .proceed 33]

def relayedEvents : List GatewayEvent :=
  [.turn 0, .read (Dongle.init.line sensedEvents), .turn 1753000000001007080, .send, .turn 3, .receive,
    .publish true]

def sampleSite : Site := ⟨"odin", by decide, List.all_eq_true.mp (by decide)⟩

/-- The broker delivers the publish twice, and there is one row. -/
theorem Run.stores_sample : ∃ (format : TextFormat) (d : Dongle) (g : Gateway) (t : IngestTask)
    (r : Run format ReadingPath.sampleAead sampleSite ReadingPath.timestampRange d g
      Ingest.sampleStore t),
    r.Complete ∧ t.polled.length = 2 ∧ d.receiver.forwarded.length = 1 ∧ t.store.readings.length = 1 ∧
    KeyedRows.Unique StoredReading.triple t.store.readings ∧
    ∀ packet ∈ d.receiver.forwarded,
      packet ∈ d.displaced ∨ packet ∈ d.receiver.handler.channel.queue ∨
        ∃ f ∈ g.finished, Envelops ReadingPath.timestampRange packet f.1 ∧ (f.2 = true →
          ∃ o ∈ t.offered, o.1.envelope = f.1) := by
  obtain ⟨format, hl, -⟩ := ReadingPath.exists_format
  have hlink : (Dongle.init.run sensedEvents).map (fun d =>
      (d.written.map Prod.fst == d.receiver.forwarded, d.receiver.forwarded.length,
        (Dongle.held d.task).length)) = some (true, 1, 0) := by decide +kernel
  obtain ⟨d, hd, hcounts⟩ := Option.map_eq_some_iff.mp hlink
  obtain ⟨hwritten, hcounts⟩ := Prod.mk.inj hcounts
  obtain ⟨hforwarded, hheld⟩ := Prod.mk.inj hcounts
  have hrelay : (Gateway.init.run crc16IbmSdlc ReadingPath.timestampRange relayedEvents).map (fun g =>
      (g.line == Dongle.init.line sensedEvents, g.channel.queue.length,
        g.finished.map fun f =>
          (f.2, (Ingest.rowOf ReadingPath.sampleAead Ingest.sampleStore.cache f.1).isSome),
        g.sender.isNone && g.main == .next false)) = some (true, 0, [(true, true)], true) := by
    decide +kernel
  obtain ⟨g, hg, hstate⟩ := Option.map_eq_some_iff.mp hrelay
  obtain ⟨hline, hstate⟩ := Prod.mk.inj hstate
  obtain ⟨hqueue, hstate⟩ := Prod.mk.inj hstate
  obtain ⟨hfinished, hidle⟩ := Prod.mk.inj hstate
  obtain ⟨hsender, hmain⟩ := Bool.and_eq_true_iff.mp hidle
  have hread : g.line = Dongle.init.line sensedEvents := beq_iff_eq.mp hline
  obtain ⟨⟨e, ok⟩, hone, hrow⟩ := List.map_eq_singleton_iff.mp hfinished
  obtain ⟨rfl, hrow⟩ := Prod.mk.inj hrow
  obtain ⟨q, hq⟩ := Option.isSome_iff_exists.mp hrow
  let p := Gateway.publishOf format sampleSite e
  have hp : g.published format sampleSite = [p] := by
    rw [Gateway.published, hone]
    rfl
  have hreceived : Ingest.received format p = some ⟨sampleSite, e⟩ := received_publishOf hl e
  obtain ⟨t, hrun, hdone, hempty, hpolled, -, -, -, hreadings⟩ := IngestTask.delivered format
    ReadingPath.sampleAead (s := .start Ingest.sampleStore) Ingest.sampleStore_referenced rfl rfl [p, p]
  change t.polled = [p, p] at hpolled
  have hrows : t.store.readings.length = 1 := by
    have haccepted : Ingest.accepted format ReadingPath.sampleAead Ingest.sampleStore.cache p = some q := by
      rw [Ingest.accepted, hreceived]
      exact hq
    have hnone : Ingest.sampleStore.readings = [] := rfl
    simp [hreadings, haccepted, hnone, IngestTask.start, KeyedRows.insertNew]
  let r : Run format ReadingPath.sampleAead sampleSite ReadingPath.timestampRange d g
      Ingest.sampleStore t :=
    ⟨sensedEvents, hd, steady_of_written hd (beq_iff_eq.mp hwritten), relayedEvents, hg,
      hread ▸ List.prefix_rfl, hrun, fun q hq => by rw [hpolled] at hq; rw [hp]; simpa using hq⟩
  have hcomplete : r.Complete := by
    refine ⟨List.eq_nil_of_length_eq_zero hheld, hread, ⟨?_, ?_, ?_⟩, fun q hq => ?_, hdone, hempty⟩
    · exact beq_iff_eq.mp hmain
    · exact Option.isNone_iff_eq_none.mp hsender
    · exact List.eq_nil_of_length_eq_zero hqueue
    · rw [hp] at hq
      rw [hpolled]
      exact List.mem_cons_of_mem _ hq
  obtain ⟨-, hunique, -, -, hstored⟩ := Run.stores hl Ingest.sampleStore_unique r
  refine ⟨format, d, g, t, r, hcomplete, congrArg List.length hpolled, hforwarded, hrows, hunique, ?_⟩
  intro packet hpacket
  refine (hstored hcomplete packet hpacket).imp_right fun h => h.imp_right ?_
  rintro ⟨f, hf, henvelop, hoffered⟩
  exact ⟨f, hf, henvelop, fun hok => (hoffered hok).1⟩

end Relay

end Homescope
