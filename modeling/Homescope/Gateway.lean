import Homescope.BleScan
import Homescope.Ingest

/-! The gateway process (`gateway/src/main.rs`): the main task that reads the
serial line, the task that publishes, and the bounded channel between them. -/

namespace Homescope

open Commands Frame Scanning

/-- The main task waits in `frames.next()`, which decodes its buffer before it
reads more if it is `readable`, or for room in the channel. -/
inductive GatewayMain
  | next (readable : Bool)
  | send (envelope : ObservationEnvelope)
  | stopped
  deriving DecidableEq

/-- `line` is what was read in all, `stamped` lists the observations with the
time that each was taken up at, and `finished` the envelopes that the sender is
done with, each with whether the client took its publish; no code reads them. -/
structure Gateway where
  main : GatewayMain
  src : List Byte
  channel : Channel ObservationEnvelope 1024
  sender : Option ObservationEnvelope
  line : List Byte
  stamped : List (SensorObservation × DateTime)
  finished : List (ObservationEnvelope × Bool)

/-- `turn` is the decoder's turn, with the time of day. -/
inductive GatewayEvent
  | read (chunk : List Byte)
  | eof
  | turn (now : DateTime)
  | send
  | receive
  | publish (ok : Bool)

namespace Gateway

def init : Gateway := ⟨.next true, [], .empty, none, [], [], []⟩

def publishOf (format : TextFormat) (site : Site) (envelope : ObservationEnvelope) : Publish where
  topic := (EnvelopeTopic.mk site envelope.deviceAddr).toText
  payload := envelope.serialize format

/-- What the client was given, in order. -/
def published (s : Gateway) (format : TextFormat) (site : Site) : List Publish :=
  (s.finished.filter Prod.snd).map fun e => publishOf format site e.1

/-- The body of the loop for one item of the stream. -/
def onFrame (s : Gateway) (inRange : DateTime → Bool) (now : DateTime) (src payload : List Byte) :
    Gateway :=
  match SensorObservation.parse payload with
  | .error _ => { s with src }
  | .ok observation =>
    match ObservationEnvelope.fromObservation inRange observation now with
    | none => { s with main := .stopped }
    | some envelope =>
      { s with main := .send envelope, src, stamped := s.stamped ++ [(observation, now)] }

variable (crc16 : List Byte → BitVec 16) (inRange : DateTime → Bool)

def next (s : Gateway) : GatewayEvent → Option Gateway
  | .read chunk => match s.main with
    | .next false =>
      if chunk = [] then none
      else some { s with main := .next true, src := s.src ++ chunk, line := s.line ++ chunk }
    | _ => none
  | .eof => match s.main with
    | .next false => some { s with main := .stopped }
    | _ => none
  | .turn now => match s.main with
    | .next true => match FrameDecoder.decode crc16 s.src with
      | none => some { s with main := .stopped }
      | some (none, src) => some { s with main := .next false, src }
      | some (some payload, src) => some (s.onFrame inRange now src payload)
    | _ => none
  | .send => match s.main with
    | .send envelope =>
      if s.channel.isFull then none
      else some { s with main := .next true, channel := s.channel.trySend envelope }
    | _ => none
  | .receive => match s.sender, s.channel.tryReceive with
    | none, (some envelope, channel) => some { s with sender := some envelope, channel }
    | _, _ => none
  | .publish ok => match s.sender with
    | some envelope =>
      some { s with sender := none, finished := s.finished ++ [(envelope, ok)] }
    | none => none

def run (s : Gateway) : List GatewayEvent → Option Gateway
  | [] => some s
  | e :: events => (s.next crc16 inRange e).bind fun t => t.run events

/-- The envelope in the main task's hands. -/
def held : GatewayMain → List ObservationEnvelope
  | .send envelope => [envelope]
  | _ => []

/-- What an event does. -/
inductive Step : Gateway → GatewayEvent → Gateway → Prop
  | read {s : Gateway} {chunk : List Byte} (hs : s.main = .next false) :
      Step s (.read chunk)
        { s with main := .next true, src := s.src ++ chunk, line := s.line ++ chunk }
  | stopped {s : Gateway} {e : GatewayEvent} (hs : held s.main = []) :
      Step s e { s with main := .stopped }
  | waiting {s : Gateway} {now : DateTime} {src : List Byte} (hs : s.main = .next true)
      (h : FrameDecoder.decode crc16 s.src = some (none, src)) :
      Step s (.turn now) { s with main := .next false, src }
  | invalid {s : Gateway} {now : DateTime} {src payload : List Byte} {e : Truncated}
      (hs : s.main = .next true) (h : FrameDecoder.decode crc16 s.src = some (some payload, src))
      (hparse : SensorObservation.parse payload = .error e) : Step s (.turn now) { s with src }
  | observed {s : Gateway} {now : DateTime} {src payload : List Byte}
      {observation : SensorObservation} {envelope : ObservationEnvelope}
      (hs : s.main = .next true) (h : FrameDecoder.decode crc16 s.src = some (some payload, src))
      (hparse : SensorObservation.parse payload = .ok observation)
      (henvelope : ObservationEnvelope.fromObservation inRange observation now = some envelope) :
      Step s (.turn now)
        { s with main := .send envelope, src, stamped := s.stamped ++ [(observation, now)] }
  | send {s : Gateway} {envelope : ObservationEnvelope} (hs : s.main = .send envelope)
      (h : s.channel.queue.length < 1024) :
      Step s .send { s with main := .next true, channel := s.channel.trySend envelope }
  | receive {s : Gateway} {envelope : ObservationEnvelope}
      {channel : Channel ObservationEnvelope 1024} (hs : s.sender = none)
      (h : s.channel.tryReceive = (some envelope, channel)) :
      Step s .receive { s with sender := some envelope, channel }
  | publish {s : Gateway} {envelope : ObservationEnvelope} {ok : Bool}
      (hs : s.sender = some envelope) :
      Step s (.publish ok) { s with sender := none, finished := s.finished ++ [(envelope, ok)] }

variable {crc16 inRange}

theorem onFrame_step {s : Gateway} {now : DateTime} {src payload : List Byte}
    (hs : s.main = .next true) (h : FrameDecoder.decode crc16 s.src = some (some payload, src)) :
    Step crc16 inRange s (.turn now) (s.onFrame inRange now src payload) := by
  rw [onFrame]
  cases hparse : SensorObservation.parse payload with
  | error e => exact .invalid hs h hparse
  | ok observation =>
    dsimp only
    cases henvelope : ObservationEnvelope.fromObservation inRange observation now with
    | none => exact .stopped (by rw [hs]; rfl)
    | some envelope => exact .observed hs h hparse henvelope

theorem next_step {s t : Gateway} {e : GatewayEvent} (h : s.next crc16 inRange e = some t) :
    Step crc16 inRange s e t := by
  cases e with
  | read chunk =>
    simp only [next] at h
    split at h
    · rename_i hs
      split at h <;> cases h
      exact .read hs
    · cases h
  | eof =>
    simp only [next] at h
    split at h <;> cases h
    rename_i hs
    exact .stopped (by rw [hs]; rfl)
  | turn now =>
    simp only [next] at h
    split at h
    · rename_i hs
      split at h <;> cases h
      · exact .stopped (by rw [hs]; rfl)
      · rename_i hdecode
        exact .waiting hs hdecode
      · rename_i hdecode
        exact onFrame_step hs hdecode
    · cases h
  | send =>
    simp only [next] at h
    split at h
    · rename_i envelope hs
      split at h <;> cases h
      rename_i hfull
      have hne : s.channel.queue.length ≠ 1024 := fun he => hfull (s.channel.isFull_eq.mpr he)
      have hle := s.channel.length_le
      exact .send hs (by omega)
    · cases h
  | receive =>
    simp only [next] at h
    split at h <;> cases h
    rename_i hs hreceive
    exact .receive hs hreceive
  | publish ok =>
    simp only [next] at h
    split at h <;> cases h
    rename_i hs
    exact .publish hs

/-! ### What a run keeps -/

def observationOf (payload : List Byte) : Option SensorObservation :=
  (SensorObservation.parse payload).toOption

/-- The envelope of an observation that was taken up at a time. -/
def envelopeOf (inRange : DateTime → Bool) (o : SensorObservation × DateTime) :
    Option ObservationEnvelope :=
  ObservationEnvelope.fromObservation inRange o.1 o.2

/-- Every envelope is where its turn has brought it, and the observations are
those of the frames so far: what the rest of the buffer scans to comes after. -/
structure Inv (crc16 : List Byte → BitVec 16) (inRange : DateTime → Bool) (s : Gateway) : Prop where
  relayed : (s.finished.map Prod.fst ++ s.sender.toList ++ s.channel.queue ++ held s.main).map some =
    s.stamped.map (envelopeOf inRange)
  scanned : ∃ payloads : List (List Byte), s.stamped.map Prod.fst = payloads.filterMap observationOf ∧
    ∀ bs r, Scans (judge crc16 id) s.src bs r →
      Scans (judge crc16 fun _ => 1) s.line (payloads ++ bs) r
  waits : s.main = .next false → judge crc16 id s.src = .wait

theorem inv_init : Inv crc16 inRange init where
  relayed := rfl
  scanned := by
    refine ⟨[], rfl, fun bs r hscan => ?_⟩
    have hsingle := hscan.toSingle judge_lawful
    rwa [single_judge] at hsingle
  waits := by rintro ⟨⟩

theorem waits_of_decode {src rest : List Byte} (h : FrameDecoder.decode crc16 src = some (none, rest)) :
    Scans (judge crc16 id) src [] rest := by
  obtain ⟨found, r, hr, hscan⟩ :=
    FrameDecoder.decodeLoop_scans (FrameDecoder.bounded_id crc16) src (Nat.lt_succ_self src.length)
  obtain ⟨rfl, rfl⟩ := Prod.mk.inj (Option.some.inj (hr.symm.trans h))
  exact hscan

theorem takes_of_decode {src payload rest : List Byte}
    (h : FrameDecoder.decode crc16 src = some (some payload, rest)) {bs : List (List Byte)}
    {r : List Byte} (hscan : Scans (judge crc16 id) rest bs r) :
    Scans (judge crc16 id) src (payload :: bs) r := by
  obtain ⟨found, r', hr, hfound⟩ :=
    FrameDecoder.decodeLoop_scans (FrameDecoder.bounded_id crc16) src (Nat.lt_succ_self src.length)
  obtain ⟨rfl, rfl⟩ := Prod.mk.inj (Option.some.inj (hr.symm.trans h))
  exact hfound.2 bs r hscan

/-- More of the line goes on where the buffer waited. -/
theorem scans_read {src line chunk : List Byte} {payloads : List (List Byte)}
    (hwait : judge crc16 id src = .wait)
    (hline : ∀ bs r, Scans (judge crc16 id) src bs r →
      Scans (judge crc16 fun _ => 1) line (payloads ++ bs) r)
    {bs : List (List Byte)} {r : List Byte} (h : Scans (judge crc16 id) (src ++ chunk) bs r) :
    Scans (judge crc16 fun _ => 1) (line ++ chunk) (payloads ++ bs) r := by
  have hfirst := hline [] src (.wait hwait)
  have hsingle := h.toSingle judge_lawful
  rw [List.append_nil, ← single_judge id] at hfirst
  rw [← single_judge id]
  exact hfirst.append judge_lawful hsingle

theorem Step.inv {s t : Gateway} {e : GatewayEvent} (ht : Step crc16 inRange s e t)
    (h : s.Inv crc16 inRange) : t.Inv crc16 inRange := by
  obtain ⟨hrelayed, hscanned, hwaits⟩ := h
  obtain ⟨payloads, hstamped, hline⟩ := hscanned
  cases ht with
  | read hs =>
    rw [hs] at hrelayed
    exact ⟨hrelayed, ⟨payloads, hstamped, fun bs r hscan => scans_read (hwaits hs) hline hscan⟩,
      by rintro ⟨⟩⟩
  | stopped hs =>
    rw [hs] at hrelayed
    exact ⟨hrelayed, ⟨payloads, hstamped, hline⟩, by rintro ⟨⟩⟩
  | @waiting now src hs hdecode =>
    rw [hs] at hrelayed
    have hscan := waits_of_decode hdecode
    refine ⟨hrelayed, ⟨payloads, hstamped, fun bs r hrest => ?_⟩, fun _ => hscan.waits⟩
    obtain ⟨rfl, rfl⟩ := hrest.unique (.wait hscan.waits)
    exact hline [] r hscan
  | @invalid now src payload e hs hdecode hparse =>
    rw [hs] at hrelayed
    refine ⟨by rwa [hs], ⟨payloads ++ [payload], ?_, fun bs r hrest => ?_⟩, by
      intro hwait
      cases hs.symm.trans hwait⟩
    · rw [List.filterMap_append, hstamped]
      simp [observationOf, hparse, Except.toOption]
    · rw [List.append_assoc]
      exact hline _ r (takes_of_decode hdecode hrest)
  | @observed now src payload observation envelope hs hdecode hparse henvelope =>
    rw [hs] at hrelayed
    simp only [held, List.append_nil] at hrelayed
    refine ⟨?_, ⟨payloads ++ [payload], ?_, fun bs r hrest => ?_⟩, by rintro ⟨⟩⟩
    · rw [held, List.map_append, hrelayed, List.map_append]
      exact congrArg (_ ++ [·]) henvelope.symm
    · rw [List.filterMap_append, List.map_append, hstamped]
      simp [observationOf, hparse, Except.toOption]
    · rw [List.append_assoc]
      exact hline _ r (takes_of_decode hdecode hrest)
  | @send envelope hs hroom =>
    rw [hs] at hrelayed
    refine ⟨?_, ⟨payloads, hstamped, hline⟩, by rintro ⟨⟩⟩
    rw [Channel.trySend_queue hroom]
    simpa [held] using hrelayed
  | receive hs hreceive =>
    refine ⟨?_, ⟨payloads, hstamped, hline⟩, hwaits⟩
    rw [hs, Channel.queue_of_tryReceive hreceive] at hrelayed
    rw [Option.toList_some]
    simpa using hrelayed
  | publish hs =>
    refine ⟨?_, ⟨payloads, hstamped, hline⟩, hwaits⟩
    rw [hs] at hrelayed
    simpa using hrelayed

theorem run_inv {s t : Gateway} {events : List GatewayEvent} (h : s.Inv crc16 inRange)
    (ht : s.run crc16 inRange events = some t) : t.Inv crc16 inRange := by
  induction events generalizing s with
  | nil =>
    cases ht
    exact h
  | cons e events ih =>
    obtain ⟨u, hu, ht⟩ := Option.bind_eq_some_iff.mp ht
    exact ih ((next_step hu).inv h) ht

/-- What was taken up is what the line scans to so far, and all of it once the
decoder waits. -/
theorem Inv.stamped_of_scans {s : Gateway} (h : s.Inv crc16 inRange) {all : List (List Byte)}
    {rest : List Byte} (hall : Scans (judge crc16 fun _ => 1) s.line all rest) :
    s.stamped.map Prod.fst <+: all.filterMap observationOf ∧
    (s.main = .next false → s.stamped.map Prod.fst = all.filterMap observationOf) := by
  obtain ⟨payloads, hstamped, hline⟩ := h.scanned
  obtain ⟨bs, r, -, hscan⟩ := FrameDecoder.drain_scans (FrameDecoder.bounded_id crc16) s.src
    (Nat.lt_succ_self s.src.length)
  obtain ⟨rfl, rfl⟩ := (hline bs r hscan).unique hall
  refine ⟨?_, fun hmain => ?_⟩
  · rw [hstamped, List.filterMap_append]
    exact List.prefix_append _ _
  · obtain ⟨rfl, -⟩ := hscan.unique (.wait (h.waits hmain))
    rw [hstamped, List.append_nil]

/-! ### Draining -/

/-- Nothing is left to do until the line brings more. -/
structure Idle (s : Gateway) : Prop where
  main : s.main = .next false
  sender : s.sender = none
  channel : s.channel.queue = []

/-- Some events, none of which reads, lead from one state to another. -/
def Drains (crc16 : List Byte → BitVec 16) (inRange : DateTime → Bool) (s t : Gateway) : Prop :=
  ∃ events, s.run crc16 inRange events = some t ∧ t.line = s.line ∧
    ∀ e ∈ t.finished, e ∈ s.finished ∨ e.2 = true

theorem Drains.refl (s : Gateway) : Drains crc16 inRange s s := ⟨[], rfl, rfl, fun _ h => .inl h⟩

theorem run_append (s : Gateway) (events more : List GatewayEvent) :
    s.run crc16 inRange (events ++ more) =
      (s.run crc16 inRange events).bind fun t => t.run crc16 inRange more := by
  induction events generalizing s with
  | nil => rfl
  | cons e events ih =>
    rw [List.cons_append, run, run, Option.bind_assoc]
    exact congrArg _ (funext ih)

theorem Drains.trans {s t u : Gateway} (h : Drains crc16 inRange s t) (h' : Drains crc16 inRange t u) :
    Drains crc16 inRange s u := by
  obtain ⟨events, hrun, hline, hfinished⟩ := h
  obtain ⟨more, hrun', hline', hfinished'⟩ := h'
  refine ⟨events ++ more, ?_, hline'.trans hline, fun e he => ?_⟩
  · rw [run_append, hrun, Option.bind_some, hrun']
  · rcases hfinished' e he with ht | hok
    · exact hfinished e ht
    · exact .inr hok

theorem Drains.single {s t : Gateway} {e : GatewayEvent} (h : s.next crc16 inRange e = some t)
    (hline : t.line = s.line) (hfinished : ∀ e ∈ t.finished, e ∈ s.finished ∨ e.2 = true) :
    Drains crc16 inRange s t :=
  ⟨[e], by rw [run, h]; rfl, hline, hfinished⟩

theorem drains_publish {s : Gateway} {envelope : ObservationEnvelope} (h : s.sender = some envelope) :
    Drains crc16 inRange s { s with sender := none, finished := s.finished ++ [(envelope, true)] } := by
  refine .single (e := .publish true) (by simp only [next, h]) rfl fun e he => ?_
  rcases List.mem_append.mp he with hold | hnew
  · exact .inl hold
  · exact .inr (by rw [List.mem_singleton.mp hnew])

variable (crc16 inRange) in
/-- The sender empties the channel by itself. -/
theorem drains_channel (s : Gateway) : ∃ t, Drains crc16 inRange s t ∧ t.main = s.main ∧ t.src = s.src ∧
    t.sender = none ∧ t.channel.queue = [] := by
  have hfree : ∀ (queue : List ObservationEnvelope) (s : Gateway), s.sender = none →
      s.channel.queue = queue → ∃ t, Drains crc16 inRange s t ∧ t.main = s.main ∧ t.src = s.src ∧
        t.sender = none ∧ t.channel.queue = [] := by
    intro queue
    induction queue with
    | nil => exact fun s hsender hqueue => ⟨s, .refl s, rfl, rfl, hsender, hqueue⟩
    | cons envelope queue ih =>
      intro s hsender hqueue
      obtain ⟨channel, hreceive, hrest⟩ := Channel.tryReceive_of_queue hqueue
      have htake : Drains crc16 inRange s { s with sender := some envelope, channel } :=
        .single (e := .receive) (by simp only [next, hsender, hreceive]) rfl fun _ h => .inl h
      obtain ⟨t, hdrains, ht⟩ := ih
        { s with sender := none, channel, finished := s.finished ++ [(envelope, true)] } rfl hrest
      exact ⟨t, htake.trans ((drains_publish rfl).trans hdrains), ht⟩
  cases hsender : s.sender with
  | none => exact hfree _ s hsender rfl
  | some envelope =>
    obtain ⟨t, hdrains, ht⟩ := hfree _
      { s with sender := none, finished := s.finished ++ [(envelope, true)] } rfl rfl
    exact ⟨t, (drains_publish hsender).trans hdrains, ht⟩

theorem shorter_of_decode {src payload rest : List Byte}
    (h : FrameDecoder.decode crc16 src = some (some payload, rest)) : rest.length < src.length := by
  obtain ⟨found, r, hr, hfound⟩ :=
    FrameDecoder.decodeLoop_scans (FrameDecoder.bounded_id crc16) src (Nat.lt_succ_self src.length)
  obtain ⟨rfl, rfl⟩ := Prod.mk.inj (Option.some.inj (hr.symm.trans h))
  exact hfound.1

variable (crc16 inRange) in
theorem drains_send {s : Gateway} {envelope : ObservationEnvelope} (hs : s.main = .send envelope) :
    ∃ t, Drains crc16 inRange s t ∧ t.main = .next true ∧ t.src = s.src := by
  obtain ⟨t, hdrains, hmain, hsrc, -, hqueue⟩ := drains_channel crc16 inRange s
  rw [hs] at hmain
  have hroom : t.channel.isFull = false := by
    rw [Channel.isFull, hqueue]
    rfl
  refine ⟨{ t with main := .next true, channel := t.channel.trySend envelope }, ?_, rfl, hsrc⟩
  exact hdrains.trans (.single (e := .send) (by simp [next, hmain, hroom]) rfl fun _ h => .inl h)

/-- What a readable buffer still holds is decoded and sent on. -/
theorem drains_next {now : DateTime}
    (hnow : ∀ ageMs : Word, inRange (now - milliseconds ageMs.toNat) = true) (s : Gateway)
    (hs : s.main = .next true) : ∃ t, Drains crc16 inRange s t ∧ t.main = .next false := by
  induction hn : s.src.length using Nat.strong_induction_on generalizing s with
  | _ n ih =>
    subst hn
    have hturn {found : Option (List Byte)} {rest : List Byte}
        (h : FrameDecoder.decode crc16 s.src = some (found, rest)) :
        s.next crc16 inRange (.turn now) = match found with
          | none => some { s with main := .next false, src := rest }
          | some payload => some (s.onFrame inRange now rest payload) := by
      simp only [next, hs, h]
      cases found <;> rfl
    obtain ⟨found, rest, hdecode, -⟩ :=
      FrameDecoder.decodeLoop_scans (FrameDecoder.bounded_id crc16) s.src (Nat.lt_succ_self s.src.length)
    cases found with
    | none => exact ⟨_, .single (hturn hdecode) rfl fun _ h => .inl h, rfl⟩
    | some payload =>
      have hshorter := shorter_of_decode hdecode
      have hframe := hturn hdecode
      simp only [onFrame] at hframe
      cases hparse : SensorObservation.parse payload with
      | error e =>
        rw [hparse] at hframe
        obtain ⟨t, hdrains, ht⟩ := ih rest.length hshorter { s with src := rest } hs rfl
        have hfirst := Drains.single hframe rfl fun _ h => .inl h
        exact ⟨t, hfirst.trans hdrains, ht⟩
      | ok observation =>
        rw [hparse] at hframe
        simp only [ObservationEnvelope.fromObservation, hnow, if_true] at hframe
        have hfirst := Drains.single hframe rfl fun _ h => .inl h
        obtain ⟨u, hsend, hmain, hsrc⟩ := drains_send crc16 inRange
          (s := { s with
            main := .send ⟨observation.deviceAddr, observation.rssi,
              now - milliseconds observation.ageMs.toNat, observation.packet⟩
            src := rest
            stamped := s.stamped ++ [(observation, now)] }) rfl
        obtain ⟨t, hdrains, ht⟩ := ih u.src.length (by rw [hsrc]; exact hshorter) u hmain rfl
        exact ⟨t, (hfirst.trans hsend).trans hdrains, ht⟩

/-- The process does not block: whatever it holds it can relay without reading on. -/
theorem drains_idle {now : DateTime}
    (hnow : ∀ ageMs : Word, inRange (now - milliseconds ageMs.toNat) = true) (s : Gateway)
    (hs : s.main ≠ .stopped) : ∃ t, Drains crc16 inRange s t ∧ t.Idle := by
  have hwaiting : ∃ t, Drains crc16 inRange s t ∧ t.main = .next false := by
    cases hmain : s.main with
    | stopped => exact absurd hmain hs
    | next readable =>
      cases readable with
      | false => exact ⟨s, .refl s, hmain⟩
      | true => exact drains_next hnow s hmain
    | send envelope =>
      obtain ⟨u, hsend, hu, -⟩ := drains_send crc16 inRange hmain
      obtain ⟨t, hdrains, ht⟩ := drains_next hnow u hu
      exact ⟨t, hsend.trans hdrains, ht⟩
  obtain ⟨u, hfirst, hu⟩ := hwaiting
  obtain ⟨t, hdrains, hmain, -, hsender, hqueue⟩ := drains_channel crc16 inRange u
  exact ⟨t, hfirst.trans hdrains, hmain.trans hu, hsender, hqueue⟩

/-! ### What is published -/

theorem decodePublish_publishOf {format : TextFormat} (hl : format.Lawful) (site : Site)
    (envelope : ObservationEnvelope) :
    Ingest.decodePublish format (publishOf format site envelope).topic
      (publishOf format site envelope).payload = .ok ⟨site, envelope⟩ := by
  have htopic := EnvelopeTopic.fromStr_toText ⟨site, envelope.deviceAddr⟩
  simp only [Ingest.decodePublish, publishOf, htopic, ObservationEnvelope.deserialize_serialize hl]
  exact if_neg fun hne => hne rfl

/-- In every interleaving of the two tasks the observations of the line are
taken up in order, whatever reads it comes in, and each envelope is relayed
once: it is finished, with the sender, in the channel or in the main task's
hands. What is published decodes to its envelope, under this gateway's site. -/
theorem relays {format : TextFormat} (hl : format.Lawful) (site : Site) {t : Gateway}
    {events : List GatewayEvent} (ht : init.run crc16 inRange events = some t) :
    (∃ payloads rest, FrameDecoder.receive (FrameDecoder.decode crc16) [] [t.line] =
        some (payloads, rest) ∧
      t.stamped.map Prod.fst <+: payloads.filterMap observationOf ∧
      (t.main = .next false → t.stamped.map Prod.fst = payloads.filterMap observationOf)) ∧
    (t.finished.map Prod.fst ++ t.sender.toList ++ t.channel.queue ++ held t.main).map some =
      t.stamped.map (envelopeOf inRange) ∧
    t.stamped.length ≤ t.finished.length + 1026 ∧
    (t.published format site).map (fun p => Ingest.decodePublish format p.topic p.payload) =
      (t.finished.filter Prod.snd).map (fun e => .ok ⟨site, e.1⟩) ∧
    (t.main ≠ .stopped → ∀ now : DateTime,
      (∀ ageMs : Word, inRange (now - milliseconds ageMs.toNat) = true) →
        ∃ u, Drains crc16 inRange t u ∧ u.Idle) := by
  have hinv := run_inv inv_init ht
  refine ⟨?_, hinv.relayed, ?_, ?_, fun hmain now hnow => drains_idle hnow t hmain⟩
  · obtain ⟨all, rest, hall, hreceive, -⟩ := FrameDecoder.receive_single crc16 [] parse_nil [t.line]
    rw [List.nil_append, List.flatten_singleton] at hall
    exact ⟨all, rest, hreceive, hinv.stamped_of_scans hall⟩
  · have hlength := congrArg List.length hinv.relayed
    have hchannel := t.channel.length_le
    have hheld : (held t.main).length ≤ 1 := by cases t.main <;> simp [held]
    have hsender : t.sender.toList.length ≤ 1 := by cases t.sender <;> simp
    simp only [List.length_map, List.length_append] at hlength
    omega
  · rw [published, List.map_map]
    exact List.map_congr_left fun e _ => decodePublish_publishOf hl site e.1

/-- A frame that comes in two reads is published. -/
def sampleEvents : List GatewayEvent :=
  [.turn 0, .read (FrameDecoder.observedFrame.take 7), .turn 1, .read (FrameDecoder.observedFrame.drop 7),
    .turn 2000000000, .send, .turn 3, .receive, .publish true]

theorem relays_sample : ∃ (format : TextFormat) (site : Site) (t : Gateway),
    init.run crc16IbmSdlc ReadingPath.timestampRange sampleEvents = some t ∧ t.finished.length = 1 ∧
    (t.published format site).map (fun p => Ingest.decodePublish format p.topic p.payload) =
      (t.finished.filter Prod.snd).map (fun e => .ok ⟨site, e.1⟩) := by
  obtain ⟨format, hl, -⟩ := ReadingPath.exists_format
  have hrun : (init.run crc16IbmSdlc ReadingPath.timestampRange sampleEvents).map
      (·.finished.length) = some 1 := by decide +kernel
  obtain ⟨t, ht, hone⟩ := Option.map_eq_some_iff.mp hrun
  exact ⟨format, ⟨"odin", by decide, List.all_eq_true.mp (by decide)⟩, t, ht, hone,
    (relays hl _ ht).2.2.2.1⟩

end Gateway

end Homescope
