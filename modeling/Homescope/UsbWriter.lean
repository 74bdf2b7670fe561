import Homescope.BleScan
import Homescope.FrameRoundTrip

/-! The receiver's USB task (`firmware/receiver/src/main.rs`), which empties the
backlog onto the link while the host comes and goes. -/

namespace Homescope

/-- `TICK_HZ` of the time driver. -/
def tickHz : Nat := 32768

namespace UsbWriter

def maxPacketSize : Nat := 64

/-- Where the task waits. While it writes it holds a packet, the chunks that the
link took and those it did not. -/
inductive Await
  | connection
  | dtr
  | settle
  | packet
  | write (packet : ScannedPacket) (done todo : List (List Byte))

/-- `chunks`, with no more rounds than there are bytes. -/
def chunks (size : Nat) : Nat → List Byte → List (List Byte)
  | 0, _ => []
  | n + 1, bytes =>
    if bytes.isEmpty then [] else bytes.take size :: chunks size n (bytes.drop size)

/-- What is written for a frame: an empty packet ends one that fills its last. -/
def usbPackets (frame : List Byte) : List (List Byte) :=
  chunks maxPacketSize frame.length frame ++ if frame.length % maxPacketSize = 0 then [[]] else []

def observe (now : Nat) (packet : ScannedPacket) : SensorObservation where
  deviceAddr := packet.deviceAddr
  rssi := packet.rssi
  ageMs :=
    let ageMs := (now - packet.capturedAt) * 1000 / tickHz
    if ageMs < 2 ^ 32 then BitVec.ofNat 32 ageMs else BitVec.allOnes 32
  packet := packet.packet

def encodeFrame (now : Nat) (packet : ScannedPacket) : Option (List Byte) :=
  match Frame.encode crc16IbmSdlc (List.replicate Frame.maxLen 0) (observe now packet) with
  | .error _ => none
  | .ok (buffer, frameLen) => some (buffer.take frameLen)

/-- The inner loop from the packet it received to where it waits next. -/
def onPacket (dtr : Bool) (now : Nat) (packet : ScannedPacket) : Await :=
  if !dtr then .connection
  else match encodeFrame now packet with
    | none => .packet
    | some frame => .write packet [] (usbPackets frame)

theorem flatten_chunks {size : Nat} (hsize : 0 < size) {n : Nat} {bytes : List Byte}
    (h : bytes.length ≤ n) : (chunks size n bytes).flatten = bytes := by
  induction n generalizing bytes with
  | zero =>
    rw [List.eq_nil_of_length_eq_zero (Nat.le_zero.mp h)]
    rfl
  | succ n ih =>
    cases bytes with
    | nil => rfl
    | cons byte bytes =>
      have hrest : ((byte :: bytes).drop size).length ≤ n := by
        rw [List.length_drop]
        omega
      rw [chunks, if_neg (by simp), List.flatten_cons, ih hrest, List.take_append_drop]

theorem flatten_usbPackets (frame : List Byte) : (usbPackets frame).flatten = frame := by
  rw [usbPackets, List.flatten_append, flatten_chunks (by decide) le_rfl]
  split <;> simp

theorem usbPackets_ne_nil (frame : List Byte) : usbPackets frame ≠ [] := by
  cases frame with
  | nil => decide
  | cons byte frame => simp [usbPackets, chunks]

/-- Every packet that fits one advertising structure fits a frame. -/
theorem encodeFrame_eq (now : Nat) (packet : ScannedPacket) :
    encodeFrame now packet = some (Frame.frameOf crc16IbmSdlc (observe now packet).bytes) := by
  have hroom : Frame.overhead + (observe now packet).bytes.length ≤ Frame.maxLen := by
    have hpacket := packet.packet_le
    rw [SensorObservation.bytes_length]
    change 6 + (11 + packet.packet.length) ≤ 1030
    change _ ≤ 252 at hpacket
    omega
  unfold encodeFrame
  generalize hbuffer : List.replicate Frame.maxLen (0 : Byte) = buffer
  rw [← @List.length_replicate _ Frame.maxLen (0 : Byte), hbuffer] at hroom
  obtain ⟨out, hencode, -, htake⟩ :=
    Frame.encode_of_writes crc16IbmSdlc (Frame.writes_observation (observe now packet)) hroom
  rw [hencode]
  exact congrArg some htake

/-- The error path of the encoder is never taken. -/
theorem onPacket_eq (dtr : Bool) (now : Nat) (packet : ScannedPacket) : onPacket dtr now packet =
    if dtr then
      .write packet [] (usbPackets (Frame.frameOf crc16IbmSdlc (observe now packet).bytes))
    else .connection := by
  cases dtr
  · rfl
  · simp [onPacket, encodeFrame_eq]

end UsbWriter

/-- The receiver on its link. `displaced` lists the packets that the scan threw
out of a full backlog, `written` those that the task finished, each with what
the link took of it. -/
structure Dongle where
  receiver : Receiver
  connected : Bool
  dtr : Bool
  task : UsbWriter.Await
  displaced : List ScannedPacket
  written : List (ScannedPacket × List Byte)

/-- `proceed` is the end of what the task waits for; in a write that is one more
chunk taken. The last two end a write otherwise. -/
inductive LinkEvent
  | report (r : Report)
  | connection (up : Bool)
  | control (dtr : Bool)
  | proceed (now : Nat)
  | writeError
  | dtrOff

namespace Dongle

open UsbWriter

def init : Dongle := ⟨.init, false, false, .connection, [], []⟩

/-- The oldest packet, if the backlog is full when another one is sent. -/
def displacedBy (s : Receiver) (r : Report) : Option ScannedPacket :=
  match (s.handler.onReport r).1 with
  | none => none
  | some _ => if s.handler.channel.isFull then s.handler.channel.queue.head? else none

def proceed (s : Dongle) (now : Nat) : Option Dongle :=
  match s.task with
  | .connection => if s.connected then some { s with task := .dtr } else none
  | .dtr => if s.dtr then some { s with task := .settle } else none
  | .settle => some { s with task := .packet }
  | .packet =>
    match s.receiver.handler.channel.tryReceive with
    | (none, _) => none
    | (some packet, channel) => some
      { s with
        receiver := { s.receiver with
          handler := { s.receiver.handler with channel }
          received := s.receiver.received ++ [packet] }
        task := onPacket s.dtr now packet }
  | .write _ _ [] => none
  | .write packet done [chunk] =>
    if s.connected then some
      { s with task := .packet, written := s.written ++ [(packet, (done ++ [chunk]).flatten)] }
    else none
  | .write packet done (chunk :: todo) =>
    if s.connected then some { s with task := .write packet (done ++ [chunk]) todo } else none

/-- `none` is an event that cannot happen there. -/
def next (s : Dongle) : LinkEvent → Option Dongle
  | .report r => some
    { s with
      receiver := s.receiver.report r
      displaced := s.displaced ++ (displacedBy s.receiver r).toList }
  | .connection up => some { s with connected := up }
  | .control dtr => some { s with dtr }
  | .proceed now => s.proceed now
  | .writeError => match s.task with
    | .write .. => some { s with task := .connection }
    | _ => none
  | .dtrOff => match s.task with
    | .write .. => if s.dtr then none else some { s with task := .connection }
    | _ => none

/-- The state after some events. -/
def run (s : Dongle) : List LinkEvent → Option Dongle
  | [] => some s
  | e :: events => (s.next e).bind fun t => t.run events

/-! ### One event -/

def held : Await → List ScannedPacket
  | .write packet _ _ => [packet]
  | _ => []

/-- What one event can do, and where. -/
inductive Step : Dongle → LinkEvent → Dongle → Prop
  | report {s : Dongle} (r : Report) : Step s (.report r)
      { s with
        receiver := s.receiver.report r
        displaced := s.displaced ++ (displacedBy s.receiver r).toList }
  | connection {s : Dongle} (up : Bool) : Step s (.connection up) { s with connected := up }
  | control {s : Dongle} (dtr : Bool) : Step s (.control dtr) { s with dtr }
  | waited {s : Dongle} {now : Nat} {task : Await} (hs : held s.task = []) (hpacket : s.task ≠ .packet)
      (htask : held task = []) : Step s (.proceed now) { s with task }
  | received {s : Dongle} {now : Nat} {packet : ScannedPacket} {channel : ScannedPacketChannel}
      (hs : s.task = .packet)
      (h : s.receiver.handler.channel.tryReceive = (some packet, channel)) : Step s (.proceed now)
      { s with
        receiver := { s.receiver with
          handler := { s.receiver.handler with channel }
          received := s.receiver.received ++ [packet] }
        task := onPacket s.dtr now packet }
  | wrote {s : Dongle} {now : Nat} {packet : ScannedPacket} {done : List (List Byte)}
      {chunk : List Byte} (hs : s.task = .write packet done [chunk]) (h : s.connected = true) :
      Step s (.proceed now)
      { s with task := .packet, written := s.written ++ [(packet, (done ++ [chunk]).flatten)] }
  | writing {s : Dongle} {now : Nat} {packet : ScannedPacket} {done todo : List (List Byte)}
      {chunk : List Byte} (hs : s.task = .write packet done (chunk :: todo)) (htodo : todo ≠ [])
      (h : s.connected = true) :
      Step s (.proceed now) { s with task := .write packet (done ++ [chunk]) todo }
  | writeError {s : Dongle} {packet : ScannedPacket} {done todo : List (List Byte)}
      (hs : s.task = .write packet done todo) : Step s .writeError { s with task := .connection }
  | dtrOff {s : Dongle} {packet : ScannedPacket} {done todo : List (List Byte)}
      (hs : s.task = .write packet done todo) (h : s.dtr = false) :
      Step s .dtrOff { s with task := .connection }

theorem proceed_step {s t : Dongle} {now : Nat} (h : s.proceed now = some t) :
    Step s (.proceed now) t := by
  rw [proceed.eq_def] at h
  split at h
  · rename_i htask
    split at h <;> cases h
    exact .waited (by rw [htask]; rfl) (by rw [htask]; rintro ⟨⟩) rfl
  · rename_i htask
    split at h <;> cases h
    exact .waited (by rw [htask]; rfl) (by rw [htask]; rintro ⟨⟩) rfl
  · rename_i htask
    cases h
    exact .waited (by rw [htask]; rfl) (by rw [htask]; rintro ⟨⟩) rfl
  · rename_i htask
    split at h
    · cases h
    · rename_i packet channel hreceive
      cases h
      exact .received htask hreceive
  · cases h
  · rename_i packet done chunk htask
    split at h <;> cases h
    rename_i hconnected
    exact .wrote htask hconnected
  · rename_i packet done chunk todo htodo htask
    split at h <;> cases h
    rename_i hconnected
    exact .writing htask (fun hnil => htodo hnil) hconnected

theorem next_step {s t : Dongle} {e : LinkEvent} (h : s.next e = some t) : Step s e t := by
  cases e with
  | report r =>
    cases h
    exact .report r
  | connection up =>
    cases h
    exact .connection up
  | control dtr =>
    cases h
    exact .control dtr
  | proceed now => exact proceed_step h
  | writeError =>
    simp only [next] at h
    split at h <;> cases h
    rename_i htask
    exact .writeError htask
  | dtrOff =>
    simp only [next] at h
    split at h
    · rename_i htask
      split at h <;> cases h
      rename_i hdtr
      exact .dtrOff htask (Bool.eq_false_of_not_eq_true hdtr)
    · cases h

/-! ### What becomes of a packet -/

/-- The link took the whole frame of the packet. -/
def Complete (w : ScannedPacket × List Byte) : Prop :=
  ∃ now, w.2 = Frame.frameOf crc16IbmSdlc (observe now w.1).bytes

/-- Every packet that was sent to the backlog is still in it or in the task's
hands, or was displaced, or was written as a complete frame. -/
structure NoLoss (s : Dongle) : Prop where
  accounted : s.receiver.forwarded.Perm (s.displaced ++ s.written.map Prod.fst ++ held s.task ++
    s.receiver.handler.channel.queue)
  complete : ∀ w ∈ s.written, Complete w

/-- The event takes no packet while DTR is off and breaks off no write. -/
def Steady (s : Dongle) : LinkEvent → Prop
  | .proceed _ => s.task = .packet → s.dtr = true
  | .writeError => False
  | .dtrOff => False
  | _ => True

def SteadyRun (s : Dongle) : List LinkEvent → Prop
  | [] => True
  | e :: events => s.Steady e ∧ ∀ t, s.next e = some t → t.SteadyRun events

/-- The packets of the backlog, with the `lost` ones, each as often as it was
sent. -/
def Accounted (s : Dongle) (lost : List ScannedPacket) : Prop :=
  ∀ p, s.receiver.forwarded.count p = s.displaced.count p + (s.written.map Prod.fst).count p +
    (held s.task).count p + s.receiver.handler.channel.queue.count p + lost.count p

/-- What was written are frames, and what is being written will be one. -/
structure Framed (s : Dongle) : Prop where
  complete : ∀ w ∈ s.written, Complete w
  writing : ∀ packet done todo, s.task = .write packet done todo →
    todo ≠ [] ∧ Complete (packet, (done ++ todo).flatten)

theorem displacedBy_queue (s : Receiver) (r : Report) :
    (displacedBy s r).toList ++ (s.report r).handler.channel.queue =
      s.handler.channel.queue ++ (s.handler.onReport r).1.toList := by
  change (displacedBy s r).toList ++ (s.handler.onReport r).2.channel.queue = _
  cases hp : r.packet with
  | none =>
    have hsame := PacketHandler.onReport_of_none s.handler hp
    simp [displacedBy, hsame]
  | some packet =>
    obtain ⟨-, -, hqueue⟩ :=
      PacketHandler.onReport_of_carries s.handler (Report.packet_eq_some.mp hp)
    cases hsent : (s.handler.onReport r).1 with
    | none =>
      rw [hsent] at hqueue
      simp [displacedBy, hsent, hqueue]
    | some p =>
      rw [hsent] at hqueue
      have hle := s.handler.channel.length_le
      simp only [displacedBy, hsent, hqueue, Option.toList_some, List.rtake, List.length_append,
        List.length_singleton]
      by_cases hfull : s.handler.channel.isFull = true
      · have hlen := s.handler.channel.isFull_eq.mp hfull
        cases hq : s.handler.channel.queue with
        | nil => simp [hq] at hlen
        | cons oldest queue =>
          have hone : (oldest :: queue).length + 1 - 512 = 1 := by
            rw [hq] at hlen
            omega
          rw [hone, if_pos hfull]
          rfl
      · have hlen : s.handler.channel.queue.length ≠ 512 := fun h =>
          hfull (s.handler.channel.isFull_eq.mpr h)
        have hzero : s.handler.channel.queue.length + 1 - 512 = 0 := by omega
        rw [hzero, if_neg hfull]
        rfl

/-- The step law: a steady event loses nothing, any other one the packet that
the task takes or holds. -/
theorem Step.accounted {s t : Dongle} {lost : List ScannedPacket} {e : LinkEvent} (ht : Step s e t)
    (h : s.Accounted lost) :
    s.Steady e ∧ t.Accounted lost ∨ ¬ s.Steady e ∧ ∃ p, t.Accounted (p :: lost) := by
  have hbroken : ∀ packet done todo, s.task = .write packet done todo →
      Accounted { s with task := .connection } (packet :: lost) := by
    intro packet done todo htask p
    have hp := h p
    simp only [htask, held, List.count_cons, List.count_nil] at hp ⊢
    omega
  cases ht with
  | report r =>
    refine .inl ⟨trivial, fun p => ?_⟩
    have hp := h p
    have hcount := congrArg (List.count p) (displacedBy_queue s.receiver r)
    simp only [List.count_append, Receiver.report] at hcount hp ⊢
    omega
  | connection up => exact .inl ⟨trivial, h⟩
  | control dtr => exact .inl ⟨trivial, h⟩
  | waited hs hpacket htask =>
    refine .inl ⟨fun hwait => absurd hwait hpacket, fun p => ?_⟩
    have hp := h p
    rw [hs] at hp
    rwa [htask]
  | @received now packet channel hs hreceive =>
    have hqueue := Channel.queue_of_tryReceive hreceive
    cases hdtr : s.dtr with
    | true =>
      refine .inl ⟨fun _ => hdtr, fun p => ?_⟩
      have hp := h p
      simp only [hs, onPacket_eq, if_true, held, hqueue, List.count_cons, List.count_nil] at hp ⊢
      omega
    | false =>
      refine .inr ⟨fun hsteady => ?_, packet, fun p => ?_⟩
      · exact Bool.noConfusion (hdtr.symm.trans (hsteady hs))
      · have hp := h p
        simp only [hs, onPacket_eq, Bool.false_eq_true, if_false, held, hqueue, List.count_cons,
          List.count_nil] at hp ⊢
        omega
  | wrote hs hconnected =>
    refine .inl ⟨fun hwait => absurd (hs.symm.trans hwait) (by rintro ⟨⟩), fun p => ?_⟩
    have hp := h p
    simp only [hs, held, List.map_append, List.map_cons, List.map_nil, List.count_append,
      List.count_nil] at hp ⊢
    omega
  | writing hs htodo hconnected =>
    refine .inl ⟨fun hwait => absurd (hs.symm.trans hwait) (by rintro ⟨⟩), fun p => ?_⟩
    have hp := h p
    rwa [hs] at hp
  | writeError hs => exact .inr ⟨id, _, hbroken _ _ _ hs⟩
  | dtrOff hs hdtr => exact .inr ⟨id, _, hbroken _ _ _ hs⟩

/-- A run loses as many packets as it has unsteady events. -/
theorem accounted_run {s t : Dongle} {lost : List ScannedPacket} {events : List LinkEvent}
    (h : s.Accounted lost) (ht : s.run events = some t) :
    s.SteadyRun events ∧ t.Accounted lost ∨
      ¬ s.SteadyRun events ∧ ∃ more, more ≠ [] ∧ t.Accounted (more ++ lost) := by
  induction events generalizing s lost with
  | nil =>
    cases ht
    exact .inl ⟨trivial, h⟩
  | cons e events ih =>
    obtain ⟨u, hu, ht⟩ := Option.bind_eq_some_iff.mp ht
    have hsteady : s.SteadyRun (e :: events) ↔ s.Steady e ∧ u.SteadyRun events := by
      rw [SteadyRun, hu]
      simp
    rw [hsteady]
    rcases (next_step hu).accounted h with ⟨he, hlost⟩ | ⟨he, p, hlost⟩
    · rcases ih hlost ht with ⟨hrest, hfinal⟩ | ⟨hrest, more, hmore, hfinal⟩
      · exact .inl ⟨⟨he, hrest⟩, hfinal⟩
      · exact .inr ⟨fun hall => hrest hall.2, more, hmore, hfinal⟩
    · refine .inr ⟨fun hall => he hall.1, ?_⟩
      rcases ih hlost ht with ⟨-, hfinal⟩ | ⟨-, more, -, hfinal⟩
      · exact ⟨[p], List.cons_ne_nil _ _, hfinal⟩
      · exact ⟨more ++ [p], by simp, by simpa using hfinal⟩

theorem Step.framed {s t : Dongle} {e : LinkEvent} (ht : Step s e t) (h : s.Framed) : t.Framed := by
  have hidle : ∀ task : Await, held task = [] → Framed { s with task } := by
    refine fun task htask => ⟨h.complete, fun packet done todo hwrite => ?_⟩
    obtain rfl : task = .write packet done todo := hwrite
    cases htask
  cases ht with
  | report r => exact ⟨h.complete, h.writing⟩
  | connection up => exact ⟨h.complete, h.writing⟩
  | control dtr => exact ⟨h.complete, h.writing⟩
  | waited hs hpacket htask => exact hidle _ htask
  | @received now p channel hs hreceive =>
    refine ⟨h.complete, fun packet done todo hwrite => ?_⟩
    simp only [onPacket_eq] at hwrite
    split at hwrite
    · cases hwrite
      exact ⟨usbPackets_ne_nil _, now, flatten_usbPackets _⟩
    · cases hwrite
  | wrote hs hconnected =>
    obtain ⟨-, hframe⟩ := h.writing _ _ _ hs
    refine ⟨fun w hw => ?_, by rintro _ _ _ ⟨⟩⟩
    rcases List.mem_append.mp hw with hw | hw
    · exact h.complete w hw
    · obtain rfl := List.mem_singleton.mp hw
      exact hframe
  | writing hs htodo hconnected =>
    obtain ⟨-, hframe⟩ := h.writing _ _ _ hs
    refine ⟨h.complete, ?_⟩
    rintro packet done todo ⟨⟩
    refine ⟨htodo, ?_⟩
    simpa only [List.append_assoc, List.singleton_append] using hframe
  | writeError hs => exact hidle _ rfl
  | dtrOff hs hdtr => exact hidle _ rfl

theorem framed_run {s t : Dongle} {events : List LinkEvent} (h : s.Framed)
    (ht : s.run events = some t) : t.Framed := by
  induction events generalizing s with
  | nil =>
    cases ht
    exact h
  | cons e events ih =>
    obtain ⟨u, hu, ht⟩ := Option.bind_eq_some_iff.mp ht
    exact ih ((next_step hu).framed h) ht

theorem accounted_init : init.Accounted [] := by
  intro p
  simp [init, Receiver.init, PacketHandler.new, Channel.empty, held]

theorem framed_init : init.Framed :=
  ⟨fun w hw => absurd hw List.not_mem_nil, by rintro _ _ _ ⟨⟩⟩

theorem noLoss_iff {s : Dongle} (h : s.Framed) : s.NoLoss ↔ s.Accounted [] := by
  have hperm : s.receiver.forwarded.Perm (s.displaced ++ s.written.map Prod.fst ++ held s.task ++
      s.receiver.handler.channel.queue) ↔ s.Accounted [] := by
    rw [List.perm_iff_count]
    simp only [Accounted, List.count_append, List.count_nil, Nat.add_zero]
  exact ⟨fun hs => hperm.mp hs.accounted, fun hs => ⟨hperm.mpr hs, h.complete⟩⟩

/-- A run of the receiver loses no packet exactly if DTR is on whenever the task
takes one and no write is broken off. -/
theorem run_noLoss_iff {t : Dongle} {events : List LinkEvent} (ht : init.run events = some t) :
    t.NoLoss ↔ init.SteadyRun events := by
  rw [noLoss_iff (framed_run framed_init ht)]
  rcases accounted_run accounted_init ht with ⟨hsteady, hfinal⟩ | ⟨hsteady, more, hmore, hfinal⟩
  · exact iff_of_true hfinal hsteady
  · refine iff_of_false (fun hnone => ?_) hsteady
    obtain ⟨p, rest, rfl⟩ := List.exists_cons_of_ne_nil hmore
    have hlost := hfinal p
    have hall := hnone p
    simp only [List.append_nil, List.count_cons_self, List.count_nil] at hlost hall
    omega

/-- The task is ready, a packet is heard and written. -/
def writtenEvents : List LinkEvent :=
  [.connection true, .proceed 0, .control true, .proceed 0, .proceed 0, .report (sampleReport 0),
    .proceed 33, .proceed 33]

theorem run_noLoss_iff_written : ∃ t, init.run writtenEvents = some t ∧ t.written.length = 1 ∧
    (t.NoLoss ↔ init.SteadyRun writtenEvents) := by
  have hrun : (init.run writtenEvents).map (·.written.length) = some 1 := by decide +kernel
  obtain ⟨t, ht, hone⟩ := Option.map_eq_some_iff.mp hrun
  exact ⟨t, ht, hone, run_noLoss_iff ht⟩

/-- The host closes the port while the task waits for a packet. -/
def closedEvents : List LinkEvent :=
  [.connection true, .proceed 0, .control true, .proceed 0, .proceed 0, .control false,
    .report (sampleReport 0), .proceed 33]

/-- The next packet is taken and thrown away. -/
theorem not_noLoss_closed : ∃ t, init.run closedEvents = some t ∧ ¬ t.NoLoss := by
  have hrun : (init.run closedEvents).map (fun t => (t.receiver.forwarded.length, (t.displaced ++
      t.written.map Prod.fst ++ held t.task ++ t.receiver.handler.channel.queue).length)) =
        some (1, 0) := by decide +kernel
  obtain ⟨t, ht, hcounts⟩ := Option.map_eq_some_iff.mp hrun
  obtain ⟨hsent, hleft⟩ := Prod.mk.inj hcounts
  refine ⟨t, ht, fun h => ?_⟩
  have hlen := h.accounted.length_eq
  rw [hsent, hleft] at hlen
  exact absurd hlen (by decide)

end Dongle

end Homescope
