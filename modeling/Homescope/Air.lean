import Homescope.BleScan
import Homescope.ReadingPath
import Homescope.Sensors
import Homescope.SeqRuns

/-! A sensor on the air (`telemetry_task` and `ble_advertise::run` of
`firmware/sensor`) and a receiver in its range, among other devices. -/

namespace Homescope

open Commands Commands.Prog

/-- `signal` is the packet that waits for the advertiser, of which only the last
one is kept, and `onAir` the packet of the burst. `built` lists the seqs with
the measurements that the packets were built of, the newest first. -/
structure Air where
  sensor : Sensor
  signal : Option (List Byte)
  onAir : Option (List Byte)
  receiver : Receiver
  built : List (Word × List Measurement)

/-- The sensor's wiring, its cipher and where its counter is stored. -/
structure Beacon where
  board : BoardFeature
  cipher : PacketCipher
  storage : Storage

namespace Air

def init (flash : Memory) : Air := ⟨⟨flash, .off, []⟩, none, none, .init, []⟩

/-- The report of a burst's packet. -/
def heard (b : Beacon) (rssi : Dbm) (now : Nat) (p : List Byte) (h : p.length ≤ SensorPacket.maxWireLen) :
    Report where
  addr := b.cipher.deviceAddr
  rssi := rssi
  payload := p
  now := now
  payload_le := h

/-- `next` returns a seq to `build`, which hands its packet to the advertiser
before anything else runs; a failed `build` leaves the packet that waits. -/
inductive Step (env : Surroundings) (b : Beacon) : Air → Air → Prop
  | counter {s : Air} {sensor : Sensor} (h : SensorStep b.storage s.sensor sensor)
      (hroom : s.sensor.mode.Room) (hsame : sensor.issued = s.sensor.issued) (hon : sensor.mode ≠ .off) :
      Step env b s { s with sensor }
  | stopped {s : Air} {sensor : Sensor} (h : SensorStep b.storage s.sensor sensor)
      (hroom : s.sensor.mode.Room) (hsame : sensor.issued = s.sensor.issued) (hoff : sensor.mode = .off) :
      Step env b s { s with sensor, signal := none, onAir := none }
  | build {s : Air} {sensor : Sensor} {seq : Word} {ms : List Measurement}
      (h : SensorStep b.storage s.sensor sensor) (hroom : s.sensor.mode.Room)
      (hissued : sensor.issued = seq :: s.sensor.issued) (hms : Sensors.Returns b.board ms) :
      Step env b s { s with
        sensor
        signal := (ReadingPath.sensor env b.cipher seq ms).orElse fun _ => s.signal
        built := (seq, ms) :: s.built }
  | advertise {s : Air} {p : List Byte} (h : s.signal = some p) (hidle : s.onAir = none) :
      Step env b s { s with signal := none, onAir := some p }
  | burstEnd {s : Air} : Step env b s { s with onAir := none }
  | heard {s : Air} {p : List Byte} (h : s.onAir = some p) (rssi : Dbm) (now : Nat)
      (hle : p.length ≤ SensorPacket.maxWireLen) :
      Step env b s { s with receiver := s.receiver.report (heard b rssi now p hle) }
  | other {s : Air} (r : Report) (h : r.addr ≠ b.cipher.deviceAddr) :
      Step env b s { s with receiver := s.receiver.report r }
  | receive {s : Air} {p : ScannedPacket} {channel : ScannedPacketChannel}
      (h : s.receiver.handler.channel.tryReceive = (some p, channel)) :
      Step env b s { s with receiver := { s.receiver with
        handler := { s.receiver.handler with channel }, received := s.receiver.received ++ [p] } }

/-- The seqs of the device that were heard, the newest first. -/
def heardSeqs (b : Beacon) (s : Air) : List Word :=
  (s.receiver.valid.filter fun v => v.1 = b.cipher.deviceAddr).map Prod.snd

def seqOf (p : ScannedPacket) : Option Word :=
  (SensorPacket.parse p.packet).toOption.map SensorPacket.seq

/-- The seqs of the device's packets that the scan forwarded, in order. -/
def forwardedSeqs (b : Beacon) (s : Air) : List Word :=
  (s.receiver.forwarded.filter fun p => p.deviceAddr = b.cipher.deviceAddr).filterMap seqOf

/-- The packet of a seq and of the measurements that it was built of. -/
def BuiltAs (env : Surroundings) (b : Beacon) (built : List (Word × List Measurement))
    (packet : SensorPacket) : Prop :=
  ∃ ms metrics, (packet.seq, ms) ∈ built ∧ Measured b.board ms ∧
    packet.decode env.aead b.cipher = .ok metrics ∧ ∀ k m, metrics.slot k = some m ↔ m ∈ ms ∧ m.id = k

/-- The other devices leave the cache room for this one, and its tick cannot
have wrapped. -/
structure Calm (b : Beacon) (s : Receiver) : Prop where
  ticks : 2 * s.valid.length < 2 ^ 64
  others : ((s.valid.map Prod.fst).filter fun addr => addr ≠ b.cipher.deviceAddr).dedup.length < 32

/-! ### One report -/

section Reports

variable {env : Surroundings} {b : Beacon} {s : Air}

theorem heard_carries {rssi : Dbm} {now : Nat} {p : List Byte} {packet : SensorPacket}
    (hp : p = airMagic ++ packet.bytes) (hle : p.length ≤ SensorPacket.maxWireLen) :
    (heard b rssi now p hle).Carries packet := hp

theorem heardSeqs_own {r : Report} {packet : SensorPacket} (haddr : r.addr = b.cipher.deviceAddr)
    (h : r.Carries packet) :
    heardSeqs b { s with receiver := s.receiver.report r } = packet.seq :: heardSeqs b s := by
  simp [heardSeqs, Receiver.report, Report.packet_eq_some.mpr h, haddr]

theorem heardSeqs_other {r : Report} (haddr : r.addr ≠ b.cipher.deviceAddr) :
    heardSeqs b { s with receiver := s.receiver.report r } = heardSeqs b s := by
  cases hp : r.packet with
  | none => simp [heardSeqs, Receiver.report, hp]
  | some packet => simp [heardSeqs, Receiver.report, hp, haddr]

theorem forwarded_own {r : Report} {packet : SensorPacket} (h : r.Carries packet) :
    (s.receiver.report r).forwarded = s.receiver.forwarded ++
      if (s.receiver.handler.seqCache.get r.addr).1 = some packet.seq then []
      else [r.scanned packet h] := by
  rw [Receiver.report, (PacketHandler.onReport_of_carries s.receiver.handler h).1]
  split <;> simp [*]

theorem forwardedSeqs_own {r : Report} {packet : SensorPacket} (haddr : r.addr = b.cipher.deviceAddr)
    (h : r.Carries packet) : forwardedSeqs b { s with receiver := s.receiver.report r } =
      forwardedSeqs b s ++ if (s.receiver.handler.seqCache.get r.addr).1 = some packet.seq then []
        else [packet.seq] := by
  rw [forwardedSeqs, forwarded_own h]
  split
  · rw [List.append_nil, List.append_nil]
    rfl
  · simp [forwardedSeqs, Report.scanned, haddr, seqOf, SensorPacket.parse_bytes, Except.toOption]

/-- What another device sends is forwarded under its own address. -/
theorem mem_forwarded_other {r : Report} {p : ScannedPacket}
    (hp : p ∈ (s.receiver.handler.onReport r).1.toList) : p.deviceAddr = r.addr := by
  cases hpacket : r.packet with
  | none =>
    rw [PacketHandler.onReport_of_none s.receiver.handler hpacket] at hp
    cases hp
  | some packet =>
    have hcarries := Report.packet_eq_some.mp hpacket
    rw [(PacketHandler.onReport_of_carries s.receiver.handler hcarries).1] at hp
    split at hp
    · cases hp
    · rw [List.mem_singleton.mp hp]
      rfl

theorem forwardedSeqs_other {r : Report} (haddr : r.addr ≠ b.cipher.deviceAddr) :
    forwardedSeqs b { s with receiver := s.receiver.report r } = forwardedSeqs b s := by
  have hnone : (s.receiver.handler.onReport r).1.toList.filter
      (fun p => p.deviceAddr = b.cipher.deviceAddr) = [] := by
    rw [List.filter_eq_nil_iff]
    intro p hp
    rw [mem_forwarded_other hp]
    simpa using haddr
  rw [forwardedSeqs, Receiver.report]
  simp only [List.filter_append, hnone, List.append_nil]
  rfl

/-- With room in the cache the last seq heard of a device is still there. -/
theorem cached_of_calm {r : Receiver} (hinv : r.Inv) (hc : Calm b r) :
    (r.handler.seqCache.get b.cipher.deviceAddr).1 =
      (Recency.last b.cipher.deviceAddr r.valid).map Prod.snd := by
  obtain ⟨hrefines, htick⟩ := hinv
  have hticks := hc.ticks
  obtain ⟨hget, -, -⟩ := LruCache.get_refines hrefines (by omega) b.cipher.deviceAddr
  have hsub : ((Recency.since b.cipher.deviceAddr r.valid).map Prod.fst).dedup ⊆
      ((r.valid.map Prod.fst).filter fun addr => addr ≠ b.cipher.deviceAddr).dedup := by
    intro addr haddr
    rw [List.mem_dedup] at haddr ⊢
    obtain ⟨v, hv, rfl⟩ := List.mem_map.mp haddr
    have hne : decide (v.1 ≠ b.cipher.deviceAddr) = true :=
      List.mem_takeWhile_imp (p := fun y : DeviceAddr × Word => y.1 ≠ b.cipher.deviceAddr) hv
    exact List.mem_filter.mpr ⟨List.mem_map_of_mem (List.takeWhile_subset _ hv), hne⟩
  have hroom := (List.subperm_of_subset (List.nodup_dedup _) hsub).length_le.trans_lt hc.others
  rw [hget, Recency.last_take_recency, if_pos hroom]

theorem last_heard {s : Air} : (Recency.last b.cipher.deviceAddr s.receiver.valid).map Prod.snd =
    (heardSeqs b s).head? := by
  rw [Recency.last, heardSeqs, List.head?_map, List.head?_filter]

theorem Calm.of_report {s : Receiver} {r : Report} (h : Calm b (s.report r)) : Calm b s := by
  have hsuffix : s.valid <:+ (s.report r).valid := List.suffix_append _ _
  refine ⟨?_, ?_⟩
  · have hle := hsuffix.length_le
    have hticks := h.ticks
    omega
  · have hsub := ((hsuffix.sublist.map Prod.fst).filter fun addr => addr ≠ b.cipher.deviceAddr).subset
    refine (List.subperm_of_subset (List.nodup_dedup _) fun addr haddr => ?_).length_le.trans_lt h.others
    rw [List.mem_dedup] at haddr ⊢
    exact hsub haddr

end Reports

/-! ### What a run keeps -/

/-- A packet on its way: the sensor built it, and nothing newer was heard. -/
def Pending (env : Surroundings) (b : Beacon) (s : Air) (p : List Byte) (packet : SensorPacket) : Prop :=
  p = airMagic ++ packet.bytes ∧ BuiltAs env b s.built packet ∧ ∀ h ∈ heardSeqs b s, h ≤ packet.seq

structure Inv (env : Surroundings) (b : Beacon) (s : Air) : Prop where
  sensor : s.sensor.Inv b.storage
  built : s.built.map Prod.fst = s.sensor.issued
  signal : ∀ p, s.signal = some p → ∃ packet, Pending env b s p packet
  onAir : ∀ p, s.onAir = some p → ∃ packet, Pending env b s p packet ∧
    ∀ q : SensorPacket, s.signal = some (airMagic ++ q.bytes) → packet.seq ≤ q.seq
  heard_order : (heardSeqs b s).Pairwise (· ≥ ·)
  heard_issued : ∀ h ∈ heardSeqs b s, h ∈ s.sensor.issued
  forwarded : ∀ p ∈ s.receiver.forwarded, p.deviceAddr = b.cipher.deviceAddr →
    ∃ packet, p.packet = packet.bytes ∧ BuiltAs env b s.built packet
  forwarded_heard : ∀ h ∈ forwardedSeqs b s, h ∈ heardSeqs b s
  forwarded_order : (forwardedSeqs b s).Pairwise (· ≤ ·)
  calm : Calm b s.receiver → s.receiver.Inv ∧ (forwardedSeqs b s).Pairwise (· < ·) ∧
    ∀ h ∈ heardSeqs b s, h ∈ forwardedSeqs b s

section Steps

variable {env : Surroundings} {b : Beacon} {s t : Air}

theorem inv_init {flash : Memory} (hflash : ∀ slot : Slot, flash (slot.addr b.storage) = erased) :
    (init flash).Inv env b where
  sensor := ⟨⟨.fresh, Log.stored_fresh hflash, by decide, fun _ h => by cases h⟩, List.Pairwise.nil⟩
  built := rfl
  signal _ h := by cases h
  onAir _ h := by cases h
  heard_order := List.Pairwise.nil
  heard_issued _ h := by cases h
  forwarded _ h := by cases h
  forwarded_heard _ h := by cases h
  forwarded_order := List.Pairwise.nil
  calm _ := ⟨⟨LruCache.refines_new, Nat.zero_le _⟩, List.Pairwise.nil, fun _ h => by cases h⟩

theorem BuiltAs.issued {packet : SensorPacket} (hs : s.Inv env b) (h : BuiltAs env b s.built packet) :
    packet.seq ∈ s.sensor.issued := by
  obtain ⟨ms, metrics, hmem, -⟩ := h
  exact hs.built ▸ List.mem_map_of_mem (f := Prod.fst) hmem

theorem BuiltAs.cons {packet : SensorPacket} {built : List (Word × List Measurement)}
    (h : BuiltAs env b built packet) (new : Word × List Measurement) :
    BuiltAs env b (new :: built) packet := by
  obtain ⟨ms, metrics, hmem, hbuilt⟩ := h
  exact ⟨ms, metrics, List.mem_cons_of_mem _ hmem, hbuilt⟩

theorem bytes_injective {p q : SensorPacket} (h : airMagic ++ p.bytes = airMagic ++ q.bytes) : p = q := by
  have hparse := congrArg SensorPacket.parse (List.append_cancel_left h)
  rw [SensorPacket.parse_bytes, SensorPacket.parse_bytes] at hparse
  exact Except.ok.inj hparse

theorem head_of_newest {seqs : List Word} {seq : Word} (h : seqs.Pairwise (· ≥ ·))
    (hle : ∀ x ∈ seqs, x ≤ seq) (hmem : seq ∈ seqs) : seqs.head? = some seq := by
  cases seqs with
  | nil => cases hmem
  | cons first rest =>
    rcases List.mem_cons.mp hmem with rfl | hrest
    · rfl
    · have hge := (List.pairwise_cons.mp h).1 seq hrest
      rw [List.head?_cons, BitVec.le_antisymm (hle first List.mem_cons_self) hge]

/-- The packet of a new seq is newer than whatever is on its way or was heard. -/
theorem inv_build (hl : env.Lawful) (hs : s.Inv env b) {sensor : Sensor} {seq : Word}
    {ms : List Measurement} (h : SensorStep b.storage s.sensor sensor) (hroom : s.sensor.mode.Room)
    (hissued : sensor.issued = seq :: s.sensor.issued) (hms : Measured b.board ms) :
    Inv env b { s with
      sensor
      signal := (ReadingPath.sensor env b.cipher seq ms).orElse fun _ => s.signal
      built := (seq, ms) :: s.built } := by
  have hsensor := Sensor.inv_step h hroom hs.sensor
  have hnewest : ∀ old ∈ s.sensor.issued, old < seq := by
    have hpair := hsensor.2
    rw [hissued] at hpair
    exact (List.pairwise_cons.mp hpair).1
  obtain ⟨packet, metrics, hbuild, -, hseq, hdecode, hslots⟩ :=
    ReadingPath.sensor_ok hl b.cipher seq hms.ne_nil hms.nodup
  have hbuilt : BuiltAs env b ((seq, ms) :: s.built) packet :=
    ⟨ms, metrics, hseq ▸ List.mem_cons_self, hms, hdecode, hslots⟩
  refine { hs with
    sensor := hsensor
    built := by rw [List.map_cons, hs.built, hissued]
    signal := ?_
    onAir := ?_
    heard_issued := fun h hh => hissued ▸ List.mem_cons_of_mem _ (hs.heard_issued h hh)
    forwarded := ?_ }
  · intro p hp
    simp only [hbuild, Option.orElse_some, Option.some.injEq] at hp
    exact ⟨packet, hp.symm, hbuilt, fun h hh => hseq ▸ BitVec.le_of_lt (hnewest h (hs.heard_issued h hh))⟩
  · intro p hp
    obtain ⟨old, ⟨hbytes, hold, hheard⟩, -⟩ := hs.onAir p hp
    refine ⟨old, ⟨hbytes, hold.cons _, hheard⟩, fun q hq => ?_⟩
    simp only [hbuild, Option.orElse_some, Option.some.injEq] at hq
    rw [← bytes_injective hq, hseq]
    exact BitVec.le_of_lt (hnewest _ (hold.issued hs))
  · intro p hp haddr
    obtain ⟨old, hbytes, hold⟩ := hs.forwarded p hp haddr
    exact ⟨old, hbytes, hold.cons _⟩

theorem inv_heard (hs : s.Inv env b) {p : List Byte} (h : s.onAir = some p) (rssi : Dbm) (now : Nat)
    (hle : p.length ≤ SensorPacket.maxWireLen) :
    Inv env b { s with receiver := s.receiver.report (heard b rssi now p hle) } := by
  obtain ⟨packet, ⟨hbytes, hbuilt, hnewest⟩, hwaiting⟩ := hs.onAir p h
  have hcarries : (heard b rssi now p hle).Carries packet := heard_carries hbytes hle
  have hheard := heardSeqs_own (s := s) (b := b) rfl hcarries
  have hforwarded := forwardedSeqs_own (s := s) (b := b) rfl hcarries
  have holder : ∀ h ∈ forwardedSeqs b s, h ≤ packet.seq := fun h hh => hnewest h (hs.forwarded_heard h hh)
  refine { hs with
    signal := ?_, onAir := ?_, heard_order := ?_, heard_issued := ?_, forwarded := ?_,
    forwarded_heard := ?_, forwarded_order := ?_, calm := ?_ }
  · intro q hq
    obtain ⟨next, hnext, hnextBuilt, hnextNewest⟩ := hs.signal q hq
    refine ⟨next, hnext, hnextBuilt, ?_⟩
    rw [hheard]
    exact List.forall_mem_cons.mpr ⟨hwaiting next (hnext ▸ hq), hnextNewest⟩
  · intro q hq
    obtain rfl := Option.some.inj (h.symm.trans hq)
    refine ⟨packet, ⟨hbytes, hbuilt, ?_⟩, hwaiting⟩
    rw [hheard]
    exact List.forall_mem_cons.mpr ⟨BitVec.le_refl _, hnewest⟩
  · rw [hheard]
    exact List.pairwise_cons.mpr ⟨hnewest, hs.heard_order⟩
  · rw [hheard]
    have hissued : packet.seq ∈ s.sensor.issued := hbuilt.issued hs
    exact List.forall_mem_cons.mpr ⟨hissued, hs.heard_issued⟩
  · intro q hq haddr
    have hq' : q ∈ (s.receiver.report (heard b rssi now p hle)).forwarded := hq
    rw [forwarded_own hcarries] at hq'
    rcases List.mem_append.mp hq' with hold | hnew
    · exact hs.forwarded q hold haddr
    · split at hnew
      · cases hnew
      · rw [List.mem_singleton.mp hnew]
        exact ⟨packet, rfl, hbuilt⟩
  · rw [hheard, hforwarded]
    intro x hx
    rcases List.mem_append.mp hx with hold | hnew
    · exact List.mem_cons_of_mem _ (hs.forwarded_heard x hold)
    · split at hnew
      · cases hnew
      · exact List.mem_singleton.mp hnew ▸ List.mem_cons_self
  · rw [hforwarded]
    refine List.pairwise_append.mpr ⟨hs.forwarded_order, by split <;> simp, fun x hx y hy => ?_⟩
    split at hy
    · cases hy
    · exact List.mem_singleton.mp hy ▸ holder x hx
  · intro hcalm
    have hbefore : Calm b s.receiver := hcalm.of_report
    obtain ⟨hinv, hincreasing, hall⟩ := hs.calm hbefore
    have hcached := cached_of_calm hinv hbefore
    rw [last_heard] at hcached
    rw [hheard, hforwarded]
    by_cases hsame : (s.receiver.handler.seqCache.get b.cipher.deviceAddr).1 = some packet.seq
    · have hmem : packet.seq ∈ heardSeqs b s := List.mem_of_head? (hcached ▸ hsame)
      rw [if_pos (show (s.receiver.handler.seqCache.get (heard b rssi now p hle).addr).1 = _ from hsame),
        List.append_nil]
      exact ⟨Receiver.inv_report hinv _ hcalm.ticks, hincreasing,
        List.forall_mem_cons.mpr ⟨hall _ hmem, hall⟩⟩
    · have hstrict : ∀ x ∈ forwardedSeqs b s, x < packet.seq := by
        intro x hx
        refine BitVec.lt_of_le_ne (holder x hx) ?_
        rintro rfl
        -- it would be the last one heard, and so still cached
        exact hsame (hcached.trans (head_of_newest hs.heard_order hnewest (hs.forwarded_heard _ hx)))
      rw [if_neg (show ¬(s.receiver.handler.seqCache.get (heard b rssi now p hle).addr).1 = _ from hsame)]
      refine ⟨Receiver.inv_report hinv _ hcalm.ticks, List.pairwise_append.mpr ⟨hincreasing,
        List.pairwise_singleton .., fun x hx y hy => List.mem_singleton.mp hy ▸ hstrict x hx⟩, ?_⟩
      refine List.forall_mem_cons.mpr ⟨List.mem_append_right _ (List.mem_singleton_self _),
        fun x hx => List.mem_append_left _ (hall x hx)⟩

theorem inv_other (hs : s.Inv env b) {r : Report} (haddr : r.addr ≠ b.cipher.deviceAddr) :
    Inv env b { s with receiver := s.receiver.report r } := by
  have hheard := heardSeqs_other (s := s) haddr
  have hforwarded := forwardedSeqs_other (s := s) haddr
  refine { hs with
    signal := ?_, onAir := ?_, heard_order := ?_, heard_issued := ?_, forwarded := ?_,
    forwarded_heard := ?_, forwarded_order := ?_, calm := ?_ }
  · simpa only [Pending, hheard] using hs.signal
  · simpa only [Pending, hheard] using hs.onAir
  · simpa only [hheard] using hs.heard_order
  · simpa only [hheard] using hs.heard_issued
  · intro p hp hown
    rcases List.mem_append.mp hp with hold | hnew
    · exact hs.forwarded p hold hown
    · exact absurd ((mem_forwarded_other hnew).symm.trans hown) haddr
  · simpa only [hheard, hforwarded] using hs.forwarded_heard
  · simpa only [hforwarded] using hs.forwarded_order
  · intro hcalm
    have hbefore : Calm b s.receiver := hcalm.of_report
    obtain ⟨hinv, hrest⟩ := hs.calm hbefore
    rw [hheard, hforwarded]
    exact ⟨Receiver.inv_report hinv r hcalm.ticks, hrest⟩

theorem Step.inv (hl : env.Lawful) (ht : Step env b s t) (hs : s.Inv env b) : t.Inv env b := by
  cases ht with
  | counter h hroom hsame hon =>
    refine { hs with sensor := Sensor.inv_step h hroom hs.sensor, built := ?_, heard_issued := ?_ }
    · exact hs.built.trans hsame.symm
    · exact fun x hx => hsame ▸ hs.heard_issued x hx
  | stopped h hroom hsame hoff =>
    refine { hs with
      sensor := Sensor.inv_step h hroom hs.sensor, built := ?_, heard_issued := ?_, signal := ?_, onAir := ?_ }
    · exact hs.built.trans hsame.symm
    · rintro p ⟨⟩
    · rintro p ⟨⟩
    · exact fun x hx => hsame ▸ hs.heard_issued x hx
  | build h hroom hissued hms => exact inv_build hl hs h hroom hissued hms.measured
  | advertise h hidle =>
    refine { hs with signal := ?_, onAir := ?_ }
    · rintro q ⟨⟩
    · rintro q ⟨⟩
      obtain ⟨packet, hpacket⟩ := hs.signal _ h
      exact ⟨packet, hpacket, by rintro _ ⟨⟩⟩
  | burstEnd =>
    refine { hs with onAir := ?_ }
    rintro q ⟨⟩
  | heard h rssi now hle => exact inv_heard hs h rssi now hle
  | other r haddr => exact inv_other hs haddr
  | receive h =>
    refine { hs with calm := fun hcalm => ?_ }
    obtain ⟨hinv, hrest⟩ := hs.calm ⟨hcalm.ticks, hcalm.others⟩
    exact ⟨⟨hinv.1, hinv.2⟩, hrest⟩

/-- The seqs of a device whose counter region was erased go over the air in order,
through boots, power cuts and failures of its flash, whatever else is heard, as
long as its ceiling stays below `2 ^ 32`. What the receiver forwards of it opens
to the measurements that were taken under that seq, in the order of the seqs; and
as long as fewer than 32 other devices and fewer than `2 ^ 63` reports are heard,
each packet that was heard is forwarded once. -/
theorem forwards_once (hl : env.Lawful) {flash : Memory}
    (hflash : ∀ slot : Slot, flash (slot.addr b.storage) = erased)
    (ht : Relation.ReflTransGen (Step env b) (init flash) t) :
    (t.built.map Prod.fst).Pairwise (· > ·) ∧
    (∀ p ∈ t.receiver.forwarded, p.deviceAddr = b.cipher.deviceAddr →
      ∃ packet, p.packet = packet.bytes ∧ BuiltAs env b t.built packet) ∧
    (forwardedSeqs b t).Pairwise (· ≤ ·) ∧
    (Calm b t.receiver → (forwardedSeqs b t).Pairwise (· < ·) ∧
      ∀ seq, seq ∈ heardSeqs b t ↔ seq ∈ forwardedSeqs b t) := by
  have hinv : t.Inv env b := invariant_run ht (fun _ _ => Step.inv hl) (inv_init hflash)
  refine ⟨hinv.built ▸ hinv.sensor.2, hinv.forwarded, hinv.forwarded_order, fun hcalm => ?_⟩
  obtain ⟨-, hincreasing, hall⟩ := hinv.calm hcalm
  exact ⟨hincreasing, fun seq => ⟨hall seq, hinv.forwarded_heard seq⟩⟩

end Steps

/-! ### The first packet of a device -/

section First

variable {env : Surroundings} {b : Beacon}

theorem run_load {m m' : Memory} {w : List Word} {p q} (s : Air) (h : Steps flashStep (p, m) (q, m')) :
    Relation.ReflTransGen (Step env b) { s with sensor := ⟨m, .booting p, w⟩ }
      { s with sensor := ⟨m', .booting q, w⟩ } :=
  h.lift (fun c : _ × Memory => { s with sensor := ⟨c.2, .booting c.1, w⟩ })
    fun _ _ hs => .counter (.load hs) trivial rfl (by rintro ⟨⟩)

theorem run_next {m m' : Memory} {w : List Word} {c : SeqCounter} {p q} (s : Air)
    (h : Steps flashStep (p, m) (q, m')) :
    Relation.ReflTransGen (Step env b) { s with sensor := ⟨m, .issuing c p, w⟩ }
      { s with sensor := ⟨m', .issuing c q, w⟩ } :=
  h.lift (fun d : _ × Memory => { s with sensor := ⟨d.2, .issuing c d.1, w⟩ })
    fun _ _ hs => .counter (.next hs) trivial rfl (by rintro ⟨⟩)

def sampleBeacon : Beacon := ⟨.db40, ReadingPath.sensorCipher, ⟨0, 8192⟩⟩

theorem forwards_once_first : ∃ (format : TextFormat) (t : Air),
    Relation.ReflTransGen (Step ⟨ReadingPath.sampleAead, crc16IbmSdlc, format, fun _ => true⟩ sampleBeacon)
      (init fun _ => erased) t ∧
    heardSeqs sampleBeacon t = [0, 0] ∧ (forwardedSeqs sampleBeacon t).Pairwise (· < ·) ∧
    ∀ seq, seq ∈ heardSeqs sampleBeacon t ↔ seq ∈ forwardedSeqs sampleBeacon t := by
  obtain ⟨format, hl, -⟩ := ReadingPath.exists_format
  have hboot : ((SeqCounter.load ⟨0, 8192⟩).run.run flashRun fun _ => erased).1 =
      .ok ⟨0, 0, Page.A.start⟩ := by
    decide +kernel
  have hcall : ((SeqCounter.next ⟨0, 8192⟩ ⟨0, 0, Page.A.start⟩).run.run flashRun
      ((SeqCounter.load ⟨0, 8192⟩).run.run flashRun fun _ => erased).2).1 =
        .ok (0, ⟨1, 1024, ⟨1, by decide⟩⟩) := by
    decide +kernel
  have hload := Prog.run_steps flashRun_step (SeqCounter.load ⟨0, 8192⟩).run fun _ => erased
  have hnext := Prog.run_steps flashRun_step (SeqCounter.next ⟨0, 8192⟩ ⟨0, 0, Page.A.start⟩).run
    ((SeqCounter.load ⟨0, 8192⟩).run.run flashRun fun _ => erased).2
  rw [hboot] at hload
  rw [hcall] at hnext
  obtain ⟨ms, hreturns⟩ := Sensors.exists_returns sampleBeacon.board
  have hms := hreturns.measured
  have henv : Surroundings.Lawful ⟨ReadingPath.sampleAead, crc16IbmSdlc, format, fun _ => true⟩ :=
    ⟨ReadingPath.sampleAead_lawful, hl⟩
  obtain ⟨packet, -, hbuild, hlen, hseq, -⟩ :=
    ReadingPath.sensor_ok henv sampleBeacon.cipher 0 hms.ne_nil hms.nodup
  have hle : (airMagic ++ packet.bytes).length ≤ SensorPacket.maxWireLen := by
    rw [List.length_append]
    exact (Nat.add_le_add_left hlen _).trans (by decide)
  let r := heard sampleBeacon ⟨0⟩ 0 (airMagic ++ packet.bytes) hle
  have hcarries : r.Carries packet := rfl
  have hpacket := Report.packet_eq_some.mpr hcarries
  have hrun : Relation.ReflTransGen
      (Step ⟨ReadingPath.sampleAead, crc16IbmSdlc, format, fun _ => true⟩ sampleBeacon)
      (init fun _ => erased) ⟨_, none, some (airMagic ++ packet.bytes), (Receiver.init.report r).report r, _⟩ :=
    .head (.counter .boot trivial rfl (by rintro ⟨⟩)) <| (run_load (init fun _ => erased) hload).trans <|
    .head (.counter .loaded trivial rfl (by rintro ⟨⟩)) <|
    .head (.counter .call (Or.inr (by decide)) rfl (by rintro ⟨⟩)) <|
    (run_next (init fun _ => erased) hnext).trans <|
    .head (.build .issue trivial rfl hreturns) <|
    .head (.advertise (by rw [hbuild]; rfl) rfl) <|
    .head (.heard rfl ⟨0⟩ 0 hle) <| .single (.heard rfl ⟨0⟩ 0 hle)
  have hvalid : ((Receiver.init.report r).report r).valid =
      [(sampleBeacon.cipher.deviceAddr, packet.seq), (sampleBeacon.cipher.deviceAddr, packet.seq)] := by
    simp only [Receiver.report, hpacket]
    rfl
  have hcalm : Calm sampleBeacon ((Receiver.init.report r).report r) := by
    refine ⟨?_, ?_⟩
    · rw [hvalid]
      change 4 < 2 ^ 64
      decide
    · rw [hvalid]
      simp
  obtain ⟨-, -, -, hforwarded⟩ := forwards_once henv (fun _ => rfl) hrun
  refine ⟨format, _, hrun, ?_, hforwarded hcalm⟩
  rw [heardSeqs, hvalid, hseq]
  simp

end First

end Air

end Homescope
