import Homescope.LruCache
import Homescope.Observation
import Mathlib.Data.List.DropRight

/-! The receiver's scan callback (`firmware/receiver/src/ble_scan.rs`): which
advertised packets it puts into the backlog that the USB task empties. -/

namespace Homescope

open Recency

structure ScannedPacket where
  deviceAddr : DeviceAddr
  capturedAt : Nat
  rssi : Dbm
  packet : List Byte
  packet_le : packet.length ≤ SensorPacket.maxWireLen
  deriving DecidableEq

/-- A bounded queue. -/
structure Channel (α : Type) (n : Nat) where
  queue : List α
  length_le : queue.length ≤ n

namespace Channel

variable {α : Type} {n : Nat}

def empty : Channel α n := ⟨[], Nat.zero_le n⟩

def isFull (self : Channel α n) : Bool := self.queue.length == n

def tryReceive (self : Channel α n) : Option α × Channel α n :=
  match hq : self.queue with
  | [] => (none, self)
  | a :: queue => (some a, ⟨queue, by
      have hle := self.length_le
      rw [hq, List.length_cons] at hle
      omega⟩)

def trySend (self : Channel α n) (a : α) : Channel α n :=
  if h : self.queue.length < n then ⟨self.queue ++ [a], by
    rw [List.length_append]
    exact h⟩ else self

theorem isFull_eq (self : Channel α n) : self.isFull = true ↔ self.queue.length = n := by
  rw [isFull, beq_iff_eq]

theorem tryReceive_queue (self : Channel α n) : self.tryReceive.2.queue = self.queue.tail := by
  rw [tryReceive]
  split <;> simp [*]

theorem trySend_queue {self : Channel α n} (h : self.queue.length < n) (a : α) :
    (self.trySend a).queue = self.queue ++ [a] := by
  rw [trySend, dif_pos h]

theorem queue_of_tryReceive {self channel : Channel α n} {a : α}
    (h : self.tryReceive = (some a, channel)) : self.queue = a :: channel.queue := by
  rw [tryReceive] at h
  split at h
  · cases h
  · rename_i b queue hq
    cases h
    exact hq

theorem tryReceive_of_queue {self : Channel α n} {a : α} {queue : List α} (h : self.queue = a :: queue) :
    ∃ channel, self.tryReceive = (some a, channel) ∧ channel.queue = queue := by
  cases hr : self.tryReceive with
  | mk found channel =>
    have htail := self.tryReceive_queue
    rw [hr, h] at htail
    refine ⟨channel, ?_, htail⟩
    rw [tryReceive] at hr
    split at hr
    · rename_i hnil
      rw [h] at hnil
      cases hnil
    · rename_i b rest hq
      rw [h] at hq
      cases hq
      cases hr
      rfl

end Channel

abbrev ScannedPacketChannel := Channel ScannedPacket 512

/-- A manufacturer-specific structure with company id `0xFFFF`. One structure's
length byte leaves its payload at most 252 bytes. -/
structure Report where
  addr : DeviceAddr
  rssi : Dbm
  payload : List Byte
  now : Nat
  payload_le : payload.length ≤ SensorPacket.maxWireLen

structure PacketHandler where
  channel : ScannedPacketChannel
  seqCache : LruCache DeviceAddr Word 32

namespace PacketHandler

def new : PacketHandler := ⟨.empty, .new⟩

/-- The body of the loop for one structure, with the packet that it sends. -/
def onReport (self : PacketHandler) (report : Report) : Option ScannedPacket × PacketHandler :=
  match SensorPacket.stripAirMagic report.payload with
  | .error _ => (none, self)
  | .ok packet =>
    match SensorPacket.parse packet with
    | .error _ => (none, self)
    | .ok { seq, .. } =>
      let (cachedSeq, cache) := self.seqCache.get report.addr
      if cachedSeq = some seq then
        (none, { self with seqCache := cache })
      else
        let (_, cache) := cache.insert report.addr seq
        if h : packet.length ≤ SensorPacket.maxWireLen then
          let scannedPacket : ScannedPacket :=
            { deviceAddr := report.addr, capturedAt := report.now, rssi := report.rssi, packet,
              packet_le := h }
          let channel := if self.channel.isFull then self.channel.tryReceive.2 else self.channel
          (some scannedPacket, { channel := channel.trySend scannedPacket, seqCache := cache })
        else
          (none, { self with seqCache := cache })

end PacketHandler

/-- What the advertising-data decoder yields, with the time at which the handler
gets to it. -/
inductive AdStructure
  | manufacturerSpecificData (companyIdentifier : BitVec 16) (payload : List Byte) (now : Nat)
      (payload_le : payload.length ≤ SensorPacket.maxWireLen)
  | other

structure AdvReport where
  addr : DeviceAddr
  rssi : Dbm
  data : List (Option AdStructure)

def AdvReport.reportOf (report : AdvReport) : Option AdStructure → Option Report
  | some (.manufacturerSpecificData companyIdentifier payload now payload_le) =>
    if companyIdentifier = 0xFFFF then
      some { addr := report.addr, rssi := report.rssi, payload, now, payload_le }
    else none
  | _ => none

/-- A report or a structure that cannot be decoded is passed over. -/
def PacketHandler.onExtAdvReports (self : PacketHandler) (reports : List (Option AdvReport)) :
    PacketHandler :=
  reports.foldl (fun self report => match report with
    | none => self
    | some report => report.data.foldl (fun self ad => match report.reportOf ad with
      | none => self
      | some r => (self.onReport r).2) self) self

/-- The report carries `packet`: the magic, then at least a header. -/
def Report.Carries (report : Report) (packet : SensorPacket) : Prop :=
  report.payload = airMagic ++ packet.bytes

def Report.packet (report : Report) : Option SensorPacket := do
  (SensorPacket.parse (← (SensorPacket.stripAirMagic report.payload).toOption)).toOption

theorem SensorPacket.payload_of_stripAirMagic {payload packet : List Byte}
    (h : stripAirMagic payload = .ok packet) : payload = airMagic ++ packet := by
  rw [stripAirMagic] at h
  split at h
  · cases h
  · split at h
    · rename_i htake
      cases h
      have happend := List.take_append_drop airMagic.length payload
      rw [htake] at happend
      exact happend.symm
    · cases h

theorem Report.packet_eq_some {report : Report} {packet : SensorPacket} :
    report.packet = some packet ↔ report.Carries packet := by
  constructor
  · intro h
    rw [Report.packet] at h
    cases hs : SensorPacket.stripAirMagic report.payload with
    | error e => simp [hs, Except.toOption] at h
    | ok bytes =>
      cases hp : SensorPacket.parse bytes with
      | error e => simp [hs, hp, Except.toOption] at h
      | ok q =>
        obtain rfl : q = packet := by simpa [hs, hp, Except.toOption] using h
        rw [Carries, SensorPacket.payload_of_stripAirMagic hs, SensorPacket.bytes_of_parse hp]
  · intro h
    rw [Report.packet, h, SensorPacket.stripAirMagic_append]
    simp [Except.toOption, SensorPacket.parse_bytes]

namespace PacketHandler

/-- A report without the magic or with a short header leaves the handler alone. -/
theorem onReport_of_none (self : PacketHandler) {report : Report} (h : report.packet = none) :
    self.onReport report = (none, self) := by
  rw [onReport]
  rw [Report.packet] at h
  split
  · rfl
  · rename_i bytes hs
    split
    · rfl
    · rename_i hp
      simp [hs, hp, Except.toOption] at h

end PacketHandler

theorem Report.Carries.bytes_le {report : Report} {packet : SensorPacket}
    (h : report.Carries packet) : packet.bytes.length ≤ SensorPacket.maxWireLen := by
  have hle := report.payload_le
  rw [h, List.length_append] at hle
  omega

/-- What a report that carries `packet` is forwarded as. -/
def Report.scanned (report : Report) (packet : SensorPacket) (h : report.Carries packet) :
    ScannedPacket :=
  ⟨report.addr, report.now, report.rssi, packet.bytes, h.bytes_le⟩

/-- Sending with the oldest packet dropped from a full channel. -/
theorem Channel.send_queue {α : Type} {n : Nat} (hn : 0 < n) (self : Channel α n) (a : α) :
    ((if self.isFull then self.tryReceive.2 else self).trySend a).queue =
      (self.queue ++ [a]).rtake n := by
  have hle := self.length_le
  rw [List.rtake, List.length_append, List.length_singleton]
  by_cases hfull : self.isFull = true
  · have hlen := self.isFull_eq.mp hfull
    have hne : self.queue ≠ [] := fun hnil => by
      rw [hnil, List.length_nil] at hlen
      omega
    have hone : self.queue.length + 1 - n = 1 := by omega
    have hroom : self.tryReceive.2.queue.length < n := by
      rw [tryReceive_queue, List.length_tail]
      omega
    rw [if_pos hfull, trySend_queue hroom, tryReceive_queue, hone, List.drop_one,
      List.tail_append_of_ne_nil hne]
  · have hlen : self.queue.length ≠ n := fun h => hfull (self.isFull_eq.mpr h)
    have hzero : self.queue.length + 1 - n = 0 := by omega
    rw [if_neg hfull, trySend_queue (by omega), hzero, List.drop_zero]

namespace PacketHandler

theorem onReport_of_carries (self : PacketHandler) {report : Report} {packet : SensorPacket}
    (h : report.Carries packet) :
    (self.onReport report).1 =
        (if (self.seqCache.get report.addr).1 = some packet.seq then none
          else some (report.scanned packet h)) ∧
      (self.onReport report).2.seqCache =
        (if (self.seqCache.get report.addr).1 = some packet.seq then
          (self.seqCache.get report.addr).2
          else ((self.seqCache.get report.addr).2.insert report.addr packet.seq).2) ∧
      (self.onReport report).2.channel.queue = match (self.onReport report).1 with
        | none => self.channel.queue
        | some p => (self.channel.queue ++ [p]).rtake 512 := by
  have hstrip : SensorPacket.stripAirMagic report.payload = .ok packet.bytes := by
    rw [h, SensorPacket.stripAirMagic_append]
  simp only [onReport, hstrip, SensorPacket.parse_bytes]
  by_cases hseq : (self.seqCache.get report.addr).1 = some packet.seq
  · simp only [hseq, if_true, and_self]
  · simp only [hseq, if_false, h.bytes_le, dif_pos]
    exact ⟨rfl, trivial, Channel.send_queue (by decide) self.channel _⟩

end PacketHandler

/-! ### Runs of the receiver -/

/-- `valid` lists the address and seq of every valid report, the newest first;
`forwarded` what the handler sent and `received` what was taken from the
backlog, in order. -/
structure Receiver where
  handler : PacketHandler
  valid : List (DeviceAddr × Word)
  forwarded : List ScannedPacket
  received : List ScannedPacket

namespace Receiver

def init : Receiver := ⟨.new, [], [], []⟩

def report (s : Receiver) (r : Report) : Receiver :=
  { handler := (s.handler.onReport r).2
    valid := (r.packet.map fun p => (r.addr, p.seq)).toList ++ s.valid
    forwarded := s.forwarded ++ (s.handler.onReport r).1.toList
    received := s.received }

end Receiver

inductive ReceiverStep : Receiver → Receiver → Prop
  | report {s : Receiver} (r : Report) : ReceiverStep s (s.report r)
  | receive {s : Receiver} {p : ScannedPacket} {channel : ScannedPacketChannel}
      (h : s.handler.channel.tryReceive = (some p, channel)) :
      ReceiverStep s
        { s with handler := { s.handler with channel }, received := s.received ++ [p] }

/-- The last valid report of `addr` did not carry `seq`, or there was none, or
32 other addresses had valid reports since. -/
def Fresh (valid : List (DeviceAddr × Word)) (addr : DeviceAddr) (seq : Word) : Prop :=
  ∀ p, last addr valid = some p → p.2 = seq → 32 ≤ ((since addr valid).map Prod.fst).dedup.length

/-- The newest 512 of the packets forwarded after the last one received. What
was dropped before a packet was received does not come back. -/
def Receiver.Backlog (s : Receiver) : Prop :=
  ∃ taken : List Nat, taken.Pairwise (· < ·) ∧
    taken.map (fun i => s.forwarded[i]?) = s.received.map some ∧
    s.handler.channel.queue = (s.forwarded.drop (taken.getLast?.elim 0 (· + 1))).rtake 512

/-- The cache holds the 32 addresses heard last, as long as its tick cannot
have wrapped. -/
def Receiver.Inv (s : Receiver) : Prop :=
  s.handler.seqCache.Refines s.valid ∧ s.handler.seqCache.tick.toNat ≤ 2 * s.valid.length

namespace Receiver

theorem recency_same {K V : Type} [DecidableEq K] (k : K) (v w : V) (history : List (K × V)) :
    recency ((k, v) :: (k, w) :: history) = recency ((k, v) :: history) := by
  simp [recency, List.filter_filter]

theorem inv_report {s : Receiver} (hs : s.Inv) (r : Report)
    (hticks : 2 * (s.report r).valid.length < 2 ^ 64) : (s.report r).Inv := by
  cases hp : r.packet with
  | none =>
    have hsame := PacketHandler.onReport_of_none s.handler hp
    simpa [Inv, report, hp, hsame] using hs
  | some packet =>
    have hcarries := Report.packet_eq_some.mp hp
    obtain ⟨-, hcache, -⟩ := PacketHandler.onReport_of_carries s.handler hcarries
    have hvalid : (s.report r).valid = (r.addr, packet.seq) :: s.valid := by simp [report, hp]
    obtain ⟨hc, htick⟩ := hs
    rw [hvalid, List.length_cons] at hticks
    obtain ⟨-, htick₁, hget⟩ := LruCache.get_refines hc (by omega) r.addr
    have hsucc₁ : (s.handler.seqCache.get r.addr).2.tick.toNat = s.handler.seqCache.tick.toNat + 1 := by
      rw [htick₁, LruCache.tick_succ (by omega)]
    rw [Inv, hvalid, List.length_cons]
    change LruCache.Refines (s.handler.onReport r).2.seqCache _ ∧
      (s.handler.onReport r).2.seqCache.tick.toNat ≤ _
    rw [hcache]
    by_cases hseq : (s.handler.seqCache.get r.addr).1 = some packet.seq
    · simp only [hseq, if_true] at hget ⊢
      exact ⟨hget, by omega⟩
    · simp only [hseq, if_false]
      obtain ⟨htick₂, hins⟩ := LruCache.insert_refines hget (by decide) (by omega) r.addr packet.seq
      rw [htick₂, LruCache.tick_succ (by omega)]
      refine ⟨?_, by omega⟩
      cases hw : (s.handler.seqCache.get r.addr).1 with
      | none => simpa only [hw] using hins
      | some w =>
        simp only [hw] at hins
        obtain ⟨items, hpacked, hord⟩ := hins
        rw [recency_same] at hord
        exact ⟨items, hpacked, hord⟩

theorem rtake_rtake_concat {α : Type} {n : Nat} (hn : 0 < n) (xs : List α) (a : α) :
    (xs.rtake n ++ [a]).rtake n = (xs ++ [a]).rtake n := by
  obtain ⟨m, rfl⟩ : ∃ m, n = m + 1 := ⟨n - 1, by omega⟩
  rw [List.rtake_concat_succ, List.rtake_concat_succ]
  simp [List.rtake_eq_reverse_take_reverse, List.take_take]

theorem rtake_drop {α : Type} (n k : Nat) (xs : List α) :
    (xs.drop k).rtake n = xs.drop (max k (xs.length - n)) := by
  rw [List.rtake, List.drop_drop, List.length_drop]
  congr 1
  omega

/-- The position after the last one taken. -/
def after (taken : List Nat) : Nat := taken.getLast?.elim 0 (· + 1)

theorem lt_after {taken : List Nat} (h : taken.Pairwise (· < ·)) {i : Nat} (hi : i ∈ taken) :
    i < after taken := by
  rcases List.eq_nil_or_concat' taken with rfl | ⟨front, l, rfl⟩
  · cases hi
  · have hl : after (front ++ [l]) = l + 1 := by simp [after]
    rw [List.pairwise_append] at h
    rw [hl, Nat.lt_succ_iff]
    rcases List.mem_append.mp hi with hf | hs
    · exact (h.2.2 i hf l (List.mem_singleton.mpr rfl)).le
    · exact (List.mem_singleton.mp hs).le

theorem after_le {taken : List Nat} {n : Nat} (h : ∀ i ∈ taken, i < n) : after taken ≤ n := by
  rcases List.eq_nil_or_concat' taken with rfl | ⟨front, l, rfl⟩
  · exact Nat.zero_le n
  · have hafter : after (front ++ [l]) = l + 1 := by simp [after]
    rw [hafter]
    exact h l (by simp)

theorem lt_length_of_taken {α : Type} {taken : List Nat} {xs ys : List α}
    (h : taken.map (fun i => xs[i]?) = ys.map some) {i : Nat} (hi : i ∈ taken) : i < xs.length := by
  have hmem : xs[i]? ∈ ys.map some := h ▸ List.mem_map.mpr ⟨i, hi, rfl⟩
  obtain ⟨y, -, hy⟩ := List.mem_map.mp hmem
  exact (List.getElem?_eq_some_iff.mp hy.symm).1

theorem backlog_send {s t : Receiver} (h : s.Backlog) (p : ScannedPacket)
    (hf : t.forwarded = s.forwarded ++ [p]) (hr : t.received = s.received)
    (hq : t.handler.channel.queue = (s.handler.channel.queue ++ [p]).rtake 512) : t.Backlog := by
  obtain ⟨taken, hpair, hmap, hqueue⟩ := h
  have hlt : ∀ i ∈ taken, i < s.forwarded.length := fun i hi => lt_length_of_taken hmap hi
  refine ⟨taken, hpair, ?_, ?_⟩
  · rw [hr, hf, ← hmap]
    exact List.map_congr_left fun i hi => List.getElem?_append_left (hlt i hi)
  · have hle : after taken ≤ s.forwarded.length := after_le hlt
    rw [hq, hqueue, rtake_rtake_concat (by decide), hf]
    exact congrArg (List.rtake · 512) (List.drop_append_of_le_length hle).symm

theorem backlog_report {s : Receiver} (h : s.Backlog) (r : Report) : (s.report r).Backlog := by
  cases hp : r.packet with
  | none =>
    have hsame := PacketHandler.onReport_of_none s.handler hp
    simpa [Backlog, report, hsame] using h
  | some packet =>
    obtain ⟨-, -, hqueue⟩ :=
      PacketHandler.onReport_of_carries s.handler (Report.packet_eq_some.mp hp)
    cases hsent : (s.handler.onReport r).1 with
    | none =>
      rw [hsent] at hqueue
      have hforwarded : (s.report r).forwarded = s.forwarded := by simp [report, hsent]
      obtain ⟨taken, hpair, hmap, hq⟩ := h
      exact ⟨taken, hpair, hforwarded ▸ hmap, hqueue.trans (hforwarded ▸ hq)⟩
    | some p =>
      rw [hsent] at hqueue
      exact backlog_send h p (by simp [report, hsent]) rfl hqueue

theorem backlog_receive {s : Receiver} (h : s.Backlog) {p : ScannedPacket}
    {channel : ScannedPacketChannel} (hp : s.handler.channel.tryReceive = (some p, channel)) :
    Backlog { s with handler := { s.handler with channel }, received := s.received ++ [p] } := by
  obtain ⟨taken, hpair, hmap, hqueue⟩ := h
  have hhead := Channel.queue_of_tryReceive hp
  have hle := s.handler.channel.length_le
  rw [hhead, List.length_cons] at hle
  rw [hhead, rtake_drop] at hqueue
  generalize hj : max (taken.getLast?.elim 0 (· + 1)) (s.forwarded.length - 512) = j at hqueue
  have hlt : j < s.forwarded.length := by
    by_contra hge
    rw [List.drop_eq_nil_of_le (by omega)] at hqueue
    cases hqueue
  rw [List.drop_eq_getElem_cons hlt, List.cons.injEq] at hqueue
  refine ⟨taken ++ [j], ?_, ?_, ?_⟩
  · refine List.pairwise_append.mpr ⟨hpair, List.pairwise_singleton _ _, fun i hi k hk => ?_⟩
    obtain rfl := List.mem_singleton.mp hk
    have hi' := lt_after hpair hi
    rw [after] at hi'
    omega
  · rw [List.map_append, List.map_append, hmap, hqueue.1, List.map_singleton, List.map_singleton,
      List.getElem?_eq_getElem hlt]
  · have hlast : (taken ++ [j]).getLast? = some j := by simp
    have hall : (s.forwarded.drop (j + 1)).length - 512 = 0 := by
      rw [← hqueue.2]
      omega
    rw [hlast, Option.elim_some, List.rtake, hall, List.drop_zero, ← hqueue.2]

/-- What a run keeps. -/
theorem run_inv {t : Receiver} (hrun : Relation.ReflTransGen ReceiverStep init t)
    (hticks : 2 * t.valid.length < 2 ^ 64) : t.Inv ∧ t.Backlog := by
  induction hrun with
  | refl => exact ⟨⟨LruCache.refines_new, Nat.zero_le _⟩, [], List.Pairwise.nil, rfl, rfl⟩
  | @tail s t _ hstep ih =>
    cases hstep with
    | report r =>
      have hle : s.valid.length ≤ (s.report r).valid.length := by simp [report]
      obtain ⟨hinv, hback⟩ := ih (by omega)
      exact ⟨inv_report hinv r hticks, backlog_report hback r⟩
    | receive hp =>
      obtain ⟨hinv, hback⟩ := ih hticks
      exact ⟨hinv, backlog_receive hback hp⟩

end Receiver

/-- The cache has the seq of a packet that is not fresh. -/
theorem Receiver.Inv.get_eq_some_iff {t : Receiver} (h : t.Inv) (hticks : 2 * t.valid.length < 2 ^ 64)
    (addr : DeviceAddr) (seq : Word) :
    (t.handler.seqCache.get addr).1 = some seq ↔ ¬Fresh t.valid addr seq := by
  obtain ⟨hc, htick⟩ := h
  obtain ⟨hget, -, -⟩ := LruCache.get_refines hc (by omega) addr
  rw [hget, last_take_recency, Fresh]
  push Not
  constructor
  · intro hh
    split_ifs at hh with hlt
    · obtain ⟨p, hp, hseq⟩ := Option.map_eq_some_iff.mp hh
      exact ⟨p, hp, hseq, hlt⟩
    · cases hh
  · rintro ⟨p, hp, hseq, hlt⟩
    rw [if_pos hlt, hp, Option.map_some, hseq]

/-- A device whose every report carries seq `0`. -/
def sampleReport (i : Nat) : Report where
  addr := ⟨[BitVec.ofNat 8 i, 0, 0, 0, 0, 0], rfl⟩
  rssi := ⟨0⟩
  payload := airMagic ++ [1, 0, 0, 0, 0]
  now := 0
  payload_le := by decide

/-- Before its 2 ^ 63rd valid report the receiver forwards exactly the fresh
packets, and its backlog holds the newest of them. -/
theorem receiver_dedup {t : Receiver} (hrun : Relation.ReflTransGen ReceiverStep .init t)
    (hticks : 2 * t.valid.length < 2 ^ 64) :
    (∀ report packet, (h : Report.Carries report packet) →
      (Fresh t.valid report.addr packet.seq →
        (t.handler.onReport report).1 = some (report.scanned packet h)) ∧
      (¬Fresh t.valid report.addr packet.seq → (t.handler.onReport report).1 = none)) ∧
    (∀ report : Report, (∀ packet, ¬report.Carries packet) →
      t.handler.onReport report = (none, t.handler)) ∧ t.Backlog := by
  obtain ⟨hinv, hback⟩ := Receiver.run_inv hrun hticks
  refine ⟨fun report packet h => ?_, fun report h => ?_, hback⟩
  · obtain ⟨hsent, -, -⟩ := PacketHandler.onReport_of_carries t.handler h
    have hcached := hinv.get_eq_some_iff hticks report.addr packet.seq
    refine ⟨fun hfresh => ?_, fun hstale => ?_⟩
    · rw [hsent, if_neg (fun he => hcached.mp he hfresh)]
    · rw [hsent, if_pos (hcached.mpr hstale)]
  · apply PacketHandler.onReport_of_none t.handler
    cases hp : report.packet with
    | none => rfl
    | some packet => exact absurd (Report.packet_eq_some.mp hp) (h packet)

theorem Receiver.reports_run (s : Receiver) (rs : List Report) :
    Relation.ReflTransGen ReceiverStep s (rs.foldl Receiver.report s) := by
  induction rs generalizing s with
  | nil => exact .refl
  | cons r rs ih => exact .head (.report r) (ih _)

/-- A device that is heard twice, then 32 others, then the device again. -/
def sampleReports : List Report := ([0, 0] ++ List.range' 1 32 ++ [0]).map sampleReport

theorem receiver_dedup_first :
    let t := sampleReports.foldl Receiver.report .init
    (t.valid.length, t.forwarded.length) = (35, 34) ∧
    (∀ report packet, (h : Report.Carries report packet) →
      (Fresh t.valid report.addr packet.seq →
        (t.handler.onReport report).1 = some (report.scanned packet h)) ∧
      (¬Fresh t.valid report.addr packet.seq → (t.handler.onReport report).1 = none)) ∧
    (∀ report : Report, (∀ packet, ¬report.Carries packet) →
      t.handler.onReport report = (none, t.handler)) ∧ t.Backlog :=
  ⟨by decide +kernel, receiver_dedup (Receiver.reports_run .init sampleReports) (by decide +kernel)⟩

/-! ### A whole callback -/

/-- The reports that a callback passes over to the loop's body. -/
def AdvReport.reports (reports : List (Option AdvReport)) : List Report :=
  reports.flatMap fun report => report.toList.flatMap fun r => r.data.filterMap r.reportOf

theorem PacketHandler.onExtAdvReports_eq (self : PacketHandler) (reports : List (Option AdvReport)) :
    self.onExtAdvReports reports =
      (AdvReport.reports reports).foldl (fun self r => (self.onReport r).2) self := by
  have hdata : ∀ (self : PacketHandler) (report : AdvReport) (data : List (Option AdStructure)),
      data.foldl (fun self ad => match report.reportOf ad with
        | none => self
        | some r => (self.onReport r).2) self =
      (data.filterMap report.reportOf).foldl (fun self r => (self.onReport r).2) self := by
    intro self report data
    induction data generalizing self with
    | nil => rfl
    | cons ad data ih =>
      cases hr : report.reportOf ad with
      | none => rw [List.foldl_cons, List.filterMap_cons_none hr, hr, ih]
      | some r => rw [List.foldl_cons, List.filterMap_cons_some hr, List.foldl_cons, hr, ih]
  rw [onExtAdvReports]
  induction reports generalizing self with
  | nil => rfl
  | cons report reports ih =>
    rw [List.foldl_cons, ih]
    cases report with
    | none => rfl
    | some report =>
      simp only [AdvReport.reports, List.flatMap_cons, Option.toList_some, List.flatMap_nil,
        List.append_nil, List.foldl_append]
      rw [hdata]

/-- A callback is a run of reports. -/
theorem Receiver.callback_run (s : Receiver) (reports : List (Option AdvReport)) :
    ∃ t, Relation.ReflTransGen ReceiverStep s t ∧
      t.handler = s.handler.onExtAdvReports reports := by
  have hhandler : ∀ (rs : List Report) (s : Receiver), (rs.foldl Receiver.report s).handler =
      rs.foldl (fun self r => (self.onReport r).2) s.handler := by
    intro rs
    induction rs with
    | nil => exact fun _ => rfl
    | cons r rs ih => exact fun s => ih (s.report r)
  exact ⟨_, s.reports_run (AdvReport.reports reports), by
    rw [hhandler, PacketHandler.onExtAdvReports_eq]⟩

/-! ### A packet that the backlog dropped -/

/-- A device's packet of every millisecond. -/
def burstReport (i : Nat) : Report where
  addr := (sampleReport 0).addr
  rssi := ⟨0⟩
  payload := airMagic ++ (SensorPacket.mk 1 (BitVec.ofNat 32 i) []).bytes
  now := i
  payload_le := by
    rw [List.length_append, SensorPacket.bytes_length]
    exact (by decide : airMagic.length + (SensorPacket.overheadSize + 0) ≤ SensorPacket.maxWireLen)

def Receiver.bursts (n : Nat) : Receiver := ((List.range n).map burstReport).foldl report .init

/-- No packet carries the seq of the one before it, so all are forwarded. -/
theorem Receiver.bursts_forwarded {n : Nat} (hn : n < 2 ^ 32) :
    (bursts n).valid.length = n ∧ (bursts n).received = [] ∧
      (bursts n).forwarded.map ScannedPacket.capturedAt = List.range n ∧
      ∀ v ∈ (bursts n).valid.head?, ∃ m, m + 1 = n ∧
        v = ((sampleReport 0).addr, BitVec.ofNat 32 m) := by
  induction n with
  | zero => exact ⟨rfl, rfl, rfl, by rintro _ ⟨⟩⟩
  | succ n ih =>
    obtain ⟨hlength, hreceived, hforwarded, hlast⟩ := ih (by omega)
    have hcarries : (burstReport n).Carries ⟨1, BitVec.ofNat 32 n, []⟩ := rfl
    have hticks : 2 * (bursts n).valid.length < 2 ^ 64 := by omega
    have hfresh : Fresh (bursts n).valid (burstReport n).addr (BitVec.ofNat 32 n) := by
      intro p hp hseq
      cases hv : (bursts n).valid with
      | nil =>
        rw [hv] at hp
        cases hp
      | cons v rest =>
        obtain ⟨m, rfl, rfl⟩ := hlast v (by rw [hv]; rfl)
        rw [hv, last, List.find?_cons_of_pos (by simp [burstReport])] at hp
        cases hp
        have hnat := congrArg BitVec.toNat hseq
        simp only [BitVec.toNat_ofNat] at hnat
        omega
    have hsucc : bursts (n + 1) = (bursts n).report (burstReport n) := by
      simp [bursts, List.range_succ]
    have hinv : (bursts n).Inv := (run_inv (reports_run .init _) hticks).1
    obtain ⟨hsent, -, -⟩ := PacketHandler.onReport_of_carries (bursts n).handler hcarries
    rw [if_neg fun he => (hinv.get_eq_some_iff hticks _ _).mp he hfresh] at hsent
    rw [hsucc, report, hsent, Report.packet_eq_some.mpr hcarries]
    refine ⟨?_, hreceived, ?_, ?_⟩
    · simp [hlength]
    · simp [hforwarded, List.range_succ, Report.scanned, burstReport]
    · rintro _ ⟨⟩
      exact ⟨n, rfl, rfl⟩

/-- What was forwarded and not received yet. -/
def Receiver.waiting (s : Receiver) : List ScannedPacket := s.forwarded.filter (· ∉ s.received)

/-- The packet that a full backlog dropped is not held again once there is room. -/
theorem backlog_dropped : ∃ t, Relation.ReflTransGen ReceiverStep .init t ∧ t.forwarded.Nodup ∧
    t.handler.channel.queue ≠ t.waiting.rtake 512 := by
  obtain ⟨hvalid, hreceived, hforwarded, -⟩ := @Receiver.bursts_forwarded 513 (by decide)
  have hrun : Relation.ReflTransGen ReceiverStep .init (Receiver.bursts 513) := Receiver.reports_run ..
  generalize Receiver.bursts 513 = s at hvalid hreceived hforwarded hrun
  have hlength : s.forwarded.length = 513 := by rw [← List.length_map, hforwarded, List.length_range]
  have hnodup : s.forwarded.Nodup := .of_map _ (hforwarded ▸ List.nodup_range)
  have hqueued : s.handler.channel.queue.length = 512 := by
    obtain ⟨taken, -, htaken, hqueue⟩ := (Receiver.run_inv hrun (by omega)).2
    rw [hreceived, List.map_nil, List.map_eq_nil_iff] at htaken
    rw [hqueue, htaken, List.rtake, List.length_drop, List.length_drop, hlength]
    rfl
  obtain ⟨p, queue, hqueue⟩ := List.exists_cons_of_length_pos (hqueued.symm ▸ (by decide : 0 < 512))
  obtain ⟨channel, hreceive, hrest⟩ := Channel.tryReceive_of_queue hqueue
  refine ⟨_, hrun.tail (.receive hreceive), hnodup, fun heq => ?_⟩
  have hwaiting : (s.forwarded.filter (· ∉ s.received ++ [p])).length = (s.forwarded.erase p).length := by
    rw [hnodup.erase_eq_filter, hreceived]
    simp only [List.nil_append, List.mem_singleton, decide_not]
    rfl
  have hlengths := congrArg List.length heq
  rw [Receiver.waiting, List.rtake, List.length_drop, hwaiting, List.length_erase, hlength, hrest] at hlengths
  rw [hqueue, List.length_cons] at hqueued
  split at hlengths <;> omega

/-! ### The tick wraps -/

/-- A lookup of the key in the last occupied slot. -/
theorem LruCache.get_last {K V : Type} {n : Nat} [DecidableEq K]
    {front : List (Option (K × LruCacheItem V))} {key : K}
    (hfront : ∀ slot ∈ front, slot.any (fun item => item.1 = key) = false) (item : LruCacheItem V)
    (tick : BitVec 64) :
    get (⟨front ++ [some (key, item)], front.length + 1, tick⟩ : LruCache K V n) key =
      (some item.value,
        ⟨front ++ [some (key, ⟨tick + 1, item.value⟩)], front.length + 1, tick + 1⟩) := by
  have hnone : front.findIdx? (fun slot => slot.any (fun item => item.1 = key)) = none := by
    rw [List.findIdx?_eq_none_iff]
    exact hfront
  have hfind : findItem (⟨front ++ [some (key, item)], front.length + 1, tick + 1⟩ :
      LruCache K V n) key = some front.length := by
    rw [findItem, List.take_of_length_le (by simp), List.findIdx?_append, hnone]
    simp
  simp only [get, hfind, valueAt, modifyItem, modify_length_append]
  simp

/-- The receiver once `report` has been heard again, with the cache's tick. -/
def Receiver.heard (s : Receiver) (front : List (Option (DeviceAddr × LruCacheItem Word)))
    (addr : DeviceAddr) (seq : Word) (tick : BitVec 64) (valid : List (DeviceAddr × Word)) :
    Receiver :=
  { s with
    handler := { s.handler with
      seqCache := ⟨front ++ [some (addr, ⟨tick, seq⟩)], front.length + 1, tick⟩ }
    valid }

section Heard

variable {s : Receiver} {front : List (Option (DeviceAddr × LruCacheItem Word))} {r : Report}
  {packet : SensorPacket}

theorem Receiver.heard_report (hr : r.Carries packet)
    (hfront : ∀ slot ∈ front, slot.any (fun item => item.1 = r.addr) = false) (tick : BitVec 64)
    (valid : List (DeviceAddr × Word)) :
    (s.heard front r.addr packet.seq tick valid).report r =
      s.heard front r.addr packet.seq (tick + 1) ((r.addr, packet.seq) :: valid) := by
  have hstrip : SensorPacket.stripAirMagic r.payload = .ok packet.bytes := by
    rw [hr, SensorPacket.stripAirMagic_append]
  have hget := LruCache.get_last (n := 32) hfront ⟨tick, packet.seq⟩ tick
  have hreport : (s.heard front r.addr packet.seq tick valid).handler.onReport r =
      (none, (s.heard front r.addr packet.seq (tick + 1) valid).handler) := by
    simp only [PacketHandler.onReport, hstrip, SensorPacket.parse_bytes, heard, hget, if_true]
  rw [report, hreport, Report.packet_eq_some.mpr hr]
  simp [heard]

/-- Hearing the same packet again and again only moves the tick. -/
theorem Receiver.heard_run (hr : r.Carries packet)
    (hfront : ∀ slot ∈ front, slot.any (fun item => item.1 = r.addr) = false) (tick : BitVec 64)
    (valid : List (DeviceAddr × Word)) (n : Nat) :
    ∃ valid', Relation.ReflTransGen ReceiverStep (s.heard front r.addr packet.seq tick valid)
      (s.heard front r.addr packet.seq (tick + BitVec.ofNat 64 (n + 1))
        ((r.addr, packet.seq) :: valid')) := by
  induction n with
  | zero =>
    have hstep := ReceiverStep.report (s := s.heard front r.addr packet.seq tick valid) r
    rw [heard_report hr hfront] at hstep
    exact ⟨valid, .single hstep⟩
  | succ n ih =>
    obtain ⟨valid', hrun⟩ := ih
    have hstep := ReceiverStep.report (s := s.heard front r.addr packet.seq
      (tick + BitVec.ofNat 64 (n + 1)) ((r.addr, packet.seq) :: valid')) r
    rw [heard_report hr hfront, BitVec.add_assoc] at hstep
    have hnext : BitVec.ofNat 64 (n + 1) + 1 = BitVec.ofNat 64 (n + 1 + 1) :=
      (BitVec.ofNat_add (n + 1) 1).symm
    rw [hnext] at hstep
    exact ⟨_, hrun.tail hstep⟩

end Heard

/-- One report of each of 32 devices, the last one of device `0`. -/
def sampleFilled : Receiver :=
  ((List.range 32).reverse.map sampleReport).foldl Receiver.report .init

def sampleFront : List (Option (DeviceAddr × LruCacheItem Word)) :=
  sampleFilled.handler.seqCache.cache.take 31

/-- Once the tick has wrapped to `0`, device `0` is evicted although it was the
last one heard, and its next repetition is forwarded. And the backlog is not
always the newest of what waits. -/
theorem not_receiver_dedup :
    (¬∀ t, Relation.ReflTransGen ReceiverStep .init t → ∀ report packet, Report.Carries report packet →
      ((t.handler.onReport report).1.isSome ↔ Fresh t.valid report.addr packet.seq)) ∧
    ¬∀ t, Relation.ReflTransGen ReceiverStep .init t → t.forwarded.Nodup →
      t.handler.channel.queue = t.waiting.rtake 512 := by
  refine ⟨fun hall => ?_, fun hall => ?_⟩
  case refine_2 =>
    obtain ⟨t, hrun, hnodup, hdropped⟩ := backlog_dropped
    exact hdropped (hall t hrun hnodup)
  have hcarries : (sampleReport 0).Carries ⟨1, 0, []⟩ := rfl
  have hfront : ∀ slot ∈ sampleFront,
      slot.any (fun item => item.1 = (sampleReport 0).addr) = false := by decide +kernel
  have hcache : sampleFilled.handler.seqCache =
      ⟨sampleFront ++ [some ((sampleReport 0).addr, ⟨64, 0⟩)], sampleFront.length + 1, 64⟩ := by
    decide +kernel
  have hfilled : sampleFilled =
      sampleFilled.heard sampleFront (sampleReport 0).addr 0 64 sampleFilled.valid := by
    rw [Receiver.heard, ← hcache]
  have hrun := Receiver.reports_run .init ((List.range 32).reverse.map sampleReport)
  obtain ⟨valid, hheard⟩ := Receiver.heard_run (s := sampleFilled) hcarries hfront 64
    sampleFilled.valid (2 ^ 64 - 65)
  have hwrap : (64 : BitVec 64) + BitVec.ofNat 64 (2 ^ 64 - 65 + 1) = 0 := by decide
  rw [hwrap, ← hfilled] at hheard
  have hother := hheard.tail (.report (sampleReport 32))
  have hsome : ((sampleFilled.heard sampleFront (sampleReport 0).addr 0 0
      []).report (sampleReport 32)).handler.onReport (sampleReport 0) |>.1.isSome = true := by
    decide +kernel
  have hfresh := (hall _ (hrun.trans hother) (sampleReport 0) _ hcarries).mp hsome
  have hlt : ((since (sampleReport 0).addr ((Receiver.report (sampleFilled.heard sampleFront
      (sampleReport 0).addr 0 0 (((sampleReport 0).addr, 0) :: valid))
        (sampleReport 32)).valid)).map Prod.fst).dedup.length = 1 := rfl
  have hge := hfresh ((sampleReport 0).addr, 0) rfl rfl
  rw [hlt] at hge
  omega

end Homescope
