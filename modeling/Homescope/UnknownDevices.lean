import Homescope.DeviceKey
import Mathlib.Data.List.AList
import Mathlib.Data.List.Induction

/-! What the ingest reports of packets from unknown devices
(`api/src/ingest/unknown_devices.rs`). An `Instant` is a number of nanoseconds;
the counters wrap. -/

namespace Homescope

/-! ### Times that are kept apart -/

/-- Each time is at least `interval` later than those before it. -/
def Spaced (interval : Nat) (times : List Nat) : Prop :=
  times.Pairwise fun t u => t + interval ≤ u

theorem Spaced.snoc {interval last now : Nat} {times : List Nat} (h : Spaced interval times)
    (hpos : 0 < interval) (hle : ∀ t ∈ times, t ≤ last) (hlate : ¬now - last < interval) :
    Spaced interval (times ++ [now]) := by
  refine List.pairwise_append.mpr ⟨h, List.pairwise_singleton .., fun t ht u hu => ?_⟩
  obtain rfl := List.mem_singleton.mp hu
  have hlast := hle t ht
  omega

/-! ### The table -/

namespace UnknownDevices

def maxTracked : Nat := 256

def reportInterval : Nat := 60 * 60 * 1000000000

inductive Report
  | new
  | repeated (count : BitVec 64) (since : Nat)
  | overflow (packets : BitVec 64)
  deriving DecidableEq, Repr

structure Entry where
  count : BitVec 64
  firstSeen : Nat
  lastReported : Nat

end UnknownDevices

structure UnknownDevices where
  tracked : AList fun _ : DeviceAddr => UnknownDevices.Entry := ∅
  overflowPackets : BitVec 64 := 0
  overflowReported : Option Nat := none

namespace UnknownDevices

def size (s : UnknownDevices) : Nat := s.tracked.keys.length

def withEntry (s : UnknownDevices) (addr : DeviceAddr) (entry : Entry) : UnknownDevices :=
  { s with tracked := s.tracked.insert addr entry }

/-- `duration_since` is zero for an earlier time. -/
def record (s : UnknownDevices) (now : Nat) (deviceAddr : DeviceAddr) :
    Option Report × UnknownDevices :=
  match s.tracked.lookup deviceAddr with
  | some entry =>
    let entry := { entry with count := entry.count + 1 }
    if now - entry.lastReported < reportInterval then (none, s.withEntry deviceAddr entry)
    else
      (some (.repeated entry.count (now - entry.firstSeen)),
        s.withEntry deviceAddr { entry with lastReported := now })
  | none =>
    if s.size < maxTracked then (some .new, s.withEntry deviceAddr ⟨1, now, now⟩)
    else
      let s := { s with overflowPackets := s.overflowPackets + 1 }
      if s.overflowReported.any (now - · < reportInterval) then (none, s)
      else (some (.overflow s.overflowPackets), { s with overflowReported := some now })

/-! ### Sequences of calls -/

structure Call where
  time : Nat
  addr : DeviceAddr

/-- A call and what it returned. -/
structure CallEvent extends Call where
  report : Option Report

/-- A report about one id. -/
def CallEvent.isOwn (e : CallEvent) : Bool :=
  match e.report with
  | some .new | some (.repeated _ _) => true
  | _ => false

def CallEvent.isOverflow (e : CallEvent) : Bool :=
  match e.report with
  | some (.overflow _) => true
  | _ => false

def call (p : List CallEvent × UnknownDevices) (c : Call) : List CallEvent × UnknownDevices :=
  (p.1 ++ [⟨c, (p.2.record c.time c.addr).1⟩], (p.2.record c.time c.addr).2)

def run (calls : List Call) : List CallEvent × UnknownDevices := calls.foldl call ([], {})

/-- The events so far, and the table that they left. -/
def log (calls : List Call) : List CallEvent := (run calls).1

def table (calls : List Call) : UnknownDevices := (run calls).2

def packets (log : List CallEvent) (addr : DeviceAddr) : Nat := log.countP (·.addr = addr)

def reportTimes (log : List CallEvent) (addr : DeviceAddr) : List Nat :=
  (log.filter fun e => e.addr = addr ∧ e.isOwn).map (·.time)

def overflowTimes (log : List CallEvent) : List Nat := (log.filter (·.isOverflow)).map (·.time)

/-- The id's first packet is the one that was reported as new. -/
def NewOnce (log : List CallEvent) (addr : DeviceAddr) : Prop :=
  ∃ e rest, log.filter (·.addr = addr) = e :: rest ∧ e.report = some .new ∧
    ∀ e ∈ rest, e.report ≠ some .new

/-- What the table knows of the events. -/
structure Sound (log : List CallEvent) (s : UnknownDevices) : Prop where
  size_le : s.size ≤ maxTracked
  count_eq : ∀ addr entry, s.tracked.lookup addr = some entry →
    entry.count = BitVec.ofNat 64 (packets log addr)
  newOnce : ∀ addr ∈ s.tracked, NewOnce log addr
  le_lastReported : ∀ addr entry, s.tracked.lookup addr = some entry →
    ∀ t ∈ reportTimes log addr, t ≤ entry.lastReported
  lastReported_mem : ∀ addr entry, s.tracked.lookup addr = some entry →
    entry.lastReported ∈ reportTimes log addr
  full : ∀ e ∈ log, e.addr ∉ s.tracked → s.size = maxTracked
  spaced : ∀ addr, Spaced reportInterval (reportTimes log addr)
  overflow_eq : s.overflowPackets = BitVec.ofNat 64 (log.countP (·.addr ∉ s.tracked))
  le_overflowReported : ∀ t ∈ overflowTimes log, ∃ last ∈ s.overflowReported, t ≤ last
  overflowReported_mem : ∀ t ∈ s.overflowReported, t ∈ overflowTimes log
  overflow_spaced : Spaced reportInterval (overflowTimes log)

/-! ### One more call -/

section Snoc

variable {log : List CallEvent} {s : UnknownDevices} {e : CallEvent} {addr : DeviceAddr}

theorem packets_snoc (log : List CallEvent) (e : CallEvent) (addr : DeviceAddr) :
    packets (log ++ [e]) addr = packets log addr + if e.addr = addr then 1 else 0 := by
  simp [packets, List.countP_append, List.countP_cons]

theorem reportTimes_snoc_of_ne (h : ¬(e.addr = addr ∧ e.isOwn = true)) :
    reportTimes (log ++ [e]) addr = reportTimes log addr := by
  simp [reportTimes, List.filter_append, h]

theorem reportTimes_snoc (h : e.addr = addr) (ho : e.isOwn = true) :
    reportTimes (log ++ [e]) addr = reportTimes log addr ++ [e.time] := by
  simp [reportTimes, List.filter_append, h, ho]

theorem overflowTimes_snoc_of_not (h : e.isOverflow = false) :
    overflowTimes (log ++ [e]) = overflowTimes log := by
  simp [overflowTimes, List.filter_append, h]

theorem NewOnce.snoc (h : NewOnce log addr) (he : e.addr = addr → e.report ≠ some .new) :
    NewOnce (log ++ [e]) addr := by
  obtain ⟨first, rest, hfilter, hnew, hrest⟩ := h
  by_cases haddr : e.addr = addr
  · refine ⟨first, rest ++ [e], by simp [List.filter_append, hfilter, haddr], hnew, ?_⟩
    intro e' he'
    rcases List.mem_append.mp he' with he' | he'
    · exact hrest e' he'
    · rw [List.mem_singleton.mp he']
      exact he haddr
  · exact ⟨first, rest, by simp [List.filter_append, hfilter, haddr], hnew, hrest⟩

theorem size_withEntry (s : UnknownDevices) (addr : DeviceAddr) (entry : Entry) :
    (s.withEntry addr entry).size = if addr ∈ s.tracked then s.size else s.size + 1 := by
  rw [size, withEntry, AList.keys_insert, List.length_cons]
  by_cases h : addr ∈ s.tracked
  · have hmem := AList.mem_keys.mp h
    have hpos := List.length_pos_of_mem hmem
    rw [if_pos h, List.length_erase_of_mem hmem, size]
    omega
  · rw [if_neg h, List.erase_of_not_mem (mt AList.mem_keys.mpr h), size]

theorem mem_withEntry {s : UnknownDevices} {addr addr' : DeviceAddr} {entry : Entry} :
    addr' ∈ (s.withEntry addr entry).tracked ↔ addr' = addr ∨ addr' ∈ s.tracked :=
  AList.mem_insert _

theorem lookup_withEntry (s : UnknownDevices) (addr addr' : DeviceAddr) (entry : Entry) :
    (s.withEntry addr entry).tracked.lookup addr' =
      if addr' = addr then some entry else s.tracked.lookup addr' := by
  by_cases h : addr' = addr
  · rw [if_pos h, h]
    exact AList.lookup_insert _
  · rw [if_neg h]
    exact AList.lookup_insert_ne h

theorem withEntry_tracked {s : UnknownDevices} {entry : Entry} (h : s.tracked.lookup addr = some entry)
    (entry' : Entry) : (s.withEntry addr entry').size = s.size ∧
      ∀ addr', addr' ∈ (s.withEntry addr entry').tracked ↔ addr' ∈ s.tracked := by
  have hmem : addr ∈ s.tracked := AList.lookup_isSome.mp (by rw [h]; rfl)
  refine ⟨by rw [size_withEntry, if_pos hmem], fun addr' => mem_withEntry.trans ?_⟩
  exact or_iff_right_of_imp fun heq => heq ▸ hmem

/-- A packet of a tracked id, reported again or not. -/
theorem Sound.tracked {entry entry' : Entry} (h : Sound log s)
    (hlookup : s.tracked.lookup e.addr = some entry) (hcount : entry'.count = entry.count + 1)
    (hreport : e.report = none ∧ entry'.lastReported = entry.lastReported ∨
      (∃ n since, e.report = some (.repeated n since)) ∧ entry'.lastReported = e.time ∧
        ¬e.time - entry.lastReported < reportInterval) :
    Sound (log ++ [e]) (s.withEntry e.addr entry') := by
  obtain ⟨hsize, hmem⟩ := withEntry_tracked hlookup entry'
  have htracked : e.addr ∈ s.tracked := AList.lookup_isSome.mp (by rw [hlookup]; rfl)
  have hlast := h.le_lastReported _ _ hlookup
  have hnew : e.report ≠ some .new := by
    rcases hreport with ⟨hr, -⟩ | ⟨⟨n, since, hr⟩, -⟩ <;> simp [hr]
  have hoverflow : e.isOverflow = false := by
    rcases hreport with ⟨hr, -⟩ | ⟨⟨n, since, hr⟩, -⟩ <;> simp [CallEvent.isOverflow, hr]
  have htimes : reportTimes (log ++ [e]) e.addr = reportTimes log e.addr ∧
      entry'.lastReported = entry.lastReported ∨
      reportTimes (log ++ [e]) e.addr = reportTimes log e.addr ++ [e.time] ∧
        entry'.lastReported = e.time ∧ ¬e.time - entry.lastReported < reportInterval := by
    rcases hreport with ⟨hr, hsame⟩ | ⟨⟨n, since, hr⟩, hlate⟩
    · exact .inl ⟨reportTimes_snoc_of_ne (by simp [CallEvent.isOwn, hr]), hsame⟩
    · exact .inr ⟨reportTimes_snoc rfl (by simp [CallEvent.isOwn, hr]), hlate⟩
  have hother : ∀ addr, addr ≠ e.addr → reportTimes (log ++ [e]) addr = reportTimes log addr :=
    fun addr hne => reportTimes_snoc_of_ne fun hh => hne hh.1.symm
  refine ⟨hsize ▸ h.size_le, fun addr x hx => ?_, fun addr haddr => ?_, fun addr x hx t ht => ?_,
    fun addr x hx => ?_, fun e' he' hnot => ?_, fun addr => ?_, ?_, ?_, ?_, ?_⟩
  · rw [lookup_withEntry] at hx
    rw [packets_snoc]
    split at hx
    · rename_i heq
      cases hx
      rw [if_pos heq.symm, hcount, h.count_eq _ _ hlookup, heq, BitVec.ofNat_add]
      rfl
    · rename_i hne
      rw [if_neg (Ne.symm hne), h.count_eq _ _ hx, Nat.add_zero]
  · exact (h.newOnce addr ((hmem addr).mp haddr)).snoc fun _ => hnew
  · rw [lookup_withEntry] at hx
    split at hx
    · rename_i heq
      subst heq
      cases hx
      rcases htimes with ⟨hsame, heq⟩ | ⟨happ, hnow, hlate⟩
      · rw [hsame] at ht
        exact heq ▸ hlast t ht
      · rw [happ] at ht
        rcases List.mem_append.mp ht with ht | ht
        · have hle := hlast t ht
          have hpos : 0 < reportInterval := by decide
          omega
        · rw [List.mem_singleton.mp ht, hnow]
    · rename_i hne
      rw [hother addr hne] at ht
      exact h.le_lastReported addr x hx t ht
  · rw [lookup_withEntry] at hx
    split at hx
    · rename_i heq
      subst heq
      cases hx
      rcases htimes with ⟨hsame, heq⟩ | ⟨happ, hnow, -⟩
      · rw [hsame, heq]
        exact h.lastReported_mem _ _ hlookup
      · rw [happ, hnow]
        exact List.mem_concat_self
    · rename_i hne
      rw [hother addr hne]
      exact h.lastReported_mem addr x hx
  · rw [hsize]
    rw [hmem] at hnot
    rcases List.mem_append.mp he' with he' | he'
    · exact h.full e' he' hnot
    · rw [List.mem_singleton.mp he'] at hnot
      exact absurd htracked hnot
  · by_cases heq : addr = e.addr
    · subst heq
      rcases htimes with ⟨hsame, -⟩ | ⟨happ, -, hlate⟩
      · exact hsame ▸ h.spaced _
      · exact happ ▸ (h.spaced _).snoc (by decide) hlast hlate
    · exact hother addr heq ▸ h.spaced addr
  · simp only [hmem]
    rw [List.countP_append, List.countP_singleton, if_neg (by simpa using htracked), Nat.add_zero]
    exact h.overflow_eq
  · rw [overflowTimes_snoc_of_not hoverflow]
    exact h.le_overflowReported
  · rw [overflowTimes_snoc_of_not hoverflow]
    exact h.overflowReported_mem
  · rw [overflowTimes_snoc_of_not hoverflow]
    exact h.overflow_spaced

/-- The first packet of an id, while there is room. -/
theorem Sound.fresh (h : Sound log s) (hlookup : s.tracked.lookup e.addr = none)
    (hroom : s.size < maxTracked) (hreport : e.report = some .new) :
    Sound (log ++ [e]) (s.withEntry e.addr ⟨1, e.time, e.time⟩) := by
  have hnot : e.addr ∉ s.tracked := AList.lookup_eq_none.mp hlookup
  have hoverflow : e.isOverflow = false := by simp [CallEvent.isOverflow, hreport]
  have hseen : ∀ e' ∈ log, e'.addr ∈ s.tracked := by
    intro e' he'
    by_contra hh
    exact absurd (h.full e' he' hh) hroom.ne
  have hfirst : ∀ e' ∈ log, e'.addr ≠ e.addr := fun e' he' heq => hnot (heq ▸ hseen e' he')
  have hempty : reportTimes log e.addr = [] := by
    rw [reportTimes, List.filter_eq_nil_iff.mpr, List.map_nil]
    intro e' he'
    simp [hfirst e' he']
  have htimes : reportTimes (log ++ [e]) e.addr = [e.time] := by
    rw [reportTimes_snoc rfl (by simp [CallEvent.isOwn, hreport]), hempty, List.nil_append]
  have hother : ∀ addr, addr ≠ e.addr → reportTimes (log ++ [e]) addr = reportTimes log addr :=
    fun addr hne => reportTimes_snoc_of_ne fun hh => hne hh.1.symm
  refine ⟨?_, fun addr x hx => ?_, fun addr haddr => ?_, fun addr x hx t ht => ?_, fun addr x hx => ?_,
    fun e' he' hh => ?_, fun addr => ?_, ?_, ?_, ?_, ?_⟩
  · rw [size_withEntry, if_neg hnot]
    exact hroom
  · rw [lookup_withEntry] at hx
    rw [packets_snoc]
    split at hx
    · rename_i heq
      cases hx
      have hzero : packets log addr = 0 := by
        rw [packets, List.countP_eq_zero]
        intro e' he'
        simpa using heq ▸ hfirst e' he'
      rw [if_pos heq.symm, hzero]
      rfl
    · rename_i hne
      rw [if_neg (Ne.symm hne), h.count_eq _ _ hx, Nat.add_zero]
  · by_cases heq : addr = e.addr
    · refine ⟨e, [], ?_, hreport, by rintro _ ⟨⟩⟩
      rw [List.filter_append, List.filter_eq_nil_iff.mpr]
      · simp [heq]
      · intro e' he'
        simpa [heq] using hfirst e' he'
    · have htracked := (mem_withEntry.mp haddr).resolve_left heq
      exact (h.newOnce addr htracked).snoc fun hh => absurd hh.symm heq
  · rw [lookup_withEntry] at hx
    split at hx
    · rename_i heq
      subst heq
      cases hx
      rw [htimes, List.mem_singleton] at ht
      exact ht.le
    · rename_i hne
      rw [hother addr hne] at ht
      exact h.le_lastReported addr x hx t ht
  · rw [lookup_withEntry] at hx
    split at hx
    · rename_i heq
      subst heq
      cases hx
      rw [htimes]
      exact List.mem_singleton_self e.time
    · rename_i hne
      rw [hother addr hne]
      exact h.lastReported_mem addr x hx
  · rw [mem_withEntry, not_or] at hh
    rcases List.mem_append.mp he' with he' | he'
    · exact absurd (hseen e' he') hh.2
    · exact absurd (congrArg (·.addr) (List.mem_singleton.mp he')) hh.1
  · by_cases heq : addr = e.addr
    · rw [heq, htimes]
      exact List.pairwise_singleton ..
    · exact hother addr heq ▸ h.spaced addr
  · have hzero : ∀ t : AList fun _ : DeviceAddr => Entry, (∀ e' ∈ log, e'.addr ∈ t) →
        log.countP (·.addr ∉ t) = 0 := fun t ht =>
      List.countP_eq_zero.mpr fun e' he' => by simpa using ht e' he'
    rw [List.countP_append, hzero _ fun e' he' => mem_withEntry.mpr (.inr (hseen e' he')),
      List.countP_singleton, if_neg (by simpa using mem_withEntry.mpr (.inl rfl))]
    exact h.overflow_eq.trans (congrArg (BitVec.ofNat 64) (hzero _ hseen))
  · rw [overflowTimes_snoc_of_not hoverflow]
    exact h.le_overflowReported
  · rw [overflowTimes_snoc_of_not hoverflow]
    exact h.overflowReported_mem
  · rw [overflowTimes_snoc_of_not hoverflow]
    exact h.overflow_spaced

/-- A packet of another id once the table is full, reported or not. -/
theorem Sound.overflowed (h : Sound log s) (hlookup : s.tracked.lookup e.addr = none)
    (hfull : ¬s.size < maxTracked) {last : Option Nat}
    (hreport : e.report = none ∧ last = s.overflowReported ∨
      (∃ n, e.report = some (.overflow n)) ∧ last = some e.time ∧
        ∀ t ∈ s.overflowReported, ¬e.time - t < reportInterval) :
    Sound (log ++ [e])
      { s with overflowPackets := s.overflowPackets + 1, overflowReported := last } := by
  have hnot : e.addr ∉ s.tracked := AList.lookup_eq_none.mp hlookup
  have hown : e.isOwn = false := by
    rcases hreport with ⟨hr, -⟩ | ⟨⟨n, hr⟩, -⟩ <;> simp [CallEvent.isOwn, hr]
  have hnew : e.report ≠ some .new := by
    rcases hreport with ⟨hr, -⟩ | ⟨⟨n, hr⟩, -⟩ <;> simp [hr]
  have htimes : ∀ addr, reportTimes (log ++ [e]) addr = reportTimes log addr := fun addr =>
    reportTimes_snoc_of_ne (by simp [hown])
  have hoverflow : overflowTimes (log ++ [e]) = overflowTimes log ∧ last = s.overflowReported ∨
      overflowTimes (log ++ [e]) = overflowTimes log ++ [e.time] ∧ last = some e.time ∧
        ∀ t ∈ s.overflowReported, ¬e.time - t < reportInterval := by
    rcases hreport with ⟨hr, hsame⟩ | ⟨⟨n, hr⟩, hlate⟩
    · exact .inl ⟨overflowTimes_snoc_of_not (by simp [CallEvent.isOverflow, hr]), hsame⟩
    · refine .inr ⟨?_, hlate⟩
      simp [overflowTimes, List.filter_append, CallEvent.isOverflow, hr]
  refine ⟨h.size_le, fun addr x hx => ?_, fun addr haddr => (h.newOnce addr haddr).snoc fun _ => hnew,
    fun addr x hx => htimes addr ▸ h.le_lastReported addr x hx,
    fun addr x hx => htimes addr ▸ h.lastReported_mem addr x hx, fun e' he' hh => ?_,
    fun addr => htimes addr ▸ h.spaced addr, ?_, ?_, ?_, ?_⟩
  · have hne : e.addr ≠ addr := by
      rintro rfl
      rw [hlookup] at hx
      cases hx
    rw [packets_snoc, if_neg hne, Nat.add_zero]
    exact h.count_eq addr x hx
  · exact le_antisymm h.size_le (not_lt.mp hfull)
  · rw [List.countP_append, List.countP_singleton, if_pos (by simpa using hnot)]
    exact (congrArg (· + 1) h.overflow_eq).trans (BitVec.ofNat_add ..).symm
  · rcases hoverflow with ⟨hsame, rfl⟩ | ⟨happ, rfl, hlate⟩
    · rw [hsame]
      exact h.le_overflowReported
    · intro t ht
      refine ⟨e.time, rfl, ?_⟩
      rw [happ] at ht
      rcases List.mem_append.mp ht with ht | ht
      · obtain ⟨u, hu, hle⟩ := h.le_overflowReported t ht
        have hlate := hlate u hu
        have hpos : 0 < reportInterval := by decide
        omega
      · exact (List.mem_singleton.mp ht).le
  · rcases hoverflow with ⟨hsame, rfl⟩ | ⟨happ, rfl, -⟩
    · rw [hsame]
      exact h.overflowReported_mem
    · rintro _ ⟨⟩
      rw [happ]
      exact List.mem_concat_self
  · rcases hoverflow with ⟨hsame, -⟩ | ⟨happ, -, hlate⟩
    · exact hsame ▸ h.overflow_spaced
    · rw [happ]
      cases hlast : s.overflowReported with
      | none =>
        have hempty : overflowTimes log = [] := by
          refine List.eq_nil_iff_forall_not_mem.mpr fun t ht => ?_
          obtain ⟨u, hu, -⟩ := h.le_overflowReported t ht
          rw [hlast] at hu
          cases hu
        rw [hempty]
        exact List.pairwise_singleton ..
      | some u =>
        refine h.overflow_spaced.snoc (by decide) (fun t ht => ?_) (hlate u hlast)
        obtain ⟨u', hu', hle⟩ := h.le_overflowReported t ht
        rw [hlast] at hu'
        cases hu'
        exact hle

end Snoc

/-! ### Any sequence of calls -/

/-- What a call may do. -/
theorem record_cases (s : UnknownDevices) (now : Nat) (addr : DeviceAddr) :
    (∃ entry, s.tracked.lookup addr = some entry ∧
      (now - entry.lastReported < reportInterval ∧
        s.record now addr = (none, s.withEntry addr { entry with count := entry.count + 1 }) ∨
        ¬now - entry.lastReported < reportInterval ∧
        s.record now addr = (some (.repeated (entry.count + 1) (now - entry.firstSeen)),
          s.withEntry addr { entry with count := entry.count + 1, lastReported := now }))) ∨
    (s.tracked.lookup addr = none ∧ s.size < maxTracked ∧
      s.record now addr = (some .new, s.withEntry addr ⟨1, now, now⟩)) ∨
    (s.tracked.lookup addr = none ∧ ¬s.size < maxTracked ∧
      ((∃ t ∈ s.overflowReported, now - t < reportInterval) ∧
        s.record now addr = (none, { s with overflowPackets := s.overflowPackets + 1 }) ∨
        (∀ t ∈ s.overflowReported, ¬now - t < reportInterval) ∧
        s.record now addr = (some (.overflow (s.overflowPackets + 1)),
          { s with overflowPackets := s.overflowPackets + 1, overflowReported := some now }))) := by
  rw [record]
  cases hlookup : s.tracked.lookup addr with
  | some entry =>
    refine .inl ⟨entry, rfl, ?_⟩
    dsimp only
    split
    · rename_i hearly
      exact .inl ⟨hearly, rfl⟩
    · rename_i hlate
      exact .inr ⟨hlate, rfl⟩
  | none =>
    dsimp only
    split
    · rename_i hroom
      exact .inr (.inl ⟨rfl, hroom, rfl⟩)
    · rename_i hfull
      refine .inr (.inr ⟨rfl, hfull, ?_⟩)
      split
      · rename_i hearly
        obtain ⟨t, ht, hlt⟩ := (Option.any_eq_true _ _).mp hearly
        exact .inl ⟨⟨t, ht, of_decide_eq_true hlt⟩, rfl⟩
      · rename_i hlate
        refine .inr ⟨fun t ht hh => hlate ?_, rfl⟩
        simp [Option.mem_def.mp ht, hh]

theorem Sound.call {log : List CallEvent} {s : UnknownDevices} (h : Sound log s) (c : Call) :
    Sound (UnknownDevices.call (log, s) c).1 (UnknownDevices.call (log, s) c).2 := by
  rw [UnknownDevices.call]
  rcases record_cases s c.time c.addr with ⟨entry, hlookup, ⟨-, hr⟩ | ⟨hlate, hr⟩⟩ |
    ⟨hlookup, hroom, hr⟩ | ⟨hlookup, hfull, ⟨-, hr⟩ | ⟨hlate, hr⟩⟩
  · simp only [hr]
    exact h.tracked hlookup rfl (.inl ⟨rfl, rfl⟩)
  · simp only [hr]
    exact h.tracked hlookup rfl (.inr ⟨⟨_, _, rfl⟩, rfl, hlate⟩)
  · simp only [hr]
    exact h.fresh hlookup hroom rfl
  · simp only [hr]
    exact h.overflowed hlookup hfull (.inl ⟨rfl, rfl⟩)
  · simp only [hr]
    exact h.overflowed hlookup hfull (.inr ⟨⟨_, rfl⟩, rfl, hlate⟩)

theorem sound_nil : Sound [] {} where
  size_le := Nat.zero_le _
  count_eq _ _ hx := by cases hx
  newOnce _ haddr := absurd haddr (AList.notMem_empty _)
  le_lastReported _ _ hx := by cases hx
  lastReported_mem _ _ hx := by cases hx
  full _ he := by cases he
  spaced _ := List.Pairwise.nil
  overflow_eq := rfl
  le_overflowReported _ ht := by cases ht
  overflowReported_mem _ ht := by cases ht
  overflow_spaced := List.Pairwise.nil

theorem run_snoc (calls : List Call) (c : Call) : run (calls ++ [c]) = call (run calls) c :=
  List.foldl_concat ..

theorem sound_run (calls : List Call) : Sound (log calls) (table calls) := by
  induction calls using List.reverseRecOn with
  | nil => exact sound_nil
  | append_singleton calls c ih =>
    rw [log, table, run_snoc]
    exact ih.call c

/-! ### What the reports say -/

theorem mem_record {s : UnknownDevices} {now : Nat} {addr x : DeviceAddr} :
    x ∈ (s.record now addr).2.tracked ↔
      x ∈ s.tracked ∨ x = addr ∧ s.tracked.lookup addr = none ∧ s.size < maxTracked := by
  rcases record_cases s now addr with ⟨entry, hlookup, ⟨-, hr⟩ | ⟨-, hr⟩⟩ | ⟨hlookup, hroom, hr⟩ |
    ⟨hlookup, hfull, ⟨-, hr⟩ | ⟨-, hr⟩⟩
  · simp [hr, (withEntry_tracked hlookup _).2, hlookup]
  · simp [hr, (withEntry_tracked hlookup _).2, hlookup]
  · simp [hr, mem_withEntry, hlookup, hroom, or_comm]
  · simp [hr, hfull]
  · simp [hr, hfull]

theorem size_record_of_full {s : UnknownDevices} (h : s.size = maxTracked) (now : Nat)
    (addr : DeviceAddr) : (s.record now addr).2.size = maxTracked := by
  rcases record_cases s now addr with ⟨entry, hlookup, ⟨-, hr⟩ | ⟨-, hr⟩⟩ | ⟨-, hroom, -⟩ |
    ⟨-, -, ⟨-, hr⟩ | ⟨-, hr⟩⟩
  · rw [hr, (withEntry_tracked hlookup _).1, h]
  · rw [hr, (withEntry_tracked hlookup _).1, h]
  · omega
  · rw [hr]
    exact h
  · rw [hr]
    exact h

theorem table_snoc (calls : List Call) (c : Call) :
    table (calls ++ [c]) = ((table calls).record c.time c.addr).2 := by
  rw [table, run_snoc]
  rfl

/-- A full table stays as it is. -/
theorem table_append_of_full {before : List Call} (h : (table before).size = maxTracked)
    (more : List Call) : (table (before ++ more)).size = maxTracked ∧
      ∀ addr, addr ∈ (table (before ++ more)).tracked ↔ addr ∈ (table before).tracked := by
  induction more using List.reverseRecOn with
  | nil => rw [List.append_nil]; exact ⟨h, fun _ => Iff.rfl⟩
  | append_singleton more c ih =>
    obtain ⟨hsize, hmem⟩ := ih
    rw [← List.append_assoc, table_snoc]
    refine ⟨size_record_of_full hsize _ _, fun addr => ?_⟩
    rw [mem_record, hmem, hsize]
    simp

theorem map_log (calls : List Call) : (log calls).map CallEvent.toCall = calls := by
  induction calls using List.reverseRecOn with
  | nil => rfl
  | append_singleton calls c ih =>
    rw [log, run_snoc, call, List.map_append, ← log, ih]
    rfl

theorem countP_log (calls : List Call) (p : DeviceAddr → Bool) :
    (log calls).countP (fun e => p e.addr) = calls.countP fun c => p c.addr := by
  conv_rhs => rw [← map_log calls, List.countP_map]
  rfl

theorem exists_call_of_tracked {calls : List Call} {addr : DeviceAddr}
    (h : addr ∈ (table calls).tracked) : ∃ c ∈ calls, c.addr = addr := by
  obtain ⟨e, rest, hfilter, -⟩ := (sound_run calls).newOnce addr h
  obtain ⟨he, haddr⟩ := List.mem_filter.mp (hfilter ▸ List.mem_cons_self : e ∈ List.filter _ _)
  rw [← map_log calls]
  exact ⟨e.toCall, List.mem_map_of_mem he, by simpa using haddr⟩

theorem repeated_count {before : List Call} {c : Call} {n : BitVec 64} {since : Nat}
    (h : ((table before).record c.time c.addr).1 = some (.repeated n since)) :
    n = BitVec.ofNat 64 ((before ++ [c]).countP (·.addr = c.addr)) := by
  rcases record_cases (table before) c.time c.addr with ⟨entry, hlookup, ⟨-, hr⟩ | ⟨-, hr⟩⟩ |
    ⟨-, -, hr⟩ | ⟨-, -, ⟨-, hr⟩ | ⟨-, hr⟩⟩
    <;> simp only [hr, reduceCtorEq, Option.some.injEq, Report.repeated.injEq] at h
  have hcount := (sound_run before).count_eq _ _ hlookup
  rw [packets, countP_log before fun addr => addr = c.addr] at hcount
  rw [List.countP_append, List.countP_singleton, if_pos (by simp), ← h.1, hcount, BitVec.ofNat_add]
  rfl

theorem overflow_count {before : List Call} {c : Call} {n : BitVec 64}
    (h : ((table before).record c.time c.addr).1 = some (.overflow n)) :
    n = BitVec.ofNat 64 ((before ++ [c]).countP (·.addr ∉ (table (before ++ [c])).tracked)) := by
  rw [table_snoc]
  rcases record_cases (table before) c.time c.addr with ⟨entry, -, ⟨-, hr⟩ | ⟨-, hr⟩⟩ |
    ⟨-, -, hr⟩ | ⟨hlookup, -, ⟨-, hr⟩ | ⟨-, hr⟩⟩
    <;> simp only [hr, reduceCtorEq, Option.some.injEq, Report.overflow.injEq] at h ⊢
  have hnot : c.addr ∉ (table before).tracked := AList.lookup_eq_none.mp hlookup
  have hcount := (sound_run before).overflow_eq
  rw [countP_log before fun addr => addr ∉ (table before).tracked] at hcount
  rw [List.countP_append, List.countP_singleton, if_pos (by simpa using hnot), ← h, hcount,
    BitVec.ofNat_add]
  rfl

/-- What is tracked stays so. -/
theorem mem_table_append {before : List Call} {addr : DeviceAddr} (h : addr ∈ (table before).tracked)
    (more : List Call) : addr ∈ (table (before ++ more)).tracked := by
  induction more using List.reverseRecOn with
  | nil => rwa [List.append_nil]
  | append_singleton more c ih =>
    rw [← List.append_assoc, table_snoc, mem_record]
    exact .inl ih

/-- The first packet of an id that finds room. -/
theorem record_first {before : List Call} {c : Call} (hfirst : ∀ b ∈ before, b.addr ≠ c.addr)
    (hroom : (table before).size < maxTracked) :
    ((table before).record c.time c.addr).1 = some .new ∧ c.addr ∈ (table (before ++ [c])).tracked := by
  have hnot : c.addr ∉ (table before).tracked := by
    intro htracked
    obtain ⟨b, hb, haddr⟩ := exists_call_of_tracked htracked
    exact hfirst b hb haddr
  have hlookup : (table before).tracked.lookup c.addr = none := AList.lookup_eq_none.mpr hnot
  refine ⟨by rw [record, hlookup]; exact congrArg Prod.fst (if_pos hroom), ?_⟩
  rw [table_snoc, mem_record]
  exact .inr ⟨rfl, hlookup, hroom⟩

/-- A packet without a report comes less than an hour after one. -/
theorem unreported {before : List Call} {c : Call}
    (h : ((table before).record c.time c.addr).1 = none) :
    ∃ t, c.time - t < reportInterval ∧ ((c.addr ∈ (table before).tracked ∧
        t ∈ reportTimes (log before) c.addr) ∨
      (c.addr ∉ (table before).tracked ∧ t ∈ overflowTimes (log before))) := by
  have hsound := sound_run before
  rcases record_cases (table before) c.time c.addr with ⟨entry, hlookup, ⟨hearly, -⟩ | ⟨-, hr⟩⟩ |
    ⟨-, -, hr⟩ | ⟨hlookup, -, ⟨⟨t, ht, hearly⟩, -⟩ | ⟨-, hr⟩⟩
  · refine ⟨entry.lastReported, hearly, .inl ⟨?_, hsound.lastReported_mem _ _ hlookup⟩⟩
    exact AList.lookup_isSome.mp (by rw [hlookup]; rfl)
  · rw [hr] at h
    cases h
  · rw [hr] at h
    cases h
  · exact ⟨t, hearly, .inr ⟨AList.lookup_eq_none.mp hlookup, hsound.overflowReported_mem t ht⟩⟩
  · rw [hr] at h
    cases h

/-- Reports are bounded, each id's are kept apart, and no packet is lost from
what they count, as long as the counters do not wrap. -/
theorem reports_bounded (calls : List Call) (hcalls : calls.length < 2 ^ 64) :
    (table calls).size ≤ maxTracked ∧
    (∀ addr ∈ (table calls).tracked, NewOnce (log calls) addr) ∧
    (∀ addr, Spaced reportInterval (reportTimes (log calls) addr)) ∧
    Spaced reportInterval (overflowTimes (log calls)) ∧
    (∀ addr entry, (table calls).tracked.lookup addr = some entry →
      entry.count.toNat = calls.countP (·.addr = addr)) ∧
    (table calls).overflowPackets.toNat = calls.countP (·.addr ∉ (table calls).tracked) ∧
    ∀ before c after, calls = before ++ c :: after →
      (∀ n since, ((table before).record c.time c.addr).1 = some (.repeated n since) →
        n.toNat = (before ++ [c]).countP (·.addr = c.addr)) ∧
      (∀ n, ((table before).record c.time c.addr).1 = some (.overflow n) →
        n.toNat = (before ++ [c]).countP (·.addr ∉ (table (before ++ [c])).tracked)) ∧
      (((table before).record c.time c.addr).1 = none → ∃ t, c.time - t < reportInterval ∧
        ((c.addr ∈ (table before).tracked ∧ t ∈ reportTimes (log before) c.addr) ∨
          (c.addr ∉ (table before).tracked ∧ t ∈ overflowTimes (log before)))) ∧
      ((∀ b ∈ before, b.addr ≠ c.addr) →
        ((table before).size < maxTracked → ((table before).record c.time c.addr).1 = some .new ∧
          c.addr ∈ (table calls).tracked) ∧
        ((table before).size = maxTracked → c.addr ∉ (table calls).tracked)) := by
  have hsound := sound_run calls
  have hexact {l : List Call} (hl : l.length ≤ calls.length) (p : Call → Bool) :
      (BitVec.ofNat 64 (l.countP p)).toNat = l.countP p := by
    have hle := List.countP_le_length (p := p) (l := l)
    rw [BitVec.toNat_ofNat, Nat.mod_eq_of_lt (by omega)]
  refine ⟨hsound.size_le, hsound.newOnce, hsound.spaced, hsound.overflow_spaced, fun addr entry hentry => ?_,
    ?_, ?_⟩
  · rw [hsound.count_eq addr entry hentry, packets, countP_log calls fun x => x = addr, hexact le_rfl]
  · rw [hsound.overflow_eq, countP_log calls fun x => x ∉ (table calls).tracked, hexact le_rfl]
  · rintro before c after rfl
    have hle : (before ++ [c]).length ≤ (before ++ c :: after).length := by simp
    have hsplit : before ++ c :: after = before ++ [c] ++ after := by simp
    refine ⟨fun n since hn => ?_, fun n hn => ?_, unreported,
      fun hfirst => ⟨fun hroom => ?_, fun hfull htracked => ?_⟩⟩
    · rw [repeated_count hn, hexact hle]
    · rw [overflow_count hn, hexact hle]
    · obtain ⟨hnew, htracked⟩ := record_first hfirst hroom
      rw [hsplit]
      exact ⟨hnew, mem_table_append htracked after⟩
    · rw [(table_append_of_full hfull _).2] at htracked
      obtain ⟨b, hb, haddr⟩ := exists_call_of_tracked htracked
      exact hfirst b hb haddr

/-- One id within an hour, and at its end. -/
def hourly : List Call :=
  [⟨0, DeviceAddr.testAddr⟩, ⟨7, DeviceAddr.testAddr⟩, ⟨reportInterval, DeviceAddr.testAddr⟩]

theorem reports_bounded_hourly :
    (log hourly).map CallEvent.report = [some .new, none, some (.repeated 3 reportInterval)] ∧
    (table hourly).size ≤ maxTracked ∧
    (∀ addr entry, (table hourly).tracked.lookup addr = some entry →
      entry.count.toNat = hourly.countP (·.addr = addr)) ∧
    (table hourly).overflowPackets.toNat = hourly.countP (·.addr ∉ (table hourly).tracked) := by
  obtain ⟨hsize, -, -, -, hcount, hoverflow, -⟩ := reports_bounded hourly (by decide)
  exact ⟨by decide, hsize, hcount, hoverflow⟩

/-! ### The counters wrap -/

def flood (n : Nat) : List Call := List.replicate n ⟨0, DeviceAddr.testAddr⟩

theorem flood_repeated {n : Nat} (hn : 0 < n) : ∃ since,
    ((table (flood n)).record reportInterval DeviceAddr.testAddr).1 =
      some (.repeated (BitVec.ofNat 64 (n + 1)) since) := by
  have hsound := sound_run (flood n)
  have htracked : DeviceAddr.testAddr ∈ (table (flood n)).tracked := by
    obtain ⟨m, rfl⟩ : ∃ m, n = m + 1 := ⟨n - 1, by omega⟩
    have hfirst := (@record_first [] ⟨0, DeviceAddr.testAddr⟩ (by simp) (by decide)).2
    exact mem_table_append hfirst (List.replicate m _)
  obtain ⟨entry, hentry⟩ := Option.isSome_iff_exists.mp (AList.lookup_isSome.mpr htracked)
  have hcount : entry.count = BitVec.ofNat 64 n := by
    rw [hsound.count_eq _ _ hentry, packets, countP_log (flood n) fun addr => addr = DeviceAddr.testAddr,
      flood, List.countP_replicate, if_pos (by simp)]
  have hzero : entry.lastReported = 0 := by
    have hmem := hsound.lastReported_mem _ _ hentry
    obtain ⟨e, he, htime⟩ := List.mem_map.mp hmem
    have hcall := List.mem_map_of_mem (f := CallEvent.toCall) (List.mem_filter.mp he).1
    rw [map_log] at hcall
    rw [← htime, List.eq_of_mem_replicate hcall]
  refine ⟨reportInterval - entry.firstSeen, ?_⟩
  rw [record, hentry]
  dsimp only
  rw [hzero, if_neg (by simp), hcount, BitVec.ofNat_add]
  rfl

/-- The packet of an id after 2 ^ 64 - 1 others is reported as none. -/
theorem not_reports_bounded : ¬∀ before c, (before ++ [c]).Pairwise (fun a b => a.time ≤ b.time) →
    ∀ n since, ((table before).record c.time c.addr).1 = some (.repeated n since) →
      n.toNat = (before ++ [c]).countP (·.addr = c.addr) := by
  intro hall
  obtain ⟨since, hreport⟩ := flood_repeated (n := 2 ^ 64 - 1) (by decide)
  have hsorted : (flood (2 ^ 64 - 1) ++ [Call.mk reportInterval DeviceAddr.testAddr]).Pairwise
      fun a b => a.time ≤ b.time := by
    refine List.pairwise_append.mpr ⟨List.pairwise_replicate.mpr (.inr le_rfl), List.pairwise_singleton ..,
      fun a ha b _ => ?_⟩
    rw [List.eq_of_mem_replicate ha]
    exact Nat.zero_le _
  have hcount := hall (flood (2 ^ 64 - 1)) ⟨reportInterval, DeviceAddr.testAddr⟩ hsorted _ since hreport
  rw [List.countP_append, flood, List.countP_replicate] at hcount
  simp at hcount

end UnknownDevices

end Homescope
