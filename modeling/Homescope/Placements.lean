import Homescope.Periods
import Mathlib.Data.Set.Finite.Lemmas
import Mathlib.Data.Set.Finite.List

/-! Where each device is over time: the rows of `device_placements` and the view
`placement_periods` over them (`api/migrations/20261005101457_sites_rooms_placements.sql`).
`T` is the time of a `TIMESTAMPTZ`. -/

namespace Homescope

/-- A row of `device_placements`; without a room the device is taken down. -/
structure Placement (T : Type*) where
  deviceAddr : Int64
  roomId : Option Int32
  placedAt : T
  deriving DecidableEq

/-- A row of `placement_periods`. -/
structure PlacementPeriod (T : Type*) where
  deviceAddr : Int64
  roomId : Option Int32
  validFrom : T
  validTo : Option T

namespace Placement

variable {T : Type*}

def period (r : Placement T) (validTo : Option T) : PlacementPeriod T :=
  ⟨r.deviceAddr, r.roomId, r.placedAt, validTo⟩

end Placement

namespace PlacementPeriod

variable {T : Type*} [LinearOrder T]

/-- `time >= valid_from AND (valid_to IS NULL OR time < valid_to)`. -/
def covers (p : PlacementPeriod T) (time : T) : Bool :=
  p.validFrom ≤ time && p.validTo.all fun e => time < e

def placement (p : PlacementPeriod T) : Placement T := ⟨p.deviceAddr, p.roomId, p.validFrom⟩

theorem covers_iff {p : PlacementPeriod T} {time : T} :
    p.covers time = true ↔ Periods.Covers p.validFrom p.validTo time := by
  simp only [covers, Bool.and_eq_true, decide_eq_true_eq, Option.all_eq_true, Periods.Covers]
  rfl

end PlacementPeriod

/-- The table behind its primary key, in the order its rows were entered. -/
structure DevicePlacements (T : Type*) where
  rows : List (Placement T)
  pkey : KeyedRows.Unique (fun r => (r.deviceAddr, r.placedAt)) rows

namespace DevicePlacements

variable {T : Type*} [LinearOrder T]

def insert (t : DevicePlacements T) (r : Placement T) : Option (DevicePlacements T) :=
  if h : ∀ q ∈ t.rows, (r.deviceAddr, r.placedAt) ≠ (q.deviceAddr, q.placedAt) then
    some ⟨r :: t.rows, List.pairwise_cons.mpr ⟨h, t.pkey⟩⟩
  else
    none

def placementPeriods (t : DevicePlacements T) : List (PlacementPeriod T) :=
  (Periods.leadOver Placement.deviceAddr Placement.placedAt t.rows).map fun x => x.1.period x.2

def periods (t : DevicePlacements T) (deviceAddr : Int64) : List (PlacementPeriod T) :=
  t.placementPeriods.filter fun p => p.deviceAddr = deviceAddr

/-- The row of a device with the greatest `placed_at` not after `time`. -/
structure PlacedBy (t : DevicePlacements T) (deviceAddr : Int64) (time : T) (r : Placement T) :
    Prop where
  mem : r ∈ t.rows
  device : r.deviceAddr = deviceAddr
  le : r.placedAt ≤ time
  greatest : ∀ q ∈ t.rows, q.deviceAddr = deviceAddr → q.placedAt ≤ time → q.placedAt ≤ r.placedAt

/-- One period ends where the next one starts, and the last one is open. -/
structure Contiguous (ps : List (PlacementPeriod T)) : Prop where
  ends : ∀ p ∈ ps, ∀ e ∈ p.validTo, ∃ q ∈ ps, q.validFrom = e
  starts : ∀ q ∈ ps, (∃ p ∈ ps, p.validFrom < q.validFrom) → ∃ p ∈ ps, p.validTo = some q.validFrom
  last : ∀ p ∈ ps, (p.validTo = none ↔ ∀ q ∈ ps, q.validFrom ≤ p.validFrom)

variable {t : DevicePlacements T}

theorem insert_eq_some {r : Placement T} {t' : DevicePlacements T} (h : t.insert r = some t') :
    t'.rows = r :: t.rows := by
  unfold insert at h
  split at h
  · rw [← Option.some.inj h]
  · exact absurd h (by simp)

theorem mem_placementPeriods {p : PlacementPeriod T} :
    p ∈ t.placementPeriods ↔ p.placement ∈ t.rows ∧
      Periods.IsNext (Periods.instants Placement.deviceAddr Placement.placedAt t.rows p.deviceAddr)
        p.validFrom p.validTo := by
  have hlead := Periods.Keyed.mem_leadOver (a := p.placement) (e := p.validTo) t.pkey
  constructor
  · intro hp
    obtain ⟨x, hx, rfl⟩ := List.mem_map.mp hp
    exact hlead.mp hx
  · intro hp
    exact List.mem_map.mpr ⟨(p.placement, p.validTo), hlead.mpr hp, rfl⟩

theorem mem_periods {d : Int64} {p : PlacementPeriod T} :
    p ∈ t.periods d ↔ p.deviceAddr = d ∧ p.placement ∈ t.rows ∧
      Periods.IsNext (Periods.instants Placement.deviceAddr Placement.placedAt t.rows d)
        p.validFrom p.validTo := by
  simp only [periods, List.mem_filter, decide_eq_true_eq, mem_placementPeriods]
  constructor
  · rintro ⟨h, rfl⟩
    exact ⟨rfl, h⟩
  · rintro ⟨rfl, h⟩
    exact ⟨h, rfl⟩

/-- Every row has one period, and every period is of a row. -/
theorem map_placement_perm (t : DevicePlacements T) :
    (t.placementPeriods.map PlacementPeriod.placement).Perm t.rows := by
  have hperm := Periods.Keyed.map_fst_leadOver_perm t.pkey
  rw [placementPeriods, List.map_map]
  exact hperm

theorem exists_period {d : Int64} {r : Placement T} (hr : r ∈ t.rows) (hd : r.deviceAddr = d) :
    ∃ p ∈ t.periods d, p.placement = r := by
  obtain ⟨p, hp, rfl⟩ := List.mem_map.mp ((map_placement_perm t).mem_iff.mpr hr)
  exact ⟨p, List.mem_filter.mpr ⟨hp, decide_eq_true hd⟩, rfl⟩

theorem eq_of_placement {d : Int64} {p q : PlacementPeriod T} (hp : p ∈ t.periods d)
    (hq : q ∈ t.periods d) (h : p.placement = q.placement) : p = q := by
  have hfrom : p.validFrom = q.validFrom := congrArg Placement.placedAt h
  have hnext := (mem_periods.mp hq).2.2
  rw [← hfrom] at hnext
  have hto : p.validTo = q.validTo := (mem_periods.mp hp).2.2.unique hnext
  calc
    p = p.placement.period p.validTo := rfl
    _ = q.placement.period q.validTo := by rw [h, hto]
    _ = q := rfl

theorem mem_instants {d : Int64} {p : PlacementPeriod T} (hp : p ∈ t.periods d) :
    p.validFrom ∈ Periods.instants Placement.deviceAddr Placement.placedAt t.rows d := by
  obtain ⟨hd, hmem, -⟩ := mem_periods.mp hp
  exact ⟨p.placement, hmem, hd, rfl⟩

theorem instants_subset {d : Int64} {time : T}
    (h : time ∈ Periods.instants Placement.deviceAddr Placement.placedAt t.rows d) :
    ∃ p ∈ t.periods d, p.validFrom = time := by
  obtain ⟨r, hr, hd, rfl⟩ := h
  obtain ⟨p, hp, rfl⟩ := exists_period hr hd
  exact ⟨p, hp, rfl⟩

/-- A period covers a time iff its row is the one that places the device then. -/
theorem covers_iff_placedBy {d : Int64} {p : PlacementPeriod T} (hp : p ∈ t.periods d) {time : T} :
    p.covers time = true ↔ t.PlacedBy d time p.placement := by
  obtain ⟨hd, hmem, hnext⟩ := mem_periods.mp hp
  rw [PlacementPeriod.covers_iff, hnext.covers_iff (mem_instants hp)]
  constructor
  · rintro ⟨⟨-, hle⟩, hgreatest⟩
    refine ⟨hmem, hd, hle, ?_⟩
    intro q hq hqd hqle
    exact hgreatest ⟨⟨q, hq, hqd, rfl⟩, hqle⟩
  · intro h
    refine ⟨⟨mem_instants hp, h.le⟩, ?_⟩
    rintro _ ⟨⟨q, hq, hqd, rfl⟩, hqle⟩
    exact h.greatest q hq hqd hqle

theorem PlacedBy.unique {d : Int64} {time : T} {r r' : Placement T} (h : t.PlacedBy d time r)
    (h' : t.PlacedBy d time r') : r = r' := by
  have hkey : r.placedAt = r'.placedAt :=
    le_antisymm (h'.greatest r h.mem h.device h.le) (h.greatest r' h'.mem h'.device h'.le)
  exact t.pkey.eq_of_key r h.mem r' h'.mem (Prod.ext (h.device.trans h'.device.symm) hkey)

theorem exists_placedBy {d : Int64} {time : T}
    (h : ∃ r ∈ t.rows, r.deviceAddr = d ∧ r.placedAt ≤ time) : ∃ r, t.PlacedBy d time r := by
  obtain ⟨r, hr, hd, hle⟩ := h
  have hfinite : {q | q ∈ t.rows ∧ q.deviceAddr = d ∧ q.placedAt ≤ time}.Finite :=
    (List.finite_toSet t.rows).subset fun q hq => hq.1
  obtain ⟨q, ⟨hq, hqd, hqle⟩, hgreatest⟩ :=
    Set.exists_max_image _ Placement.placedAt hfinite ⟨r, hr, hd, hle⟩
  exact ⟨q, hq, hqd, hqle, fun q' hq' hd' hle' => hgreatest q' ⟨hq', hd', hle'⟩⟩

theorem periods_disjoint (t : DevicePlacements T) (d : Int64) :
    (t.periods d).Pairwise fun p q => ∀ time, ¬(p.covers time = true ∧ q.covers time = true) := by
  have hnodup : (t.placementPeriods.map PlacementPeriod.placement).Nodup :=
    (map_placement_perm t).nodup_iff.mpr t.pkey.nodup
  have hpairwise := (List.pairwise_map.mp hnodup).filter fun p => decide (p.deviceAddr = d)
  refine hpairwise.imp_of_mem ?_
  rintro p q hp hq hne time ⟨hpt, hqt⟩
  exact hne (((covers_iff_placedBy hp).mp hpt).unique ((covers_iff_placedBy hq).mp hqt))

theorem periods_contiguous (t : DevicePlacements T) (d : Int64) : Contiguous (t.periods d) where
  ends := by
    intro p hp e he
    obtain ⟨-, -, hnext⟩ := mem_periods.mp hp
    rw [Option.mem_def.mp he] at hnext
    exact instants_subset hnext.1.1
  starts := by
    rintro q hq ⟨p, hp, hlt⟩
    -- the latest period that starts before `q` ends where `q` starts
    obtain ⟨b, ⟨hb, hbq⟩, hgreatest⟩ := Set.exists_max_image {b | b ∈ t.periods d ∧
      b.validFrom < q.validFrom} PlacementPeriod.validFrom
      ((List.finite_toSet (t.periods d)).subset fun b hb => hb.1) ⟨p, hp, hlt⟩
    refine ⟨b, hb, (mem_periods.mp hb).2.2.unique ⟨⟨mem_instants hq, hbq⟩, ?_⟩⟩
    rintro c ⟨hc, hbc⟩
    by_contra hcq
    obtain ⟨a, ha, rfl⟩ := instants_subset hc
    exact absurd (hgreatest a ⟨ha, not_le.mp hcq⟩) (not_le.mpr hbc)
  last := by
    intro p hp
    obtain ⟨-, -, hnext⟩ := mem_periods.mp hp
    constructor
    · intro hnone q hq
      rw [hnone] at hnext
      exact hnext q.validFrom (mem_instants hq)
    · intro hlast
      have hend : Periods.IsNext
          (Periods.instants Placement.deviceAddr Placement.placedAt t.rows d) p.validFrom none := by
        intro b hb
        obtain ⟨q, hq, rfl⟩ := instants_subset hb
        exact hlast q hq
      exact hnext.unique hend

/-- Inserting a row splits the period its `placed_at` falls into, or adds a
first period for its device; all others stay. -/
theorem insert_periods {r : Placement T} {t' : DevicePlacements T} (h : t.insert r = some t') :
    (∃ p rest, p.deviceAddr = r.deviceAddr ∧ p.covers r.placedAt = true ∧
      t.placementPeriods.Perm (p :: rest) ∧
      t'.placementPeriods.Perm ({ p with validTo := some r.placedAt } :: r.period p.validTo :: rest)) ∨
    ((∀ q ∈ t.rows, q.deviceAddr = r.deviceAddr → r.placedAt < q.placedAt) ∧
      ∃ e, Periods.IsNext (Periods.instants Placement.deviceAddr Placement.placedAt t.rows
        r.deviceAddr) r.placedAt e ∧
        t'.placementPeriods.Perm (r.period e :: t.placementPeriods)) := by
  have hrows := insert_eq_some h
  have hkeyed : Periods.Keyed Placement.deviceAddr Placement.placedAt (r :: t.rows) :=
    hrows ▸ t'.pkey
  by_cases hplaced : ∃ q ∈ t.rows, q.deviceAddr = r.deviceAddr ∧ q.placedAt ≤ r.placedAt
  · obtain ⟨q, hq⟩ := exists_placedBy hplaced
    obtain ⟨p, hp, rfl⟩ := exists_period hq.mem hq.device
    have hcovers := (covers_iff_placedBy hp).mpr hq
    obtain ⟨x, hx, rfl⟩ := List.mem_map.mp (List.mem_filter.mp hp).1
    obtain ⟨front, back, hsplit⟩ := List.append_of_mem hx
    have hold : (Periods.leadOver Placement.deviceAddr Placement.placedAt t.rows).Perm
        (x :: (front ++ back)) := hsplit ▸ List.perm_middle
    have hnew := hkeyed.leadOver_split hold hq.device (PlacementPeriod.covers_iff.mp hcovers)
    refine .inl ⟨x.1.period x.2, (front ++ back).map fun y => y.1.period y.2, hq.device, hcovers,
      ?_, ?_⟩
    · exact hold.map fun y => y.1.period y.2
    · rw [placementPeriods, hrows]
      exact hnew.map fun y => y.1.period y.2
  · push Not at hplaced
    have hr : r ∈ (Periods.leadOver Placement.deviceAddr Placement.placedAt (r :: t.rows)).map
        Prod.fst := Periods.mem_map_fst_leadOver.mpr List.mem_cons_self
    obtain ⟨⟨_, e⟩, hmem, rfl⟩ := List.mem_map.mp hr
    have hnext := hkeyed.mem_leadOver_cons_self.mp hmem
    refine .inr ⟨hplaced, e, hnext, ?_⟩
    rw [placementPeriods, hrows]
    exact (hkeyed.leadOver_first hnext hplaced).map fun x => x.1.period x.2

/-- The periods of each device partition the time from its first placement on. -/
theorem placementPeriods_partition (t : DevicePlacements T) :
    (t.placementPeriods.map PlacementPeriod.placement).Perm t.rows ∧
    (∀ d, (t.periods d).Pairwise fun p q =>
      ∀ time, ¬(p.covers time = true ∧ q.covers time = true)) ∧
    (∀ d, Contiguous (t.periods d)) ∧
    (∀ d time, (∃ r ∈ t.rows, r.deviceAddr = d ∧ r.placedAt ≤ time) →
      ∃ p ∈ t.periods d, p.covers time = true ∧ t.PlacedBy d time p.placement ∧
        ∀ q ∈ t.periods d, q.covers time = true → q = p) ∧
    (∀ d time, (∀ r ∈ t.rows, r.deviceAddr = d → time < r.placedAt) →
      ∀ p ∈ t.periods d, p.covers time = false) ∧
    ∀ r t', t.insert r = some t' →
      (∃ p rest, p.deviceAddr = r.deviceAddr ∧ p.covers r.placedAt = true ∧
        t.placementPeriods.Perm (p :: rest) ∧ t'.placementPeriods.Perm
          ({ p with validTo := some r.placedAt } :: r.period p.validTo :: rest)) ∨
      ((∀ q ∈ t.rows, q.deviceAddr = r.deviceAddr → r.placedAt < q.placedAt) ∧
        ∃ e, Periods.IsNext (Periods.instants Placement.deviceAddr Placement.placedAt t.rows
          r.deviceAddr) r.placedAt e ∧
          t'.placementPeriods.Perm (r.period e :: t.placementPeriods)) := by
  refine ⟨map_placement_perm t, periods_disjoint t, periods_contiguous t, ?_, ?_,
    fun r t' => insert_periods⟩
  · intro d time hfirst
    obtain ⟨r, hr⟩ := exists_placedBy hfirst
    obtain ⟨p, hp, rfl⟩ := exists_period hr.mem hr.device
    refine ⟨p, hp, (covers_iff_placedBy hp).mpr hr, hr, ?_⟩
    intro q hq hcovers
    exact eq_of_placement hq hp (((covers_iff_placedBy hq).mp hcovers).unique hr)
  · intro d time hbefore p hp
    by_contra hcovers
    have hplaced := (covers_iff_placedBy hp).mp (Bool.not_eq_false _ ▸ hcovers)
    exact absurd hplaced.le (not_le.mpr (hbefore _ hplaced.mem hplaced.device))

end DevicePlacements

end Homescope
