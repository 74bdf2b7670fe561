import Homescope.Crc16
import Homescope.Observation
import Homescope.Scanning

/-! The gateway's frame decoder (`gateway/src/decoder.rs`) on the buffer that
successive reads are appended to. -/

namespace Homescope

open Frame Scanning

namespace FrameDecoder

/-- `none` is the panic of advancing past the buffer. -/
def advance (src : List Byte) (n : Nat) : Option (List Byte) :=
  if n ≤ src.length then some (src.drop n) else none

section Decode

variable (crc16 : List Byte → BitVec 16)

/-- At most `turns` turns of the loop of `decode`, which advances over `hop d`
bytes where a corrupt result names `d`. `none` is a panic or a loop that goes on. -/
def decodeLoop (hop : Nat → Nat) : Nat → List Byte → Option (Option (List Byte) × List Byte)
  | 0, _ => none
  | turns + 1, src =>
    match parse crc16 src with
    | .ok payload consumed => (advance src consumed).map fun src => (some payload, src)
    | .incomplete => some (none, src)
    | .corrupt _ discard => (advance src (hop discard)).bind (decodeLoop hop turns)

def decode (src : List Byte) : Option (Option (List Byte) × List Byte) :=
  decodeLoop crc16 id (src.length + 1) src

/-- The plain scanner, which drops a single byte on every corrupt result. -/
def decodeSingle (src : List Byte) : Option (Option (List Byte) × List Byte) :=
  decodeLoop crc16 (fun _ => 1) (src.length + 1) src

end Decode

/-- Calls a decoder until it returns no payload. -/
def drain (decode : List Byte → Option (Option (List Byte) × List Byte)) :
    Nat → List Byte → Option (List (List Byte) × List Byte)
  | 0, _ => none
  | calls + 1, src =>
    match decode src with
    | none => none
    | some (none, src) => some ([], src)
    | some (some payload, src) =>
      (drain decode calls src).map fun (payloads, src) => (payload :: payloads, src)

/-- Appends each read to the buffer and drains it. -/
def receive (decode : List Byte → Option (Option (List Byte) × List Byte)) (src : List Byte) :
    List (List Byte) → Option (List (List Byte) × List Byte)
  | [] => some ([], src)
  | read :: reads => do
    let (payloads, src) ← drain decode ((src ++ read).length + 1) (src ++ read)
    let (more, src) ← receive decode src reads
    some (payloads ++ more, src)

end FrameDecoder

namespace Frame

variable {crc16 : List Byte → BitVec 16} {hop : Nat → Nat}

/-- What the decoder does with its buffer. -/
def judge (crc16 : List Byte → BitVec 16) (hop : Nat → Nat) (src : List Byte) :
    Verdict (List Byte) :=
  match parse crc16 src with
  | .incomplete => .wait
  | .ok payload consumed => .take payload consumed
  | .corrupt _ discard => .drop (hop discard)

theorem parse_nil : parse crc16 [] = .incomplete := rfl

theorem judge_take {src p : List Byte} {n : Nat} :
    judge crc16 hop src = .take p n ↔ parse crc16 src = .ok p n := by
  simp only [judge]
  split <;> simp_all

theorem judge_drop {src : List Byte} {d : Nat} :
    judge crc16 hop src = .drop d ↔ ∃ e n, parse crc16 src = .corrupt e n ∧ hop n = d := by
  simp only [judge]
  split <;> simp_all

theorem judge_wait {src : List Byte} :
    judge crc16 hop src = .wait ↔ parse crc16 src = .incomplete := by
  simp only [judge]
  split <;> simp_all

theorem single_judge (hop : Nat → Nat) : single (judge crc16 hop) = judge crc16 (fun _ => 1) := by
  funext src
  simp only [single, judge]
  cases parse crc16 src <;> rfl

theorem corrupt_bounds {src : List Byte} {e : FrameError} {d : Nat}
    (h : parse crc16 src = .corrupt e d) : 0 < d ∧ d ≤ src.length := by
  obtain ⟨hne, rfl⟩ := parse_corrupt h
  exact ⟨seekNextMagic_pos hne, seekNextMagic_le hne⟩

theorem judge_lawful : Lawful (judge crc16 id) where
  take_le h := by
    obtain ⟨rfl, hle, -⟩ := parse_ok (judge_take.mp h)
    exact ⟨by simp [overhead, crcLen], hle⟩
  drop_le h := by
    obtain ⟨e, d, he, rfl⟩ := judge_drop.mp h
    exact corrupt_bounds he
  take_append t h := judge_take.mpr ((parse_ok (judge_take.mp h)).2.2 t)
  drop_append t h := by
    obtain ⟨e, d, he, -⟩ := judge_drop.mp h
    exact ⟨_, judge_drop.mpr ⟨e, _, parse_append_corrupt he t, rfl⟩⟩
  skipped h hi hn := by
    obtain ⟨e, d, he, rfl⟩ := judge_drop.mp h
    obtain ⟨m, hm⟩ := parse_skipped he hi hn
    exact ⟨m, judge_drop.mpr ⟨_, _, hm, rfl⟩⟩

end Frame

namespace FrameDecoder

variable {crc16 : List Byte → BitVec 16}

theorem advance_eq {src : List Byte} {n : Nat} (h : n ≤ src.length) :
    advance src n = some (src.drop n) := if_pos h

theorem decode_frameOf {payload : List Byte} (h : payload.length ≤ maxPayloadLen)
    (rest : List Byte) :
    decode crc16 (frameOf crc16 payload ++ rest) = some (some payload, rest) := by
  have hlen := frameOf_length crc16 payload
  have hadvance : advance (frameOf crc16 payload ++ rest) (overhead + payload.length) =
      some rest := by
    rw [← hlen, advance_eq (by simp), List.drop_left]
  simp only [decode, decodeLoop, parse_frameOf h, hadvance, Option.map_some]

/-- A hop that moves on and stays inside the buffer. -/
def Bounded (crc16 : List Byte → BitVec 16) (hop : Nat → Nat) : Prop :=
  ∀ src e d, parse crc16 src = .corrupt e d → 0 < hop d ∧ hop d ≤ src.length

theorem bounded_id (crc16 : List Byte → BitVec 16) : Bounded crc16 id := fun _ _ _ h => corrupt_bounds h

theorem bounded_one (crc16 : List Byte → BitVec 16) : Bounded crc16 (fun _ => 1) := by
  intro src e d h
  obtain ⟨hpos, hle⟩ := corrupt_bounds h
  exact ⟨Nat.one_pos, Nat.lt_of_lt_of_le hpos hle⟩

/-- The loop ends within as many turns as there are bytes and one more, and
what it returns is the next step of the scan. -/
theorem decodeLoop_scans {hop : Nat → Nat} (hb : Bounded crc16 hop) {turns : Nat}
    (src : List Byte) (h : src.length < turns) :
    ∃ found r, decodeLoop crc16 hop turns src = some (found, r) ∧ match found with
      | none => Scans (judge crc16 hop) src [] r
      | some p => r.length < src.length ∧
        ∀ bs q, Scans (judge crc16 hop) r bs q → Scans (judge crc16 hop) src (p :: bs) q := by
  induction turns generalizing src with
  | zero => omega
  | succ turns ih =>
    cases hp : parse crc16 src with
    | incomplete => exact ⟨none, src, by simp [decodeLoop, hp], .wait (judge_wait.mpr hp)⟩
    | ok p n =>
      obtain ⟨hn, hle, -⟩ := parse_ok hp
      refine ⟨some p, src.drop n, by simp [decodeLoop, hp, advance_eq hle], ?_, ?_⟩
      · rw [List.length_drop]
        simp only [overhead, crcLen] at hn
        omega
      · exact fun bs q hs => .take (judge_take.mpr hp) hs
    | corrupt e d =>
      obtain ⟨hpos, hle⟩ := hb src e d hp
      have hdrop : judge crc16 hop src = .drop (hop d) := judge_drop.mpr ⟨e, d, hp, rfl⟩
      have hlt : (src.drop (hop d)).length < src.length := by
        rw [List.length_drop]
        omega
      obtain ⟨found, r, hr, hscan⟩ := ih (src.drop (hop d)) (by omega)
      refine ⟨found, r, by simp [decodeLoop, hp, advance_eq hle, hr], ?_⟩
      cases found with
      | none => exact .drop hdrop hscan
      | some p => exact ⟨hscan.1.trans hlt, fun bs q hs => .drop hdrop (hscan.2 bs q hs)⟩

theorem drain_scans {hop : Nat → Nat} (hb : Bounded crc16 hop) {calls : Nat} (src : List Byte)
    (h : src.length < calls) :
    ∃ payloads r,
      drain (fun src => decodeLoop crc16 hop (src.length + 1) src) calls src =
        some (payloads, r) ∧ Scans (judge crc16 hop) src payloads r := by
  induction calls generalizing src with
  | zero => omega
  | succ calls ih =>
    obtain ⟨found, r, hr, hscan⟩ := decodeLoop_scans hb src (Nat.lt_succ_self src.length)
    cases found with
    | none => exact ⟨[], r, by simp [drain, hr], hscan⟩
    | some p =>
      obtain ⟨payloads, q, hq, hrest⟩ := ih r (by omega)
      exact ⟨p :: payloads, q, by simp [drain, hr, hq], hscan.2 _ _ hrest⟩

/-- Draining is the plain scan of the buffer, whichever way it hops. -/
theorem drain_single (crc16 : List Byte → BitVec 16) (src : List Byte) :
    ∃ payloads r, Scans (judge crc16 fun _ => 1) src payloads r ∧
      drain (decode crc16) (src.length + 1) src = some (payloads, r) ∧
      drain (decodeSingle crc16) (src.length + 1) src = some (payloads, r) := by
  have hlt := Nat.lt_succ_self src.length
  obtain ⟨payloads, r, hd, hs⟩ := drain_scans (bounded_id crc16) src hlt
  obtain ⟨payloads', r', hd', hs'⟩ := drain_scans (bounded_one crc16) src hlt
  have hsingle := hs.toSingle judge_lawful
  rw [single_judge] at hsingle
  obtain ⟨rfl, rfl⟩ := hsingle.unique hs'
  exact ⟨payloads, r, hsingle, hd, hd'⟩

/-- Reading in pieces is the plain scan of the whole stream. -/
theorem receive_single (crc16 : List Byte → BitVec 16) (src : List Byte)
    (hwait : parse crc16 src = .incomplete)
    (reads : List (List Byte)) :
    ∃ payloads r, Scans (judge crc16 fun _ => 1) (src ++ reads.flatten) payloads r ∧
      receive (decode crc16) src reads = some (payloads, r) ∧
      receive (decodeSingle crc16) src reads = some (payloads, r) := by
  induction reads generalizing src with
  | nil =>
    refine ⟨[], src, ?_, rfl, rfl⟩
    rw [List.flatten_nil, List.append_nil]
    exact .wait (judge_wait.mpr hwait)
  | cons read reads ih =>
    obtain ⟨payloads, r, hs, hd, hd'⟩ := drain_single crc16 (src ++ read)
    obtain ⟨more, q, hs', hr, hr'⟩ := ih r (judge_wait.mp hs.waits)
    refine ⟨payloads ++ more, q, ?_, ?_, ?_⟩
    · rw [List.flatten_cons, ← List.append_assoc]
      rw [← single_judge id] at hs hs' ⊢
      exact hs.append judge_lawful hs'
    · simp only [receive, Option.bind_eq_bind, hd, Option.bind_some, hr]
    · simp only [receive, Option.bind_eq_bind, hd', Option.bind_some, hr']

/-- However a stream is cut into reads, the same payloads are emitted and the
same bytes are left. -/
theorem reads_irrelevant (crc16 : List Byte → BitVec 16) (reads : List (List Byte)) :
    ∃ payloads rest, receive (decode crc16) [] reads = some (payloads, rest) ∧
      receive (decode crc16) [] [reads.flatten] = some (payloads, rest) := by
  obtain ⟨payloads, rest, hs, hr, -⟩ := receive_single crc16 [] parse_nil reads
  obtain ⟨payloads', rest', hs', hr', -⟩ :=
    receive_single crc16 [] parse_nil [reads.flatten]
  rw [List.flatten_singleton] at hs'
  obtain ⟨rfl, rfl⟩ := hs.unique hs'
  exact ⟨payloads, rest, hr, hr'⟩

/-- A frame in the stream is found when no frame reaches into it from before. -/
theorem frame_found {g t payload : List Byte} (hlen : payload.length ≤ maxPayloadLen)
    (ht : maxLen ≤ t.length)
    (hcover : ∀ i < g.length, ∀ q k,
      parse crc16 ((g ++ frameOf crc16 payload ++ t).drop i) = .ok q k → i + k ≤ g.length)
    {payloads : List (List Byte)} {rest : List Byte}
    (h : Scans (judge crc16 fun _ => 1) (g ++ frameOf crc16 payload ++ t) payloads rest) :
    payload ∈ payloads := by
  rw [← single_judge id] at h
  refine h.emits (g := g.length) (n := overhead + payload.length) ?_ ?_ ?_
  · rw [List.append_assoc, List.drop_left]
    exact judge_take.mpr (parse_frameOf hlen t)
  · intro i hi hwait
    refine parse_ne_incomplete ?_ (judge_wait.mp hwait)
    simp only [List.length_drop, List.length_append]
    omega
  · intro i hi q k hk
    exact hcover i hi q k (judge_take.mp hk)

/-- Skipping to the next magic emits what the plain scanner emits, every turn
moves on inside the buffer, and a whole frame is lost only to a valid frame
that reaches into it. -/
theorem resync_lossless (crc16 : List Byte → BitVec 16) :
    (∀ stream, ∃ payloads rest,
      receive (decode crc16) [] [stream] = some (payloads, rest) ∧
      receive (decodeSingle crc16) [] [stream] = some (payloads, rest)) ∧
    (∀ src e d, parse crc16 src = .corrupt e d → 1 ≤ d ∧ d ≤ src.length) ∧
    (∀ src, ∃ found rest, decode crc16 src = some (found, rest)) ∧
    ∀ (T : Type) [Encode T] (x : T) (out out' buf : List Byte) (n m : Nat),
      Encode.Contract x → encode crc16 out x = .ok (out', n) →
      Encode.encode x (out.drop (magicBytes.length + payloadLenSize)) = .ok (buf, m) →
      ∀ g t : List Byte, maxLen ≤ t.length →
        (∀ i < g.length, ∀ q k,
          parse crc16 ((g ++ out'.take n ++ t).drop i) = .ok q k → i + k ≤ g.length) →
        ∃ payloads rest,
          receive (decode crc16) [] [g ++ out'.take n ++ t] = some (payloads, rest) ∧
            buf.take m ∈ payloads := by
  refine ⟨?_, fun src e d h => corrupt_bounds h, ?_, ?_⟩
  · intro stream
    obtain ⟨payloads, rest, -, h⟩ := receive_single crc16 [] parse_nil [stream]
    exact ⟨payloads, rest, h⟩
  · intro src
    obtain ⟨found, rest, h, -⟩ :=
      decodeLoop_scans (bounded_id crc16) src (Nat.lt_succ_self src.length)
    exact ⟨found, rest, h⟩
  · intro T _ x out out' buf n m hc h hx g t ht hcover
    obtain ⟨buf', m', hx', hlen, hmax, -, hframe⟩ := encode_ok hc h
    cases hx.symm.trans hx'
    rw [hframe] at hcover ⊢
    obtain ⟨payloads, rest, hs, hr, -⟩ :=
      receive_single crc16 [] parse_nil [g ++ frameOf crc16 (buf.take m) ++ t]
    rw [List.nil_append, List.flatten_singleton] at hs
    exact ⟨payloads, rest, hr, frame_found (by omega) ht hcover hs⟩

def observed : SensorObservation where
  deviceAddr := .testAddr
  ageMs := 555
  rssi := ⟨0xCE⟩
  packet := [0xCA, 0xFE, 0x12, 0x34, 0x56, 0x78]

def observedFrame : List Byte :=
  [0x48, 0x53, 0x11, 0x00, 0x01, 0x02, 0x03, 0x04, 0x05, 0x06, 0x2B, 0x02, 0x00, 0x00, 0xCE,
    0xCA, 0xFE, 0x12, 0x34, 0x56, 0x78, 0x2B, 0x25]

/-- A frame behind a false magic byte is found. -/
theorem resync_lossless_false_magic :
    ∃ payloads rest,
      receive (decode crc16IbmSdlc) []
          [[0x48, 0x42, 0x00] ++ observedFrame.take 23 ++ List.replicate maxLen 0] =
        some (payloads, rest) ∧ (observed.bytes ++ [0, 0]).take 17 ∈ payloads := by
  refine (resync_lossless crc16IbmSdlc).2.2.2 SensorObservation observed
    (List.replicate 23 0) observedFrame (observed.bytes ++ [0, 0]) 23 17
    (SensorObservation.contract (by decide)) (by decide +kernel) (by decide +kernel)
    [0x48, 0x42, 0x00] (List.replicate maxLen 0) (List.length_replicate).ge ?_
  intro i hi q k h
  have hmagic : matchMagic magicBytes
      (([0x48, 0x42, 0x00] ++ observedFrame.take 23 ++ List.replicate maxLen 0).drop i) =
        some none := by
    have hi' : i = 0 ∨ i = 1 ∨ i = 2 := by
      simp only [List.length_cons, List.length_nil] at hi
      omega
    rcases hi' with rfl | rfl | rfl <;> rfl
  rw [parse_badMagic hmagic] at h
  cases h

end FrameDecoder

end Homescope
