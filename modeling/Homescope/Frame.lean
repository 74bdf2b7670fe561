import Homescope.Wire

/-! The USB framing `[magic "HS"][len: u16 LE][payload][crc: u16 LE]`
(`common/src/frame.rs`). The checksum is a parameter: `crc16` stands for the
CRC-16/IBM-SDLC of the `crc` crate. -/

namespace Homescope.Frame

def crcLen : Nat := 2

/-- `HS`. -/
def magicBytes : List Byte := [0x48, 0x53]

def maxPayloadLen : Nat := 1024

def payloadLenSize : Nat := 2

def overhead : Nat := crcLen + magicBytes.length + payloadLenSize

def maxLen : Nat := overhead + maxPayloadLen

/-- A payload that can write itself into a frame. Types that are too long for a
frame do not compile. -/
class Encode (T : Type) where
  maxEncodedLen : Nat
  encode : T → List Byte → Except BufferTooSmall (List Byte × Nat)
  maxEncodedLen_le : maxEncodedLen ≤ maxPayloadLen

/-- The contract of `Encode`: `x` is written to the front of the buffer, and the
count returned is the count of bytes written. -/
def Encode.Contract {T : Type} [Encode T] (x : T) : Prop :=
  ∀ out out' n, Encode.encode x out = .ok (out', n) →
    n ≤ Encode.maxEncodedLen T ∧ n ≤ out.length ∧ out'.length = out.length ∧
      out'.drop n = out.drop n

inductive FrameError
  | badMagic
  | payloadTooLarge
  | badCrc
  deriving DecidableEq, Repr

inductive FrameParse
  | incomplete
  | ok (payload : List Byte) (consumed : Nat)
  | corrupt (error : FrameError) (discard : Nat)
  deriving DecidableEq, Repr

/-- The distance to the next first magic byte after position 0, or the whole
buffer. -/
def seekNextMagic (bytes : List Byte) : Nat :=
  match (bytes.drop 1).findIdx? (· == 0x48) with
  | some d => d + 1
  | none => bytes.length

/-- The loop over the magic bytes: `none` runs out of input, `some none` meets a
different byte, `some (some rest)` is past the magic. -/
def matchMagic : List Byte → List Byte → Option (Option (List Byte))
  | [], rest => some (some rest)
  | _ :: _, [] => none
  | byte :: magic, restByte :: rest =>
    if byte ≠ restByte then some none else matchMagic magic rest

variable (crc16 : List Byte → BitVec 16)

def encode {T : Type} [Encode T] (out : List Byte) (payload : T) :
    Except BufferTooSmall (List Byte × Nat) :=
  match splitFirstChunk magicBytes.length out with
  | none => .error .mk
  | some (_, lenPayloadCrc) =>
    match splitFirstChunk payloadLenSize lenPayloadCrc with
    | none => .error .mk
    | some (_, payloadCrc) =>
      match Encode.encode payload payloadCrc with
      | .error e => .error e
      | .ok (payloadCrc, payloadSize) =>
        let lenPayloadCrc := toLeBytes payloadLenSize payloadSize ++ payloadCrc
        let checksummed := lenPayloadCrc.take (payloadLenSize + payloadSize)
        let checksum := crc16 checksummed
        match splitFirstChunk crcLen (lenPayloadCrc.drop (payloadSize + payloadLenSize)) with
        | none => .error .mk
        | some (_, rest) =>
          .ok (magicBytes ++ checksummed ++ toLeBytes crcLen checksum.toNat ++ rest,
            overhead + payloadSize)

def parse (bytes : List Byte) : FrameParse :=
  match matchMagic magicBytes bytes with
  | none => .incomplete
  | some none => .corrupt .badMagic (seekNextMagic bytes)
  | some (some lenPayloadCrc) =>
    match splitFirstChunk payloadLenSize lenPayloadCrc with
    | none => .incomplete
    | some (payloadLen, payloadCrc) =>
      let payloadLen := fromLeBytes payloadLen
      if payloadLen > maxPayloadLen then
        .corrupt .payloadTooLarge (seekNextMagic bytes)
      else if payloadCrc.length < payloadLen then
        .incomplete
      else
        match splitFirstChunk crcLen (payloadCrc.drop payloadLen) with
        | none => .incomplete
        | some (crc, _) =>
          let checksummed := lenPayloadCrc.take (payloadLenSize + payloadLen)
          if BitVec.ofNat 16 (fromLeBytes crc) ≠ crc16 checksummed then
            .corrupt .badCrc (seekNextMagic bytes)
          else
            .ok (payloadCrc.take payloadLen) (overhead + payloadLen)

/-- The bytes of a frame. -/
def frameOf (payload : List Byte) : List Byte :=
  magicBytes ++ (toLeBytes payloadLenSize payload.length ++ payload) ++
    toLeBytes crcLen (crc16 (toLeBytes payloadLenSize payload.length ++ payload)).toNat

theorem matchMagic_append_self (magic rest : List Byte) :
    matchMagic magic (magic ++ rest) = some (some rest) := by
  induction magic with
  | nil => simp [matchMagic]
  | cons byte magic ih => simp [matchMagic, ih]

theorem matchMagic_some {magic bytes rest : List Byte}
    (h : matchMagic magic bytes = some (some rest)) : bytes = magic ++ rest := by
  induction magic generalizing bytes with
  | nil => simpa [matchMagic] using h
  | cons byte magic ih =>
    cases bytes with
    | nil => simp [matchMagic] at h
    | cons b bytes =>
      by_cases hb : byte = b
      · subst hb
        simp only [matchMagic, ne_eq, not_true_eq_false, if_false] at h
        rw [ih h, List.cons_append]
      · simp [matchMagic, hb] at h

theorem matchMagic_append {magic bytes : List Byte} {v : Option (List Byte)}
    (h : matchMagic magic bytes = some v) (t : List Byte) :
    matchMagic magic (bytes ++ t) = some (v.map (· ++ t)) := by
  induction magic generalizing bytes with
  | nil =>
    cases h
    rfl
  | cons byte magic ih =>
    cases bytes with
    | nil => simp [matchMagic] at h
    | cons b bytes =>
      by_cases hb : byte = b
      · subst hb
        simp only [matchMagic, ne_eq, not_true_eq_false, if_false] at h
        simpa [matchMagic] using ih h
      · simp only [matchMagic, ne_eq, hb, not_false_eq_true, if_true, Option.some.injEq] at h
        subst h
        simp [matchMagic, hb]

theorem matchMagic_none {magic bytes : List Byte} (h : matchMagic magic bytes = none) :
    bytes.length < magic.length := by
  induction magic generalizing bytes with
  | nil => simp [matchMagic] at h
  | cons byte magic ih =>
    cases bytes with
    | nil => simp
    | cons b bytes =>
      by_cases hb : byte = b
      · subst hb
        simp only [matchMagic, ne_eq, not_true_eq_false, if_false] at h
        simpa using ih h
      · simp [matchMagic, hb] at h

theorem seekNextMagic_pos {bytes : List Byte} (h : bytes ≠ []) : 0 < seekNextMagic bytes := by
  have hlen := List.length_pos_of_ne_nil h
  simp only [seekNextMagic]
  split <;> omega

theorem seekNextMagic_le {bytes : List Byte} (h : bytes ≠ []) :
    seekNextMagic bytes ≤ bytes.length := by
  have hlen := List.length_pos_of_ne_nil h
  simp only [seekNextMagic]
  split
  · rename_i d hd
    obtain ⟨hlt, -⟩ := List.findIdx?_eq_some_iff_getElem.mp hd
    rw [List.length_drop] at hlt
    omega
  · exact le_rfl

/-- No first magic byte is skipped. -/
theorem seekNextMagic_skipped {bytes : List Byte} {i : Nat} (h : i + 1 < seekNextMagic bytes)
    (hlt : i + 1 < bytes.length) : bytes[i + 1] ≠ 0x48 := by
  simp only [seekNextMagic] at h
  split at h
  · rename_i d hd
    obtain ⟨hd', -, hbefore⟩ := List.findIdx?_eq_some_iff_getElem.mp hd
    simpa using hbefore i (by omega)
  · rename_i hnone
    have hmem : bytes[i + 1] ∈ bytes.drop 1 :=
      List.mem_iff_getElem.mpr ⟨i, by simp; omega, by simp⟩
    simpa using List.findIdx?_eq_none_iff.mp hnone _ hmem

variable {crc16}

theorem parse_badMagic {bytes : List Byte} (h : matchMagic magicBytes bytes = some none) :
    parse crc16 bytes = .corrupt .badMagic (seekNextMagic bytes) := by
  rw [parse, h]

theorem parse_header {len : List Byte} (hlen : len.length = payloadLenSize) (rest : List Byte) :
    parse crc16 (magicBytes ++ (len ++ rest)) =
      if fromLeBytes len > maxPayloadLen then
        .corrupt .payloadTooLarge (seekNextMagic (magicBytes ++ (len ++ rest)))
      else if rest.length < fromLeBytes len then
        .incomplete
      else
        match splitFirstChunk crcLen (rest.drop (fromLeBytes len)) with
        | none => .incomplete
        | some (crc, _) =>
          let checksummed := len ++ rest.take (fromLeBytes len)
          if BitVec.ofNat 16 (fromLeBytes crc) ≠ crc16 checksummed then
            .corrupt .badCrc (seekNextMagic (magicBytes ++ (len ++ rest)))
          else
            .ok (rest.take (fromLeBytes len)) (overhead + fromLeBytes len) := by
  have htake : (len ++ rest).take (payloadLenSize + fromLeBytes len) =
      len ++ rest.take (fromLeBytes len) := take_append_add hlen rest _
  rw [parse, matchMagic_append_self]
  simp only [splitFirstChunk_append hlen, htake]

theorem parse_payloadTooLarge {len : List Byte} (hlen : len.length = payloadLenSize)
    (hlarge : maxPayloadLen < fromLeBytes len) (rest : List Byte) :
    parse crc16 (magicBytes ++ (len ++ rest)) =
      .corrupt .payloadTooLarge (seekNextMagic (magicBytes ++ (len ++ rest))) := by
  rw [parse_header hlen, if_pos hlarge]

theorem parse_body {len payload crc : List Byte} (hlen : len.length = payloadLenSize)
    (hpayload : payload.length = fromLeBytes len) (hmax : fromLeBytes len ≤ maxPayloadLen)
    (hcrc : crc.length = crcLen) (rest : List Byte) :
    parse crc16 (magicBytes ++ (len ++ (payload ++ (crc ++ rest)))) =
      if BitVec.ofNat 16 (fromLeBytes crc) ≠ crc16 (len ++ payload) then
        .corrupt .badCrc (seekNextMagic (magicBytes ++ (len ++ (payload ++ (crc ++ rest)))))
      else
        .ok payload (overhead + payload.length) := by
  have hshort : ¬ (payload ++ (crc ++ rest)).length < fromLeBytes len := by
    rw [List.length_append]
    omega
  rw [parse_header hlen, if_neg (by omega), if_neg hshort, ← hpayload, List.drop_left,
    splitFirstChunk_append hcrc, List.take_left]

/-- How `parse` reads the front of a buffer. -/
inductive View (crc16 : List Byte → BitVec 16) : List Byte → FrameParse → Prop
  | incomplete {bytes} (h : bytes.length < maxLen) : View crc16 bytes .incomplete
  | badMagic {bytes} (h : matchMagic magicBytes bytes = some none) :
      View crc16 bytes (.corrupt .badMagic (seekNextMagic bytes))
  | payloadTooLarge {len rest} (hlen : len.length = payloadLenSize)
      (hlarge : maxPayloadLen < fromLeBytes len) :
      View crc16 (magicBytes ++ (len ++ rest))
        (.corrupt .payloadTooLarge (seekNextMagic (magicBytes ++ (len ++ rest))))
  | badCrc {len payload crc rest} (hlen : len.length = payloadLenSize)
      (hpayload : payload.length = fromLeBytes len) (hmax : fromLeBytes len ≤ maxPayloadLen)
      (hcrc : crc.length = crcLen)
      (hbad : BitVec.ofNat 16 (fromLeBytes crc) ≠ crc16 (len ++ payload)) :
      View crc16 (magicBytes ++ (len ++ (payload ++ (crc ++ rest))))
        (.corrupt .badCrc (seekNextMagic (magicBytes ++ (len ++ (payload ++ (crc ++ rest))))))
  | ok {len payload crc rest} (hlen : len.length = payloadLenSize)
      (hpayload : payload.length = fromLeBytes len) (hmax : fromLeBytes len ≤ maxPayloadLen)
      (hcrc : crc.length = crcLen)
      (hgood : BitVec.ofNat 16 (fromLeBytes crc) = crc16 (len ++ payload)) :
      View crc16 (magicBytes ++ (len ++ (payload ++ (crc ++ rest))))
        (.ok payload (overhead + payload.length))

theorem view_header {len rest : List Byte} (hlen : len.length = payloadLenSize) :
    View crc16 (magicBytes ++ (len ++ rest)) (parse crc16 (magicBytes ++ (len ++ rest))) := by
  have hshort : ∀ {n}, n ≤ maxPayloadLen → rest.length < n + crcLen →
      (magicBytes ++ (len ++ rest)).length < maxLen := by
    intro n hn hlt
    rw [List.length_append, List.length_append, hlen]
    change 2 + (2 + _) < 1030
    change n ≤ 1024 at hn
    change _ < n + 2 at hlt
    omega
  by_cases hlarge : fromLeBytes len > maxPayloadLen
  · rw [parse_payloadTooLarge hlen hlarge]
    exact .payloadTooLarge hlen hlarge
  · have hmax := Nat.le_of_not_lt hlarge
    by_cases hpayload : rest.length < fromLeBytes len
    · rw [parse_header hlen, if_neg hlarge, if_pos hpayload]
      exact .incomplete (hshort hmax (by omega))
    · cases hc : splitFirstChunk crcLen (rest.drop (fromLeBytes len)) with
      | none =>
        have hlt := splitFirstChunk_eq_none.mp hc
        rw [parse_header hlen, if_neg hlarge, if_neg hpayload, hc]
        rw [List.length_drop] at hlt
        exact .incomplete (hshort hmax (by omega))
      | some split =>
        obtain ⟨hdrop, hcrc⟩ := splitFirstChunk_eq_some hc
        have hlen' : (rest.take (fromLeBytes len)).length = fromLeBytes len := by
          rw [List.length_take]
          omega
        rw [← List.take_append_drop (fromLeBytes len) rest, hdrop, parse_body hlen hlen' hmax hcrc]
        split
        · exact .badCrc hlen hlen' hmax hcrc ‹_›
        · exact .ok hlen hlen' hmax hcrc (not_not.mp ‹_›)

theorem parse_view (crc16 : List Byte → BitVec 16) (bytes : List Byte) : View crc16 bytes (parse crc16 bytes) := by
  cases hm : matchMagic magicBytes bytes with
  | none =>
    have hlt : bytes.length < 2 := matchMagic_none hm
    rw [parse, hm]
    exact .incomplete (hlt.trans (by decide))
  | some found =>
    cases found with
    | none =>
      rw [parse_badMagic hm]
      exact .badMagic hm
    | some lenPayloadCrc =>
      obtain rfl := matchMagic_some hm
      cases hl : splitFirstChunk payloadLenSize lenPayloadCrc with
      | none =>
        have hlt : lenPayloadCrc.length < 2 := splitFirstChunk_eq_none.mp hl
        rw [parse, hm]
        simp only [hl]
        refine .incomplete ?_
        rw [List.length_append]
        change 2 + _ < 1030
        omega
      | some split =>
        obtain ⟨rfl, hlen⟩ := splitFirstChunk_eq_some hl
        exact view_header hlen

theorem parse_corrupt {bytes : List Byte} {e : FrameError} {d : Nat}
    (h : parse crc16 bytes = .corrupt e d) : bytes ≠ [] ∧ d = seekNextMagic bytes := by
  have hv := parse_view crc16 bytes
  rw [h] at hv
  cases hv with
  | badMagic hm => exact ⟨by rintro rfl; simp [matchMagic, magicBytes] at hm, rfl⟩
  | payloadTooLarge => exact ⟨by simp [magicBytes], rfl⟩
  | badCrc => exact ⟨by simp [magicBytes], rfl⟩

theorem parse_append_corrupt {bytes : List Byte} {e : FrameError} {d : Nat}
    (h : parse crc16 bytes = .corrupt e d) (t : List Byte) :
    parse crc16 (bytes ++ t) = .corrupt e (seekNextMagic (bytes ++ t)) := by
  have hv := parse_view crc16 bytes
  rw [h] at hv
  cases hv with
  | badMagic hm => exact parse_badMagic (matchMagic_append hm t)
  | payloadTooLarge hlen hlarge =>
    simp only [List.append_assoc]
    exact parse_payloadTooLarge hlen hlarge _
  | badCrc hlen hpayload hmax hcrc hbad =>
    simp only [List.append_assoc]
    rw [parse_body hlen hpayload hmax hcrc, if_pos hbad]

theorem parse_ok {bytes p : List Byte} {n : Nat} (h : parse crc16 bytes = .ok p n) :
    n = overhead + p.length ∧ n ≤ bytes.length ∧ ∀ t, parse crc16 (bytes ++ t) = .ok p n := by
  have hv := parse_view crc16 bytes
  rw [h] at hv
  cases hv with
  | ok hlen hpayload hmax hcrc hgood =>
    refine ⟨rfl, ?_, fun t => ?_⟩
    · simp only [List.length_append, hlen, hcrc, overhead]
      omega
    · simp only [List.append_assoc]
      rw [parse_body hlen hpayload hmax hcrc, if_neg (not_not.mpr hgood)]

theorem parse_ne_incomplete {bytes : List Byte} (h : maxLen ≤ bytes.length) :
    parse crc16 bytes ≠ .incomplete := by
  intro hi
  have hv := parse_view crc16 bytes
  rw [hi] at hv
  cases hv with
  | incomplete hlt => omega

/-- The bytes before the next first magic byte are all corrupt starts. -/
theorem parse_skipped {bytes : List Byte} {e : FrameError} {d i : Nat}
    (h : parse crc16 bytes = .corrupt e d) (hi : 0 < i) (hd : i < d) :
    ∃ m, parse crc16 (bytes.drop i) = .corrupt .badMagic m := by
  obtain ⟨hne, rfl⟩ := parse_corrupt h
  have hlt := Nat.lt_of_lt_of_le hd (seekNextMagic_le hne)
  obtain ⟨j, rfl⟩ := Nat.exists_eq_succ_of_ne_zero hi.ne'
  have hb := seekNextMagic_skipped hd hlt
  have hm : matchMagic magicBytes (bytes.drop (j + 1)) = some none := by
    rw [List.drop_eq_getElem_cons hlt]
    simp only [magicBytes, matchMagic]
    rw [if_pos (Ne.symm hb)]
  exact ⟨_, parse_badMagic hm⟩

theorem parse_frameOf {payload : List Byte} (h : payload.length ≤ maxPayloadLen)
    (rest : List Byte) :
    parse crc16 (frameOf crc16 payload ++ rest) = .ok payload (overhead + payload.length) := by
  have hlen : fromLeBytes (toLeBytes payloadLenSize payload.length) = payload.length := by
    rw [fromLeBytes_toLeBytes]
    change _ ≤ 1024 at h
    change _ % 65536 = _
    omega
  simp only [frameOf, List.append_assoc]
  rw [parse_body (toLeBytes_length _ _) hlen.symm (by rwa [hlen]) (toLeBytes_length _ _), if_neg]
  exact not_not.mpr (ofNat_fromLeBytes_toLeBytes rfl _)

theorem encode_eq {T : Type} [Encode T] {x : T} {a b room buf : List Byte} {m : Nat}
    (ha : a.length = magicBytes.length) (hb : b.length = payloadLenSize)
    (hx : Encode.encode x room = .ok (buf, m)) :
    encode crc16 (a ++ (b ++ room)) x =
      match splitFirstChunk crcLen (buf.drop m) with
      | none => .error .mk
      | some (_, rest) =>
        let checksummed := toLeBytes payloadLenSize m ++ buf.take m
        .ok (magicBytes ++ checksummed ++ toLeBytes crcLen (crc16 checksummed).toNat ++ rest,
          overhead + m) := by
  have htake := take_append_add (toLeBytes_length payloadLenSize m) buf m
  have hdrop := drop_append_add (toLeBytes_length payloadLenSize m) buf m
  simp only [encode, splitFirstChunk_append ha, splitFirstChunk_append hb, hx, htake,
    Nat.add_comm m payloadLenSize, hdrop]

/-- Framing a payload that writes `payload` wherever that fits. -/
theorem encode_fits {T : Type} [Encode T] {x : T} {payload out : List Byte}
    (hx : ∀ room : List Byte, payload.length ≤ room.length →
      Encode.encode x room = .ok (payload ++ room.drop payload.length, payload.length))
    (h : overhead + payload.length ≤ out.length) :
    encode crc16 out x =
      .ok (frameOf crc16 payload ++ out.drop (overhead + payload.length),
        overhead + payload.length) := by
  have hsize : overhead = magicBytes.length + payloadLenSize + crcLen := rfl
  obtain ⟨a, out, rfl, ha⟩ := exists_chunk magicBytes.length out (by omega)
  rw [List.length_append] at h
  obtain ⟨b, out, rfl, hb⟩ := exists_chunk payloadLenSize out (by omega)
  rw [List.length_append] at h
  obtain ⟨c, out, rfl, hc⟩ := exists_chunk payload.length out (by omega)
  rw [List.length_append] at h
  obtain ⟨d, out, rfl, hd⟩ := exists_chunk crcLen out (by omega)
  have hroom := hx (c ++ (d ++ out)) (by rw [List.length_append]; omega)
  rw [List.drop_left' hc] at hroom
  have hdrop : (a ++ (b ++ (c ++ (d ++ out)))).drop (overhead + payload.length) = out := by
    rw [hsize, show magicBytes.length + payloadLenSize + crcLen + payload.length =
      magicBytes.length + (payloadLenSize + (payload.length + crcLen)) by omega,
      drop_append_add ha, drop_append_add hb, drop_append_add hc, List.drop_left' hd]
  rw [encode_eq ha hb hroom, List.drop_left, splitFirstChunk_append hd, List.take_left, hdrop]
  rfl

theorem frameOf_length (crc16 : List Byte → BitVec 16) (payload : List Byte) :
    (frameOf crc16 payload).length = overhead + payload.length := by
  simp only [frameOf, List.length_append, toLeBytes_length, overhead]
  omega

/-- A frame that was written is the frame of what the payload wrote. -/
theorem encode_ok {T : Type} [Encode T] {x : T} {out out' : List Byte} {n : Nat}
    (hc : Encode.Contract x) (h : encode crc16 out x = .ok (out', n)) :
    ∃ buf m, Encode.encode x (out.drop (magicBytes.length + payloadLenSize)) = .ok (buf, m) ∧
      (buf.take m).length = m ∧ m ≤ maxPayloadLen ∧ n = overhead + m ∧
      out'.take n = frameOf crc16 (buf.take m) := by
  cases h₁ : splitFirstChunk magicBytes.length out with
  | none => simp [encode, h₁] at h
  | some split₁ =>
    obtain ⟨rfl, ha⟩ := splitFirstChunk_eq_some h₁
    cases h₂ : splitFirstChunk payloadLenSize split₁.2 with
    | none => simp [encode, h₁, h₂] at h
    | some split₂ =>
      obtain ⟨hsplit, hb⟩ := splitFirstChunk_eq_some h₂
      cases hx : Encode.encode x split₂.2 with
      | error e => simp [encode, h₁, h₂, hx] at h
      | ok written =>
        obtain ⟨buf, m⟩ := written
        obtain ⟨hmax, hm, hbuf, -⟩ := hc _ _ _ hx
        have hlen : (buf.take m).length = m := by
          rw [List.length_take]
          omega
        rw [hsplit, encode_eq ha hb hx] at h
        split at h
        · cases h
        · cases h
          refine ⟨buf, m, ?_, hlen, hmax.trans Encode.maxEncodedLen_le, rfl, ?_⟩
          · rw [hsplit, drop_append_add ha, ← hb, List.drop_left, hx]
          · rw [frameOf, hlen]
            refine List.take_left' ?_
            simp only [List.length_append, toLeBytes_length, hlen, overhead]
            omega

end Homescope.Frame
