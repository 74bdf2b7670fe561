import Homescope.Crc16
import Homescope.FrameRoundTrip
import Homescope.LinearRegister

/-! Bursts of bit errors in a frame. On the wire the payload and the checksum
are one run of bits, lowest first, and the register that computed the checksum
is fed exactly these. -/

namespace Homescope.Frame

open LinearRegister

/-- The feedback of CRC-16/IBM-SDLC. -/
def crcFeedback : BitVec 16 := 0x8408

/-- The bits of some bytes in the order in which they are sent. -/
def wireBits (bytes : List Byte) : List Bool := bytes.flatMap bits

def xorBytes (bytes error : List Byte) : List Byte := List.zipWith (· ^^^ ·) bytes error

/-- A frame with errors in its payload and its checksum. -/
def damaged (frame error : List Byte) : List Byte :=
  frame.take (magicBytes.length + payloadLenSize) ++
    xorBytes (frame.drop (magicBytes.length + payloadLenSize)) error

/-! ### The checksum as a register -/

theorem crcByte_eq (crc : BitVec 16) (byte : Byte) : crcByte crc byte = run crcFeedback crc (bits byte) := by
  have hlen := length_bits byte
  rw [run_eq_iterate crcFeedback (by omega), hlen, word_bits]
  rfl

theorem wireBits_cons (byte : Byte) (bytes : List Byte) :
    wireBits (byte :: bytes) = bits byte ++ wireBits bytes :=
  List.flatMap_cons

theorem wireBits_append (bytes more : List Byte) :
    wireBits (bytes ++ more) = wireBits bytes ++ wireBits more :=
  List.flatMap_append

theorem foldl_crcByte (bytes : List Byte) (crc : BitVec 16) :
    bytes.foldl crcByte crc = run crcFeedback crc (wireBits bytes) := by
  induction bytes generalizing crc with
  | nil => rfl
  | cons byte bytes ih =>
    rw [List.foldl_cons, ih, crcByte_eq, wireBits_cons, run_append]

theorem length_wireBits (bytes : List Byte) : (wireBits bytes).length = 8 * bytes.length := by
  induction bytes with
  | nil => rfl
  | cons byte bytes ih =>
    rw [wireBits_cons, List.length_append, length_bits, ih, List.length_cons]
    omega

theorem wireBits_xorBytes {bytes error : List Byte} (h : bytes.length = error.length) :
    wireBits (xorBytes bytes error) = List.zipWith (· ^^ ·) (wireBits bytes) (wireBits error) := by
  induction bytes generalizing error with
  | nil => rfl
  | cons byte bytes ih =>
    cases error with
    | nil => simp at h
    | cons e error =>
      have hrest := @ih error (by simpa using h)
      have hlen : (bits byte).length = (bits e).length := by rw [length_bits, length_bits]
      rw [xorBytes, List.zipWith_cons_cons, wireBits_cons, ← xorBytes, hrest, bits_xor, wireBits_cons,
        wireBits_cons, List.zipWith_append hlen]

/-- Errors in the checked bytes change the checksum by what they alone leave in
an empty register. -/
theorem crc16_xorBytes (front : List Byte) {bytes error : List Byte}
    (h : bytes.length = error.length) :
    crc16IbmSdlc (front ++ xorBytes bytes error) =
      crc16IbmSdlc (front ++ bytes) ^^^ run crcFeedback 0 (wireBits error) := by
  have hlen : (wireBits bytes).length = (wireBits error).length := by
    rw [length_wireBits, length_wireBits, h]
  have hrun := run_xor crcFeedback hlen (front.foldl crcByte 0xFFFF) 0
  rw [show front.foldl crcByte 0xFFFF ^^^ 0 = front.foldl crcByte 0xFFFF from BitVec.xor_zero] at hrun
  rw [crc16IbmSdlc, crc16IbmSdlc, List.foldl_append, List.foldl_append, foldl_crcByte (xorBytes _ _),
    foldl_crcByte bytes, wireBits_xorBytes h, hrun, BitVec.not_xor_left]

/-- A checksum as the number it stands for. -/
def crcWord (crc : List Byte) : BitVec 16 := BitVec.ofNat 16 (fromLeBytes crc)

/-- The checksum of a payload, as its frame carries it. -/
def checksumOf (payload : List Byte) : List Byte :=
  toLeBytes crcLen (crc16IbmSdlc (toLeBytes payloadLenSize payload.length ++ payload)).toNat

theorem checksumOf_length (payload : List Byte) : (checksumOf payload).length = crcLen :=
  toLeBytes_length _ _

theorem crcWord_pair (low high : Byte) : crcWord [low, high] = high ++ low := by
  apply BitVec.eq_of_toNat_eq
  have hlow := low.isLt
  have hhigh := high.isLt
  rw [crcWord, BitVec.toNat_ofNat, BitVec.toNat_append, ← Nat.shiftLeft_add_eq_or_of_lt hlow,
    Nat.shiftLeft_eq]
  simp only [fromLeBytes]
  omega

theorem exists_pair {crc : List Byte} (h : crc.length = crcLen) : ∃ low high, crc = [low, high] :=
  List.length_eq_two.mp h

theorem crcWord_xorBytes {crc error : List Byte} (hcrc : crc.length = crcLen)
    (herror : error.length = crcLen) :
    crcWord (xorBytes crc error) = crcWord crc ^^^ crcWord error := by
  obtain ⟨low, high, rfl⟩ := exists_pair hcrc
  obtain ⟨elow, ehigh, rfl⟩ := exists_pair herror
  rw [crcWord_pair, crcWord_pair, BitVec.xor_append, ← crcWord_pair]
  rfl

/-- The checksum goes out low byte first, so its bits too are in order. -/
theorem bits_crcWord {crc : List Byte} (h : crc.length = crcLen) : bits (crcWord crc) = wireBits crc := by
  obtain ⟨low, high, rfl⟩ := exists_pair h
  rw [crcWord_pair, bits_append]
  simp [wireBits]

/-- Errors that the check misses leave the register empty. -/
theorem run_eq_zero_of_missed {payloadError crcError : List Byte} (h : crcError.length = crcLen)
    (hmissed : crcWord crcError = run crcFeedback 0 (wireBits payloadError)) :
    run crcFeedback 0 (wireBits (payloadError ++ crcError)) = 0 := by
  have hlen := length_bits (crcWord crcError)
  rw [wireBits_append, run_append, ← hmissed, ← bits_crcWord h,
    run_eq_iterate crcFeedback (by omega), word_bits, BitVec.setWidth_eq, BitVec.xor_self]
  exact Function.iterate_fixed (step_zero crcFeedback) _

/-! ### The frame -/

theorem damaged_frameOf {payload payloadError : List Byte} (crcError : List Byte)
    (h : payloadError.length = payload.length) :
    damaged (frameOf crc16IbmSdlc payload) (payloadError ++ crcError) =
      magicBytes ++ (toLeBytes payloadLenSize payload.length ++ (xorBytes payload payloadError ++
        xorBytes (checksumOf payload) crcError)) := by
  have hfront : (magicBytes ++ toLeBytes payloadLenSize payload.length).length =
      magicBytes.length + payloadLenSize := by
    rw [List.length_append, toLeBytes_length]
  have hframeOf : frameOf crc16IbmSdlc payload =
      (magicBytes ++ toLeBytes payloadLenSize payload.length) ++ (payload ++ checksumOf payload) := by
    rw [frameOf, checksumOf]
    simp only [List.append_assoc]
  rw [damaged, hframeOf, List.take_left' hfront, List.drop_left' hfront, xorBytes,
    List.zipWith_append h.symm, List.append_assoc]
  rfl

/-- A burst in the payload and the checksum leaves them in disagreement. -/
theorem crcWord_damaged_ne {payload payloadError crcError : List Byte}
    (hpayload : payloadError.length = payload.length) (hcrc : crcError.length = crcLen)
    (hburst : Burst 16 (wireBits (payloadError ++ crcError))) :
    crcWord (xorBytes (checksumOf payload) crcError) ≠
      crc16IbmSdlc (toLeBytes payloadLenSize payload.length ++ xorBytes payload payloadError) := by
  have hword : crcWord (checksumOf payload) =
      crc16IbmSdlc (toLeBytes payloadLenSize payload.length ++ payload) :=
    ofNat_fromLeBytes_toLeBytes rfl _
  rw [crcWord_xorBytes (checksumOf_length payload) hcrc, crc16_xorBytes _ hpayload.symm, hword]
  intro hmissed
  have hrun := run_eq_zero_of_missed hcrc ((BitVec.xor_right_inj _).mp hmissed)
  exact run_burst_ne_zero (g := crcFeedback) rfl le_rfl hburst hrun

/-- A burst of at most 16 bits in the payload and the checksum of a frame is
found out, whatever follows the frame. -/
theorem burst_detected {frame payload error : List Byte}
    (hframe : parse crc16IbmSdlc frame = .ok payload frame.length)
    (herror : error.length = payload.length + crcLen) (hburst : Burst 16 (wireBits error))
    (rest : List Byte) :
    parse crc16IbmSdlc (damaged frame error ++ rest) =
      .corrupt .badCrc (seekNextMagic (damaged frame error ++ rest)) := by
  obtain ⟨hmax, hbytes⟩ := take_of_parse_ok hframe
  rw [List.take_length] at hbytes
  obtain ⟨payloadError, crcError, rfl, hpayload⟩ := exists_chunk payload.length error (by omega)
  have hcrcError : crcError.length = crcLen := by
    rw [List.length_append] at herror
    omega
  have hlen : fromLeBytes (toLeBytes payloadLenSize payload.length) = payload.length := by
    rw [fromLeBytes_toLeBytes]
    change _ ≤ 1024 at hmax
    change _ % 65536 = _
    omega
  have hxorLen : (xorBytes payload payloadError).length = payload.length := by
    rw [xorBytes, List.length_zipWith, hpayload, Nat.min_self]
  have hxorCrc : (xorBytes (checksumOf payload) crcError).length = crcLen := by
    rw [xorBytes, List.length_zipWith, checksumOf_length, hcrcError, Nat.min_self]
  rw [hbytes, damaged_frameOf crcError hpayload]
  simp only [List.append_assoc]
  rw [parse_body (toLeBytes_length _ _) (hxorLen.trans hlen.symm) (hlen.trans_le hmax) hxorCrc]
  exact if_pos (crcWord_damaged_ne hpayload hcrcError hburst)

/-- A burst over the end of the payload and both bytes of the checksum. -/
theorem burst_detected_boundary :
    parse crc16IbmSdlc (damaged (frameOf crc16IbmSdlc [1, 2, 3]) [0, 0, 0x80, 0xFF, 0x7F] ++ [0x48]) =
      .corrupt .badCrc (seekNextMagic
        (damaged (frameOf crc16IbmSdlc [1, 2, 3]) [0, 0, 0x80, 0xFF, 0x7F] ++ [0x48])) := by
  have hframe : parse crc16IbmSdlc (frameOf crc16IbmSdlc [1, 2, 3]) =
      .ok [1, 2, 3] (frameOf crc16IbmSdlc [1, 2, 3]).length := by
    have hparse := @parse_frameOf crc16IbmSdlc [1, 2, 3] (by decide) []
    rwa [List.append_nil, ← frameOf_length crc16IbmSdlc] at hparse
  have hwindow : ∀ i < 40, (wireBits [0, 0, 0x80, 0xFF, 0x7F])[i]? = some true →
      23 ≤ i ∧ i < 23 + 16 := by decide
  refine burst_detected hframe rfl ⟨by decide, 23, fun i hi => ?_⟩ [0x48]
  obtain ⟨hlt, -⟩ := List.getElem?_eq_some_iff.mp hi
  rw [length_wireBits] at hlt
  exact hwindow i hlt hi

-- Seventeen bits are too many: the feedback behind its own leading bit is missed.
example : parse crc16IbmSdlc (damaged (frameOf crc16IbmSdlc [1]) [0x11, 0x08, 0x01]) =
    .ok [0x10] 7 := by
  decide +kernel

end Homescope.Frame
