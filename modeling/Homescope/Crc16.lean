import Homescope.Words

/-! CRC-16/IBM-SDLC: polynomial 0x1021, reflected, starting from all ones and
complemented at the end. -/

namespace Homescope

/-- One bit of the register, least significant first. -/
def crcStep (crc : BitVec 16) : BitVec 16 :=
  if crc.getLsbD 0 then crc >>> 1 ^^^ 0x8408 else crc >>> 1

def crcByte (crc : BitVec 16) (byte : Byte) : BitVec 16 :=
  crcStep^[8] (crc ^^^ byte.setWidth 16)

def crc16IbmSdlc (bytes : List Byte) : BitVec 16 :=
  ~~~ bytes.foldl crcByte 0xFFFF

-- The check value of the catalogue, over the digits 1 to 9.
example : crc16IbmSdlc [0x31, 0x32, 0x33, 0x34, 0x35, 0x36, 0x37, 0x38, 0x39] = 0x906E := by
  decide +kernel

end Homescope
