import Mathlib.Data.UInt

/-!
# CRC-64/XZ

The byte table is built bit by bit from the reflected polynomial. The slice update consumes
eight bytes at a time through eight derived tables. Tables are modelled by the functions that
fill them.
-/

namespace Remanence.Crc64

def crc64XzReflectedPoly : UInt64 := 0xC96C5795D7870F42

def crc64XzBitStep (crc : UInt64) : UInt64 :=
  if crc&&&1=1 then (crc>>>1)^^^crc64XzReflectedPoly else crc>>>1

def crc64XzTableEntry (byte : UInt8) : UInt64 :=
  (List.range 8).foldl (fun crc _ => crc64XzBitStep crc) byte.toUInt64

def crc64XzSlice : ℕ → UInt8 → UInt64
  | 0,byte => crc64XzTableEntry byte
  | slice+1,byte =>
    let crc := crc64XzSlice slice byte
    (crc>>>8)^^^crc64XzTableEntry (crc&&&0xff).toUInt8

def crc64XzUpdate (crc : UInt64) (byte : UInt8) : UInt64 :=
  (crc>>>8)^^^crc64XzTableEntry ((crc^^^byte.toUInt64)&&&0xFF).toUInt8

def word (b0 b1 b2 b3 b4 b5 b6 b7 : UInt8) : UInt64 :=
  b0.toUInt64|||(b1.toUInt64<<<8)|||(b2.toUInt64<<<16)|||(b3.toUInt64<<<24)|||
    (b4.toUInt64<<<32)|||(b5.toUInt64<<<40)|||(b6.toUInt64<<<48)|||(b7.toUInt64<<<56)

/-- Advance of the internal state over a byte slice, eight bytes at a time. -/
def crc64XzUpdateSlice : UInt64 → List UInt8 → UInt64
  | crc,b0::b1::b2::b3::b4::b5::b6::b7::rest =>
    let w := crc^^^word b0 b1 b2 b3 b4 b5 b6 b7
    crc64XzUpdateSlice
      (crc64XzSlice 7 (w&&&0xff).toUInt8^^^crc64XzSlice 6 ((w>>>8)&&&0xff).toUInt8^^^
        crc64XzSlice 5 ((w>>>16)&&&0xff).toUInt8^^^crc64XzSlice 4 ((w>>>24)&&&0xff).toUInt8^^^
        crc64XzSlice 3 ((w>>>32)&&&0xff).toUInt8^^^crc64XzSlice 2 ((w>>>40)&&&0xff).toUInt8^^^
        crc64XzSlice 1 ((w>>>48)&&&0xff).toUInt8^^^crc64XzSlice 0 (w>>>56).toUInt8) rest
  | crc,bytes => bytes.foldl crc64XzUpdate crc

def crc64Xz (bytes : List UInt8) : UInt64 :=
  crc64XzUpdateSlice 0xFFFFFFFFFFFFFFFF bytes^^^0xFFFFFFFFFFFFFFFF

/-- The published check value of `"123456789"`. -/
example : crc64Xz [0x31,0x32,0x33,0x34,0x35,0x36,0x37,0x38,0x39]=0x995DC9BBDF1939FA := by
  decide +kernel

end Remanence.Crc64
