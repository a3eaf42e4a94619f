/-! # NaN boxing

A single-precision pattern in a 64-bit register has all upper bits set. A value whose upper
bits are not all set holds no such pattern and is read as the canonical NaN.
-/
namespace ArchState

def nanBoxMask : UInt64 := 0xFFFFFFFF00000000

/-- The pattern that stands for a value that is not boxed. -/
def canonicalNan : UInt32 := 0x7FC00000

def nanBox (bits : UInt32) : UInt64 := nanBoxMask ||| bits.toUInt64

def nanUnbox (value : UInt64) : UInt32 :=
  if value &&& nanBoxMask = nanBoxMask then value.toUInt32 else canonicalNan

end ArchState
