import Mathlib.Data.BitVec

/-! # IEEE 754 binary64 equality

A value is its 64 bits. Equality is the one of the standard: a NaN equals
nothing, and the two zeros are equal although their bits differ.
-/

namespace RealtimeAgnostic

structure Binary64 where
  bits : BitVec 64
deriving DecidableEq, Repr

namespace Binary64

def exponentMask : BitVec 64 := 0x7FF0000000000000#64

def magnitude (x : Binary64) : BitVec 64 := x.bits &&& 0x7FFFFFFFFFFFFFFF#64

def isNaN (x : Binary64) : Bool := decide (exponentMask < x.magnitude)

def isZero (x : Binary64) : Bool := x.magnitude == 0

def beq (x y : Binary64) : Bool :=
  !x.isNaN && !y.isNaN && (x.bits == y.bits || (x.isZero && y.isZero))

instance : BEq Binary64 := ⟨beq⟩

theorem beq_comm (x y : Binary64) : (x == y) = (y == x) := by
  change x.beq y = y.beq x
  rw [beq, beq, Bool.and_comm (!x.isNaN), BEq.comm, Bool.and_comm x.isZero]

end Binary64

end RealtimeAgnostic
