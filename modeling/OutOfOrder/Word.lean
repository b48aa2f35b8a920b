/-!
# 32-bit words

Values are unbounded integers, and the machine keeps each of them as the integer in
`[-2^31, 2^31)` that is congruent to it modulo `2^32`.  Division truncates toward zero, and a
division by zero yields zero.
-/

namespace OutOfOrder.Word

/-- The low 32 bits of a value, read in two's complement. -/
def wrap (value : Int) : Int :=
  if value % 4294967296 < 2147483648 then value % 4294967296
  else value % 4294967296 - 4294967296

theorem neg_le_wrap (value : Int) : -2147483648 ≤ wrap value := by
  rw [wrap]
  split <;> omega

theorem wrap_lt (value : Int) : wrap value < 2147483648 := by
  rw [wrap]
  split <;> omega

theorem wrap_eq_self {value : Int} (low : -2147483648 ≤ value) (high : value < 2147483648) :
    wrap value = value := by
  rw [wrap]
  split <;> omega

def add (a b : Int) : Int :=
  wrap (a + b)

def sub (a b : Int) : Int :=
  wrap (a - b)

def mul (a b : Int) : Int :=
  wrap (a * b)

/-- The quotient of the magnitudes under the sign that the signs give. -/
def quotient (a b : Int) : Int :=
  if b = 0 then 0
  else if a < 0 ↔ b < 0 then (a.natAbs / b.natAbs : Nat)
  else -(a.natAbs / b.natAbs : Nat)

def div (a b : Int) : Int :=
  wrap (quotient a b)

def lowByte (value : Int) : UInt8 :=
  UInt8.ofNat (value % 256).toNat

/-- The word that has the given bytes, the lowest one first. -/
def ofBytes (bytes : List UInt8) : Int :=
  wrap (bytes.foldr (fun byte high => (byte.toNat : Int) + 256 * high) 0)

end OutOfOrder.Word
