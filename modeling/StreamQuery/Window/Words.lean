import StreamQuery.Window.Basic
namespace StreamQuery

/-! Windows counted in words of 64 bits. An operation gives nothing where its exact result is no
word, and where there is none. -/

namespace Word

def divide? (dividend divisor : UInt64) : Option UInt64 :=
  if divisor = 0 then none else some (dividend / divisor)

def subtract? (minuend subtrahend : UInt64) : Option UInt64 :=
  if subtrahend ≤ minuend then some (minuend - subtrahend) else none

def add? (first second : UInt64) : Option UInt64 :=
  if first.toNat + second.toNat < UInt64.size then some (first + second) else none

/-- The words from the first to the last, both included. No word after the last is counted to. -/
def through (first last : UInt64) : List UInt64 :=
  if first < last then first :: through (first + 1) last
  else if first = last then [first]
  else []
termination_by last.toNat - first.toNat
decreasing_by
  have bound := last.toNat_lt
  simp only [UInt64.lt_iff_toNat_lt, UInt64.toNat_add, UInt64.toNat_one] at *
  omega

end Word

namespace Window

def firstOpen? (position size step : UInt64) : Option UInt64 :=
  if size ≤ position then do
    let passed ← Word.subtract? position size
    let ended ← Word.divide? passed step
    Word.add? ended 1
  else some 0

def coveringWords? (position size step : UInt64) : Option (List UInt64) := do
  let last ← Word.divide? position step
  let first ← firstOpen? position size step
  some (Word.through first last)

end Window

end StreamQuery
