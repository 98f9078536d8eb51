/-!
# Random streams

An unending stream of numbers of 128 bits that a seed determines. The numbers serve where values
should differ from run to run, not where they must be kept secret.
-/

namespace Stencil.RandomStream

/-- Scatters the bits of a word. -/
def scatter (z : UInt64) : UInt64 :=
  let z := (z ^^^ (z >>> 30)) * 0xbf58476d1ce4e5b9
  let z := (z ^^^ (z >>> 27)) * 0x94d049bb133111eb
  z ^^^ (z >>> 31)

/-- The word of a seed at a place. -/
def word (seed place : Nat) : UInt64 :=
  scatter (UInt64.ofNat seed + UInt64.ofNat (place + 1) * 0x9e3779b97f4a7c15)

/-- The number of a seed at a place. -/
def number (seed place : Nat) : Nat :=
  18446744073709551616 * (word seed (2 * place)).toNat + (word seed (2 * place + 1)).toNat

end Stencil.RandomStream
