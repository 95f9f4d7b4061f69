import Lifecycle.Limits

/-!
# Machine words

Addresses, syscall numbers and raw syscall arguments are words: natural numbers below
`Limits.wordLimit`. A signed value becomes a word through its two's complement, and a word
becomes a 32-bit code by dropping its upper half.
-/

namespace Lifecycle.Word

/-- The two's complement of an integer. -/
def ofInt (value : Int) : Nat := (value % (Limits.wordLimit : Int)).toNat

/-- The low 32 bits of a word as a signed code. -/
def lowCode (word : Nat) : Int32 := Int32.ofNat word

/-- Lower-case hexadecimal digits without leading zeros. -/
def hexDigits (word : Nat) : String := String.ofList (Nat.toDigits 16 word)

end Lifecycle.Word
