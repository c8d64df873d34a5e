/-!
# Bytes and words

How addresses of sixteen bits are made of two bytes, and how single bits of a byte are read.
-/
namespace Famiclone

/-- Bit `i` of a byte, the lowest being bit zero. -/
def bit (b : UInt8) (i : Nat) : Bool := b.toNat.testBit i

def word (high low : UInt8) : UInt16 := UInt16.ofNat (high.toNat * 256 + low.toNat)

/-- The high byte of a word; as an address, its page. -/
def highByte (w : UInt16) : UInt8 := UInt8.ofNat (w.toNat / 256)

def lowByte (w : UInt16) : UInt8 := UInt8.ofNat w.toNat

@[simp] theorem highByte_word (high low : UInt8) : highByte (word high low) = high := by
  apply UInt8.toNat_inj.1
  have := high.toNat_lt; have := low.toNat_lt
  simp only [highByte, word, UInt8.toNat_ofNat', UInt16.toNat_ofNat']; omega

@[simp] theorem lowByte_word (high low : UInt8) : lowByte (word high low) = low := by
  apply UInt8.toNat_inj.1
  have := high.toNat_lt; have := low.toNat_lt
  simp only [lowByte, word, UInt8.toNat_ofNat', UInt16.toNat_ofNat']; omega

@[simp] theorem word_highByte_lowByte (w : UInt16) : word (highByte w) (lowByte w) = w := by
  apply UInt16.toNat_inj.1
  have := w.toNat_lt
  simp only [highByte, lowByte, word, UInt8.toNat_ofNat', UInt16.toNat_ofNat']; omega

end Famiclone
