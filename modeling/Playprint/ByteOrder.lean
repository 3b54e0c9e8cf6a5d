import Playprint.Bytes

/-!
Words in a byte order. A container stores every word in one order of its own, tags included, so the
order is a parameter of all that reads or writes words. Main statements: reading the bytes of a word
gives the word back, in either order, and four bytes are the bytes of the word that is read from them.
-/

namespace Playprint

/-- A word counts as the number it holds. -/
instance numberOfWord : CoeOut UInt32 Nat := ⟨UInt32.toNat⟩

/-- The order of the bytes of a word. -/
inductive ByteOrder
  /-- Most significant byte first. -/
  | big
  /-- Least significant byte first. -/
  | little
  deriving DecidableEq

namespace ByteOrder

/-- The name a report gives the order. -/
def name : ByteOrder → String
  | big => "BigEndian"
  | little => "LittleEndian"

/-- The number that bytes spell when the least significant comes first. -/
def littleValue : Bytes → Nat
  | [] => 0
  | byte :: rest => byte.toNat + 256 * littleValue rest

/-- The `count` lowest bytes of a number, least significant first. -/
def littleBytes : Nat → Nat → Bytes
  | 0, _ => []
  | count + 1, value => UInt8.ofNat value :: littleBytes count (value / 256)

/-- How many numbers `count` bytes can spell. -/
def span : Nat → Nat
  | 0 => 1
  | count + 1 => 256 * span count

/-- The number that bytes spell. -/
def value : ByteOrder → Bytes → Nat
  | big, bytes => littleValue bytes.reverse
  | little, bytes => littleValue bytes

/-- The `count` lowest bytes of a number. -/
def bytes : ByteOrder → Nat → Nat → Bytes
  | big, count, value => (littleBytes count value).reverse
  | little, count, value => littleBytes count value

/-- The word that four bytes spell. -/
def word (order : ByteOrder) (data : Bytes) : UInt32 :=
  UInt32.ofNat (order.value data)

/-- The four bytes of a word. -/
def wordBytes (order : ByteOrder) (word : UInt32) : Bytes :=
  order.bytes 4 word.toNat

/-- The half word that two bytes spell. -/
def half (order : ByteOrder) (data : Bytes) : UInt16 :=
  UInt16.ofNat (order.value data)

/-- The word with its bytes in the opposite order. -/
def swapWord (word : UInt32) : UInt32 :=
  little.word (big.wordBytes word)

/-- The half word with its bytes in the opposite order. -/
def swapHalf (half : UInt16) : UInt16 :=
  little.half (big.bytes 2 half.toNat)

/-- Whether words of this order differ from those of the machine, which counts as little-endian. -/
def isSwapped : ByteOrder → Bool
  | big => true
  | little => false

@[simp] theorem length_littleBytes (count value : Nat) :
    (littleBytes count value).length = count := by
  induction count generalizing value with
  | zero => rfl
  | succ count ih => simp [littleBytes, ih]

@[simp] theorem length_bytes (order : ByteOrder) (count value : Nat) :
    (order.bytes count value).length = count := by
  cases order <;> simp [bytes]

@[simp] theorem length_wordBytes (order : ByteOrder) (word : UInt32) :
    (order.wordBytes word).length = 4 := by
  simp [wordBytes]

theorem littleValue_littleBytes (count value : Nat) :
    littleValue (littleBytes count value) = value % span count := by
  induction count generalizing value with
  | zero => simp [littleBytes, littleValue, span, Nat.mod_one]
  | succ count ih =>
    rw [littleBytes, littleValue, ih, UInt8.toNat_ofNat', span, Nat.mod_mul]

theorem value_bytes (order : ByteOrder) (count value : Nat) :
    order.value (order.bytes count value) = value % span count := by
  cases order <;> simp [ByteOrder.value, bytes, littleValue_littleBytes]

@[simp] theorem word_wordBytes (order : ByteOrder) (word : UInt32) :
    order.word (order.wordBytes word) = word := by
  have h := word.toNat_lt
  simp only [ByteOrder.word, wordBytes, value_bytes, span, ← UInt32.toNat_inj, UInt32.toNat_ofNat']
  omega

theorem littleValue_lt (data : Bytes) : littleValue data < span data.length := by
  induction data with
  | nil => exact Nat.one_pos
  | cons byte rest ih =>
    have hbyte := byte.toNat_lt
    rw [littleValue, List.length_cons, span]
    omega

theorem littleBytes_littleValue (data : Bytes) : littleBytes data.length (littleValue data) = data := by
  induction data with
  | nil => rfl
  | cons byte rest ih =>
    have hbyte := byte.toNat_lt
    have hhead : UInt8.ofNat (byte.toNat + 256 * littleValue rest) = byte := by
      rw [← UInt8.toNat_inj, UInt8.toNat_ofNat']
      omega
    have hrest : (byte.toNat + 256 * littleValue rest) / 256 = littleValue rest := by omega
    rw [List.length_cons, littleValue, littleBytes, hhead, hrest, ih]

theorem value_lt (order : ByteOrder) (data : Bytes) : order.value data < span data.length := by
  cases order with
  | big =>
    have h := littleValue_lt data.reverse
    rwa [List.length_reverse] at h
  | little => exact littleValue_lt data

theorem bytes_value (order : ByteOrder) (data : Bytes) : order.bytes data.length (order.value data) = data := by
  cases order with
  | big =>
    have h := littleBytes_littleValue data.reverse
    rw [List.length_reverse] at h
    rw [bytes, value, h, List.reverse_reverse]
  | little => exact littleBytes_littleValue data

theorem wordBytes_word (order : ByteOrder) {data : Bytes} (h : data.length = 4) :
    order.wordBytes (order.word data) = data := by
  have hvalue := order.value_lt data
  rw [h] at hvalue
  rw [wordBytes, word, UInt32.toNat_ofNat_of_lt' hvalue, ← h, bytes_value]

end ByteOrder

end Playprint
