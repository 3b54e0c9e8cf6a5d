import Playprint.Property.Fields
import Playprint.Proofs.ByteCode.Reading
import Playprint.Proofs.ByteCode.Tape
import Playprint.Proofs.Text.Utf8
import Playprint.Proofs.Vlq

/-!
Fields of property data read back from their bytes, and where a reader of them can stand. Whatever is read, and
whether it is there or not, the reader moves on over bytes that the data has. A reading that fails stays where it
was, but one of a text that is cut off stands behind the length of the text. Main statement: `fields_exact`.
-/

namespace Playprint

namespace Vlq

variable {data : Bytes} {value used : Nat}

/-- A number is spelled by bytes of the data. -/
theorem used_le (h : decode data = .ok (value, used)) : used ≤ data.length := by
  obtain ⟨last, hlast, _, _, _, rfl⟩ := decode_eq_ok_iff.mp h
  exact (List.findIdx?_eq_some_iff_getElem.mp hlast).1

end Vlq

namespace Cursor

open Step (Along FailsAlong)

variable {cursor : Cursor} {count size used : Nat} {e : FormatError}

/-- The cursor further on in its stream. -/
def advance (count : Nat) (cursor : Cursor) : Cursor :=
  ⟨cursor.order, cursor.offset + count, cursor.rest.drop count⟩

theorem advance_zero (cursor : Cursor) : cursor.advance 0 = cursor := rfl

theorem advance_advance (first second : Nat) (cursor : Cursor) :
    (cursor.advance first).advance second = cursor.advance (first + second) := by
  simp only [advance, Nat.add_assoc, List.drop_drop]

theorem remaining_advance (count : Nat) (cursor : Cursor) :
    (cursor.advance count).remaining = cursor.remaining - count :=
  List.length_drop

/-- One cursor stands where another comes to over bytes that are there. -/
def Reaches (before after : Cursor) : Prop :=
  ∃ count, count ≤ before.remaining ∧ after = before.advance count

instance : Std.Refl Reaches := ⟨fun cursor => ⟨0, Nat.zero_le _, (advance_zero cursor).symm⟩⟩

instance : Trans Reaches Reaches Reaches where
  trans := by
    rintro before _ _ ⟨first, hfirst, rfl⟩ ⟨second, hsecond, rfl⟩
    rw [remaining_advance] at hsecond
    exact ⟨first + second, by omega, advance_advance first second before⟩

theorem Reaches.inStream {before after : Cursor} {stream : Bytes} (h : Reaches before after)
    (hbefore : before.InStream stream) : after.InStream stream := by
  obtain ⟨count, hcount, rfl⟩ := h
  exact hbefore.advance hcount

theorem inStream_ofBytes (order : ByteOrder) (stream : Bytes) : (ofBytes order stream).InStream stream :=
  ⟨Nat.zero_le _, rfl⟩

/-! ### Bytes and words -/

theorem outcome_readBytes_short (h : cursor.remaining < count) :
    (readBytes count).outcome cursor =
      (.error (.truncated cursor.offset (count - cursor.remaining)), cursor) := by
  rw [readBytes, Step.outcome_of]
  exact if_pos h

theorem outcome_readBytes_of_le (h : count ≤ cursor.remaining) :
    (readBytes count).outcome cursor = (.ok (cursor.rest.take count), cursor.advance count) := by
  rw [readBytes, Step.outcome_of]
  exact if_neg (Nat.not_lt.mpr h)

theorem along_readBytes (count : Nat) : Along Reaches (readBytes count) := by
  intro cursor
  by_cases h : cursor.remaining < count
  · rw [outcome_readBytes_short h]
    exact Std.Refl.refl cursor
  · rw [outcome_readBytes_of_le (Nat.le_of_not_lt h)]
    exact ⟨count, Nat.le_of_not_lt h, rfl⟩

theorem along_readWord : Along Reaches readWord :=
  Along.get.bind fun _ => (along_readBytes 4).bind fun _ => .pure _

theorem failsAlong_readBytes (count : Nat) : FailsAlong Eq (readBytes count) := by
  intro cursor left e h
  by_cases hshort : cursor.remaining < count
  · exact congrArg Prod.snd ((outcome_readBytes_short hshort).symm.trans h)
  · cases (outcome_readBytes_of_le (Nat.le_of_not_lt hshort)).symm.trans h

theorem failsAlong_readWord : FailsAlong Eq readWord :=
  .bind .get fun _ => (failsAlong_readBytes 4).followed fun _ mid => ⟨_, mid, rfl⟩

/-! ### Variable-length integers -/

theorem outcome_readVlq_error (h : Vlq.decode cursor.rest = .error e) :
    readVlq.outcome cursor = (.error e, cursor) := by
  simp only [readVlq, Step.outcome_of, h]

theorem outcome_readVlq_ok (h : Vlq.decode cursor.rest = .ok (size, used)) :
    readVlq.outcome cursor = (.ok size, cursor.advance used) := by
  simp only [readVlq, Step.outcome_of, h, advance]

theorem along_readVlq : Along Reaches readVlq := by
  intro cursor
  cases h : Vlq.decode cursor.rest with
  | error e =>
      rw [outcome_readVlq_error h]
      exact Std.Refl.refl cursor
  | ok read =>
      rw [outcome_readVlq_ok h]
      exact ⟨read.2, Vlq.used_le h, rfl⟩

theorem failsAlong_readVlq : FailsAlong Eq readVlq := by
  intro cursor left e h
  cases hdecode : Vlq.decode cursor.rest with
  | error e' => exact congrArg Prod.snd ((outcome_readVlq_error hdecode).symm.trans h)
  | ok read => cases (outcome_readVlq_ok hdecode).symm.trans h

/-! ### Texts -/

theorem outcome_readText_unsized (h : Vlq.decode cursor.rest = .error e) :
    readText.outcome cursor = (.error e, cursor) := by
  rw [readText, Step.outcome_bind_error (outcome_readVlq_error h)]

theorem outcome_readText_short (h : Vlq.decode cursor.rest = .ok (size, used))
    (hshort : cursor.remaining - used < size) :
    readText.outcome cursor =
      (.error (.truncated (cursor.offset + used) (size - (cursor.remaining - used))), cursor.advance used) := by
  rw [← remaining_advance] at hshort ⊢
  rw [readText, Step.outcome_bind_ok (outcome_readVlq_ok h),
    Step.outcome_bind_error (outcome_readBytes_short hshort)]
  rfl

theorem outcome_readText_of_le (h : Vlq.decode cursor.rest = .ok (size, used))
    (henough : size ≤ cursor.remaining - used) :
    readText.outcome cursor =
      (.ok (Utf8.decodeLenient ((cursor.rest.drop used).take size)), cursor.advance (used + size)) := by
  rw [← remaining_advance] at henough
  rw [readText, Step.outcome_bind_ok (outcome_readVlq_ok h),
    Step.outcome_bind_ok (outcome_readBytes_of_le henough), advance_advance]
  rfl

theorem along_readText : Along Reaches readText :=
  along_readVlq.bind fun size => (along_readBytes size).bind fun _ => .pure _

end Cursor

namespace Property

open Cursor
open Step (Along FailsAlong)

/-- What data can be read as next. -/
inductive Reading
  | word
  | int
  | float
  | vlq
  | text
  deriving DecidableEq

/-- What a reading comes to. -/
inductive Answer
  | word (value : UInt32)
  | int (value : Int)
  | float (value : Float32)
  | vlq (value : Nat)
  | text (value : String)

def Reading.step : Reading → CursorStep Answer
  | word => .word <$> readWord
  | int => .int <$> readInt
  | float => .float <$> readFloat
  | vlq => .vlq <$> readVlq
  | text => .text <$> readText

/-- Reads one thing after another, and no further than the first that fails. -/
def readAll : List Reading → CursorStep (List Answer)
  | [] => pure []
  | reading :: readings => do
    let first ← reading.step
    let rest ← readAll readings
    return first :: rest

/-- Where a cursor stands after readings that may fail, each from where the one before it left it. -/
def after (readings : List Reading) (cursor : Cursor) : Cursor :=
  readings.foldl (fun cursor reading => (reading.step.outcome cursor).2) cursor

/-- A field that data is made of. -/
inductive Field
  | word (value : UInt32)
  | vlq (value : UInt64)
  /-- A text that is no longer than its length can tell. -/
  | text (value : String) (h : (Bytes.ofText value).length < UInt64.size)

namespace Field

/-- What to read a field as. -/
def reading : Field → Reading
  | word _ => .word
  | vlq _ => .vlq
  | text _ _ => .text

def answer : Field → Answer
  | word value => .word value
  | vlq value => .vlq value.toNat
  | text value _ => .text value

def bytes (order : ByteOrder) : Field → Bytes
  | word value => order.wordBytes value
  | vlq value => Vlq.encode value.toNat
  | text value _ => encodeText value

end Field

/-! ### Reading back -/

variable (order : ByteOrder) (offset : Nat)

theorem outcome_readVlq_encode {value : Nat} (h : value < UInt64.size) (rest : Bytes) :
    readVlq.outcome ⟨order, offset, Vlq.encode value ++ rest⟩ =
      (.ok value, ⟨order, offset + (Vlq.encode value).length, rest⟩) := by
  have hread : readVlq.outcome ⟨order, offset, Vlq.encode value ++ rest⟩ = _ :=
    outcome_readVlq_ok (Vlq.decode_encode h rest)
  rw [hread, advance, ← Vlq.length_encode, List.drop_left]

theorem outcome_readText_encodeText {text : String} (h : (Bytes.ofText text).length < UInt64.size)
    (rest : Bytes) :
    readText.outcome ⟨order, offset, encodeText text ++ rest⟩ =
      (.ok text, ⟨order, offset + (encodeText text).length, rest⟩) := by
  simp only [encodeText, List.append_assoc]
  rw [readText, Step.outcome_bind_ok (outcome_readVlq_encode order offset h _),
    Step.outcome_bind_ok (outcome_readBytes order _ _ rest), Step.outcome_pure, Utf8.decodeLenient_ofText,
    List.length_append, Nat.add_assoc]

theorem outcome_field (field : Field) (rest : Bytes) :
    field.reading.step.outcome ⟨order, offset, field.bytes order ++ rest⟩ =
      (.ok field.answer, ⟨order, offset + (field.bytes order).length, rest⟩) := by
  cases field with
  | word value =>
      have hread := outcome_readWord order offset value rest
      rw [← ByteOrder.length_wordBytes order value] at hread
      exact Step.outcome_map_ok Answer.word hread
  | vlq value => exact Step.outcome_map_ok Answer.vlq (outcome_readVlq_encode order offset value.toNat_lt rest)
  | text value h => exact Step.outcome_map_ok Answer.text (outcome_readText_encodeText order offset h rest)

theorem outcome_fields (fields : List Field) (rest : Bytes) :
    (readAll (fields.map Field.reading)).outcome ⟨order, offset, fields.flatMap (Field.bytes order) ++ rest⟩ =
      (.ok (fields.map Field.answer), ⟨order, offset + (fields.flatMap (Field.bytes order)).length, rest⟩) := by
  induction fields generalizing offset with
  | nil => rfl
  | cons field fields ih =>
      rw [List.map_cons, readAll, List.flatMap_cons, List.append_assoc,
        Step.outcome_bind_ok (outcome_field order offset field _), Step.outcome_bind_ok (ih _),
        Step.outcome_pure, List.length_append, Nat.add_assoc]
      rfl

/-! ### Where readings leave a cursor -/

theorem Reading.along_step (reading : Reading) : Along Reaches reading.step := by
  cases reading with
  | word => exact along_readWord.map _
  | int | float => exact (along_readWord.bind fun _ => .pure _).map _
  | vlq => exact along_readVlq.map _
  | text => exact along_readText.map _

theorem inStream_after {data : Bytes} {cursor : Cursor} (readings : List Reading)
    (h : cursor.InStream data) : (after readings cursor).InStream data := by
  induction readings generalizing cursor with
  | nil => exact h
  | cons reading readings ih => exact ih ((reading.along_step cursor).inStream h)

/-- Only a text is read in two goes, so only it can fail further on. -/
theorem Reading.failsAlong_step {reading : Reading} (h : reading ≠ .text) :
    FailsAlong Eq reading.step := by
  cases reading with
  | word => exact failsAlong_readWord.map _
  | int | float => exact (failsAlong_readWord.followed fun _ mid => ⟨_, mid, rfl⟩).map _
  | vlq => exact failsAlong_readVlq.map _
  | text => exact absurd rfl h

/-- Fields are read back from their bytes in order, and what follows them is left. Whatever was read before, and
whether it was there or not, a reader of data stands within the data, and what is left to it is the data from
there on. From there a reading that fails stays, and a text either has no length, and then it stays too, or it is
cut off, and then exactly its length is consumed, or it is read. -/
theorem fields_exact :
    (∀ (order : ByteOrder) (fields : List Field) (suffix : Bytes),
      (readAll (fields.map Field.reading)).outcome
          (Cursor.ofBytes order (fields.flatMap (Field.bytes order) ++ suffix)) =
        (.ok (fields.map Field.answer), ⟨order, (fields.flatMap (Field.bytes order)).length, suffix⟩)) ∧
    ∀ (order : ByteOrder) (data : Bytes) (readings : List Reading) (cursor : Cursor),
      after readings (Cursor.ofBytes order data) = cursor →
      cursor.InStream data ∧
      (∀ (reading : Reading) e left, reading ≠ .text → reading.step.outcome cursor = (.error e, left) → left = cursor) ∧
      (∀ e, Vlq.decode cursor.rest = .error e → readText.outcome cursor = (.error e, cursor)) ∧
      ∀ size used, Vlq.decode cursor.rest = .ok (size, used) →
        used ≤ cursor.remaining ∧
        (cursor.remaining - used < size →
          readText.outcome cursor = (.error (.truncated (cursor.offset + used) (size - (cursor.remaining - used))),
            cursor.advance used)) ∧
        (size ≤ cursor.remaining - used →
          readText.outcome cursor = (.ok (Utf8.decodeLenient ((cursor.rest.drop used).take size)),
            cursor.advance (used + size))) := by
  constructor
  · intro order fields suffix
    rw [Cursor.ofBytes, outcome_fields, Nat.zero_add]
  · rintro order data readings cursor rfl
    refine ⟨inStream_after readings (inStream_ofBytes order data), ?_, fun _ => outcome_readText_unsized, ?_⟩
    · intro reading e left hreading hfails
      exact (Reading.failsAlong_step hreading _ left e hfails).symm
    · intro size used hdecode
      exact ⟨Vlq.used_le hdecode, outcome_readText_short hdecode, outcome_readText_of_le hdecode⟩

/-- A word, an integer and a text that is not ASCII are read back. After a text that is cut off, the reader stands
behind its length, where a word is cut off as well and an integer is still there. -/
theorem mixed_fields_read_back :
    (readAll [.word, .vlq, .text]).outcome
        (Cursor.ofBytes .little [7, 0, 0, 0, 0xac, 0x02, 3, 0xe2, 0x82, 0xac, 0xff]) =
      (.ok [.word 7, .vlq 300, .text "€"], ⟨.little, 10, [0xff]⟩) ∧
    (∀ e left, Reading.word.step.outcome ⟨.little, 1, [0x61, 0x62]⟩ = (.error e, left) →
      left = ⟨.little, 1, [0x61, 0x62]⟩) ∧
    Cursor.readText.outcome ⟨.little, 0, [9, 0x61, 0x62]⟩ =
      (.error (.truncated 1 7), ⟨.little, 1, [0x61, 0x62]⟩) := by
  obtain ⟨hback, hstands⟩ := fields_exact
  have hshown : (Bytes.ofText "€").length < UInt64.size := by decide +kernel
  have hfields := hback .little [.word 7, .vlq 300, .text "€" hshown] [0xff]
  have hbytes : [Field.word 7, .vlq 300, .text "€" hshown].flatMap (Field.bytes .little) =
      [7, 0, 0, 0, 0xac, 0x02, 3, 0xe2, 0x82, 0xac] := by cbv
  rw [hbytes] at hfields
  obtain ⟨_, _, _, htext⟩ := hstands .little [9, 0x61, 0x62] [] _ rfl
  obtain ⟨_, hstays, _⟩ := hstands .little [9, 0x61, 0x62] [.text] ⟨.little, 1, [0x61, 0x62]⟩ rfl
  obtain ⟨_, hshort, _⟩ := htext 9 1 (by cbv)
  exact ⟨hfields, fun e left => hstays .word e left (by decide), hshort (by decide)⟩

end Property

end Playprint
