import Playprint.Property.Bag

/-!
Elements of property arrays. An element is reached by its offset in the data, or all of them are cut off one after
another. Where the data are as long as their count and size say, both ways come to the same elements, and these
are all of the data. Main statement: `WellFormed.of_fields`.
-/

namespace Playprint

theorem Bytes.slice?_zero {data : Bytes} {count : Nat} (h : count ≤ data.length) :
    data.slice? 0 count = some (data.take count) := by
  rw [slice?, List.drop_zero]
  exact if_pos (List.length_take_of_le h)

theorem Bytes.slice?_drop (data : Bytes) (first start count : Nat) :
    Bytes.slice? (data.drop first) start count = data.slice? (first + start) count := by
  rw [slice?, slice?, List.drop_drop]

theorem Bytes.slice?_of_lt {data : Bytes} {start count : Nat} (hcount : 0 < count)
    (h : data.length < start + count) : data.slice? start count = none := by
  cases hpart : data.slice? start count with
  | none => rfl
  | some part => exact absurd (Bytes.le_of_slice? hcount hpart) (Nat.not_le.mpr h)

namespace PropertyArray

section Pieces

variable {size count : Nat} {data : Bytes}

theorem pieces_of_le (hsize : 0 < size) (h : size ≤ data.length) :
    pieces size data = data.take size :: pieces size (data.drop size) := by
  rw [pieces, Nat.max_eq_left hsize, if_pos h]

theorem pieces_of_lt (hsize : 0 < size) (h : data.length < size) : pieces size data = [] := by
  rw [pieces, Nat.max_eq_left hsize, if_neg (Nat.not_le.mpr h)]

/-- A piece is the slice at its offset. -/
theorem getElem?_pieces (hsize : 0 < size) (data : Bytes) (index : Nat) :
    (pieces size data)[index]? = data.slice? (index * size) size := by
  induction index generalizing data with
  | zero =>
    rw [Nat.zero_mul]
    rcases Nat.lt_or_ge data.length size with hlt | hle
    · rw [pieces_of_lt hsize hlt, Bytes.slice?_of_lt hsize (by rwa [Nat.zero_add])]
      rfl
    · rw [pieces_of_le hsize hle, Bytes.slice?_zero hle]
      rfl
  | succ index ih =>
    rcases Nat.lt_or_ge data.length size with hlt | hle
    · rw [pieces_of_lt hsize hlt, Bytes.slice?_of_lt hsize (Nat.lt_of_lt_of_le hlt (Nat.le_add_left ..))]
      rfl
    · rw [pieces_of_le hsize hle, List.getElem?_cons_succ, ih, Bytes.slice?_drop, Nat.succ_mul, Nat.add_comm]

theorem length_pieces (hsize : 0 < size) (hdata : data.length = count * size) :
    (pieces size data).length = count := by
  induction count generalizing data with
  | zero => rw [pieces_of_lt hsize (by omega), List.length_nil]
  | succ count ih =>
    rw [Nat.succ_mul] at hdata
    rw [pieces_of_le hsize (by omega), List.length_cons, ih (by rw [List.length_drop]; omega)]

/-- Nothing is left out of data that holds a number of whole pieces. -/
theorem flatten_pieces (hsize : 0 < size) (hdata : data.length = count * size) :
    (pieces size data).flatten = data := by
  induction count generalizing data with
  | zero =>
    rw [Nat.zero_mul] at hdata
    rw [pieces_of_lt hsize (by omega), List.flatten_nil, List.length_eq_zero_iff.mp hdata]
  | succ count ih =>
    rw [Nat.succ_mul] at hdata
    rw [pieces_of_le hsize (by omega), List.flatten_cons, ih (by rw [List.length_drop]; omega),
      List.take_append_drop]

end Pieces

/-- A property array whose elements can be told apart: its size and count are words that say how long the data
are, and unless the elements are empty, either way to them leads to the same ones. -/
structure WellFormed (array : PropertyArray) : Prop where
  elementSize_lt : array.elementSize < UInt32.size
  count_lt : array.count < UInt32.size
  length_data : array.data.length = array.count * array.elementSize
  length_elements : 0 < array.elementSize → array.elements.length = array.count
  /-- The elements that are cut off are those at their offsets. -/
  element?_eq : 0 < array.elementSize → ∀ index < array.count,
    ∃ element, array.element? index = some element ∧ array.elements[index]? = some element
  element?_of_le : ∀ index, array.count ≤ index → array.element? index = none
  flatten_elements : 0 < array.elementSize → array.elements.flatten = array.data
  /-- Where an element ends does not overflow. -/
  end_lt : ∀ index < array.count, index * array.elementSize + array.elementSize < UInt64.size

variable {array : PropertyArray}

theorem element?_of_count_le {index : Nat} (h : array.count ≤ index) : array.element? index = none :=
  if_neg fun hindex => absurd hindex.1 (Nat.not_lt.mpr h)

theorem element?_eq_slice? {index : Nat} (hindex : index < array.count) (hsize : 0 < array.elementSize) :
    array.element? index = array.data.slice? (index * array.elementSize) array.elementSize :=
  if_pos ⟨hindex, hsize⟩

theorem WellFormed.of_fields (hsize : array.elementSize < UInt32.size) (hcount : array.count < UInt32.size)
    (hdata : array.data.length = array.count * array.elementSize) : array.WellFormed where
  elementSize_lt := hsize
  count_lt := hcount
  length_data := hdata
  length_elements hpos := length_pieces hpos hdata
  element?_eq hpos index hindex := by
    have hlt : index < array.elements.length := by rwa [elements, length_pieces hpos hdata]
    refine ⟨array.elements[index], ?_, List.getElem?_eq_getElem hlt⟩
    rw [element?_eq_slice? hindex hpos, ← getElem?_pieces hpos]
    exact List.getElem?_eq_getElem hlt
  element?_of_le _ := element?_of_count_le
  flatten_elements hpos := flatten_pieces hpos hdata
  end_lt index hindex := by
    have hword : (index + 1) * array.elementSize ≤ (UInt32.size - 1) * (UInt32.size - 1) :=
      Nat.mul_le_mul (by omega) (by omega)
    calc
      index * array.elementSize + array.elementSize
          = (index + 1) * array.elementSize := (Nat.succ_mul ..).symm
      _ ≤ (UInt32.size - 1) * (UInt32.size - 1) := hword
      _ < UInt64.size := by decide

end PropertyArray

/-! ### Bags -/

theorem mem_insertNamed {α : Type} {name : String} {value : α} {entries : List (String × α)} {entry : String × α}
    (h : entry ∈ insertNamed name value entries) : entry = (name, value) ∨ entry ∈ entries := by
  induction entries with
  | nil => exact .inl (List.mem_singleton.mp h)
  | cons old rest ih =>
    rw [insertNamed] at h
    split at h
    · exact (List.mem_cons.mp h)
    split at h
    · exact (List.mem_cons.mp h).imp_right (List.mem_cons_of_mem _)
    · rcases List.mem_cons.mp h with rfl | hrest
      · exact .inr List.mem_cons_self
      · exact (ih hrest).imp_right (List.mem_cons_of_mem _)

namespace PropertyBag

/-- All arrays in the bag are well formed. -/
def WellFormed (bag : PropertyBag) : Prop :=
  ∀ entry ∈ bag.arrays, entry.2.WellFormed

theorem wellFormed_empty : empty.WellFormed :=
  fun _ hentry => absurd hentry List.not_mem_nil

theorem WellFormed.setArray {bag : PropertyBag} {array : PropertyArray} (h : bag.WellFormed) (name : String)
    (harray : array.WellFormed) : (bag.setArray name array).WellFormed := by
  intro entry hentry
  rcases mem_insertNamed hentry with rfl | hbefore
  · exact harray
  · exact h entry hbefore

end PropertyBag

end Playprint
