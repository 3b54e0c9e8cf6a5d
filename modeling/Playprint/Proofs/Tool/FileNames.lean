import Playprint.Proofs.Files.Paths
import Playprint.Proofs.Text.Decimal
import Playprint.Tool.Extract

/-!
The names under which parts of containers are kept. The directory has the stem of the name of the container, and
the file tells the table entry and the tag. From the name of the file both can be read off again, from that of
the directory only the stem.
-/

namespace Playprint

/-! ### Stems -/

namespace Path

variable {path name : String}

theorem isPart_of_fileName? (h : fileName? path = some name) : IsPart name := by
  have hmem : .name name ∈ components path := by
    rw [fileName?] at h
    split at h
    · rename_i text hlast
      cases h
      exact List.mem_of_getLast? hlast
    · cases h
  have hpart : .name name ∈ (parts path).map component := by
    rw [components] at hmem
    split at hmem
    · rcases List.mem_cons.mp hmem with hroot | hmem
      · cases hroot
      · exact List.mem_of_mem_filter hmem
    · rcases List.mem_append.mp hmem with hmem | hmem
      · exact List.mem_of_mem_take hmem
      · exact List.mem_of_mem_drop (List.mem_of_mem_filter hmem)
  obtain ⟨part, hpart, hname⟩ := List.mem_map.mp hpart
  rw [component] at hname
  split at hname
  · cases hname
  split at hname
  · cases hname
  · cases hname
    exact isPart_of_mem_parts hpart

/-- A name that is cut is still one. -/
theorem IsPart.cutName (h : IsPart name) : IsPart (cutName name).1 := by
  rw [Path.cutName]
  split
  · rename_i dot c stem hcut
    refine ⟨by simp, ?_⟩
    rw [String.toList_ofList, List.mem_reverse]
    intro hslash
    have hmem : '/' ∈ dot :: c :: stem := List.mem_cons_of_mem _ hslash
    rw [← hcut] at hmem
    exact h.whole (List.mem_reverse.mp ((List.dropWhile_sublist _).subset hmem))
  · exact h

end Path

namespace Tool.Extract

open Playprint.Path (IsPart)

/-- The name of the directory for a container. -/
def stemOf (path : String) : String :=
  (Path.stem? path).getD "playprint"

theorem isPart_stemOf (path : String) : IsPart (stemOf path) := by
  rw [stemOf, Path.stem?]
  cases hname : Path.fileName? path with
  | none => exact ⟨by decide, by decide⟩
  | some name => exact (Path.isPart_of_fileName? hname).cutName

/-- Which step leads from the destination to the directory for a container. -/
theorem ofPath_directoryFor (destination path : String) :
    Place.ofPath (directoryFor destination path) = (Place.ofPath destination).step (stemOf path) :=
  Place.ofPath_join (isPart_stemOf path)

/-! ### Files -/

namespace Part

variable {part other : Part}

theorem toList_fileName (part : Part) :
    part.fileName.toList = (Decimal.padLeft 4 '0' (toString part.index)).toList ++
      '_' :: ((tagName part.chunk.tag).toList ++ ".bin".toList) := by
  simp [fileName, toString]

theorem mem_fileName (part : Part) : '_' ∈ part.fileName.toList := by
  rw [toList_fileName]
  exact List.mem_append_right _ List.mem_cons_self

theorem isPart_fileName (part : Part) : IsPart part.fileName := by
  refine ⟨List.ne_nil_of_mem part.mem_fileName, ?_⟩
  rw [toList_fileName, List.mem_append, List.mem_cons, List.mem_append]
  rintro (hnumber | hsign | htag | hend)
  · exact absurd (Decimal.isDigit_of_mem_padLeft hnumber) (by decide)
  · cases hsign
  · rw [tagName, String.toList_ofList] at htag
    obtain ⟨c, _, hc⟩ := List.mem_map.mp htag
    split at hc
    · rename_i halphanum
      rw [hc] at halphanum
      exact absurd halphanum (by decide)
    · cases hc
  · exact absurd hend (by decide)

theorem fileName_ne (part : Part) : part.fileName ≠ "." ∧ part.fileName ≠ ".." := by
  have hmem := part.mem_fileName
  constructor <;> intro hname <;> rw [hname] at hmem <;> exact absurd hmem (by decide)

/-- The table entry and the tag can be read off the name of a file. -/
theorem fileName_eq_iff : part.fileName = other.fileName ↔
    part.index = other.index ∧ tagName part.chunk.tag = tagName other.chunk.tag := by
  constructor
  · intro hname
    have hchars : part.fileName.toList = other.fileName.toList := congrArg String.toList hname
    rw [toList_fileName, toList_fileName] at hchars
    -- The sign behind the number is not a digit, so that the digits in front of it are the number.
    have hnumber := congrArg (List.takeWhile Char.isDigit) hchars
    have hrest := congrArg (List.dropWhile Char.isDigit) hchars
    simp only [List.takeWhile_append_of_pos fun _ => Decimal.isDigit_of_mem_padLeft,
      List.dropWhile_append_of_pos fun _ => Decimal.isDigit_of_mem_padLeft] at hnumber hrest
    have hsign : Char.isDigit '_' = false := rfl
    simp only [List.takeWhile_cons, List.dropWhile_cons, hsign, Bool.false_eq_true, if_false,
      List.append_nil] at hnumber hrest
    refine ⟨?_, String.toList_inj.mp (List.append_cancel_right (List.cons.inj hrest).2)⟩
    have hindex := Decimal.readDigits_padLeft 4 part.index
    rw [hnumber, Decimal.readDigits_padLeft] at hindex
    exact (Option.some.inj hindex).symm
  · rintro ⟨hindex, htag⟩
    simp only [fileName, hindex, htag]

end Part

end Tool.Extract

end Playprint
