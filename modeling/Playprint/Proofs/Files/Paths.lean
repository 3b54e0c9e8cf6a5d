import Mathlib.Data.List.Basic
import Playprint.Files.Tree

/-!
Where paths lead. A path is followed part by part, so the path of something inside a directory leads one step
on from the place of the directory. A file system may refuse to follow a path, but never leads it elsewhere.
-/

namespace Playprint

namespace Path

/-- What can stand between two slashes. -/
structure IsPart (name : String) : Prop where
  nonempty : name.toList ≠ []
  whole : '/' ∉ name.toList

theorem split_of_not_mem {text : List Char} (h : '/' ∉ text) : split text = [text] := by
  induction text with
  | nil => rfl
  | cons c rest ih =>
      rw [List.mem_cons, not_or] at h
      rw [split, if_neg (Ne.symm h.1), ih h.2]

theorem split_ne_nil (text : List Char) : split text ≠ [] := by
  cases text with
  | nil => exact List.cons_ne_nil _ _
  | cons c rest =>
      rw [split]
      split
      · exact List.cons_ne_nil _ _
      · split <;> exact List.cons_ne_nil _ _

/-- A slash sets apart what is in front of it. -/
theorem split_append_slash (front rest : List Char) :
    split (front ++ '/' :: rest) = split front ++ split rest := by
  induction front with
  | nil => rfl
  | cons c front ih =>
      rw [List.cons_append, split, split]
      by_cases hc : c = '/'
      · rw [if_pos hc, if_pos hc, ih, List.cons_append]
      · rw [if_neg hc, if_neg hc, ih]
        cases hfront : split front with
        | nil => exact absurd hfront (split_ne_nil front)
        | cons part parts => rfl

theorem not_mem_of_mem_split {text part : List Char} (h : part ∈ split text) : '/' ∉ part := by
  induction text generalizing part with
  | nil =>
      rw [split, List.mem_singleton] at h
      rw [h]
      exact List.not_mem_nil
  | cons c rest ih =>
      rw [split] at h
      split at h
      · rcases List.mem_cons.mp h with rfl | h
        · exact List.not_mem_nil
        · exact ih h
      · rename_i hc
        split at h
        · rw [List.mem_singleton.mp h, List.mem_singleton]
          exact Ne.symm hc
        · rename_i first parts hrest
          rcases List.mem_cons.mp h with rfl | h
          · rw [List.mem_cons, not_or]
            exact ⟨Ne.symm hc, ih (hrest ▸ List.mem_cons_self)⟩
          · exact ih (hrest ▸ List.mem_cons_of_mem _ h)

theorem isPart_of_mem_parts {path part : String} (h : part ∈ parts path) : IsPart part := by
  rw [parts, List.mem_map] at h
  obtain ⟨text, htext, rfl⟩ := h
  obtain ⟨hsplit, hne⟩ := List.mem_filter.mp htext
  rw [decide_eq_true_eq] at hne
  exact ⟨by rwa [String.toList_ofList], by rw [String.toList_ofList]; exact not_mem_of_mem_split hsplit⟩

theorem filter_split_part {name : String} (hname : IsPart name) :
    (split name.toList).filter (· ≠ []) = [name.toList] := by
  rw [split_of_not_mem hname.whole]
  simp [hname.nonempty]

/-- Behind a slash there is one part more. -/
theorem parts_of_slash {path name : String} {front : List Char} (hname : IsPart name)
    (hpath : path.toList = front ++ '/' :: name.toList) :
    parts path = ((split front).filter (· ≠ [])).map String.ofList ++ [name] := by
  rw [parts, hpath, split_append_slash, List.filter_append, filter_split_part hname, List.map_append,
    List.map_singleton, String.ofList_toList]

theorem parts_join {directory name : String} (hname : IsPart name) :
    parts (join directory name) = parts directory ++ [name] := by
  rw [join]
  split
  · rename_i hslash
    rcases hslash with rfl | hslash
    · rw [String.empty_append, parts, filter_split_part hname, List.map_singleton, String.ofList_toList]
      rfl
    · obtain ⟨front, hfront⟩ := List.getLast?_eq_some_iff.mp (beq_iff_eq.mp hslash)
      have hjoined : (directory ++ name).toList = front ++ '/' :: name.toList := by
        rw [String.toList_append, hfront, List.append_assoc, List.singleton_append]
      rw [parts_of_slash hname hjoined, parts, hfront, split_append_slash, List.filter_append]
      simp [split]
  · have hjoined : (directory ++ "/" ++ name).toList = directory.toList ++ '/' :: name.toList := by
      rw [String.toList_append, String.toList_append, List.append_assoc]
      rfl
    rw [parts_of_slash hname hjoined, parts]

theorem isAbsolute_join {directory name : String} (hname : IsPart name) :
    isAbsolute (join directory name) = isAbsolute directory := by
  by_cases hempty : directory = ""
  · subst hempty
    rw [join, if_pos (.inl rfl), String.empty_append, isAbsolute]
    cases htext : name.toList with
    | nil => exact absurd htext hname.nonempty
    | cons c rest =>
        have hc : c ≠ '/' := by
          rintro rfl
          exact hname.whole (htext ▸ List.mem_cons_self)
        rw [List.head?_cons]
        exact beq_false_of_ne (fun h => hc (Option.some.inj h))
  · have hhead (rest : List Char) : (directory.toList ++ rest).head? = directory.toList.head? :=
      List.head?_append_of_ne_nil _ (by simpa using hempty)
    rw [isAbsolute, isAbsolute, join]
    split
    · rw [String.toList_append, hhead]
    · rw [String.toList_append, String.toList_append, List.append_assoc, hhead]

end Path

namespace Place

/-- The place that a path leads to, as far as it can be followed. -/
def ofPath (path : String) : Place :=
  (Path.parts path).foldl step (if Path.isAbsolute path then root else [])

theorem ofPath_join {directory name : String} (hname : Path.IsPart name) :
    ofPath (Path.join directory name) = (ofPath directory).step name := by
  rw [ofPath, Path.parts_join hname, Path.isAbsolute_join hname, List.foldl_append]
  rfl

theorem step_of_name {name : String} (place : Place) (hdot : name ≠ ".") (hdots : name ≠ "..") :
    place.step name = place ++ [name] := by
  rw [step, if_neg hdot, if_neg hdots]

/-- The place is inside a directory, and the way there goes down only. -/
def Beneath (top place : Place) : Prop :=
  ∃ names : List String, names ≠ [] ∧ ".." ∉ names ∧ place = top ++ names

theorem length_pos_of_not_isAbove {place : Place} (h : place.isAbove = false) : 0 < place.length := by
  cases place with
  | nil => cases h
  | cons part rest => exact Nat.succ_pos _

/-- A file one directory up is not beneath the directory, unless there is nothing above that. -/
theorem beneath_step_iff {name : String} (top : Place) (part : String) (hdot : name ≠ ".") (hdots : name ≠ "..") :
    Beneath top ((top.step part).step name) ↔ (part = ".." → top = root) := by
  rw [step_of_name _ hdot hdots]
  constructor
  · rintro ⟨names, hne, hdown, hplace⟩ rfl
    by_contra htop
    rw [step, if_neg (by decide), if_pos rfl, parent, if_neg htop] at hplace
    split at hplace
    · rw [List.append_assoc, List.append_cancel_left_eq] at hplace
      exact hdown (hplace ▸ List.mem_cons_self)
    · rename_i habove
      have hpos := length_pos_of_not_isAbove (Bool.eq_false_iff.mpr habove)
      have hlength := congrArg List.length hplace
      rw [List.length_append, List.length_append, List.length_dropLast, List.length_singleton] at hlength
      have hnames := List.length_pos_of_ne_nil hne
      omega
  · intro htop
    by_cases hup : part = ".."
    · obtain rfl := htop hup
      subst hup
      exact ⟨[name], List.cons_ne_nil _ _, by simpa using hdots.symm, rfl⟩
    by_cases hstay : part = "."
    · subst hstay
      exact ⟨[name], List.cons_ne_nil _ _, by simpa using hdots.symm, rfl⟩
    · rw [step_of_name _ hstay hup]
      exact ⟨[part, name], List.cons_ne_nil _ _, by simpa using ⟨Ne.symm hup, hdots.symm⟩, List.append_assoc ..⟩

end Place

end Playprint
