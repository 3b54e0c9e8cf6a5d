import Playprint.Proofs.Files.Paths

/-!
Trees of files that are written. A directory stays one, and a file holds what it held or what was written to its
place, so that a path that could be followed can be followed for good.
-/

namespace Playprint

namespace FileTree

variable {before mid after tree : FileTree} {goes : Place → Bytes → Prop} {path : String} {data : Bytes}

/-! ### Looking at a tree -/

theorem lookup_filter {place other : Place} (hother : other ≠ place) (entries : List (Place × FileEntry)) :
    (entries.filter (·.1 ≠ place)).lookup other = entries.lookup other := by
  induction entries with
  | nil => rfl
  | cons first rest ih =>
      obtain ⟨here, entry⟩ := first
      by_cases hhere : here = place
      · subst hhere
        rw [List.filter_cons_of_neg (by simp), ih, List.lookup_cons, beq_false_of_ne hother]
      · rw [List.filter_cons_of_pos (by simpa using hhere), List.lookup_cons, List.lookup_cons, ih]

theorem get?_put (tree : FileTree) {place : Place} (entry : FileEntry) (hplace : place.isAbove = false)
    (other : Place) :
    (tree.put place entry).get? other = if other = place then some entry else tree.get? other := by
  by_cases hother : other = place
  · subst hother
    rw [if_pos rfl, get?_put_self _ _ hplace]
  · rw [if_neg hother, get?, get?, put, List.lookup_cons, beq_false_of_ne hother, lookup_filter hother]

/-- Nothing but a directory is above the working directory. -/
theorem not_isAbove {place : Place} (h : tree.get? place ≠ some .directory) : place.isAbove = false := by
  rw [Bool.eq_false_iff]
  intro habove
  exact h (if_pos habove)

theorem follow_ok {place last : Place} {parts : List String} (h : tree.follow place parts = .ok last) :
    last = parts.foldl Place.step place := by
  induction parts generalizing place with
  | nil =>
      cases h
      rfl
  | cons part rest ih =>
      rw [follow] at h
      split at h
      · cases h
      · cases h
      · split at h
        · cases h
        · exact ih h

theorem locate_ok {place : Place} (h : tree.locate path = .ok place) : place = .ofPath path := by
  simp only [locate, origin] at h
  split at h
  · cases h
  · exact follow_ok h

theorem read_eq_ok_iff : tree.read path = .ok data ↔ Path.endsWithSlash path = false ∧
    tree.locate path = .ok (.ofPath path) ∧ tree.get? (.ofPath path) = some (.file data) := by
  cases hlocate : tree.locate path with
  | error error => simp [read, find, hlocate, bind, Except.bind]
  | ok place =>
      obtain rfl := locate_ok hlocate
      cases hentry : tree.get? (.ofPath path) with
      | none => simp [read, find, hlocate, hentry, bind, Except.bind]
      | some entry =>
          cases entry <;> cases hslash : Path.endsWithSlash path <;>
            simp [read, find, hlocate, hentry, hslash, bind, Except.bind]

theorem file?_eq_some_iff {place : Place} :
    tree.file? place = some data ↔ tree.get? place = some (.file data) := by
  rw [file?]
  split
  · rename_i other hentry
    rw [hentry, Option.some.injEq, Option.some.injEq, FileEntry.file.injEq]
  · rename_i hnone
    constructor
    · intro h
      cases h
    · exact fun h => absurd h (hnone data)

/-- What is read at a path is in the file at its place. -/
theorem file?_of_read (h : tree.read path = .ok data) : tree.file? (.ofPath path) = some data :=
  file?_eq_some_iff.mpr (read_eq_ok_iff.mp h).2.2

theorem write_ok (h : tree.write path data = .ok after) :
    Path.endsWithSlash path = false ∧ tree.locate path = .ok (.ofPath path) ∧
      tree.get? (.ofPath path) ≠ some .directory ∧ after = tree.put (.ofPath path) (.file data) := by
  cases hslash : Path.endsWithSlash path with
  | true =>
      simp only [write, hslash, if_true] at h
      cases haround : tree.locateAround path <;> rw [haround] at h <;> cases h
  | false =>
      cases hlocate : tree.locate path with
      | error error =>
          simp [write, hslash, hlocate, bind, Except.bind] at h
      | ok place =>
          obtain rfl := locate_ok hlocate
          simp only [write, hslash, hlocate, bind, Except.bind] at h
          cases hentry : tree.get? (.ofPath path) with
          | none =>
              simp only [hentry] at h
              cases h
              exact ⟨rfl, rfl, by simp, rfl⟩
          | some entry =>
              cases entry with
              | file old =>
                  simp only [hentry] at h
                  cases h
                  exact ⟨rfl, rfl, by simp, rfl⟩
              | directory =>
                  simp only [hentry] at h
                  cases h

theorem makeDirectory_ok (h : tree.makeDirectory path = .ok after) :
    ∃ place, tree.get? place = none ∧ after = tree.put place .directory := by
  cases hlocate : tree.locate path with
  | error error =>
      simp only [makeDirectory, hlocate] at h
      cases h
  | ok place =>
      simp only [makeDirectory, hlocate, bind, Except.bind] at h
      split at h
      · cases h
      · rename_i hfree
        cases h
        exact ⟨place, hfree, rfl⟩

/-! ### Writing -/

/-- Directories are where they were, and files are, too. A file holds what it held, or something that goes to its
place. -/
structure Wrote (goes : Place → Bytes → Prop) (before after : FileTree) : Prop where
  directory : ∀ place, before.get? place = some .directory → after.get? place = some .directory
  file : ∀ place data, before.get? place = some (.file data) → ∃ data', after.get? place = some (.file data')
  data : ∀ place data, after.get? place = some (.file data) →
    before.get? place = some (.file data) ∨ goes place data

theorem Wrote.refl (tree : FileTree) : Wrote goes tree tree :=
  ⟨fun _ => id, fun _ data hfile => ⟨data, hfile⟩, fun _ _ => .inl⟩

theorem Wrote.trans (hfirst : Wrote goes before mid) (hsecond : Wrote goes mid after) :
    Wrote goes before after where
  directory place hplace := hsecond.directory place (hfirst.directory place hplace)
  file place data hfile := by
    obtain ⟨written, hwritten⟩ := hfirst.file place data hfile
    exact hsecond.file place written hwritten
  data place data hfile := by
    rcases hsecond.data place data hfile with hmid | hgoes
    · exact hfirst.data place data hmid
    · exact .inr hgoes

theorem wrote_write (hgoes : goes (.ofPath path) data) (h : tree.write path data = .ok after) :
    Wrote goes tree after := by
  obtain ⟨_, _, hplace, rfl⟩ := write_ok h
  have hput := get?_put tree (.file data) (not_isAbove hplace)
  constructor
  · intro place hdirectory
    have hother : place ≠ .ofPath path := by
      rintro rfl
      exact hplace hdirectory
    rw [hput, if_neg hother, hdirectory]
  · intro place old hfile
    by_cases hother : place = .ofPath path
    · exact ⟨data, (hput _).trans (if_pos hother)⟩
    · exact ⟨old, by rw [hput, if_neg hother, hfile]⟩
  · intro place new hfile
    rw [hput] at hfile
    split at hfile
    · rename_i hother
      cases hfile
      exact .inr (hother ▸ hgoes)
    · exact .inl hfile

theorem wrote_makeDirectory (h : tree.makeDirectory path = .ok after) : Wrote goes tree after := by
  obtain ⟨place, hfree, rfl⟩ := makeDirectory_ok h
  have habove : place.isAbove = false := not_isAbove (by rw [hfree]; simp)
  have hput := get?_put tree .directory habove
  have hother {other : Place} {entry : FileEntry} (hentry : tree.get? other = some entry) : other ≠ place := by
    rintro rfl
    cases hfree.symm.trans hentry
  constructor
  · intro other hdirectory
    rw [hput, if_neg (hother hdirectory), hdirectory]
  · intro other old hfile
    exact ⟨old, by rw [hput, if_neg (hother hfile), hfile]⟩
  · intro other data hfile
    rw [hput] at hfile
    split at hfile
    · cases hfile
    · exact .inl hfile

theorem Wrote.follow (h : Wrote goes before after) {place last : Place} {parts : List String}
    (hfollow : before.follow place parts = .ok last) : after.follow place parts = .ok last := by
  induction parts generalizing place with
  | nil => exact hfollow
  | cons part rest ih =>
      rw [FileTree.follow] at hfollow ⊢
      split at hfollow
      · cases hfollow
      · cases hfollow
      · rename_i hdirectory
        rw [h.directory place hdirectory]
        split at hfollow
        · cases hfollow
        · rename_i hshort
          simp only [if_neg hshort]
          exact ih hfollow

theorem Wrote.locate (h : Wrote goes before after) {place : Place} (hlocate : before.locate path = .ok place) :
    after.locate path = .ok place := by
  simp only [FileTree.locate, origin] at hlocate ⊢
  split at hlocate
  · cases hlocate
  · rename_i hshort
    simp only [if_neg hshort]
    exact h.follow hlocate

/-- What was read is read again, unless something went to its place. -/
theorem Wrote.read (h : Wrote goes before after) (hread : before.read path = .ok data) :
    ∃ data', after.read path = .ok data' ∧ (data' = data ∨ goes (.ofPath path) data') := by
  obtain ⟨hslash, hlocate, hfile⟩ := read_eq_ok_iff.mp hread
  obtain ⟨data', hfile'⟩ := h.file _ _ hfile
  refine ⟨data', read_eq_ok_iff.mpr ⟨hslash, h.locate hlocate, hfile'⟩, ?_⟩
  refine (h.data _ _ hfile').imp_left fun hbefore => ?_
  cases hbefore.symm.trans hfile
  rfl

/-- A place that nothing goes to holds what it held. -/
theorem Wrote.file?_eq (h : Wrote goes before after) {place : Place} (hno : ∀ data, ¬goes place data) :
    after.file? place = before.file? place := by
  cases hafter : after.file? place with
  | some data =>
      have hbefore := (h.data place data (file?_eq_some_iff.mp hafter)).resolve_right (hno data)
      exact (file?_eq_some_iff.mpr hbefore).symm
  | none =>
      cases hbefore : before.file? place with
      | none => rfl
      | some data =>
          obtain ⟨data', hfile⟩ := h.file place data (file?_eq_some_iff.mp hbefore)
          rw [file?_eq_some_iff.mpr hfile] at hafter
          cases hafter

/-- What was written is read. -/
theorem read_of_write (h : tree.write path data = .ok after) : after.read path = .ok data := by
  have hwrote : Wrote (fun _ _ => True) tree after := wrote_write trivial h
  obtain ⟨hslash, hlocate, hplace, rfl⟩ := write_ok h
  exact read_eq_ok_iff.mpr ⟨hslash, hwrote.locate hlocate, get?_put_self _ _ (not_isAbove hplace)⟩

theorem place_eq_of_isSame {other : String} (h : tree.isSame path other = true) :
    Place.ofPath path = .ofPath other := by
  rw [isSame] at h
  split at h
  · rename_i hlocate hother
    rw [← locate_ok hlocate, ← locate_ok hother]
    exact of_decide_eq_true h
  · cases h

end FileTree

/-! ### Terminals -/

namespace Terminal

open FileTree (Wrote)

variable {α β : Type} {goes : Place → Bytes → Prop}

/-- Whatever is done on a terminal, its tree is at most written. -/
def Writes (goes : Place → Bytes → Prop) (action : StateM Terminal α) : Prop :=
  ∀ terminal, Wrote goes terminal.tree (action.run terminal).2.tree

theorem writes_pure (a : α) : Writes goes (pure a : StateM Terminal α) := fun _ => .refl _

theorem Writes.bind {first : StateM Terminal α} {next : α → StateM Terminal β} (hfirst : Writes goes first)
    (hnext : ∀ a, Writes goes (next a)) : Writes goes (first >>= next) :=
  fun terminal => (hfirst terminal).trans (hnext _ _)

theorem writes_makeDirectory (path : String) : Writes goes (fileSystem.makeDirectory path) := by
  intro terminal
  show Wrote goes terminal.tree (change (·.makeDirectory path) terminal).2.tree
  rw [change]
  split
  · rename_i tree hmade
    exact FileTree.wrote_makeDirectory hmade
  · exact .refl _

theorem writes_ensureDirectory (path : String) : Writes goes (fileSystem.ensureDirectory path) := by
  refine (writes_makeDirectory path).bind fun made => ?_
  split
  · split
    · refine Writes.bind (fun _ => .refl _) fun isDirectory => ?_
      split
      · exact writes_pure _
      · exact writes_pure _
    · exact writes_pure _
  · exact writes_pure _

theorem writes_ensureChain (paths : List String) : Writes goes (fileSystem.ensureChain paths) := by
  induction paths with
  | nil => exact writes_pure _
  | cons path above ih =>
      refine (writes_ensureDirectory path).bind fun made => ?_
      split
      · split
        · exact writes_pure _
        · refine ih.bind fun chain => ?_
          split
          · exact writes_pure _
          · exact writes_ensureDirectory path
      · exact writes_pure _

theorem write_ok {path : String} {data : Bytes} {before after : Terminal}
    (h : (fileSystem.write path data).run before = (.ok (), after)) :
    before.tree.write path data = .ok after.tree := by
  replace h : change (·.write path data) before = (.ok (), after) := h
  rw [change] at h
  split at h
  · cases h
    assumption
  · cases h

theorem writes_makeDirectories (path : String) : Writes goes (fileSystem.makeDirectories path) :=
  writes_ensureChain _

end Terminal

end Playprint
