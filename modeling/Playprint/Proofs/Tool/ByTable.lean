import Playprint.Proofs.Tool.Lossless

/-!
Taking one container apart, from its table of contents to the files. The listing of the chunks and the jump to a
table entry find the same chunk, so a part is read with the tag it was listed with, and whether its payload is all
there is the only thing that decides on its file. All of this needs the container to stay what it is while its
parts are read: no file but the last may be written over it. Main statement: `extract_by_table`.
-/

namespace Playprint

/-! ### Several files -/

namespace FileTree

variable {tree mid after : FileTree} {path : String} {data : Bytes} {files : List (String × Bytes)}

/-- The tree with data in several files, written one after another. -/
def writeAll (tree : FileTree) (files : List (String × Bytes)) : Except SystemError FileTree :=
  files.foldlM (fun tree file => tree.write file.1 file.2) tree

theorem writeAll_cons (h : tree.writeAll ((path, data) :: files) = .ok after) :
    ∃ mid, tree.write path data = .ok mid ∧ mid.writeAll files = .ok after := by
  rw [writeAll, List.foldlM_cons] at h
  cases hwrite : tree.write path data with
  | error error =>
      rw [hwrite] at h
      cases h
  | ok mid =>
      rw [hwrite] at h
      exact ⟨mid, rfl, h⟩

/-- What goes to a place when files are written. -/
def Among (files : List (String × Bytes)) (place : Place) (data : Bytes) : Prop :=
  ∃ file ∈ files, Place.ofPath file.1 = place ∧ file.2 = data

theorem Wrote.mono {goes goes' : Place → Bytes → Prop} (h : Wrote goes tree after)
    (himp : ∀ place data, goes place data → goes' place data) : Wrote goes' tree after where
  directory := h.directory
  file := h.file
  data place data hfile := (h.data place data hfile).imp_right (himp place data)

theorem wrote_writeAll (h : tree.writeAll files = .ok after) : Wrote (Among files) tree after := by
  induction files generalizing tree with
  | nil =>
      cases h
      exact .refl _
  | cons file files ih =>
      obtain ⟨mid, hwrite, hmore⟩ := writeAll_cons h
      refine (wrote_write ⟨file, List.mem_cons_self, rfl, rfl⟩ hwrite).trans ((ih hmore).mono ?_)
      rintro place data ⟨other, hother, hplace⟩
      exact ⟨other, List.mem_cons_of_mem _ hother, hplace⟩

/-- What was written is read, if files at one place were given the same data. -/
theorem read_of_writeAll (h : tree.writeAll files = .ok after)
    (hsame : ∀ file ∈ files, ∀ other ∈ files, Place.ofPath file.1 = .ofPath other.1 → file.2 = other.2) :
    ∀ file ∈ files, after.read file.1 = .ok file.2 := by
  induction files generalizing tree with
  | nil => exact fun _ hfile => nomatch hfile
  | cons first files ih =>
      obtain ⟨mid, hwrite, hmore⟩ := writeAll_cons h
      have hrest : ∀ file ∈ files, after.read file.1 = .ok file.2 :=
        ih hmore fun file hfile other hother =>
          hsame file (List.mem_cons_of_mem _ hfile) other (List.mem_cons_of_mem _ hother)
      refine List.forall_mem_cons.mpr ⟨?_, hrest⟩
      obtain ⟨data, hread, rfl | ⟨other, hother, hplace, rfl⟩⟩ :=
        (wrote_writeAll hmore).read (read_of_write hwrite)
      · exact hread
      · rw [hread, hsame other (List.mem_cons_of_mem _ hother) first List.mem_cons_self hplace]

end FileTree

theorem Terminal.run_write {path : String} {data : Bytes} {before : Terminal} {tree : FileTree}
    (h : before.tree.write path data = .ok tree) :
    (fileSystem.write path data).run before = (.ok (), { before with tree }) := by
  change Terminal.change (·.write path data) before = _
  rw [Terminal.change, h]

namespace Tool

section Actions

variable {α : Type} {before after : Terminal} {a : α}

theorem runOn_settle (answer : Except Failure α) (terminal : Terminal) :
    runOn (settle answer) terminal = (answer, terminal) := rfl

theorem runOn_lift (action : StateM Terminal α) (terminal : Terminal) :
    runOn (ExceptT.lift action) terminal = (.ok (action.run terminal).1, (action.run terminal).2) := rfl

theorem runOn_attempt (headline : String) {action : StateM Terminal (Except SystemError α)}
    (h : action.run before = (.ok a, after)) : runOn (attempt headline action) before = (.ok a, after) := by
  rw [attempt, runOn_bind, runOn_lift, h]
  rfl

end Actions

namespace Extract

open Terminal (fileSystem)
open FileTree (Wrote)

variable {options : Options} {container : Container} {chunks : List Chunk} {indices : List Nat}
  {index : Nat} {part : Part} {before made : Terminal} {written : FileTree} {path directory : String}

/-! ### Parts -/

/-- The table entry at an index is there, and points at where the header of a chunk starts. -/
def PointsAt (container : Container) (index : Nat) (chunk : Chunk) : Prop :=
  ∃ entry, container.tocEntries[index]? = some entry ∧ entry.offset ≠ 0 ∧ entry.offset.toNat = chunk.start

theorem entryOffset_eq_ok_iff {start : Nat} : container.entryOffset index = .ok start ↔
    ∃ entry, container.tocEntries[index]? = some entry ∧ entry.offset ≠ 0 ∧ entry.offset.toNat = start := by
  cases htoc : container.toc with
  | none => simp [Container.entryOffset, Container.tocEntries, htoc]
  | some toc =>
      simp only [Container.entryOffset, Container.tocEntries, htoc, Toc.offset, Array.getElem?_toList]
      cases toc.entries[index]? with
      | none => simp
      | some entry =>
          by_cases hzero : entry.offset = 0 <;> simp [hzero]

/-- Chunks that are listed and start at one place are the same. -/
theorem eq_of_start_eq (hchunks : (Container.topLevelChunks.outcome container).1 = .ok chunks) {chunk other : Chunk}
    (hchunk : chunk ∈ chunks) (hother : other ∈ chunks) (hstart : chunk.start = other.start) : chunk = other := by
  obtain ⟨form, _, hsiblings⟩ := Container.topLevelChunks_ok_iff.mp hchunks
  have hat := Chunk.at?_of_mem_siblings hsiblings chunk hchunk
  rw [hstart, Chunk.at?_of_mem_siblings hsiblings other hother] at hat
  exact (Option.some.inj hat).symm

/-- The parts are the chunks that wanted table entries point at. -/
theorem mem_parts_iff (hchunks : (Container.topLevelChunks.outcome container).1 = .ok chunks) :
    part ∈ parts container chunks indices ↔ part.index ∈ wanted container indices ∧ part.chunk ∈ chunks ∧
      PointsAt container part.index part.chunk := by
  constructor
  · intro hpart
    obtain ⟨_, hmem, hentry⟩ := mem_parts hpart
    obtain ⟨index, hindex, hat⟩ := List.mem_filterMap.mp hpart
    refine ⟨?_, hmem, entryOffset_eq_ok_iff.mp hentry⟩
    rw [Part.at?] at hat
    split at hat
    · obtain ⟨_, _, rfl⟩ := Option.map_eq_some_iff.mp hat
      exact hindex
    · cases hat
  · rintro ⟨hindex, hmem, hpoints⟩
    refine List.mem_filterMap.mpr ⟨part.index, hindex, ?_⟩
    rw [Part.at?, Container.tocOffset_eq, entryOffset_eq_ok_iff.mpr hpoints]
    -- The search may stop at another chunk with that start, but there is none.
    cases hfound : chunks.find? fun chunk => chunk.start = part.chunk.start with
    | none => simpa using List.find?_eq_none.mp hfound part.chunk hmem
    | some chunk =>
        have hstart := List.find?_some hfound
        rw [decide_eq_true_eq] at hstart
        rw [eq_of_start_eq hchunks (List.mem_of_find?_eq_some hfound) hmem hstart] at hfound
        simp only [hfound, Option.map_some]

namespace Part

/-- Whether the whole payload is in the data. -/
def isWhole (container : Container) (part : Part) : Bool :=
  part.chunk.stop ≤ container.stream.data.length

/-- The bytes of the payload that are in the data. -/
def bytes (container : Container) (part : Part) : Bytes :=
  part.chunk.payloadIn container.stream.data

/-- How the reading of a payload fails that runs past the data. -/
def shortfall (container : Container) (part : Part) : FormatError :=
  .truncated container.stream.data.length (part.chunk.stop - container.stream.data.length)

/-- A part is read with the tag that its chunk was listed with, so all that can be wrong is that the data ends
within it. -/
theorem payload_eq (hchunks : (Container.topLevelChunks.outcome container).1 = .ok chunks)
    (hpart : part ∈ parts container chunks indices) :
    part.payload container = if part.isWhole container then .ok (part.bytes container)
      else .error (part.shortfall container) := by
  obtain ⟨_, hmem, hentry⟩ := mem_parts hpart
  obtain ⟨form, _, hsiblings⟩ := Container.topLevelChunks_ok_iff.mp hchunks
  have hat := Chunk.at?_of_mem_siblings hsiblings part.chunk hmem
  have hoffset : (Container.tocOffset part.index).outcome container = (.ok part.chunk.start, container) := by
    rw [Container.tocOffset_eq, hentry]
  have hnext := Container.outcome_expectNext part.chunk.tag rfl hat
  rw [payload, Container.readChunkAt, Step.outcome_bind_ok hoffset,
    Step.outcome_bind_ok (Container.outcome_goto part.chunk.start container), Step.outcome_bind_ok hnext]
  cases hwhole : part.isWhole container with
  | true =>
      have hread := Container.outcome_onStream part.chunk.offset
        (Chunk.outcome_readPayload_within (container.stream.seek part.chunk.offset) (of_decide_eq_true hwhole))
      exact congrArg Prod.fst (Container.outcome_inside part.chunk hread)
  | false =>
      have hbeyond : container.stream.data.length < part.chunk.stop :=
        Nat.lt_of_not_le (of_decide_eq_false hwhole)
      -- A chunk that a table entry points at stops well below the greatest position.
      have hstop : part.chunk.stop < UInt64.size := by
        obtain ⟨entry, _, _, hstart⟩ := entryOffset_eq_ok_iff.mp hentry
        have hfirst : entry.offset.toNat < UInt32.size := entry.offset.toNat_lt
        have hheader := part.chunk.headerLength_le
        have hsize := part.chunk.size_lt
        have hroom : 2 * UInt32.size + 12 < UInt64.size := by decide
        rw [Chunk.stop, (Chunk.offset_of_at? hat).1]
        omega
      have hread := Container.outcome_onStream part.chunk.offset
        (Chunk.outcome_readPayload_beyond (container.stream.seek part.chunk.offset) hstop hbeyond)
      exact congrArg Prod.fst (Container.outcome_inside part.chunk hread)

end Part

/-! ### Writing parts -/

/-- The parts in front of the first whose payload runs past the data. -/
def wholeParts (container : Container) (parts : List Part) : List Part :=
  parts.takeWhile (·.isWhole container)

/-- How reading parts one after another ends. -/
def ending (container : Container) (parts : List Part) : Except Failure Unit :=
  match parts.find? (!·.isWhole container) with
  | none => .ok ()
  | some part => .error ((Failure.ofFormat (part.shortfall container)).during s!"reading TOC entry {part.index}")

/-- The files for parts in a directory. -/
def filesFor (container : Container) (directory : String) (parts : List Part) : List (String × Bytes) :=
  parts.map fun part => (Path.join directory part.fileName, part.bytes container)

/-- No part that is written before another one is read takes the place of the container at a path. -/
def SparesItself (container : Container) (path directory : String) (parts : List Part) : Prop :=
  ∀ part ∈ wholeParts container parts.dropLast,
    Place.ofPath (Path.join directory part.fileName) ≠ .ofPath path

/-- A look at what was written changes the container at most. -/
theorem exists_run_afterWrite (container : Container) (path : String) (data : Bytes) (terminal : Terminal) :
    ∃ changed, (afterWrite fileSystem container path data).run terminal = (changed, terminal) := by
  cases hpath : container.path with
  | none => exact ⟨container, by simp only [afterWrite, hpath]; rfl⟩
  | some own =>
      refine ⟨if terminal.tree.isSame path own then container.overwrite data else container, ?_⟩
      simp only [afterWrite, hpath]
      rfl

/-- A part that cannot be read ends the writing. -/
theorem runOn_writeParts_cut {rest : List Part} {error : FormatError}
    (hpayload : part.payload container = .error error) :
    runOn (writeParts fileSystem container directory (part :: rest)) before =
      (.error ((Failure.ofFormat error).during s!"reading TOC entry {part.index}"), before) := by
  rw [writeParts, runOn_bind, runOn_settle, hpayload]
  rfl

/-- After a part that was written, the others are read from the container as it is then. -/
theorem runOn_writeParts_next {rest : List Part} {payload : Bytes} {tree : FileTree} {changed : Container}
    (hpayload : part.payload container = .ok payload)
    (hwrite : before.tree.write (Path.join directory part.fileName) payload = .ok tree)
    (hafter : (afterWrite fileSystem container (Path.join directory part.fileName) payload).run { before with tree } =
      (changed, { before with tree })) :
    runOn (writeParts fileSystem container directory (part :: rest)) before =
      runOn (writeParts fileSystem changed directory rest) { before with tree } := by
  have hwritten := runOn_attempt s!"writing {Path.join directory part.fileName}" (Terminal.run_write hwrite)
  rw [writeParts, runOn_bind, runOn_settle, hpayload]
  simp only [Except.mapError]
  rw [runOn_bind, hwritten]
  dsimp only
  rw [runOn_bind, runOn_lift, hafter]

/-- The parts up to the first that is cut off are written, as long as the container stays what it is. -/
theorem runOn_writeParts {parts : List Part} (hpath : container.path = some path)
    (hpayload : ∀ part ∈ parts, part.payload container =
      if part.isWhole container then .ok (part.bytes container) else .error (part.shortfall container))
    (hspares : SparesItself container path directory parts)
    (hwrites : before.tree.writeAll (filesFor container directory (wholeParts container parts)) = .ok written) :
    runOn (writeParts fileSystem container directory parts) before =
      (ending container parts, { before with tree := written }) := by
  induction parts generalizing before with
  | nil =>
      cases hwrites
      rfl
  | cons part rest ih =>
      obtain ⟨hhere, hothers⟩ := List.forall_mem_cons.mp hpayload
      cases hwhole : part.isWhole container with
      | false =>
          rw [hwhole] at hhere
          rw [wholeParts, List.takeWhile_cons_of_neg (by simp [hwhole])] at hwrites
          cases hwrites
          rw [runOn_writeParts_cut hhere, ending, List.find?_cons_of_pos (by simp [hwhole])]
      | true =>
          rw [hwhole] at hhere
          rw [wholeParts, List.takeWhile_cons_of_pos hwhole] at hwrites
          obtain ⟨tree, hwrite, hmore⟩ := FileTree.writeAll_cons hwrites
          rw [ending, List.find?_cons_of_neg (by simp [hwhole])]
          cases rest with
          | nil =>
              obtain ⟨changed, hchanged⟩ := exists_run_afterWrite container
                (Path.join directory part.fileName) (part.bytes container) { before with tree }
              cases hmore
              rw [runOn_writeParts_next hhere hwrite hchanged]
              rfl
          | cons next rest =>
              rw [SparesItself, List.dropLast_cons_cons, wholeParts, List.takeWhile_cons_of_pos hwhole] at hspares
              obtain ⟨hfirst, hlater⟩ := List.forall_mem_cons.mp hspares
              have hkept : (afterWrite fileSystem container (Path.join directory part.fileName)
                  (part.bytes container)).run { before with tree } = (container, { before with tree }) := by
                refine outcome_afterWrite _ fun own hown hplace => ?_
                cases hpath.symm.trans hown
                exact absurd hplace hfirst
              rw [runOn_writeParts_next hhere hwrite hkept]
              exact ih hothers hlater hmore

/-! ### Taking a container apart -/

theorem runOn_openContainer {data : Bytes} (hread : before.tree.read path = .ok data)
    (hopen : Container.openFile path data = .ok container) :
    runOn (openContainer fileSystem path) before = (.ok container, before) := by
  rw [openContainer, runOn_bind, runOn_lift]
  have hlook : (fileSystem.read path).run before = (.ok data, before) := Prod.ext hread rfl
  simp only [hlook]
  rw [runOn_settle, containerOf, hopen]
  rfl

theorem path_of_openFile {data : Bytes} (h : Container.openFile path data = .ok container) :
    container.path = some path := by
  rw [Container.openFile] at h
  cases hload : Container.load data with
  | error error =>
      rw [hload] at h
      cases h
  | ok loaded =>
      rw [hload] at h
      cases h
      rfl


/-- The last words of a run that took a container apart. -/
def report (path directory : String) (count : Nat) : String :=
  s!"Extracted {count} chunks from {path} into {directory}\n"

theorem runOn_extract {data : Bytes} (hread : before.tree.read path = .ok data)
    (hopen : Container.openFile path data = .ok container)
    (hchunks : (Container.topLevelChunks.outcome container).1 = .ok chunks)
    (hmake : (fileSystem.makeDirectories (directoryFor options.destination path)).run before = (.ok (), made))
    (hspares : SparesItself container path (directoryFor options.destination path)
      (parts container chunks options.indices))
    (hwrites : made.tree.writeAll (filesFor container (directoryFor options.destination path)
      (wholeParts container (parts container chunks options.indices))) = .ok written) :
    runOn (extract fileSystem options path) before =
      (ending container (parts container chunks options.indices), { made with
        tree := written
        printed := made.printed ++ if (ending container (parts container chunks options.indices)).isOk then
          report path (directoryFor options.destination path) (parts container chunks options.indices).length
          else "" }) := by
  have hparts := runOn_writeParts (path_of_openFile hopen)
    (fun part hpart => Part.payload_eq hchunks hpart) hspares hwrites
  rw [extract, runOn_bind, runOn_openContainer hread hopen]
  dsimp only
  rw [runOn_bind, runOn_attempt _ hmake]
  dsimp only
  rw [runOn_bind, runOn_settle, hchunks]
  simp only [Except.mapError]
  rw [runOn_bind, hparts]
  cases ending container (parts container chunks options.indices) with
  | error failure => simp [Except.isOk, Except.toBool]
  | ok done => rfl

/-- If no payload runs past the data, all parts are written. -/
theorem complete_of_whole {parts : List Part}
    (h : ∀ part ∈ parts, part.chunk.stop ≤ container.stream.data.length) :
    ending container parts = .ok () ∧ wholeParts container parts = parts := by
  have hwhole : ∀ part ∈ parts, part.isWhole container = true := fun part hpart => decide_eq_true (h part hpart)
  have hfind : parts.find? (!·.isWhole container) = none := by
    refine List.find?_eq_none.mpr fun part hpart => ?_
    simp [hwhole part hpart]
  rw [ending, hfind]
  exact ⟨rfl, List.takeWhile_eq_self_iff.mpr hwhole⟩

/-- The run only stops early at a payload that runs past the data. -/
theorem exists_cut {parts : List Part} {failure : Failure} (h : ending container parts = .error failure) :
    ∃ part ∈ parts, container.stream.data.length < part.chunk.stop ∧
      failure = (Failure.ofFormat (part.shortfall container)).during s!"reading TOC entry {part.index}" := by
  rw [ending] at h
  cases hfind : parts.find? (!·.isWhole container) with
  | none =>
      rw [hfind] at h
      cases h
  | some part =>
      rw [hfind] at h
      cases h
      have hcut := List.find?_some hfind
      refine ⟨part, List.mem_of_find?_eq_some hfind, ?_, rfl⟩
      simpa [Part.isWhole] using hcut

theorem whole_of_mem_wholeParts {parts : List Part} (h : part ∈ wholeParts container parts) :
    part ∈ parts ∧ part.chunk.stop ≤ container.stream.data.length := by
  have hwhole := List.mem_takeWhile_imp h
  exact ⟨(List.takeWhile_sublist _).subset h, of_decide_eq_true hwhole⟩

/-- Parts with one file have one payload. -/
theorem bytes_eq_of_target_eq (hchunks : (Container.topLevelChunks.outcome container).1 = .ok chunks)
    {other : Part} {destination : String} (hpart : part ∈ parts container chunks indices)
    (hother : other ∈ parts container chunks indices)
    (htarget : Place.ofPath (target destination path part) = .ofPath (target destination path other)) :
    part.bytes container = other.bytes container := by
  have hindex := (Part.fileName_eq_iff.mp (target_eq_iff.mp htarget).2).1
  obtain ⟨_, hmem, hentry⟩ := mem_parts hpart
  obtain ⟨_, hmem', hentry'⟩ := mem_parts hother
  rw [hindex, hentry'] at hentry
  rw [Part.bytes, Part.bytes, eq_of_start_eq hchunks hmem hmem' (Except.ok.inj hentry).symm]

theorem mem_filesFor {parts : List Part} {file : String × Bytes} (h : file ∈ filesFor container directory parts) :
    ∃ part ∈ parts, file = (Path.join directory part.fileName, part.bytes container) := by
  obtain ⟨part, hpart, hfile⟩ := List.mem_map.mp h
  exact ⟨part, hpart, hfile.symm⟩

/-- The files for parts hold their payloads after all of them were written. -/
theorem read_of_filesFor {destination : String} {chosen : List Part}
    (hchunks : (Container.topLevelChunks.outcome container).1 = .ok chunks)
    (hchosen : ∀ part ∈ chosen, part ∈ parts container chunks indices)
    (hwrites : before.tree.writeAll (filesFor container (directoryFor destination path) chosen) = .ok written)
    (hpart : part ∈ chosen) : written.read (target destination path part) = .ok (part.bytes container) := by
  have hsame : ∀ file ∈ filesFor container (directoryFor destination path) chosen,
      ∀ other ∈ filesFor container (directoryFor destination path) chosen,
        Place.ofPath file.1 = .ofPath other.1 → file.2 = other.2 := by
    intro file hfile other hother hplace
    obtain ⟨first, hfirst, rfl⟩ := mem_filesFor hfile
    obtain ⟨second, hsecond, rfl⟩ := mem_filesFor hother
    exact bytes_eq_of_target_eq hchunks (hchosen first hfirst) (hchosen second hsecond) hplace
  have hfile : (target destination path part, part.bytes container) ∈
      filesFor container (directoryFor destination path) chosen := List.mem_map.mpr ⟨part, hpart, rfl⟩
  exact FileTree.read_of_writeAll hwrites hsame (target destination path part, part.bytes container) hfile

/-- How a container is taken apart by its table: what the parts are, how each of them is read, how the run ends,
and what is in the files then. The directory for the container is there on the terminal `made`. -/
structure ByTable (options : Options) (path : String) (container : Container) (chunks : List Chunk)
    (chosen : List Part) (before made : Terminal) (written : FileTree) : Prop where
  selected : ∀ part, part ∈ chosen ↔ part.index ∈ wanted container options.indices ∧ part.chunk ∈ chunks ∧
    PointsAt container part.index part.chunk
  payload : ∀ part ∈ chosen, part.payload container =
    if part.isWhole container then .ok (part.bytes container) else .error (part.shortfall container)
  run : runOn (extract fileSystem options path) before = (ending container chosen, { made with
    tree := written
    printed := made.printed ++ if (ending container chosen).isOk then
      report path (directoryFor options.destination path) chosen.length else "" })
  complete : (∀ part ∈ chosen, part.chunk.stop ≤ container.stream.data.length) →
    ending container chosen = .ok () ∧ wholeParts container chosen = chosen
  cut : ∀ failure, ending container chosen = .error failure → ∃ part ∈ chosen,
    container.stream.data.length < part.chunk.stop ∧
      failure = (Failure.ofFormat (part.shortfall container)).during s!"reading TOC entry {part.index}"
  delivered : ∀ part ∈ wholeParts container chosen,
    written.read (target options.destination path part) = .ok (part.bytes container) ∧
      (part.bytes container).length = part.chunk.size.toNat
  others : ∀ place, (∀ part ∈ wholeParts container chosen,
    Place.ofPath (target options.destination path part) ≠ place) → written.file? place = before.tree.file? place

/-- A container whose chunks can be listed is taken apart by its table, as long as the files can be written and
none of them takes its place before the last part is read. -/
theorem extract_by_table {data : Bytes} (hread : before.tree.read path = .ok data)
    (hopen : Container.openFile path data = .ok container)
    (hchunks : (Container.topLevelChunks.outcome container).1 = .ok chunks)
    (hmake : (fileSystem.makeDirectories (directoryFor options.destination path)).run before = (.ok (), made))
    (hspares : SparesItself container path (directoryFor options.destination path)
      (parts container chunks options.indices))
    (hwrites : made.tree.writeAll (filesFor container (directoryFor options.destination path)
      (wholeParts container (parts container chunks options.indices))) = .ok written) :
    ByTable options path container chunks (parts container chunks options.indices) before made written where
  selected part := mem_parts_iff hchunks
  payload part hpart := Part.payload_eq hchunks hpart
  run := runOn_extract hread hopen hchunks hmake hspares hwrites
  complete := complete_of_whole
  cut _ := exists_cut
  delivered part hpart :=
    ⟨read_of_filesFor hchunks (fun _ hother => (whole_of_mem_wholeParts hother).1) hwrites hpart,
      (Chunk.at_payloadIn (whole_of_mem_wholeParts hpart).2).2⟩
  others place hplace := by
    have hmade : Wrote (FileTree.Among (filesFor container (directoryFor options.destination path)
        (wholeParts container (parts container chunks options.indices)))) before.tree _ :=
      Terminal.writes_makeDirectories (directoryFor options.destination path) before
    rw [hmake] at hmade
    refine (hmade.trans (FileTree.wrote_writeAll hwrites)).file?_eq ?_
    rintro data ⟨file, hfile, hgoes, _⟩
    obtain ⟨part, hpart, rfl⟩ := mem_filesFor hfile
    exact hplace part hpart hgoes

/-! ### Two containers -/

/-- The chunks in front of the first group, in big-endian order. -/
def ahead (count : UInt32) : List Chunk :=
  [⟨Tag.hdr, 8, Tag.blank, 20⟩, ⟨Tag.toc, 4 + 8 * count, Tag.blank, 36⟩]

/-- A container whose table has an entry for no chunk, one that points into a chunk, and one for a chunk that is cut
off. -/
def ragged : Bytes :=
  Tag.ppbe.bytes ++ [0, 0, 0, 84] ++ Tag.mlrt.bytes ++
    Tag.hdr.bytes ++ [0, 0, 0, 8, 0, 0, 0, 1, 0, 0, 0, 0] ++
    Tag.toc.bytes ++ [0, 0, 0, 36, 0, 0, 0, 4] ++
      [0, 0, 0, 0, 0, 0, 0, 72, 0, 0, 0, 1, 0, 0, 0, 0, 0, 0, 0, 2, 0, 0, 0, 73, 0, 0, 0, 3, 0, 0, 0, 82] ++
    Tag.grp.bytes ++ [0, 0, 0, 2, 1, 1] ++ Tag.grp.bytes ++ [0, 0, 0, 6, 2]

/-- What is opened from it. -/
def raggedOpened : Container where
  order := .big
  stream := ⟨ragged, 72⟩
  path := some "in/r.dpp"
  form := some ⟨Tag.ppbe, 84, Tag.mlrt, 12⟩
  header := some ⟨1, 0⟩
  toc := some ⟨4, #[⟨0, 72⟩, ⟨1, 0⟩, ⟨2, 73⟩, ⟨3, 82⟩]⟩
  pendingToc := none
  mediaList := none

/-- Its chunks. -/
def raggedChunks : List Chunk :=
  ahead 4 ++ [⟨Tag.grp, 2, Tag.blank, 80⟩, ⟨Tag.grp, 6, Tag.blank, 90⟩]

/-- The terminal with the directory for the parts of the container at a path. -/
def prepared (options : Options) (path : String) (before : Terminal) : Terminal :=
  ((fileSystem.makeDirectories (directoryFor options.destination path)).run before).2

/-- One part is written twice, two table entries are passed over, and the run stops at the chunk that is cut off. -/
theorem ragged_by_table :
    let options : Options := ⟨["in/r.dpp"], none, "out", [0, 9, 2, 0, 3]⟩
    let before : Terminal := ⟨.ofFiles [("in/r.dpp", ragged)], ""⟩
    let made := prepared options "in/r.dpp" before
    let chosen := parts raggedOpened raggedChunks options.indices
    let files := filesFor raggedOpened (directoryFor options.destination "in/r.dpp")
      (wholeParts raggedOpened chosen)
    before.tree.read "in/r.dpp" = .ok ragged ∧
    Container.openFile "in/r.dpp" ragged = .ok raggedOpened ∧
    (Container.topLevelChunks.outcome raggedOpened).1 = .ok raggedChunks ∧
    (fileSystem.makeDirectories (directoryFor options.destination "in/r.dpp")).run before = (.ok (), made) ∧
    SparesItself raggedOpened "in/r.dpp" (directoryFor options.destination "in/r.dpp") chosen ∧
    chosen.map (·.index) = [0, 0, 3] ∧
    files = [("out/r/0000_grp.bin", [1, 1]), ("out/r/0000_grp.bin", [1, 1])] ∧
    ∃ written, made.tree.writeAll files = .ok written ∧
      written.files = [("out/r/0000_grp.bin", [1, 1]), ("in/r.dpp", ragged)] ∧
      ByTable options "in/r.dpp" raggedOpened raggedChunks chosen before made written := by
  intro options before made chosen files
  have hread : before.tree.read "in/r.dpp" = .ok ragged := Step.eq_ok_of_toOption (by decide +kernel)
  have hopen : Container.openFile "in/r.dpp" ragged = .ok raggedOpened := Step.eq_ok_of_toOption (by decide +kernel)
  have hchunks : (Container.topLevelChunks.outcome raggedOpened).1 = .ok raggedChunks :=
    Step.eq_ok_of_toOption (by decide +kernel)
  have hmake : (fileSystem.makeDirectories (directoryFor options.destination "in/r.dpp")).run before =
      (.ok (), made) :=
    Prod.ext (Step.eq_ok_of_toOption (by decide +kernel)) rfl
  have hspares : SparesItself raggedOpened "in/r.dpp" (directoryFor options.destination "in/r.dpp") chosen := by
    unfold SparesItself
    decide +kernel
  have hfiles : (made.tree.writeAll files).toOption.map FileTree.files =
      some [("out/r/0000_grp.bin", [1, 1]), ("in/r.dpp", ragged)] := by
    decide +kernel
  obtain ⟨written, hwritten, hfiles⟩ := Option.map_eq_some_iff.mp hfiles
  have hwrites := Step.eq_ok_of_toOption hwritten
  exact ⟨hread, hopen, hchunks, hmake, hspares, by decide +kernel, by decide +kernel, written, hwrites, hfiles,
    extract_by_table hread hopen hchunks hmake hspares hwrites⟩

deriving instance DecidableEq for Failure

/-- A container with two groups. -/
def twoGroups : Bytes :=
  Tag.ppbe.bytes ++ [0, 0, 0, 64] ++ Tag.mlrt.bytes ++
    Tag.hdr.bytes ++ [0, 0, 0, 8, 0, 0, 0, 1, 0, 0, 0, 0] ++
    Tag.toc.bytes ++ [0, 0, 0, 20, 0, 0, 0, 2, 0, 0, 0, 0, 0, 0, 0, 56, 0, 0, 0, 1, 0, 0, 0, 66] ++
    Tag.grp.bytes ++ [0, 0, 0, 2, 1, 1] ++ Tag.grp.bytes ++ [0, 0, 0, 2, 2, 2]

/-- What is opened from it at a path. -/
def twoGroupsOpened (path : String) : Container where
  order := .big
  stream := ⟨twoGroups, 56⟩
  path := some path
  form := some ⟨Tag.ppbe, 64, Tag.mlrt, 12⟩
  header := some ⟨1, 0⟩
  toc := some ⟨2, #[⟨0, 56⟩, ⟨1, 66⟩]⟩
  pendingToc := none
  mediaList := none

/-- Its chunks. -/
def twoGroupsChunks : List Chunk :=
  ahead 2 ++ [⟨Tag.grp, 2, Tag.blank, 64⟩, ⟨Tag.grp, 2, Tag.blank, 74⟩]

/-- A container that is where the file for its first part goes is not taken apart, although every part is whole and
could be written. What was written is taken for the container when the second part is read. -/
theorem ownFile_stops :
    let own := "out/0000_grp/0000_grp.bin"
    let options : Options := ⟨[own], none, "out", []⟩
    let before : Terminal := ⟨.ofFiles [(own, twoGroups)], ""⟩
    let made := prepared options own before
    let chosen := parts (twoGroupsOpened own) twoGroupsChunks options.indices
    let files := filesFor (twoGroupsOpened own) (directoryFor options.destination own) chosen
    before.tree.read own = .ok twoGroups ∧
    Container.openFile own twoGroups = .ok (twoGroupsOpened own) ∧
    (Container.topLevelChunks.outcome (twoGroupsOpened own)).1 = .ok twoGroupsChunks ∧
    (fileSystem.makeDirectories (directoryFor options.destination own)).run before = (.ok (), made) ∧
    chosen.map (·.index) = [0, 1] ∧
    (∀ part ∈ chosen, part.chunk.stop ≤ twoGroups.length) ∧
    files = [(own, [1, 1]), ("out/0000_grp/0001_grp.bin", [2, 2])] ∧
    (made.tree.writeAll files).isOk = true ∧
    ∃ after, runOn (extract fileSystem options own) before =
        (.error ((Failure.ofFormat (.unexpectedChunk Tag.grp ⟨0⟩)).during "reading TOC entry 1"), after) ∧
      after.tree.files = [(own, [1, 1])] := by
  intro own options before made chosen files
  have hfails : (runOn (extract fileSystem options own) before).1 =
      .error ((Failure.ofFormat (.unexpectedChunk Tag.grp ⟨0⟩)).during "reading TOC entry 1") := by
    decide +kernel
  refine ⟨Step.eq_ok_of_toOption ?_, Step.eq_ok_of_toOption ?_, Step.eq_ok_of_toOption ?_,
    Prod.ext (Step.eq_ok_of_toOption ?_) rfl, ?_, ?_, ?_, ?_, _, Prod.ext hfails rfl, ?_⟩
  all_goals decide +kernel

end Extract

end Tool

end Playprint
