import Playprint.Proofs.Container.Sequence
import Playprint.Proofs.Container.Truncation
import Playprint.Proofs.Files.Tree
import Playprint.Proofs.Tool.Parts

/-!
What is written when containers are taken apart. A run only makes directories and writes the payloads of parts to
the files for them. If those take the place of no container, save with the data it holds, every container is read
as it was before the run, and the file for each of its parts is there after it.
-/

namespace Playprint

open FileTree (Wrote)

/-- What was loaded holds the data it was loaded from. -/
theorem Container.data_of_load {data : Bytes} {container : Container} (h : load data = .ok container) :
    container.stream.data = data := by
  obtain ⟨fresh, hfresh, hreads⟩ := load_eq_ok_iff.mp h
  have hsame : Step.Along SameData (do openForm; let _ ← readHeader; let _ ← readToc) :=
    sameData_openForm.bind fun _ => sameData_readHeader.bind fun _ => sameData_readToc.bind fun _ => .pure _
  have hdata := hsame fresh
  rw [hreads] at hdata
  exact hdata.trans (data_of_ofBytes hfresh)

namespace Tool

/-! ### Actions on a terminal -/

section Actions

variable {α β : Type} {before after : Terminal} {a : α} {b : β}

/-- How an action ends on a terminal. -/
def runOn (action : Action (StateM Terminal) α) (terminal : Terminal) : Except Failure α × Terminal :=
  action.run.run terminal

theorem runOn_bind (first : Action (StateM Terminal) α) (next : α → Action (StateM Terminal) β)
    (terminal : Terminal) : runOn (first >>= next) terminal = match runOn first terminal with
      | (.ok a, mid) => runOn (next a) mid
      | (.error failure, mid) => (.error failure, mid) := by
  rw [runOn, ExceptT.run_bind, StateT.run_bind, runOn]
  rcases StateT.run (ExceptT.run first) terminal with ⟨failure | a, mid⟩ <;> rfl

theorem runOn_bind_ok {first : Action (StateM Terminal) α} {next : α → Action (StateM Terminal) β} :
    runOn (first >>= next) before = (.ok b, after) ↔
      ∃ a mid, runOn first before = (.ok a, mid) ∧ runOn (next a) mid = (.ok b, after) := by
  rw [runOn_bind]
  rcases runOn first before with ⟨failure | a, mid⟩ <;> simp

theorem runOn_lift_ok {action : StateM Terminal α} (h : runOn (ExceptT.lift action) before = (.ok a, after)) :
    action.run before = (a, after) := by
  rw [runOn, ExceptT.run_lift, StateT.run_map] at h
  cases h
  rfl

theorem runOn_settle_ok {answer : Except Failure α} (h : runOn (settle answer) before = (.ok a, after)) :
    answer = .ok a ∧ before = after := by
  cases h
  exact ⟨rfl, rfl⟩

theorem runOn_attempt_ok {headline : String} {action : StateM Terminal (Except SystemError α)}
    (h : runOn (attempt headline action) before = (.ok a, after)) : action.run before = (.ok a, after) := by
  obtain ⟨answer, mid, hlift, hanswer⟩ := runOn_bind_ok.mp h
  obtain ⟨hok, rfl⟩ := runOn_settle_ok hanswer
  rw [runOn_lift_ok hlift, Step.mapError_eq_ok_iff.mp hok]

end Actions

namespace Extract

open Terminal (fileSystem)

variable {options : Options} {goes : Place → Bytes → Prop} {container : Container} {before after : Terminal}
  {path directory : String}

/-! ### Files that are written -/

/-- The container in the file that a path leads to. -/
def containerAt? (tree : FileTree) (path : String) : Option Container :=
  (tree.file? (.ofPath path)).bind fun data => (Container.openFile path data).toOption

theorem containerAt?_eq_some_iff {tree : FileTree} : containerAt? tree path = some container ↔
    ∃ data loaded, tree.file? (.ofPath path) = some data ∧ Container.load data = .ok loaded ∧
      container = { loaded with path := some path } := by
  rw [containerAt?, Option.bind_eq_some_iff]
  refine exists_congr fun data => ?_
  rw [Container.openFile]
  cases Container.load data with
  | error error => simp [Except.map, Except.toOption]
  | ok loaded => simp [Except.map, Except.toOption, eq_comm]

theorem openContainer_ok (h : runOn (openContainer fileSystem path) before = (.ok container, after)) :
    containerAt? before.tree path = some container ∧ before = after := by
  obtain ⟨answer, mid, hread, hsettle⟩ := runOn_bind_ok.mp h
  obtain ⟨hopened, rfl⟩ := runOn_settle_ok hsettle
  replace hopened := Step.mapError_eq_ok_iff.mp hopened
  cases runOn_lift_ok hread
  refine ⟨?_, rfl⟩
  cases hdata : before.tree.read path with
  | error error =>
      rw [hdata, containerOf] at hopened
      split at hopened <;> cases hopened
  | ok data =>
      rw [hdata, containerOf] at hopened
      rw [containerAt?, FileTree.file?_of_read hdata, Option.bind_some, hopened]
      rfl

/-- A part whose payload was written, to be read again or to be written over by what goes there, too. -/
def Delivered (goes : Place → Bytes → Prop) (container : Container) (directory : String) (tree : FileTree)
    (part : Part) : Prop :=
  ∃ payload data, part.payload container = .ok payload ∧
    tree.read (Path.join directory part.fileName) = .ok data ∧
    goes (.ofPath (Path.join directory part.fileName)) data

theorem Delivered.wrote {tree later : FileTree} {part : Part} (h : Delivered goes container directory tree part)
    (hwrote : Wrote goes tree later) : Delivered goes container directory later part := by
  obtain ⟨payload, data, hpayload, hread, hgoes⟩ := h
  obtain ⟨data', hread', rfl | hgoes'⟩ := hwrote.read hread
  · exact ⟨payload, data', hpayload, hread', hgoes⟩
  · exact ⟨payload, data', hpayload, hread', hgoes'⟩

/-- What is written may take the place of the container, as long as that makes no difference. -/
theorem outcome_afterWrite {data : Bytes} (terminal : Terminal)
    (hown : ∀ own, container.path = some own → Place.ofPath path = .ofPath own →
      container.overwrite data = container) :
    (afterWrite fileSystem container path data).run terminal = (container, terminal) := by
  cases hpath : container.path with
  | none =>
      simp only [afterWrite, hpath]
      rfl
  | some own =>
      simp only [afterWrite, hpath]
      show (if terminal.tree.isSame path own then container.overwrite data else container, terminal) = _
      by_cases hsame : terminal.tree.isSame path own = true
      · rw [if_pos hsame, hown own hpath (FileTree.place_eq_of_isSame hsame)]
      · rw [if_neg hsame]

/-- The parts are written and nothing else, as long as the container is not. -/
theorem writeParts_ok {parts : List Part}
    (hgoes : ∀ part ∈ parts, ∀ payload, part.payload container = .ok payload →
      goes (.ofPath (Path.join directory part.fileName)) payload)
    (hown : ∀ own, container.path = some own → ∀ data, goes (.ofPath own) data →
      container.overwrite data = container)
    (h : runOn (writeParts fileSystem container directory parts) before = (.ok (), after)) :
    Wrote goes before.tree after.tree ∧
      ∀ part ∈ parts, Delivered goes container directory after.tree part := by
  induction parts generalizing before with
  | nil =>
      cases h
      exact ⟨.refl _, fun _ hpart => nomatch hpart⟩
  | cons part rest ih =>
      obtain ⟨payload, _, hsettle, hwrites⟩ := runOn_bind_ok.mp h
      obtain ⟨hpayload, rfl⟩ := runOn_settle_ok hsettle
      replace hpayload := Step.mapError_eq_ok_iff.mp hpayload
      have hhere := hgoes part List.mem_cons_self payload hpayload
      obtain ⟨_, mid, hattempt, hmore⟩ := runOn_bind_ok.mp hwrites
      have hwrite := Terminal.write_ok (runOn_attempt_ok hattempt)
      obtain ⟨changed, left, hlift, hlast⟩ := runOn_bind_ok.mp hmore
      have hsame := runOn_lift_ok hlift
      -- The container stays what it is, and so do the payloads of the other parts.
      rw [outcome_afterWrite mid fun own hpath hplace => hown own hpath payload (hplace ▸ hhere)] at hsame
      cases hsame
      obtain ⟨hwrote, hrest⟩ := ih (fun other hother => hgoes other (List.mem_cons_of_mem _ hother)) hlast
      refine ⟨(FileTree.wrote_write hhere hwrite).trans hwrote, fun other hother => ?_⟩
      rcases List.mem_cons.mp hother with rfl | hother
      · exact Delivered.wrote ⟨payload, payload, hpayload, FileTree.read_of_write hwrite, hhere⟩ hwrote
      · exact hrest other hother

/-! ### Containers that are taken apart -/

/-- The chunk of a part of the container in a file, under the table entry that points at it. -/
structure Offers (tree : FileTree) (indices : List Nat) (path : String) (container : Container) (part : Part) :
    Prop where
  opened : containerAt? tree path = some container
  listed : ∃ chunks, (Container.topLevelChunks.outcome container).1 = .ok chunks ∧
    part ∈ parts container chunks indices

/-- The path of the file for a part of the container at a path. -/
def target (destination path : String) (part : Part) : String :=
  Path.join (directoryFor destination path) part.fileName

/-- What goes to a place when the containers at these paths are taken apart. -/
def GoesTo (tree : FileTree) (options : Options) (paths : List String) (place : Place) (data : Bytes) : Prop :=
  ∃ path ∈ paths, ∃ container part, Offers tree options.indices path container part ∧
    data = part.chunk.payloadIn container.stream.data ∧
    Place.ofPath (target options.destination path part) = place

theorem extract_ok (h : runOn (extract fileSystem options path) before = (.ok (), after)) :
    ∃ container chunks made written, containerAt? before.tree path = some container ∧
      Wrote goes before.tree made.tree ∧ (Container.topLevelChunks.outcome container).1 = .ok chunks ∧
      runOn (writeParts fileSystem container (directoryFor options.destination path)
        (parts container chunks options.indices)) made = (.ok (), written) ∧
      after.tree = written.tree := by
  obtain ⟨container, here, hopen, hrest⟩ := runOn_bind_ok.mp h
  obtain ⟨hopened, rfl⟩ := openContainer_ok hopen
  obtain ⟨_, made, hmake, hparts⟩ := runOn_bind_ok.mp hrest
  have hmade : Wrote goes before.tree _ :=
    Terminal.writes_makeDirectories (directoryFor options.destination path) before
  rw [runOn_attempt_ok hmake] at hmade
  obtain ⟨chunks, there, hsettle, hwrites⟩ := runOn_bind_ok.mp hparts
  obtain ⟨hlisted, rfl⟩ := runOn_settle_ok hsettle
  obtain ⟨_, written, hwritten, hprint⟩ := runOn_bind_ok.mp hwrites
  cases hprint
  exact ⟨container, chunks, made, written, hopened, hmade, Step.mapError_eq_ok_iff.mp hlisted, hwritten, rfl⟩

section Runs

variable {first : FileTree} {paths : List String}

/-- Whatever goes to the place of a container is what is there. -/
def Harmless (first : FileTree) (options : Options) (paths : List String) : Prop :=
  ∀ path ∈ paths, ∀ data, GoesTo first options paths (.ofPath path) data →
    first.file? (.ofPath path) = some data

theorem Harmless.file? (h : Harmless first options paths) (hpath : path ∈ paths) {tree : FileTree} {data : Bytes}
    (hwrote : Wrote (GoesTo first options paths) first tree) (hdata : tree.file? (.ofPath path) = some data) :
    first.file? (.ofPath path) = some data := by
  rcases hwrote.data _ _ (FileTree.file?_eq_some_iff.mp hdata) with hfirst | hgoes
  · exact FileTree.file?_eq_some_iff.mpr hfirst
  · exact h path hpath data hgoes

theorem Harmless.containerAt? (h : Harmless first options paths) (hpath : path ∈ paths) {tree : FileTree}
    (hwrote : Wrote (GoesTo first options paths) first tree)
    (hopened : Extract.containerAt? tree path = some container) :
    Extract.containerAt? first path = some container := by
  obtain ⟨data, loaded, hdata, hload⟩ := containerAt?_eq_some_iff.mp hopened
  exact containerAt?_eq_some_iff.mpr ⟨data, loaded, h.file? hpath hwrote hdata, hload⟩

/-- A container is overwritten with what it holds, if at all. -/
theorem Harmless.overwrite (h : Harmless first options paths) (hpath : path ∈ paths)
    (hopened : Extract.containerAt? first path = some container) {data : Bytes}
    (hgoes : GoesTo first options paths (.ofPath path) data) : container.overwrite data = container := by
  obtain ⟨own, loaded, hown, hload, rfl⟩ := containerAt?_eq_some_iff.mp hopened
  cases hown.symm.trans (h path hpath data hgoes)
  have hdata := Container.data_of_load hload
  simp only [Container.overwrite, Stream.overwrite, hdata, List.take_left']
  rw [← hdata]

/-- A container that is taken apart was there at first. -/
theorem Harmless.extract (h : Harmless first options paths) (hpath : path ∈ paths)
    (hwrote : Wrote (GoesTo first options paths) first before.tree)
    (hextract : runOn (Extract.extract fileSystem options path) before = (.ok (), after)) :
    Wrote (GoesTo first options paths) before.tree after.tree ∧
      ∃ container, Extract.containerAt? first path = some container ∧
        ∀ part, Offers first options.indices path container part →
          Delivered (GoesTo first options paths) container (directoryFor options.destination path) after.tree
            part := by
  obtain ⟨container, chunks, made, written, hopened, hmade, hlisted, hparts, hafter⟩ := extract_ok hextract
  replace hopened := h.containerAt? hpath hwrote hopened
  have hcontainer : container.path = some path := by
    obtain ⟨_, _, _, _, rfl⟩ := containerAt?_eq_some_iff.mp hopened
    rfl
  have hgoes : ∀ part ∈ parts container chunks options.indices, ∀ payload, part.payload container = .ok payload →
      GoesTo first options paths
        (.ofPath (Path.join (directoryFor options.destination path) part.fileName)) payload :=
    fun part hpart _ hpayload => ⟨path, hpath, container, part, ⟨hopened, chunks, hlisted, hpart⟩,
      (Part.payload_ok hlisted hpart hpayload).2, rfl⟩
  have hown : ∀ own, container.path = some own → ∀ data, GoesTo first options paths (.ofPath own) data →
      container.overwrite data = container := by
    intro own hpath' data hdata
    cases hcontainer.symm.trans hpath'
    exact h.overwrite hpath hopened hdata
  obtain ⟨hdone, hdelivered⟩ := writeParts_ok hgoes hown hparts
  rw [hafter]
  refine ⟨hmade.trans hdone, container, hopened, ?_⟩
  rintro part ⟨_, _, hlisted', hpart⟩
  cases hlisted.symm.trans hlisted'
  exact hdelivered part hpart

/-- One container after another is taken apart. -/
theorem Harmless.extractAll (h : Harmless first options paths) {rest : List String}
    (hrest : ∀ path ∈ rest, path ∈ paths) (hwrote : Wrote (GoesTo first options paths) first before.tree)
    (hextract : runOn (Extract.extractAll fileSystem options rest) before = (.ok (), after)) :
    Wrote (GoesTo first options paths) before.tree after.tree ∧
      ∀ path ∈ rest, ∃ container, Extract.containerAt? first path = some container ∧
        ∀ part, Offers first options.indices path container part →
          Delivered (GoesTo first options paths) container (directoryFor options.destination path) after.tree
            part := by
  induction rest generalizing before with
  | nil =>
      cases hextract
      exact ⟨.refl _, fun _ hpath => nomatch hpath⟩
  | cons path rest ih =>
      obtain ⟨_, mid, hhere, hlater⟩ := runOn_bind_ok.mp hextract
      obtain ⟨hmid, container, hopened, hdelivered⟩ := h.extract (hrest path List.mem_cons_self) hwrote hhere
      obtain ⟨hmore, hothers⟩ := ih (fun other hother => hrest other (List.mem_cons_of_mem _ hother))
        (hwrote.trans hmid) hlater
      refine ⟨hmid.trans hmore, List.forall_mem_cons.mpr ⟨?_, hothers⟩⟩
      exact ⟨container, hopened, fun part hoffers => (hdelivered part hoffers).wrote hmore⟩

end Runs

end Extract

end Tool

end Playprint
