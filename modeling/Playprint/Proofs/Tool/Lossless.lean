import Playprint.Proofs.Tool.Extraction
import Playprint.Proofs.Tool.FileNames

/-!
When taking containers apart loses nothing. The files for one container never get into each other's way. Those for
different containers do when the containers have the same stem, for they go to the same directory then, where only
the table entry and the tag tell them apart. A stem of two dots leads out of the destination.
-/

namespace Playprint.Tool.Extract

open Terminal (fileSystem)
open FileTree (Wrote)

variable {options : Options} {paths : List String} {tree : FileTree} {indices : List Nat}
  {before after : Terminal} {destination path other : String} {container container' : Container}
  {part part' : Part}

/-! ### Places of files -/

theorem ofPath_target (destination path : String) (part : Part) :
    Place.ofPath (target destination path part) =
      ((Place.ofPath destination).step (stemOf path)).step part.fileName := by
  rw [target, Place.ofPath_join part.isPart_fileName, ofPath_directoryFor]

/-- One file is for two parts if they go to one directory and have one name there. -/
theorem target_eq_iff :
    Place.ofPath (target destination path part) = .ofPath (target destination other part') ↔
      (Place.ofPath destination).step (stemOf path) = (Place.ofPath destination).step (stemOf other) ∧
        part.fileName = part'.fileName := by
  rw [ofPath_target, ofPath_target, Place.step_of_name _ part.fileName_ne.1 part.fileName_ne.2,
    Place.step_of_name _ part'.fileName_ne.1 part'.fileName_ne.2, List.append_singleton_inj]

theorem beneath_target_iff (part : Part) :
    Place.Beneath (.ofPath destination) (.ofPath (target destination path part)) ↔
      (stemOf path = ".." → Place.ofPath destination = .root) := by
  rw [ofPath_target]
  exact Place.beneath_step_iff _ _ part.fileName_ne.1 part.fileName_ne.2

/-- Two paths to one file offer the same parts. -/
theorem Offers.same (h : Offers tree indices path container part) (h' : Offers tree indices other container' part')
    (hplace : Place.ofPath path = .ofPath other) (hindex : part.index = part'.index) :
    part = part' ∧ container.stream.data = container'.stream.data := by
  obtain ⟨data, loaded, hdata, hload, rfl⟩ := containerAt?_eq_some_iff.mp h.opened
  obtain ⟨data', loaded', hdata', hload', rfl⟩ := containerAt?_eq_some_iff.mp h'.opened
  rw [hplace] at hdata
  cases hdata.symm.trans hdata'
  cases hload.symm.trans hload'
  obtain ⟨chunks, hchunks, hpart⟩ := h.listed
  obtain ⟨chunks', hchunks', hpart'⟩ := h'.listed
  rw [topLevelChunks_path] at hchunks hchunks'
  cases hchunks.symm.trans hchunks'
  have hat := (mem_parts hpart).1
  have hat' := (mem_parts hpart').1
  rw [Part.at?_path] at hat hat'
  rw [hindex, hat'] at hat
  exact ⟨(Option.some.inj hat).symm, rfl⟩

/-- The names and the payloads of the parts of the container in a file. -/
def listing (tree : FileTree) (indices : List Nat) (path : String) : List (String × Bytes) :=
  match containerAt? tree path with
  | none => []
  | some container =>
    match (Container.topLevelChunks.outcome container).1 with
    | .error _ => []
    | .ok chunks =>
      (parts container chunks indices).map fun part => (part.fileName, part.chunk.payloadIn container.stream.data)

theorem mem_listing_iff {name : String} {payload : Bytes} :
    (name, payload) ∈ listing tree indices path ↔ ∃ container part, Offers tree indices path container part ∧
      part.fileName = name ∧ part.chunk.payloadIn container.stream.data = payload := by
  constructor
  · intro h
    rw [listing] at h
    split at h
    · cases h
    rename_i container hopened
    split at h
    · cases h
    rename_i chunks hchunks
    obtain ⟨part, hpart, hentry⟩ := List.mem_map.mp h
    obtain ⟨hname, hpayload⟩ := Prod.mk.inj hentry
    exact ⟨container, part, ⟨hopened, chunks, hchunks, hpart⟩, hname, hpayload⟩
  · rintro ⟨container, part, ⟨hopened, chunks, hchunks, hpart⟩, rfl, rfl⟩
    simp only [listing, hopened, hchunks]
    exact List.mem_map.mpr ⟨part, hpart, rfl⟩

/-! ### Losses -/

/-- Every part of a container has a file of its own in the destination, and that holds the payload of the part. -/
structure Lossless (options : Options) (paths : List String) (before after : FileTree) : Prop where
  delivered : ∀ path ∈ paths, ∀ container part, Offers before options.indices path container part →
    part.chunk.stop ≤ container.stream.data.length ∧
      after.read (target options.destination path part) = .ok (part.chunk.payloadIn container.stream.data)
  own : ∀ path ∈ paths, ∀ other ∈ paths, ∀ container container' part part',
    Offers before options.indices path container part → Offers before options.indices other container' part' →
    Place.ofPath (target options.destination path part) = .ofPath (target options.destination other part') →
    Place.ofPath path = .ofPath other ∧ part.index = part'.index
  beneath : ∀ path ∈ paths, ∀ container part, Offers before options.indices path container part →
    Place.Beneath (.ofPath options.destination) (.ofPath (target options.destination path part))

/-- The files for the parts of containers are clear of each other, of the containers, and of what is outside of the
destination. -/
structure Clear (options : Options) (paths : List String) (tree : FileTree) : Prop where
  apart : ∀ path ∈ paths, ∀ other ∈ paths, ∀ container container' part part',
    Offers tree options.indices path container part → Offers tree options.indices other container' part' →
    Place.ofPath path ≠ .ofPath other → part.fileName = part'.fileName →
    (Place.ofPath options.destination).step (stemOf path) ≠ (Place.ofPath options.destination).step (stemOf other)
  inside : ∀ path ∈ paths, ∀ container part, Offers tree options.indices path container part →
    stemOf path = ".." → Place.ofPath options.destination = .root
  harmless : Harmless tree options paths

/-- Only parts at the same table entry of the same file share a file. -/
theorem Clear.own (h : Clear options paths tree) (hpath : path ∈ paths) (hother : other ∈ paths)
    (hoffers : Offers tree options.indices path container part)
    (hoffers' : Offers tree options.indices other container' part')
    (htarget : Place.ofPath (target options.destination path part) =
      .ofPath (target options.destination other part')) :
    Place.ofPath path = .ofPath other ∧ part.index = part'.index := by
  obtain ⟨hdirectory, hname⟩ := target_eq_iff.mp htarget
  refine ⟨?_, (Part.fileName_eq_iff.mp hname).1⟩
  by_contra hplace
  exact h.apart path hpath other hother _ _ _ _ hoffers hoffers' hplace hname hdirectory

/-- Only its own payload goes to the file for a part. -/
theorem Clear.payload (h : Clear options paths tree) (hpath : path ∈ paths)
    (hoffers : Offers tree options.indices path container part) {data : Bytes}
    (hgoes : GoesTo tree options paths (.ofPath (target options.destination path part)) data) :
    data = part.chunk.payloadIn container.stream.data := by
  obtain ⟨other, hother, container', part', hoffers', rfl, htarget⟩ := hgoes
  obtain ⟨hplace, hindex⟩ := h.own hother hpath hoffers' hoffers htarget
  obtain ⟨rfl, hdata⟩ := hoffers'.same hoffers hplace hindex
  rw [hdata]

/-- Containers with different stems that are names, from outside of the destination, are clear. -/
theorem clear_of_stems
    (hstems : ∀ path ∈ paths, ∀ other ∈ paths, stemOf path = stemOf other → Place.ofPath path = .ofPath other)
    (hnames : ∀ path ∈ paths, stemOf path ≠ "." ∧ stemOf path ≠ "..")
    (houtside : ∀ path ∈ paths, ¬Place.Beneath (.ofPath options.destination) (.ofPath path)) :
    Clear options paths tree where
  apart path hpath other hother _ _ _ _ _ _ hplace _ hdirectory := by
    rw [Place.step_of_name _ (hnames path hpath).1 (hnames path hpath).2,
      Place.step_of_name _ (hnames other hother).1 (hnames other hother).2,
      List.append_singleton_inj] at hdirectory
    exact hplace (hstems path hpath other hother hdirectory.2)
  inside path hpath _ _ _ hup := absurd hup (hnames path hpath).2
  harmless path hpath data hgoes := by
    obtain ⟨other, hother, _, part, _, _, htarget⟩ := hgoes
    refine absurd ?_ (houtside path hpath)
    rw [← htarget, beneath_target_iff]
    exact fun hup => absurd hup (hnames other hother).2

/-! ### Runs -/

/-- The paths of the containers to take apart. -/
def sources (tree : FileTree) (options : Options) : List String :=
  ((inputs fileSystem options).run ⟨tree, ""⟩).1

theorem run_inputs (options : Options) (terminal : Terminal) :
    (inputs fileSystem options).run terminal = (sources terminal.tree options, terminal) := by
  rw [sources, inputs]
  split <;> rfl

theorem run_ok {goes : Place → Bytes → Prop} (h : runOn (run fileSystem options) before = (.ok (), after)) :
    ∃ made, Wrote goes before.tree made.tree ∧
      runOn (extractAll fileSystem options (sources before.tree options)) made = (.ok (), after) := by
  obtain ⟨paths, here, hinputs, hrest⟩ := runOn_bind_ok.mp h
  replace hinputs := runOn_lift_ok hinputs
  rw [run_inputs] at hinputs
  cases hinputs
  split at hrest
  · cases hrest
  · obtain ⟨_, made, hmake, hall⟩ := runOn_bind_ok.mp hrest
    have hmade : Wrote goes before.tree _ := Terminal.writes_makeDirectories options.destination before
    rw [runOn_attempt_ok hmake] at hmade
    exact ⟨made, hmade, hall⟩

/-- After a run that succeeded, nothing is lost and every container is what it was exactly if the files for the
parts were clear. -/
theorem lossless_iff (hrun : runOn (run fileSystem options) before = (.ok (), after)) :
    (Lossless options (sources before.tree options) before.tree after.tree ∧
        ∀ path ∈ sources before.tree options,
          after.tree.file? (.ofPath path) = before.tree.file? (.ofPath path)) ↔
      Clear options (sources before.tree options) before.tree := by
  constructor
  · rintro ⟨hlossless, hkept⟩
    constructor
    · intro path hpath other hother _ _ _ _ hoffers hoffers' hplace hname hdirectory
      exact hplace (hlossless.own path hpath other hother _ _ _ _ hoffers hoffers'
        (target_eq_iff.mpr ⟨hdirectory, hname⟩)).1
    · exact fun path hpath _ part hoffers =>
        (beneath_target_iff part).mp (hlossless.beneath path hpath _ _ hoffers)
    · rintro path hpath _ ⟨other, hother, container, part, hoffers, rfl, htarget⟩
      -- The payload is in its file after the run, and that file is the container, which is what it was before.
      have hafter := (hlossless.delivered other hother container part hoffers).2
      rw [← hkept path hpath, ← htarget]
      exact FileTree.file?_of_read hafter
  · intro hclear
    obtain ⟨made, hmade, hall⟩ := run_ok hrun
    obtain ⟨hwrote, hextracted⟩ := hclear.harmless.extractAll (fun _ => id) hmade hall
    -- What is in the file for a part may have come later, but only that part has its payload go there.
    refine ⟨⟨?delivered, ?own, ?beneath⟩, ?kept⟩
    case delivered =>
      intro path hpath container part hoffers
      obtain ⟨_, hopened, hdelivered⟩ := hextracted path hpath
      cases hopened.symm.trans hoffers.opened
      obtain ⟨payload, data, hpayload, hread, hgoes⟩ := hdelivered part hoffers
      obtain ⟨_, hchunks, hpart⟩ := hoffers.listed
      refine ⟨(Part.payload_ok hchunks hpart hpayload).1, ?_⟩
      rw [← hclear.payload hpath hoffers hgoes]
      exact hread
    case own =>
      exact fun path hpath other hother _ _ _ _ hoffers hoffers' => hclear.own hpath hother hoffers hoffers'
    case beneath =>
      exact fun path hpath container part hoffers =>
        (beneath_target_iff part).mpr (hclear.inside path hpath container part hoffers)
    case kept =>
      intro path hpath
      obtain ⟨_, hopened, _⟩ := hextracted path hpath
      obtain ⟨data, _, hdata, _⟩ := containerAt?_eq_some_iff.mp hopened
      obtain ⟨data', hafter⟩ := (hmade.trans hwrote).file _ _ (FileTree.file?_eq_some_iff.mp hdata)
      replace hafter := FileTree.file?_eq_some_iff.mpr hafter
      rw [hafter, hclear.harmless.file? hpath (hmade.trans hwrote) hafter]

/-! ### Two containers -/

/-- A container with one group of one byte. -/
def single (byte : UInt8) : Bytes :=
  Tag.ppbe.bytes ++ [0, 0, 0, 46] ++ Tag.mlrt.bytes ++
    Tag.hdr.bytes ++ [0, 0, 0, 8, 0, 0, 0, 1, 0, 0, 0, 0] ++
    Tag.toc.bytes ++ [0, 0, 0, 12, 0, 0, 0, 1] ++ Tag.grp.bytes ++ [0, 0, 0, 48] ++
    Tag.grp.bytes ++ [0, 0, 0, 1, byte, 0]

/-- Two containers are to be taken apart. -/
def both (path other : String) : Options :=
  ⟨[path, other], none, "out", []⟩

/-- Two containers with different stems. -/
def strangers : Terminal :=
  ⟨.ofFiles [("a/t.dpp", single 1), ("b/u.dpp", single 2)], ""⟩

/-- Containers with different stems are taken apart without a loss. -/
theorem strangers_lossless :
    let options := both "a/t.dpp" "b/u.dpp"
    listing strangers.tree [] "a/t.dpp" = [("0000_grp.bin", [1])] ∧
    listing strangers.tree [] "b/u.dpp" = [("0000_grp.bin", [2])] ∧
    sources strangers.tree options = ["a/t.dpp", "b/u.dpp"] ∧
    ∃ after, runOn (run fileSystem options) strangers = (.ok (), after) ∧
      Lossless options (sources strangers.tree options) strangers.tree after.tree ∧
      ∀ path ∈ sources strangers.tree options,
        after.tree.file? (.ofPath path) = strangers.tree.file? (.ofPath path) := by
  intro options
  have hsources : sources strangers.tree options = ["a/t.dpp", "b/u.dpp"] := by decide +kernel
  have hclear : Clear options (sources strangers.tree options) strangers.tree := by
    rw [hsources]
    refine clear_of_stems (by decide +kernel) (by decide +kernel) ?_
    have houtside : ∀ path ∈ ["a/t.dpp", "b/u.dpp"], ¬Place.ofPath options.destination <+: Place.ofPath path := by
      decide +kernel
    rintro path hpath ⟨names, _, _, hplace⟩
    exact houtside path hpath ⟨names, hplace.symm⟩
  have hok : (runOn (run fileSystem options) strangers).1.isOk = true := by decide +kernel
  obtain ⟨⟨⟩, hanswer⟩ := Step.exists_eq_ok hok
  have hrun : runOn (run fileSystem options) strangers = (.ok (), _) := Prod.ext hanswer rfl
  exact ⟨by decide +kernel, by decide +kernel, hsources, _, hrun, (lossless_iff hrun).mpr hclear⟩

/-- Two containers with the same stem. -/
def namesakes : Terminal :=
  ⟨.ofFiles [("a/t.dpp", single 1), ("b/t.dpp", single 2)], ""⟩

/-- Of two containers with the same stem one is lost, although the run reports that both were taken apart. -/
theorem namesakes_lossy :
    let options := both "a/t.dpp" "b/t.dpp"
    listing namesakes.tree [] "a/t.dpp" = [("0000_grp.bin", [1])] ∧
    listing namesakes.tree [] "b/t.dpp" = [("0000_grp.bin", [2])] ∧
    sources namesakes.tree options = ["a/t.dpp", "b/t.dpp"] ∧
    ∃ after, runOn (run fileSystem options) namesakes = (.ok (), after) ∧
      after.printed = "Extracted 1 chunks from a/t.dpp into out/t\nExtracted 1 chunks from b/t.dpp into out/t\n" ∧
      after.tree.files = [("out/t/0000_grp.bin", [2]), ("b/t.dpp", single 2), ("a/t.dpp", single 1)] ∧
      ¬Lossless options (sources namesakes.tree options) namesakes.tree after.tree := by
  intro options
  have hsources : sources namesakes.tree options = ["a/t.dpp", "b/t.dpp"] := by decide +kernel
  have hok : (runOn (run fileSystem options) namesakes).1.isOk = true := by decide +kernel
  obtain ⟨⟨⟩, hanswer⟩ := Step.exists_eq_ok hok
  have hlist : listing namesakes.tree [] "a/t.dpp" = [("0000_grp.bin", [1])] := by decide +kernel
  refine ⟨hlist, by decide +kernel, hsources, _, Prod.ext hanswer rfl, by decide +kernel, by decide +kernel, ?_⟩
  intro h
  obtain ⟨container, part, hoffers, hname, hpayload⟩ := mem_listing_iff.mp (hlist ▸ List.mem_cons_self)
  have hdelivered := (h.delivered "a/t.dpp" (hsources ▸ List.mem_cons_self) container part hoffers).2
  have htarget : target "out" "a/t.dpp" part = "out/t/0000_grp.bin" := by
    rw [target, hname]
    decide +kernel
  rw [hpayload, show options.destination = "out" from rfl, htarget] at hdelivered
  exact absurd hdelivered (by decide +kernel)

end Playprint.Tool.Extract
