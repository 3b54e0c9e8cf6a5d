import Playprint.Proofs.Container.Confinement
import Playprint.Tool.Extract

/-!
The parts of a container: the chunks that entries of the table of contents point at. Which parts there are, and
the payload of each, depends on the data and the table and not on where the container was opened.
-/

namespace Playprint

namespace Chunk

variable {order : ByteOrder} {data : Bytes} {limit pos : Nat}

/-- Every sibling is where its header says it starts. -/
theorem at?_of_mem_siblings {chunks : List Chunk} (h : siblings order data limit pos = some chunks) :
    ∀ chunk ∈ chunks, at? order data chunk.start = some chunk := by
  fun_induction siblings order data limit pos generalizing chunks with
  | case1 => cases h
  | case2 pos hfits found hat ih =>
      obtain ⟨rest, hrest, rfl⟩ := Option.map_eq_some_iff.mp h
      exact List.forall_mem_cons.mpr ⟨by rw [start_of_at? hat, hat], ih hrest⟩
  | case3 =>
      cases h
      exact List.forall_mem_nil _

end Chunk

namespace Tool.Extract

variable {container : Container} {chunks : List Chunk} {indices : List Nat} {part : Part} {payload : Bytes}

/-- A part is one of the chunks, at the place to which its table entry points. -/
theorem mem_parts (h : part ∈ parts container chunks indices) :
    Part.at? container chunks part.index = some part ∧ part.chunk ∈ chunks ∧
      container.entryOffset part.index = .ok part.chunk.start := by
  obtain ⟨index, _, hat⟩ := List.mem_filterMap.mp h
  have hindex := hat
  rw [Part.at?, Container.tocOffset_eq] at hat
  dsimp only at hat
  split at hat
  · rename_i offset hoffset
    obtain ⟨chunk, hfind, rfl⟩ := Option.map_eq_some_iff.mp hat
    have hstart := List.find?_some hfind
    rw [decide_eq_true_eq] at hstart
    exact ⟨hindex, List.mem_of_find?_eq_some hfind, by rw [hoffset, hstart]⟩
  · cases hat

/-- Wherever a container was opened, it has the same chunks. -/
theorem topLevelChunks_path (path : Option String) :
    (Container.topLevelChunks.outcome { container with path }).1 = .ok chunks ↔
      (Container.topLevelChunks.outcome container).1 = .ok chunks := by
  rw [Container.topLevelChunks_ok_iff, Container.topLevelChunks_ok_iff]

/-- Wherever a container was opened, its table entries point at the same chunks. -/
theorem Part.at?_path (path : Option String) (index : Nat) :
    Part.at? { container with path } chunks index = Part.at? container chunks index := by
  rw [Part.at?, Part.at?, Container.tocOffset_eq, Container.tocOffset_eq]
  rfl

/-- The payload of a part is the payload of its chunk. -/
theorem Part.payload_ok (hchunks : (Container.topLevelChunks.outcome container).1 = .ok chunks)
    (hpart : part ∈ parts container chunks indices) (h : part.payload container = .ok payload) :
    part.chunk.stop ≤ container.stream.data.length ∧ payload = part.chunk.payloadIn container.stream.data := by
  obtain ⟨_, hmem, hentry⟩ := mem_parts hpart
  obtain ⟨form, _, hsiblings⟩ := Container.topLevelChunks_ok_iff.mp hchunks
  have hat := Chunk.at?_of_mem_siblings hsiblings part.chunk hmem
  obtain ⟨_, _, hstart, hfound, _, hpayload⟩ := Container.readChunkAt_ok h
  cases hentry.symm.trans hstart
  cases hat.symm.trans hfound
  exact hpayload

end Tool.Extract

end Playprint
