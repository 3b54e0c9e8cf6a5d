import Playprint.Proofs.Loader.History
import Playprint.Proofs.Loader.Setting
import Playprint.Proofs.Replay.Assembled

/-!
Scenes as sequences of groups. The words of a scene chunk name groups; loading the scene comes to what loading
these groups one after another comes to, although the scene is around them then and the stream stands elsewhere.
The words are read one at a time, so a scene whose words end too early loads the groups it names before it fails.
-/

namespace Playprint

open Container (Apart)
open Step (Matched Over Paired Respects Same)

namespace Cursor

variable (order : ByteOrder) (offset : Nat)

theorem outcome_readWord_head (word : UInt32) (words : List UInt32) (tail : Bytes) :
    readWord.outcome ⟨order, offset, Chunk.encodeWords order (word :: words) ++ tail⟩ =
      (.ok word, ⟨order, offset + 4, Chunk.encodeWords order words ++ tail⟩) := by
  have h := outcome_readWord order offset word (Chunk.encodeWords order words ++ tail)
  rwa [← List.append_assoc] at h

theorem outcome_readWord_short {tail : Bytes} (h : tail.length < 4) :
    readWord.outcome ⟨order, offset, tail⟩ =
      (.error (.truncated offset (4 - tail.length)), ⟨order, offset, tail⟩) := by
  have hread : (readBytes 4).outcome ⟨order, offset, tail⟩ =
      (.error (.truncated offset (4 - tail.length)), ⟨order, offset, tail⟩) := by
    simp only [readBytes, remaining, Step.outcome_of]
    exact if_pos h
  rw [readWord, Step.outcome_bind_ok (Step.outcome_get _), Step.outcome_bind_error hread]

end Cursor

namespace Loader

variable {title : Title Stock.catalog} {loader : Loader Stock.catalog} {missing : FormatError}

/-! ### Groups one after another -/

/-- Loads groups one after another. -/
def loadEach (title : Title Stock.catalog) : List UInt32 → LoadStep Stock.catalog (List (Group Stock.catalog))
  | [] => pure []
  | word :: words => do
    let group ← loadGroup title word.toNat
    return group :: (← loadEach title words)

/-- Loads as many of the groups that words name; fails in the end when there are fewer words. -/
def loadNamed (title : Title Stock.catalog) (missing : FormatError) (words : List UInt32) (count : Nat) :
    LoadStep Stock.catalog (List (Group Stock.catalog)) := do
  let groups ← loadEach title (words.take count)
  if words.length < count then refuse missing else return groups

theorem loadNamed_cons (word : UInt32) (words : List UInt32) (count : Nat) :
    loadNamed title missing (word :: words) (count + 1) = (do
      let group ← loadGroup title word.toNat
      return group :: (← loadNamed title missing words count)) := by
  simp only [loadNamed, List.take_succ_cons, loadEach, bind_assoc, pure_bind, List.length_cons,
    Nat.succ_lt_succ_iff]
  refine bind_congr fun group => bind_congr fun groups => ?_
  split
  · rfl
  · rfl

theorem loadNamed_eq_ok_iff {words : List UInt32} {count : Nat} {groups : List (Group Stock.catalog)}
    {left : Loader Stock.catalog} :
    (loadNamed title missing words count).outcome loader = (.ok groups, left) ↔
      count ≤ words.length ∧ (loadEach title (words.take count)).outcome loader = (.ok groups, left) := by
  rw [loadNamed, Step.outcome_bind_eq_ok_iff]
  constructor
  · rintro ⟨_, mid, heach, hend⟩
    split at hend
    · cases hend
    · rename_i henough
      cases hend
      exact ⟨Nat.le_of_not_lt henough, heach⟩
  · rintro ⟨henough, heach⟩
    exact ⟨groups, left, heach, by rw [if_neg (Nat.not_lt_of_le henough), Step.outcome_pure]⟩

theorem loadNamed_eq_error_iff {words : List UInt32} {count : Nat} {error : LoadError}
    {left : Loader Stock.catalog} :
    (loadNamed title missing words count).outcome loader = (.error error, left) ↔
      (loadEach title (words.take count)).outcome loader = (.error error, left) ∨
      words.length < count ∧ error = .format missing ∧
        ∃ groups, (loadEach title words).outcome loader = (.ok groups, left) := by
  rw [loadNamed, Step.outcome_bind_eq_error_iff]
  refine or_congr_right ?_
  constructor
  · rintro ⟨groups, mid, heach, hend⟩
    split at hend
    · rename_i hshort
      cases hend
      rw [List.take_of_length_le (Nat.le_of_lt hshort)] at heach
      exact ⟨hshort, rfl, groups, heach⟩
    · cases hend
  · rintro ⟨hshort, rfl, groups, heach⟩
    rw [← List.take_of_length_le (Nat.le_of_lt hshort)] at heach
    exact ⟨groups, left, heach, by rw [if_pos hshort]; rfl⟩

/-- The first load that fails ends the sequence. -/
theorem outcome_loadEach_first_failure {before after : List UInt32} {word : UInt32}
    {groups : List (Group Stock.catalog)} {mid left : Loader Stock.catalog} {error : LoadError}
    (hbefore : (loadEach title before).outcome loader = (.ok groups, mid))
    (hfails : (loadGroup title word.toNat).outcome mid = (.error error, left)) :
    (loadEach title (before ++ word :: after)).outcome loader = (.error error, left) := by
  induction before generalizing loader groups with
  | nil =>
      cases hbefore
      rw [List.nil_append, loadEach, Step.outcome_bind_error hfails]
  | cons first rest ih =>
      obtain ⟨group, next, hfirst, hmore⟩ := Step.outcome_bind_eq_ok_iff.mp hbefore
      obtain ⟨groups, _, hrest, ⟨⟩⟩ := Step.outcome_bind_eq_ok_iff.mp hmore
      rw [List.cons_append, loadEach, Step.outcome_bind_ok hfirst, Step.outcome_bind_error (ih hrest)]

/-- A sequence that failed has a load that failed first. -/
theorem exists_first_failure {words : List UInt32} {left : Loader Stock.catalog} {error : LoadError}
    (h : (loadEach title words).outcome loader = (.error error, left)) :
    ∃ before word after groups mid, words = before ++ word :: after ∧
      (loadEach title before).outcome loader = (.ok groups, mid) ∧
      (loadGroup title word.toNat).outcome mid = (.error error, left) := by
  induction words generalizing loader with
  | nil => cases h
  | cons first rest ih =>
      rcases Step.outcome_bind_eq_error_iff.mp h with hfails | ⟨group, next, hfirst, hmore⟩
      · exact ⟨[], first, rest, [], loader, rfl, rfl, hfails⟩
      · rcases Step.outcome_bind_eq_error_iff.mp hmore with hrest | ⟨_, _, _, ⟨⟩⟩
        obtain ⟨before, word, after, groups, mid, rfl, hbefore, hfails⟩ := ih hrest
        refine ⟨first :: before, word, after, group :: groups, mid, rfl, ?_, hfails⟩
        rw [loadEach, Step.outcome_bind_ok hfirst, Step.outcome_bind_ok hbefore]
        rfl

section

variable {C : Container → Container → Prop} {around around' : Surroundings SetHandle String}

/-- Stock scenes refuse no group, and change nothing when one joins. -/
theorem join_eq_pure (scene : Scene Stock.catalog) (group : Group Stock.catalog) :
    (onWorld (World.noted (Stock.catalog.scenes.join scene.className group.className scene.state)) :
      LoadStep Stock.catalog Stock.catalog.Scene) = pure scene.state := rfl

/-- A scene reads its words one by one between the loads, and comes to the same groups. -/
theorem paired_addGroups (title : Title Stock.catalog) (hC : Container.ReadAlike C) (order : ByteOrder)
    {tail : Bytes} (htail : tail.length < 4) (count : Nat) (words : List UInt32) (offset : Nat)
    (scene : Scene Stock.catalog) :
    Paired (Across C around around')
      (fun groups built s t => built = { scene with groups := scene.groups ++ groups } ∧
        Across C around around' s t)
      (Across C around around')
      (loadNamed title (.truncated (offset + 4 * words.length) (4 - tail.length)) words count)
      (addGroups title scene ⟨order, offset, Chunk.encodeWords order words ++ tail⟩ count) := by
  induction count generalizing words offset scene with
  | zero =>
      intro s t hst
      refine .ok ⟨?_, hst⟩
      rw [List.append_nil]
  | succ count ih =>
      cases words with
      | nil =>
          have hread : (read Cursor.readWord ⟨order, offset, tail⟩ : LoadStep Stock.catalog _) =
              refuse (.truncated offset (4 - tail.length)) := by
            rw [read, Cursor.outcome_readWord_short order offset htail]
            rfl
          intro s t hst
          rw [show Chunk.encodeWords order [] ++ tail = tail from rfl, addGroups, hread]
          exact .error hst
      | cons word words =>
          rw [loadNamed_cons, addGroups, read_eq_pure (Cursor.outcome_readWord_head order offset word words tail),
            pure_bind]
          refine (overlooks_loadGroup hC word.toNat).bind_same fun group => ?_
          rw [join_eq_pure, pure_bind]
          have hmore := ih words (offset + 4) { scene with groups := scene.groups ++ [group] }
          have hoffset : offset + 4 + 4 * words.length = offset + 4 * (word :: words).length := by
            rw [List.length_cons]
            omega
          rw [hoffset] at hmore
          rw [← bind_pure (addGroups title _ _ count)]
          refine hmore.bind fun groups built => ?_
          rintro s t ⟨rfl, hst⟩
          refine .ok ⟨?_, hst⟩
          rw [List.append_assoc, List.singleton_append]

/-- A new scene comes to hold just these groups. -/
theorem paired_fillScene (title : Title Stock.catalog) (hC : Container.ReadAlike C) (order : ByteOrder)
    {tail : Bytes} (htail : tail.length < 4) (count : Nat) (words : List UInt32) (offset : Nat) (name : String) :
    Paired (Across C around around')
      (fun groups scene s t => scene = ⟨name, groups, ⟨true⟩⟩ ∧ Across C around around' s t)
      (Across C around around')
      (loadNamed title (.truncated (offset + 4 * words.length) (4 - tail.length)) words count)
      (do
        let scene ← addGroups title ⟨name, [], ⟨false⟩⟩ ⟨order, offset, Chunk.encodeWords order words ++ tail⟩ count
        return { scene with state := ⟨true⟩ }) := by
  rw [← bind_pure (loadNamed title _ words count)]
  refine (paired_addGroups title hC order htail count words offset _).bind fun groups scene => ?_
  rintro s t ⟨rfl, hst⟩
  exact .ok ⟨rfl, hst⟩

end

/-! ### Scenes -/

/-- The scene chunk of a table entry as a loader reads it: a class, how many groups there are, words that name
groups, and behind them less than one more word. -/
structure SceneChunk (loader : Loader Stock.catalog) (tocIndex : Nat) (typeIndex count : UInt32)
    (words : List UInt32) (tail : Bytes) : Prop where
  read : ((Container.readChunkAt tocIndex Tag.scn).outcome loader.host.container).1 =
    .ok (Chunk.encodeWords loader.host.container.order (typeIndex :: count :: words) ++ tail)
  tail : tail.length < 4

variable {tocIndex : Nat} {typeIndex count : UInt32} {words : List UInt32} {tail : Bytes} {name : String}
  {build : String → StateM Unit Stock.Scene}

/-- Every scene chunk that can be read and has a class and a number is of this kind. -/
theorem exists_sceneChunk {payload : Bytes}
    (hread : ((Container.readChunkAt tocIndex Tag.scn).outcome loader.host.container).1 = .ok payload)
    (hlength : 8 ≤ payload.length) :
    ∃ typeIndex count words tail, SceneChunk loader tocIndex typeIndex count words tail := by
  obtain ⟨words, tail, htail, rfl⟩ := Chunk.exists_encodeWords loader.host.container.order payload
  rw [List.length_append, Chunk.length_encodeWords] at hlength
  match words, hlength with
  | typeIndex :: count :: words, _ => exact ⟨typeIndex, count, words, tail, hread, htail⟩
  | [_], hlength => simp only [List.length_singleton] at hlength; omega
  | [], hlength => simp only [List.length_nil] at hlength; omega

theorem SceneChunk.outcome_chunkCode (h : SceneChunk loader tocIndex typeIndex count words tail) :
    ∃ pos, (chunkCode tocIndex Tag.scn).outcome loader =
      (.ok (.ofBytes loader.host.container.order
        (Chunk.encodeWords loader.host.container.order (typeIndex :: count :: words) ++ tail)),
        loader.moved pos) := by
  obtain ⟨pos, hpos⟩ := Container.shifts_readChunkAt tocIndex Tag.scn loader.host.container
  refine ⟨pos, Loader.outcome_chunkCode ?_⟩
  rw [onContainer, Step.outcome_on, Step.outcome_mapError, hpos, h.read]
  rfl

theorem newScene_eq_pure {index : Nat}
    (h : Title.resolve .scene title.manifest.sceneClasses Stock.catalog.scenes.build? index = .ok (name, build)) :
    (onWorld (title.newScene index) : LoadStep Stock.catalog _) = pure ⟨name, [], ⟨false⟩⟩ := by
  obtain ⟨_, _, hbuild⟩ := Title.resolve_ok h
  obtain rfl := Stock.eq_of_onlyKey hbuild
  rw [Title.newScene, h]
  rfl

/-- A scene is loaded by adding its groups to a new one while it is around them. -/
theorem SceneChunk.outcome_loadScene (h : SceneChunk loader tocIndex typeIndex count words tail)
    (hname : Title.resolve .scene title.manifest.sceneClasses Stock.catalog.scenes.build? typeIndex.toNat =
      .ok (name, build)) :
    ∃ pos, (loadScene title tocIndex).outcome loader =
      (within (·.enterScene (some name)) (do
        let scene ← addGroups title ⟨name, [], ⟨false⟩⟩
          ⟨loader.host.container.order, 8, Chunk.encodeWords loader.host.container.order words ++ tail⟩
          count.toNat
        return { scene with state := ⟨true⟩ })).outcome (loader.moved pos) := by
  obtain ⟨pos, hcode⟩ := h.outcome_chunkCode
  refine ⟨pos, ?_⟩
  rw [loadScene, Step.outcome_bind_ok hcode, Cursor.ofBytes,
    read_eq_pure (Cursor.outcome_readWord_head _ 0 typeIndex (count :: words) tail), pure_bind]
  dsimp only
  rw [newScene_eq_pure hname, pure_bind,
    read_eq_pure (Cursor.outcome_readWord_head _ (0 + 4) count words tail), pure_bind]
  rfl

/-- From one state, the scene and the loads of its groups come to the same end up to the position of the
stream. -/
theorem SceneChunk.matched_loadScene (h : SceneChunk loader tocIndex typeIndex count words tail)
    (hname : Title.resolve .scene title.manifest.sceneClasses Stock.catalog.scenes.build? typeIndex.toNat =
      .ok (name, build)) :
    Matched (fun groups scene left left' => scene = ⟨name, groups, ⟨true⟩⟩ ∧ ∃ pos, left' = left.moved pos)
      (fun left left' => ∃ pos, left' = left.moved pos)
      ((loadNamed title (.truncated (8 + 4 * words.length) (4 - tail.length)) words count.toNat).outcome loader)
      ((loadScene title tocIndex).outcome loader) := by
  obtain ⟨pos, hscene⟩ := h.outcome_loadScene hname
  rw [hscene, outcome_within_scene]
  -- The groups are loaded with the scene around them, and with the stream behind the chunk of the scene.
  have hstart : Across (Apart loader.host.container loader.host.container) loader.host.around
      { loader.host.around with scene := some name } loader ((loader.moved pos).inScene (some name)) :=
    ⟨loader, ⟨loader.host.container, _⟩, ⟨loader.host.container.moved pos, _⟩,
      ⟨⟨loader.host.container.stream.pos, pos, rfl, rfl⟩, rfl, rfl⟩, rfl, rfl⟩
  have hfill := paired_fillScene title (Container.readAlike_apart loader.host.container)
    loader.host.container.order h.tail count.toNat words 8 name loader _ hstart
  have hleave (s t : Loader Stock.catalog)
      (hst : Across (Apart loader.host.container loader.host.container) loader.host.around
        { loader.host.around with scene := some name } s t) :
      ∃ pos, t.inScene loader.host.around.scene = s.moved pos := by
    obtain ⟨base, one, other, ⟨⟨_, pos', hone, hother⟩, haround, haround'⟩, rfl, rfl⟩ := hst
    refine ⟨pos', ?_⟩
    simp only [inScene, moved, withContainer, inSetting, Desk.inSetting, hone, hother, haround, haround',
      Container.moved_moved]
  exact hfill.leaving (f := id) (fun _ _ s t hst => ⟨hst.1, hleave s t hst.2⟩) hleave

/-- The load of a scene goes through the groups that its words name, as many as the scene counts. It succeeds
when there are words for all of them and they load one after another, and then holds what was loaded. Else it
ends with the first group that fails, or where the words do. What it leaves is what these loads leave, with the
stream at some other position. -/
structure InTurn (title : Title Stock.catalog) (tocIndex : Nat) (name : String) (count : Nat)
    (words : List UInt32) (missing : FormatError) (loader : Loader Stock.catalog) : Prop where
  succeeds_iff : (∃ scene left, (loadScene title tocIndex).outcome loader = (.ok scene, left)) ↔
    count ≤ words.length ∧ ∃ groups left, (loadEach title (words.take count)).outcome loader = (.ok groups, left)
  whole : ∀ groups left, count ≤ words.length →
    (loadEach title (words.take count)).outcome loader = (.ok groups, left) →
      ∃ pos, (loadScene title tocIndex).outcome loader = (.ok ⟨name, groups, ⟨true⟩⟩, left.moved pos)
  short : ∀ groups left, words.length < count → (loadEach title words).outcome loader = (.ok groups, left) →
    ∃ pos, (loadScene title tocIndex).outcome loader = (.error (.format missing), left.moved pos)
  failed : ∀ before word after groups mid error left, words.take count = before ++ word :: after →
    (loadEach title before).outcome loader = (.ok groups, mid) →
    (loadGroup title word.toNat).outcome mid = (.error error, left) →
      ∃ pos, (loadScene title tocIndex).outcome loader = (.error error, left.moved pos)
  otherwise : ∀ error left, (loadScene title tocIndex).outcome loader = (.error error, left) →
    (words.length < count ∧ error = .format missing ∧
      ∃ groups mid, (loadEach title words).outcome loader = (.ok groups, mid)) ∨
    ∃ before word after groups mid last, words.take count = before ++ word :: after ∧
      (loadEach title before).outcome loader = (.ok groups, mid) ∧
      (loadGroup title word.toNat).outcome mid = (.error error, last)

/-- Wherever a loader stands and whatever it was asked for before, it loads a scene like the groups of the scene,
one after another. -/
theorem loadScene_in_turn (h : SceneChunk loader tocIndex typeIndex count words tail)
    (hname : Title.resolve .scene title.manifest.sceneClasses Stock.catalog.scenes.build? typeIndex.toNat =
      .ok (name, build)) :
    InTurn title tocIndex name count.toNat words (.truncated (8 + 4 * words.length) (4 - tail.length)) loader := by
  have hscene := h.matched_loadScene hname
  constructor
  case succeeds_iff =>
    constructor
    · rintro ⟨scene, left, hok⟩
      rcases hscene.ends with ⟨groups, _, last, _, hnamed, _⟩ | ⟨error, _, _, _, herror, _⟩
      · obtain ⟨henough, heach⟩ := loadNamed_eq_ok_iff.mp hnamed
        exact ⟨henough, groups, last, heach⟩
      · cases hok.symm.trans herror
    · rintro ⟨henough, groups, left, heach⟩
      obtain ⟨scene, last, hok, _⟩ := hscene.of_ok (loadNamed_eq_ok_iff.mpr ⟨henough, heach⟩)
      exact ⟨scene, last, hok⟩
  case whole =>
    intro groups left henough heach
    obtain ⟨_, _, hok, rfl, pos, rfl⟩ := hscene.of_ok (loadNamed_eq_ok_iff.mpr ⟨henough, heach⟩)
    exact ⟨pos, hok⟩
  case short =>
    intro groups left hshort heach
    obtain ⟨_, herror, pos, rfl⟩ :=
      hscene.of_error (loadNamed_eq_error_iff.mpr (.inr ⟨hshort, rfl, groups, heach⟩))
    exact ⟨pos, herror⟩
  case failed =>
    intro before word after groups mid error left hwords hbefore hfails
    have heach : (loadEach title (before ++ word :: after)).outcome loader = (.error error, left) :=
      outcome_loadEach_first_failure hbefore hfails
    rw [← hwords] at heach
    obtain ⟨_, herror, pos, rfl⟩ := hscene.of_error (loadNamed_eq_error_iff.mpr (.inl heach))
    exact ⟨pos, herror⟩
  case otherwise =>
    intro error left herror
    rcases hscene.ends with ⟨_, _, _, _, _, hok, _⟩ | ⟨_, last, _, hnamed, herror', _⟩
    · cases herror.symm.trans hok
    · cases herror.symm.trans herror'
      rcases loadNamed_eq_error_iff.mp hnamed with heach | ⟨hshort, rfl, groups, heach⟩
      · obtain ⟨before, word, after, groups, mid, hwords, hbefore, hfails⟩ := exists_first_failure heach
        exact .inr ⟨before, word, after, groups, mid, last, hwords, hbefore, hfails⟩
      · exact .inl ⟨hshort, rfl, groups, last, heach⟩

/-- The title of the pair, with a class of scenes. -/
def cutTitle : Title Stock.catalog where
  manifest := { pairTitle.manifest with sceneClasses := [⟨"StockScene", none⟩] }

/-- The pair, with the chunk of a scene that counts two groups and names one. -/
def cutMaster : Master := (pairMaster.add (.raw Tag.scn (Chunk.encodeWords .big [0, 2, 1] ++ [0, 0]))).2

/-- Its container, as it is opened. -/
def cutContainer : Container := cutMaster.loaded

/-- The pair of the scene is loaded before its words end in the middle of one. -/
theorem cut_in_turn :
    Container.load cutMaster.encode = .ok cutContainer ∧
    ∃ groups left pos, (loadEach cutTitle [1]).outcome (start cutTitle cutContainer ()) = (.ok groups, left) ∧
      left.host.objects.nextId = 2 ∧
      (loadScene cutTitle 2).outcome (start cutTitle cutContainer ()) =
        (.error (.format (.truncated 12 2)), left.moved pos) := by
  have hload : Container.load cutMaster.encode = .ok cutContainer :=
    Master.load_eq_loaded (by simp [cutMaster, Master.add]) (by decide +kernel)
  have hpayload : ((Container.readChunkAt 2 Tag.scn).outcome cutContainer).1.toOption =
      some (Chunk.encodeWords .big [0, 2, 1] ++ [0, 0]) := by
    decide +kernel
  have hchunk : SceneChunk (start cutTitle cutContainer ()) 2 0 2 [1] [0, 0] := by
    refine ⟨?_, by decide⟩
    show ((Container.readChunkAt 2 Tag.scn).outcome cutContainer).1 = _
    rcases hread : ((Container.readChunkAt 2 Tag.scn).outcome cutContainer).1 with error | payload
    all_goals rw [hread] at hpayload
    · cases hpayload
    · exact congrArg Except.ok (Option.some.inj hpayload)
  have hname : Title.resolve .scene cutTitle.manifest.sceneClasses Stock.catalog.scenes.build?
      (0 : UInt32).toNat = .ok ("StockScene", fun _ => pure ⟨false⟩) := rfl
  have hlogged : ((loadEach cutTitle [1]).outcome (start cutTitle cutContainer ())).1.isOk = true ∧
      ((loadEach cutTitle [1]).outcome (start cutTitle cutContainer ())).2.host.objects.nextId = 2 := by
    decide +kernel
  rcases heach : (loadEach cutTitle [1]).outcome (start cutTitle cutContainer ()) with ⟨error | groups, left⟩
  all_goals rw [heach] at hlogged
  · cases hlogged.1
  · obtain ⟨pos, hscene⟩ := (loadScene_in_turn hchunk hname).short groups left (by decide) heach
    exact ⟨hload, groups, left, pos, rfl, hlogged.2, hscene⟩

end Loader

end Playprint
