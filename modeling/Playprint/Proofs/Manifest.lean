import Mathlib.Data.List.Nodup
import Playprint.Manifest
import Playprint.Proofs.Json.Values

/-!
A manifest is read back from its text. Its tables are arrays of records; a field that is not set is left out or
null, and either is read as not set.
-/

namespace Playprint

namespace Json

theorem mapM_of_forall_mem {α β : Type} {f : α → Option β} {g : α → β} {items : List α}
    (h : ∀ item ∈ items, f item = some (g item)) : items.mapM f = some (items.map g) := by
  induction items with
  | nil => rfl
  | cons item items ih =>
      obtain ⟨hitem, hitems⟩ := List.forall_mem_cons.mp h
      rw [List.mapM_cons, hitem, ih hitems]
      rfl

/-- Items that are read one by one are read as a list. -/
theorem list?_map {α : Type} {read : Json → Option α} {write : α → Json}
    (h : ∀ item, read (write item) = some item) (items : List α) :
    list? read (.array (items.map write)) = some items := by
  have hread : items.mapM (read ∘ write) = some (items.map id) := mapM_of_forall_mem fun item _ => h item
  rw [list?, List.mapM_map, hread, List.map_id]

theorem filter_name {fields : List (String × Json)} (hnames : (fields.map Prod.fst).Nodup)
    {field : String × Json} (hfield : field ∈ fields) : fields.filter (·.1 = field.1) = [field] := by
  induction fields with
  | nil => cases hfield
  | cons first fields ih =>
      obtain ⟨hfirst, hnames⟩ := List.nodup_cons.mp hnames
      rcases List.mem_cons.mp hfield with rfl | hfield
      · have hothers : fields.filter (·.1 = field.1) = [] := by
          rw [List.filter_eq_nil_iff]
          intro other hother hname
          exact hfirst (List.mem_map.mpr ⟨other, hother, of_decide_eq_true hname⟩)
        rw [List.filter_cons_of_pos (by simp only [decide_true]), hothers]
      · have hother : first.1 ≠ field.1 := fun hname =>
          hfirst (List.mem_map.mpr ⟨field, hfield, hname.symm⟩)
        rw [List.filter_cons_of_neg (by simpa using hother), ih hnames hfield]

/-- An object that has exactly the declared fields, in their order. -/
theorem record?_object {names : List String} {fields : List (String × Json)} (hnames : names.Nodup)
    (hfields : fields.map Prod.fst = names) :
    record? names (.object fields) = some (fields.map fun field => some field.2) := by
  subst hfields
  rw [record?, List.mapM_map]
  exact mapM_of_forall_mem fun field hfield => by simp only [Function.comp_apply, filter_name hnames hfield]

theorem nullable?_ofOption {α : Type} {read : Json → Option α} {write : α → Json}
    (h : ∀ item, read (write item) = some item) (hnull : ∀ item, write item ≠ .null) (value : Option α) :
    nullable? read (ofOption write value) = some value := by
  cases value with
  | none => rfl
  | some item =>
      rw [ofOption, nullable?]
      · rw [h, Option.map_some]
      · exact hnull item

theorem word?_natural (word : UInt32) : word? (.natural word.toNat) = some word := by
  rw [word?, if_pos word.toNat_lt_size, UInt32.ofNat_toNat]

end Json

theorem ClassEntry.ofJson?_toJson (entry : ClassEntry) : ofJson? entry.toJson = some entry := by
  obtain ⟨name, builder⟩ := entry
  cases builder <;> rfl

theorem PropertyEntry.ofJson?_toJson (entry : PropertyEntry) : ofJson? entry.toJson = some entry :=
  rfl

theorem SetEntry.ofJson?_toJson (entry : SetEntry) : ofJson? entry.toJson = some entry := by
  have hnames : ["name", "chunk"].Nodup := by decide
  have hname : (Json.string entry.name).string? = some entry.name := rfl
  rw [ofJson?, toJson, Json.record?_object hnames rfl]
  simp only [List.map_cons, List.map_nil, Option.bind_eq_bind, Option.bind_some, hname, Json.word?_natural,
    Option.pure_def]

namespace Manifest

theorem table?_map {α : Type} {read : Json → Option α} {write : α → Json}
    (h : ∀ entry, read (write entry) = some entry) (entries : List α) :
    table? read (some (.array (entries.map write))) = some entries :=
  Json.list?_map h entries

theorem ofJson?_toJson (manifest : Manifest) : ofJson? manifest.toJson = some manifest := by
  have hscene := Json.nullable?_ofOption Json.word?_natural (fun _ => nofun) manifest.bootScene
  have hnames : fieldNames.Nodup := by decide
  rw [ofJson?, toJson, Json.record?_object hnames rfl]
  simp only [List.map_cons, List.map_nil, Option.bind_eq_bind, Option.bind_some, Option.getD_some,
    table?_map ClassEntry.ofJson?_toJson, table?_map PropertyEntry.ofJson?_toJson,
    table?_map SetEntry.ofJson?_toJson, hscene, Option.pure_def]

/-! ### Text -/

theorem plain_ofOption {α : Type} {write : α → Json} (h : ∀ item, (write item).Plain) (value : Option α) :
    (Json.ofOption write value).Plain := by
  cases value with
  | none => exact .null
  | some item => exact h item

theorem plain_table {α : Type} {write : α → Json} (h : ∀ entry, (write entry).Plain) (entries : List α) :
    (Json.array (entries.map write)).Plain := by
  refine .array fun item hitem => ?_
  obtain ⟨entry, _, rfl⟩ := List.mem_map.mp hitem
  exact h entry

theorem plain_toJson (manifest : Manifest) : manifest.toJson.Plain := by
  have hclass (entry : ClassEntry) : entry.toJson.Plain := by
    refine .object ?_
    obtain ⟨name, builder⟩ := entry
    cases builder <;> simp [Json.Plain.string]
  have hproperty (entry : PropertyEntry) : entry.toJson.Plain := by
    refine .object ?_
    simp [Json.Plain.string]
  have hset (entry : SetEntry) : entry.toJson.Plain := by
    refine .object ?_
    simp [Json.Plain.string, Json.Plain.natural]
  have hscene : (Json.ofOption (fun scene => .natural scene.toNat) manifest.bootScene).Plain :=
    plain_ofOption (fun _ => .natural _) manifest.bootScene
  refine .object ?_
  simp [plain_table hclass, plain_table hproperty, plain_table hset, hscene]

/-- A manifest is read back from its text. -/
theorem ofText?_toText (manifest : Manifest) : ofText? manifest.toText = some manifest := by
  rw [ofText?, toText, Json.parse?_pretty manifest.plain_toJson, Option.bind_some, ofJson?_toJson]

end Manifest

end Playprint
