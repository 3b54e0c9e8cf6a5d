import Playprint.Json.Parser
import Playprint.Proofs.Json.Tokens

/-!
The value that the tokens of a value spell. A value may come where a value or the first item of an array is
awaited, and it leaves behind what was open before it. Main statement: a value that is written is read back.
-/

namespace Playprint.Json

variable {value : Json} {frames : List Frame}

/-- Tokens that lead from one point of reading to another one. -/
def Leads (tokens : List Token) (start stop : Progress) : Prop :=
  tokens.foldlM advance start = some stop

namespace Leads

variable {token : Token} {tokens more : List Token} {start mid stop : Progress}

theorem nil (start : Progress) : Leads [] start start :=
  rfl

theorem cons (h : advance start token = some mid) (hmore : Leads more mid stop) :
    Leads (token :: more) start stop := by
  rw [Leads, List.foldlM_cons, h]
  exact hmore

theorem append (h : Leads tokens start mid) (hmore : Leads more mid stop) :
    Leads (tokens ++ more) start stop := by
  rw [Leads, List.foldlM_append, h]
  exact hmore

end Leads

/-- A value may come next. -/
def Goal.TakesValue (goal : Goal) : Prop :=
  goal = .value ∨ goal = .item

theorem advance_scalar {goal : Goal} {token : Token} (h : scalar? token = some value)
    (hgoal : goal.TakesValue) : advance (.reading frames goal) token = some (deliver value frames) := by
  rcases hgoal with rfl | rfl <;> cases token
  all_goals first
    | cases h; done
    | simp only [advance, begin?, h, Option.map_some]

theorem advance_openArray {goal : Goal} (hgoal : goal.TakesValue) :
    advance (.reading frames goal) .openArray = some (.reading (.array [] :: frames) .item) := by
  rcases hgoal with rfl | rfl <;> rfl

theorem advance_openObject {goal : Goal} (hgoal : goal.TakesValue) :
    advance (.reading frames goal) .openObject = some (.reading (.object (some []) :: frames) .field) := by
  rcases hgoal with rfl | rfl <;> rfl

/-- The tokens of a value, wherever it may come, end in what waits for it. -/
def ReadsBack (value : Json) : Prop :=
  ∀ frames goal, goal.TakesValue → Leads value.tokens (.reading frames goal) (deliver value frames)

/-- All items after the first one are added to the array. -/
theorem leads_itemTokens {items : List Json} (h : ∀ item ∈ items, ReadsBack item) (frames : List Frame)
    (before : List Json) :
    Leads (itemTokens items) (.reading (.array before :: frames) .more)
      (.reading (.array (items.reverse ++ before) :: frames) .more) := by
  induction items generalizing before with
  | nil => exact .nil _
  | cons item items ih =>
      obtain ⟨hitem, hitems⟩ := List.forall_mem_cons.mp h
      rw [itemTokens, List.reverse_cons, List.append_assoc, List.singleton_append]
      exact .append (.cons rfl (hitem _ _ (.inl rfl))) (ih hitems (item :: before))

/-- A field is added to the object. -/
theorem leads_fieldTokens {field : String × Json} (h : ReadsBack field.2) (frames : List Frame)
    (before : List (String × Json)) {goal : Goal} (hgoal : goal = .field ∨ goal = .name) :
    Leads (fieldTokens field) (.reading (.object (some before) :: frames) goal)
      (.reading (.object (some (field :: before)) :: frames) .more) := by
  have hname : advance (.reading (.object (some before) :: frames) goal) (.string (some field.1)) =
      some (.reading (.object (some before) :: frames) (.colon (some field.1))) := by
    rcases hgoal with rfl | rfl <;> rfl
  rw [fieldTokens]
  exact .cons hname (.cons rfl (h _ _ (.inl rfl)))

/-- All fields after the first one are added to the object. -/
theorem leads_moreFieldTokens {fields : List (String × Json)} (h : ∀ field ∈ fields, ReadsBack field.2)
    (frames : List Frame) (before : List (String × Json)) :
    Leads (moreFieldTokens fields) (.reading (.object (some before) :: frames) .more)
      (.reading (.object (some (fields.reverse ++ before)) :: frames) .more) := by
  induction fields generalizing before with
  | nil => exact .nil _
  | cons field fields ih =>
      obtain ⟨hfield, hfields⟩ := List.forall_mem_cons.mp h
      rw [moreFieldTokens, List.reverse_cons, List.append_assoc, List.singleton_append]
      exact .append (.cons rfl (leads_fieldTokens hfield frames before (.inr rfl))) (ih hfields (field :: before))

theorem readsBack (h : Plain value) : ReadsBack value := by
  induction h with
  | null | bool | natural | string => exact fun _ _ hgoal => .cons (advance_scalar rfl hgoal) (.nil _)
  | @array items _ ih =>
      intro frames goal hgoal
      cases items with
      | nil => exact .cons (advance_openArray hgoal) (.cons rfl (.nil _))
      | cons item items =>
          obtain ⟨hitem, hitems⟩ := List.forall_mem_cons.mp ih
          have hitems := leads_itemTokens hitems frames [item]
          rw [← List.reverse_cons] at hitems
          have hclose : advance (.reading (.array (item :: items).reverse :: frames) .more) .closeArray =
              some (deliver (.array (item :: items)) frames) := by
            simp only [advance, List.reverse_reverse]
          rw [tokens]
          exact .append (.append (.cons (advance_openArray hgoal) (hitem _ _ (.inr rfl))) hitems)
            (.cons hclose (.nil _))
  | @object fields _ ih =>
      intro frames goal hgoal
      cases fields with
      | nil => exact .cons (advance_openObject hgoal) (.cons rfl (.nil _))
      | cons field fields =>
          obtain ⟨hfield, hfields⟩ := List.forall_mem_cons.mp ih
          have hfields := leads_moreFieldTokens hfields frames [field]
          rw [← List.reverse_cons] at hfields
          have hclose :
              advance (.reading (.object (some (field :: fields).reverse) :: frames) .more) .closeObject =
                some (deliver (.object (field :: fields)) frames) := by
            simp only [advance, ofFields, List.reverse_reverse]
          have hfirst := leads_fieldTokens hfield frames [] (.inl rfl)
          rw [tokens]
          exact .append (.append (.cons (advance_openObject hgoal) hfirst) hfields) (.cons hclose (.nil _))

theorem ofTokens?_tokens (h : Plain value) : ofTokens? value.tokens = some value := by
  have hread : value.tokens.foldlM advance (.reading [] .value) = some (.complete value) :=
    readsBack h [] .value (.inl rfl)
  rw [ofTokens?, hread]

/-- A value that is written is read back. -/
theorem parse?_pretty (h : Plain value) : parse? (pretty value) = some value := by
  rw [parse?, pretty, String.toList_ofList, Token.scan_render h, Option.bind_some, ofTokens?_tokens h]

end Playprint.Json
