/-!
Scopes. While something is loaded, a set and a scene are around it. Entering a scope puts another set or
scene there and remembers the one before; leaving the scope puts that one back.
-/

namespace Playprint

/-- The set and the scene around what is loaded. -/
structure Surroundings (σ κ : Type) where
  set : Option σ
  scene : Option κ

/-- A scope that was entered, with what it displaced. -/
inductive Scope (σ κ : Type)
  | set (previous : Option σ)
  | scene (previous : Option κ)

namespace Surroundings

variable {σ κ : Type}

/-- Nothing around. -/
def none : Surroundings σ κ := ⟨.none, .none⟩

/-- Enters the scope of a set. -/
def enterSet (around : Surroundings σ κ) (set : Option σ) : Scope σ κ × Surroundings σ κ :=
  (.set around.set, { around with set })

/-- Enters the scope of a scene. -/
def enterScene (around : Surroundings σ κ) (scene : Option κ) : Scope σ κ × Surroundings σ κ :=
  (.scene around.scene, { around with scene })

/-- Leaves a scope. -/
def leave (around : Surroundings σ κ) : Scope σ κ → Surroundings σ κ
  | .set previous => { around with set := previous }
  | .scene previous => { around with scene := previous }

end Surroundings

end Playprint
