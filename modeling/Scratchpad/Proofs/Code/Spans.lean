import Mathlib
import Scratchpad.Code

/-!
# Code with other places

`mapSpans` changes the places that code keeps, down to the code inside it, and nothing else.
-/

namespace Scratchpad

variable {σ : Span → Span}

mutual

/-- A constant with other places in its code. -/
def Constant.mapSpans (σ : Span → Span) : Constant → Constant
  | .literal l => .literal l
  | .code ⟨name, mode, instructions, spans, ⟨constants⟩, names, locals, argCount⟩ =>
    .code ⟨name, mode, instructions, spans.map σ, ⟨mapSpansAll σ constants⟩, names, locals, argCount⟩

def mapSpansAll (σ : Span → Span) : List Constant → List Constant
  | [] => []
  | k :: ks => k.mapSpans σ :: mapSpansAll σ ks

end

/-- Code with other places, down to the code inside it. -/
def CodeOf.mapSpans (σ : Span → Span) (c : Code) : Code :=
  { c with spans := c.spans.map σ, constants := c.constants.map (·.mapSpans σ) }

theorem mapSpansAll_eq (ks : List Constant) : mapSpansAll σ ks = ks.map (·.mapSpans σ) := by
  induction ks with
  | nil => rfl
  | cons k ks ih => rw [mapSpansAll, ih]; rfl

theorem Constant.mapSpans_code (c : Code) :
    (Constant.code c).mapSpans σ = .code (c.mapSpans σ) := by
  obtain ⟨name, mode, instructions, spans, ⟨constants⟩, names, locals, argCount⟩ := c
  simp [Constant.mapSpans, CodeOf.mapSpans, mapSpansAll_eq]

mutual

theorem Constant.mapSpans_id : (k : Constant) → k.mapSpans id = k
  | .literal _ => rfl
  | .code ⟨name, mode, instructions, spans, ⟨constants⟩, names, locals, argCount⟩ => by
    rw [Constant.mapSpans, mapSpansAll_id constants, Array.map_id]

theorem mapSpansAll_id : (ks : List Constant) → mapSpansAll id ks = ks
  | [] => rfl
  | k :: ks => by rw [mapSpansAll, k.mapSpans_id, mapSpansAll_id ks]

end

theorem CodeOf.mapSpans_id (c : Code) : c.mapSpans id = c := by
  have := Constant.mapSpans_id (.code c)
  rw [Constant.mapSpans_code] at this
  exact Constant.code.inj this

end Scratchpad
