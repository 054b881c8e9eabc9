import Scratchpad.Proofs.Code.Copies
import Scratchpad.Proofs.Code.Surfaced
import Scratchpad.Proofs.Machine.Places

/-!
# The meaning of a tree in another tree

Where the statements of one tree stand in another, under other ids and with other places, they have the same
code there but for the places (`CodeFor.copied`). A run does the same whatever the places are, so they mean
the same there: what they do differs in the places kept in the code of functions, and in nothing else
(`reflects_statements`).
-/

namespace Scratchpad

open Lower

variable {ρ : NodeId → NodeId} {σ : Span → Span} {D : NodeId → Prop} {t t' : Tree} {ids : List NodeId}

theorem Lower.CodeFor.copied (made : CodeFor t ids k) (h : t.Embeds ρ σ D t') (all : ∀ x ∈ ids, D x)
    (place : σ {} = {}) : CodeFor t' (ids.map ρ) (k.mapSpans σ) := by
  have alike : ∀ x ∈ ids, (Likeness.copy σ).Like t t' x (ρ x) := fun x mem =>
    Likeness.like (alike_copy h (all x mem) (made.shaped x mem).finite)
  obtain ⟨seg, tables, j, tables', lowered, last, rfl⟩ := made
  have unit : Context.Same (.top t) (.top t') := ⟨rfl, rfl, rfl⟩
  have follows := block_follows (statement_follows (Nat.le_refl maxNesting) False.elim) unit none none rfl
    (fun _ => rfl) (ρ := id) alike {} {} fun _ => (rfl : 0 = 0)
  rw [List.map_id] at follows
  obtain ⟨⟨seg', u⟩, lowered', code, moved⟩ :=
    (follows {} {} fun _ => Tables.mapSpans_empty.symm).ok lowered
  obtain ⟨⟨j', u'⟩, last', index, moved'⟩ :=
    (follows_constant (κ := .literal .none) (fun _ => rfl) tables u moved).ok last
  refine ⟨seg', u, j', u', lowered', last', ?_⟩
  obtain rfl : seg' = seg.mapSpans σ := code trivial
  obtain rfl : j' = j := index trivial
  obtain rfl : u' = tables'.mapSpans σ := moved' trivial
  rw [← finish_mapSpans unit.mode unit.locals]
  simp [Segment.mapSpans, Item.mapSpan, place]

def Scene.mapSpans (σ : Span → Span) (s : Scene n) : Scene n := { s with world := s.world.mapSpans σ }

namespace Meaning

/-- What became of a computation, with other places. -/
abbrev movedTo (σ : Span → Span) (r : Option (Except Fault α × Scene n)) :
    Option (Except Fault α × Scene n) :=
  r.map fun p => (p.1, p.2.mapSpans σ)

/-- `x'` does with other places what `x` does. -/
def Reflects (σ : Span → Span) (x x' : Meaning n α) : Prop :=
  ∀ s, x' (s.mapSpans σ) = movedTo σ (x s)

theorem Reflects.bind {x x' : Meaning n α} {f f' : α → Meaning n β} (first : Reflects σ x x')
    (rest : ∀ a, Reflects σ (f a) (f' a)) : Reflects σ (x >>= f) (x' >>= f') := by
  intro s
  rw [bind_apply, bind_apply, first s]
  rcases x s with _ | ⟨_ | a, s'⟩
  · rfl
  · rfl
  · exact rest a s'

/-- Without locals, what statements come to is known from the world they leave. -/
theorem eq_of_answer {x y : Option (Except Fault Unit × Scene 0)}
    (same : (x.map fun (r, s) => (r.map fun _ => Value.none, s.world)) =
      y.map fun (r, s) => (r.map fun _ => Value.none, s.world)) : x = y := by
  refine Option.map_injective ?_ same
  rintro ⟨r, locals, w⟩ ⟨r', locals', w'⟩ same
  obtain ⟨outcome, rfl⟩ := Prod.mk.inj same
  rw [locals.eq_empty, locals'.eq_empty]
  cases r <;> cases r' <;> cases outcome <;> rfl

theorem reflects_statements (made : CodeFor t ids k) (h : t.Embeds ρ σ D t') (all : ∀ x ∈ ids, D x)
    (place : σ {} = {}) (calls : Nat) : Reflects σ (statements t calls ids) (statements t' calls (ids.map ρ)) := by
  rintro ⟨locals, w⟩
  have here := Surface.answer_statements made calls w
  have there := Surface.answer_statements (made.copied h all place) calls (w.mapSpans σ)
  have moved : (⟨.enter (k.mapSpans σ) [], [], w.mapSpans σ⟩ : Machine) =
      Machine.mapSpans σ ⟨.enter k [], [], w⟩ := by
    simp [Machine.mapSpans, Frame.recode, CodeOf.mapSpans, Frame.enter]
  rw [moved, Machine.answer_mapSpans, here] at there
  rw [locals.eq_empty]
  refine eq_of_answer (there.symm.trans ?_)
  rw [Option.map_map, Option.map_map]
  rfl

end Meaning

end Scratchpad
