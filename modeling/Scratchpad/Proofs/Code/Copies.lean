import Scratchpad.Proofs.Code.Likeness

/-!
# Lowering a tree in another tree

Where nodes of a tree stand in another (`Tree.Embeds`), and there is as much room, they are lowered to the
same code there, but for the places (`Likeness.copy`). Whether they can be lowered depends neither on what
else is in the tree, nor on the tables so far, nor on where the code will stand (`Follows.passes`).
-/

namespace Scratchpad.Lower

/-- The code is the same, but for the places. -/
def Likeness.copy (σ : Span → Span) : Likeness := ⟨True, False, σ, False.elim⟩

/-- There is code where there was some. -/
def Likeness.loose : Likeness := ⟨False, False, id, False.elim⟩

section

variable {t t' : Tree} {ρ : NodeId → NodeId} {σ : Span → Span} {D : NodeId → Prop} {x : NodeId}
  (h : t.Embeds ρ σ D t') (mem : D x) (finite : t.Finite x)

include h mem finite

theorem alike_copy : t.Alike (Likeness.copy σ).places t' (min t.size t'.size) x (ρ x) := by
  obtain ⟨d, fits⟩ := finite
  exact (((h.alike mem fits).symm (Q := fun span span' => span = σ span') id).symm fun place _ => place).least

theorem alike_loose : t.Alike Likeness.loose.places t' (min t.size t'.size) x (ρ x) :=
  ((alike_copy h mem finite).symm (Q := Likeness.loose.places) fun _ => False.elim).symm fun _ => False.elim

theorem alike_back : t'.Alike Likeness.loose.places t (min t'.size t.size) (ρ x) x := by
  rw [Nat.min_comm]
  exact (alike_loose h mem finite).symm fun _ => False.elim

end

theorem like_taken {t t' : Tree} {D : NodeId → Prop} {x : NodeId} (h : t.Embeds id id D t') (mem : D x)
    (finite : t.Finite x) : (Likeness.copy id).Like t' t x x :=
  Likeness.like ((alike_copy h mem finite).symm fun place _ => (place trivial).symm)

theorem Segment.mapSpans_id (s : Segment) : s.mapSpans id = s := by
  rw [mapSpans, show Item.mapSpan id = id from funext fun item => by cases item <;> rfl, List.map_id]

theorem Tables.mapSpans_id (t : Tables) : t.mapSpans id = t := by
  rw [mapSpans, show (fun k : Constant => k.mapSpans id) = id from funext Constant.mapSpans_id,
    Array.map_id]

theorem Follows.same {x y : Lower Segment} (h : Repeats (.copy id) x y) {t t' : Tables} {s : Segment}
    (lowered : x t = .ok (s, t')) : y t = .ok (s, t') := by
  obtain ⟨⟨s', u'⟩, done, code, tables⟩ := (h t t fun _ => t.mapSpans_id.symm).ok lowered
  exact done.trans (congrArg _ (Prod.ext ((code trivial).trans s.mapSpans_id)
    ((tables trivial).trans t'.mapSpans_id)))

/-- Where `x` succeeds with some tables, `y` succeeds with all. -/
def Passes (x : Lower α) (y : Lower β) : Prop := ∀ t r, x t = .ok r → ∀ u, ∃ r', y u = .ok r'

theorem Follows.passes {V : α → β → Prop} {x : Lower α} {y : Lower β} (h : Follows .loose V x y) :
    Passes x y := by
  intro t r lowered u
  obtain ⟨r', done, -⟩ := (h t u False.elim).ok lowered
  exact ⟨r', done⟩

theorem passes_pure (x : Lower α) (b : β) : Passes x (pure b) := fun _ _ _ u => ⟨(b, u), rfl⟩

/-- What never fails passes everywhere. -/
theorem Fails.passes {y : Lower β} (h : Fails (fun _ => False) y) {x : Lower α} : Passes x y := by
  intro t r _ u
  match done : y u with
  | .ok r' => exact ⟨r', rfl⟩
  | .error e => exact (h u e done).elim

/-- More room changes nothing where there was enough. -/
theorem function_mono {c : Context} {body : List NodeId} (le : room ≤ room')
    (finite : ∀ x ∈ body, c.tree.Finite x)
    (lowered : function c (statement room) span name params body = .ok code) :
    function c (statement room') span name params body = .ok code := by
  have alike : ∀ x ∈ body, c.tree.Alike (Likeness.copy id).places c.tree _ x x := fun x mem =>
    alike_copy c.tree.embeds_refl trivial (finite x mem)
  have most := Nat.min_le_left c.tree.size c.tree.size
  have here : (Likeness.copy id).places span span := fun _ => rfl
  have follows := function_follows here (statement_follows le False.elim) ⟨rfl, rfl, rfl⟩ most most alike name
    params
  rw [List.map_id'] at follows
  obtain ⟨code', done, same⟩ := follows.ok lowered
  exact done.trans (congrArg _ ((same trivial).trans code.mapSpans_id))

end Scratchpad.Lower
