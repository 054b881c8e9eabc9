import Scratchpad.Proofs.Code.Refusals

/-!
# Which trees compile

What lowering makes code of is shaped, and a shaped tree is refused, if at all, because its nodes nest too deep; so
it is exactly the well-formed trees that compile, up to nesting (`ofTree_accepts_wellFormed`).
-/

namespace Scratchpad

namespace Lower

theorem shaped_of_ofTree {t : Tree} {mode : Mode} {code : Code} (h : Code.ofTree t mode = .ok code) :
    ∀ p ∈ t.tops, Shaped t p.1 p.2 := by
  obtain ⟨ids, top, _⟩ := except_bind_ok h
  obtain ⟨_, root, _⟩ := topLevel_ok top
  rcases ofTree_ok h with ⟨id, _, _, isRoot, made, _⟩ | ⟨notEval, _, _, _, _, does, _⟩
  · have shaped := made.shaped id List.mem_cons_self
    rw [Tree.tops, isRoot]
    exact List.forall_mem_singleton.mpr shaped
  · have shaped := shaped_map does.shaped
    obtain ⟨nodes, root'⟩ := t
    cases root' with
    | module | interactive => exact shaped
    | expression => exact absurd root.symm notEval

/-- A well-formed tree has room for all its nodes, or nests too deep. -/
theorem tooDeep_of_wellFormed {t : Tree} {mode : Mode} (h : WellFormed t mode) (failed : Code.ofTree t mode = .error e) :
    (∃ span, e = .invalid (.tooNested .nodes) span) ∧ ∃ id ∈ t.body, ¬ t.Fits maxNesting id := by
  rcases refused_ofTree t mode e failed with ⟨nested, deep⟩ | ⟨-, odd⟩
  · refine ⟨nested, ?_⟩
    by_contra fits
    push Not at fits
    exact deep fun id mem => .inl (fits id mem)
  · exact absurd h odd

end Lower

/-- A tree compiles only if it is well-formed. A well-formed tree does not compile only if its nodes
nest too deep, and that is what the error says. -/
theorem ofTree_accepts_wellFormed (t : Tree) (mode : Mode) :
    (∀ code, Code.ofTree t mode = .ok code → WellFormed t mode) ∧
      (WellFormed t mode → ∀ e, Code.ofTree t mode = .error e →
        (∃ span, e = .invalid (.tooNested .nodes) span) ∧
          ∃ id ∈ t.body, ¬ t.Fits Lower.maxNesting id) := by
  refine ⟨fun code compiled => ?_, fun h e => Lower.tooDeep_of_wellFormed h⟩
  obtain ⟨ids, top, _⟩ := except_bind_ok compiled
  obtain ⟨_, root, alone⟩ := Lower.topLevel_ok top
  exact wellFormed_of_shaped root (Lower.shaped_of_ofTree compiled) alone

/-- The loop `for (a, b[0]) in x: break`. -/
def unpackingLoop : Tree where
  nodes := #[⟨.name "a", {}⟩, ⟨.name "b", {}⟩, ⟨.literal (.int 0), {}⟩, ⟨.subscript 1 2, {}⟩,
    ⟨.tuple [0, 3], {}⟩, ⟨.name "x", {}⟩, ⟨.breakStmt, {}⟩, ⟨.forLoop 4 5 [6], {}⟩]
  root := .module [7]

/-- The same with the body in a function of its own, which no loop is in. -/
def unpackingOutside : Tree where
  nodes := unpackingLoop.nodes.set! 7 ⟨.forLoop 4 5 [8], {}⟩ |>.push ⟨.functionDef "f" [] [6], {}⟩
  root := .module [7]

theorem unpackingLoop_wellFormed :
    WellFormed unpackingLoop .exec ∧ ¬ WellFormed unpackingOutside .exec := by
  obtain ⟨code, compiled⟩ : ∃ code, Code.ofTree unpackingLoop .exec = .ok code := ⟨_, by cbv⟩
  have refused : Code.ofTree unpackingOutside .exec =
      .error (.invalid .breakOutsideLoop (some {})) := by cbv
  refine ⟨(ofTree_accepts_wellFormed unpackingLoop .exec).1 code compiled, fun wellFormed => ?_⟩
  obtain ⟨⟨span, deep⟩, _⟩ := (ofTree_accepts_wellFormed unpackingOutside .exec).2 wellFormed _ refused
  cases deep

end Scratchpad
