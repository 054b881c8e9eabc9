import Scratchpad.Machine
import Scratchpad.Proofs.Code.Functions

/-!
# Parameters and slots

The code of a function counts its parameters one by one but has one slot for each name. The first
slots are those of the parameters, in order, exactly if no parameter is repeated
(`parameters_fill_slots`).
-/

namespace Scratchpad

open Lower

namespace Scope

variable {params : List String} {n : Names}

theorem nodup_locals : (locals params n).Nodup :=
  nodup_foldl_addNew (nodup_foldl_addNew List.nodup_nil params) _

theorem prefix_locals (h : params.Nodup) : params <+: locals params n := by
  have own : params.foldl addNew [] = params := foldl_addNew_of_nodup h
  unfold locals
  rw [own]
  exact prefix_foldl_addNew params _

/-- The parameters come first exactly if they are distinct. -/
theorem take_locals_iff :
    params.length ≤ (locals params n).length ∧ (locals params n).take params.length = params ↔
      params.Nodup := by
  constructor
  · rintro ⟨_, first⟩
    rw [← first]
    exact nodup_locals.sublist (List.take_sublist _ _)
  · intro h
    exact ⟨(prefix_locals h).length_le, (List.prefix_iff_eq_take.mp (prefix_locals h)).symm⟩

end Scope

variable {t : Tree} {mode : Mode} {code k : Code} {id : NodeId} {params : List String} {body : List NodeId}

theorem Tree.Defines.slots (h : t.Defines mode id k)
    (found : t.kind? id = some (.functionDef name params body)) :
    k.argCount = params.length ∧ k.locals = (Scope.locals params (Scope.ofBody t body)).toArray := by
  obtain ⟨_, _, _, span, got, lowered⟩ := h
  cases found.symm.trans (kind?_of_get? got)
  obtain ⟨_, s, tables, j, tables', _, _, rfl⟩ := function_ok (statement_does (Nat.le_refl _)) lowered
  exact ⟨rfl, rfl⟩

/-- The arguments fill the first slots, and the others are empty. -/
theorem Frame.enter_locals {args : List Value} (le : args.length ≤ k.locals.size) :
    (Frame.enter k args).locals.toList =
      args.map some ++ List.replicate (k.locals.size - args.length) none := by
  refine List.ext_getElem (by simp [enter]; omega) fun i lt lt' => ?_
  simp only [enter, List.getElem_map, List.getElem_range, List.getElem_append,
    List.length_map, List.getElem_replicate]
  split
  · rename_i first
    exact List.getElem?_eq_getElem first
  · rename_i later
    exact List.getElem?_eq_none (Nat.le_of_not_lt later)

/-- The code of a function takes as many arguments as the function has parameters. Its first slots are
the parameters in order exactly if they are distinct, and then a call puts each argument in the slot of
its parameter and nothing in any other. -/
theorem parameters_fill_slots (compiled : Code.ofTree t mode = .ok code) :
    ∀ id name params body, t.Reached id → t.kind? id = some (.functionDef name params body) →
      ∃ k, t.Defines mode id k ∧ code.Holds k ∧ k.argCount = params.length ∧ k.locals.toList.Nodup ∧
        (k.argCount ≤ k.locals.size ∧ k.locals.toList.take k.argCount = params ↔ params.Nodup) ∧
        (params.Nodup → ∀ args, args.length = k.argCount → (Frame.enter k args).locals.toList =
          args.map some ++ List.replicate (k.locals.size - k.argCount) none) := by
  intro id name params body reached found
  obtain ⟨k, defines, held⟩ := defines_of_reached compiled reached ⟨name, params, body, found⟩
  obtain ⟨count, slots⟩ := defines.slots found
  have first : k.argCount ≤ k.locals.size ∧ k.locals.toList.take k.argCount = params ↔ params.Nodup := by
    rw [count, slots]
    exact Scope.take_locals_iff
  refine ⟨k, defines, held, count, ?_, first, fun distinct args all => ?_⟩
  · rw [slots]
    exact Scope.nodup_locals
  · rw [← all]
    exact Frame.enter_locals (all ▸ (first.mpr distinct).1)

/-- `def f` with these parameters and the body `return x` and `x = 0`, and then `r = f(1, 2)`. -/
def reading (params : List String) : Tree where
  nodes := #[⟨.name "x", {}⟩, ⟨.returnStmt (some 0), {}⟩, ⟨.name "x", {}⟩, ⟨.literal (.int 0), {}⟩,
    ⟨.assign [2] 3, {}⟩, ⟨.functionDef "f" params [1, 4], {}⟩, ⟨.name "f", {}⟩, ⟨.literal (.int 1), {}⟩,
    ⟨.literal (.int 2), {}⟩, ⟨.call 6 [7, 8], {}⟩, ⟨.name "r", {}⟩, ⟨.assign [10] 9, {}⟩]
  root := .module [5, 11]

theorem parameters_fill_slots_distinct : ∃ code k, Code.ofTree (reading ["a", "b"]) .exec = .ok code ∧
    (reading ["a", "b"]).Defines .exec 5 k ∧ k.locals = #["a", "b", "x"] ∧
    (Frame.enter k [.int 1, .int 2]).locals.toList = [some (.int 1), some (.int 2), none] := by
  obtain ⟨code, f, compiled, lowered, locals, count⟩ : ∃ code f,
      Code.ofTree (reading ["a", "b"]) .exec = .ok code ∧
      Lower.function ⟨reading ["a", "b"], .exec, false, []⟩ (Lower.statement Lower.maxNesting) {} "f"
        ["a", "b"] [1, 4] = .ok f ∧ f.locals = #["a", "b", "x"] ∧ f.argCount = 2 :=
    ⟨_, _, by cbv, by cbv, by cbv, by cbv⟩
  obtain ⟨k, defines, -, -, -, -, binds⟩ := parameters_fill_slots compiled 5 "f" ["a", "b"] [1, 4]
    ⟨5, List.mem_cons_self, .refl⟩ rfl
  obtain rfl := defines.unique ⟨"f", ["a", "b"], [1, 4], {}, rfl, lowered⟩
  have filled := binds (by decide) [.int 1, .int 2] count.symm
  rw [locals, count] at filled
  exact ⟨code, k, compiled, defines, locals, filled⟩

/-- The second argument of a repeated parameter is found in a variable that was never assigned. -/
theorem repeated_parameter_fills_other : ∃ code k e, Code.ofTree (reading ["a", "a"]) .exec = .ok code ∧
    (reading ["a", "a"]).Defines .exec 5 k ∧ k.argCount = 2 ∧ k.locals = #["a", "x"] ∧
    code.run 10 20 {} = some e ∧ e.world.globals.get? "r" = some (.int 2) :=
  ⟨_, _, _, by cbv, ⟨"f", ["a", "a"], [1, 4], {}, rfl, by cbv⟩, by cbv, by cbv, by cbv, by cbv⟩

end Scratchpad
