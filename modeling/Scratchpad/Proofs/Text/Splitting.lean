import Mathlib
import Scratchpad.Method

/-!
# Splitting, joining and replacing

Between the occurrences of a separator, found from the left, stand the pieces of a text. With the
separator between them again they are the text (`join_piecesFrom`), with another text between them it is
replaced (`substituteFrom_eq`), and it is in none of them (`not_infix_piece`). So the methods fit together
(`split_join_replace`).
-/

namespace Scratchpad

namespace Text

variable {sep : List Char}

theorem piecesFrom_ne_nil (sep : List Char) (skip : Nat) (s : List Char) : piecesFrom sep skip s ≠ [] := by
  fun_induction piecesFrom sep skip s <;> simp_all

theorem join_cons (sep piece : List Char) {pieces : List (List Char)} (h : pieces ≠ []) :
    join sep (piece :: pieces) = piece ++ sep ++ join sep pieces := by
  cases pieces with
  | nil => exact absurd rfl h
  | cons => rfl

/-- A character at the front of the first piece is one at the front of the whole. -/
theorem join_cons_cons (sep : List Char) (c : Char) (piece : List Char) (pieces : List (List Char)) :
    join sep ((c :: piece) :: pieces) = c :: join sep (piece :: pieces) := by
  cases pieces <;> rfl

theorem join_piecesFrom (some : sep ≠ []) (skip : Nat) (s : List Char) :
    join sep (piecesFrom sep skip s) = s.drop skip := by
  fun_induction piecesFrom sep skip s with
  | case1 => simp [join]
  | case2 skip c rest ih => exact ih
  | case3 c rest found ih =>
    -- the occurrence is the first character and the others that are skipped
    obtain ⟨d, sep, rfl⟩ := List.exists_cons_of_ne_nil some
    obtain ⟨after, whole⟩ := List.isPrefixOf_iff_prefix.mp found
    obtain ⟨rfl, rfl⟩ := List.cons.inj whole
    rw [join_cons _ _ (piecesFrom_ne_nil _ _ _), ih]
    simp
  | case4 c rest none empty => exact absurd empty (piecesFrom_ne_nil _ _ _)
  | case5 c rest none piece pieces here ih =>
    rw [join_cons_cons, ← here, ih]
    rfl

theorem substituteFrom_eq (old new : List Char) (skip : Nat) (s : List Char) :
    substituteFrom old new skip s = join new (piecesFrom old skip s) := by
  fun_induction piecesFrom old skip s with
  | case1 => simp [substituteFrom, join]
  | case2 skip c rest ih => exact ih
  | case3 c rest found ih =>
    rw [join_cons _ _ (piecesFrom_ne_nil _ _ _), ← ih, substituteFrom, if_pos found]
    rfl
  | case4 c rest none empty => exact absurd empty (piecesFrom_ne_nil _ _ _)
  | case5 c rest none piece pieces here ih =>
    rw [join_cons_cons, ← here, ← ih, substituteFrom, if_neg none]

theorem not_infix_piece (some : sep ≠ []) (skip : Nat) (s : List Char) :
    ∀ piece ∈ piecesFrom sep skip s, ¬ sep <:+: piece := by
  fun_induction piecesFrom sep skip s with
  | case1 => simpa using some
  | case2 skip c rest ih => exact ih
  | case3 c rest found ih => exact List.forall_mem_cons.mpr ⟨by simpa using some, ih⟩
  | case4 c rest none empty => exact absurd empty (piecesFrom_ne_nil _ _ _)
  | case5 c rest none piece pieces here ih =>
    rw [here] at ih
    obtain ⟨first, others⟩ := List.forall_mem_cons.mp ih
    refine List.forall_mem_cons.mpr ⟨fun inside => ?_, others⟩
    -- the piece is the front of the text, so an occurrence at its start was found
    have front : piece <+: rest := by
      have whole := join_piecesFrom some 0 rest
      rw [here, List.drop_zero] at whole
      rw [← whole]
      cases pieces with
      | nil => exact List.prefix_refl piece
      | cons => exact ⟨_, (List.append_assoc ..).symm⟩
    rcases List.infix_cons_iff.mp inside with start | later
    · exact none (List.isPrefixOf_iff_prefix.mpr (start.trans (List.cons_prefix_cons.mpr ⟨rfl, front⟩)))
    · exact first later

end Text

namespace Method

/-- The texts of a list, from an index on, are what there is to join. -/
theorem joinParts_list {s : Store} {ref : Nat} {parts : List String}
    (here : s.list ref = (parts.map Value.text).toArray) (left index : Nat) (h : parts.length = index + left) :
    joinParts s left index (.list ref index) = .ok ((parts.drop index).map String.toList) := by
  induction left generalizing index with
  | zero => simp [joinParts, h]
  | succ left ih =>
    have lt : index < parts.length := by omega
    rw [joinParts, Store.next?, here, List.getElem?_toArray, List.getElem?_map, List.getElem?_eq_getElem lt,
      List.drop_eq_getElem_cons lt]
    simp only [Option.map_some, ih (index + 1) (by omega)]
    rfl

theorem call_join {w : World} {ref : Nat} {parts : List String} (sep : String)
    (here : w.store.list ref = (parts.map Value.text).toArray) :
    call (.text sep) (.text .join) [.list ref] w =
      .ok (.text (.ofList (Text.join sep.toList (parts.map String.toList))), w) := by
  have read := joinParts_list here parts.length 0 (by simp)
  have size : w.store.remaining (.list ref 0) = parts.length := by simp [Store.remaining, here]
  rw [← size, List.drop_zero] at read
  simp [call, arity, Arity.admits, runText, Store.iterate, Eval.ask, Eval.lift, read, TextResult.value, bind,
    StateT.bind, Except.bind, pure, StateT.pure, Except.pure]

theorem call_split (s : String) {sep : String} (some : sep ≠ "") (w : World) :
    call (.text s) (.text .split) [.text sep] w =
      Eval.list ((Text.split s.toList sep.toList).map fun p => .text (.ofList p)).toArray w := by
  simp [call, arity, Arity.admits, runText, textArg, some, Eval.ask, Eval.lift, TextResult.value, bind,
    StateT.bind, Except.bind, pure, Except.pure]

theorem call_replace (s old new : String) (w : World) :
    call (.text s) (.text .replace) [.text old, .text new] w =
      .ok (.text (.ofList (Text.substitute s.toList old.toList new.toList)), w) := rfl

/-- A text is split at another one, which is not empty. The parts are a list that is not empty, and the
separator is in none of them. With it between them they are the text again, and with another text
between them they are the text with that in its place. -/
theorem split_join_replace (s sep t : String) (some : sep ≠ "") (w : World) :
    ∃ (ref : Nat) (parts : List String) (w' : World),
      call (.text s) (.text .split) [.text sep] w = .ok (.list ref, w') ∧
      w'.store.list ref = (parts.map Value.text).toArray ∧ parts ≠ [] ∧
      (∀ part ∈ parts, ¬ sep.toList <:+: part.toList) ∧
      call (.text sep) (.text .join) [.list ref] w' = .ok (.text s, w') ∧
      call (.text s) (.text .replace) [.text sep, .text t] w' =
        call (.text t) (.text .join) [.list ref] w' := by
  have some' : sep.toList ≠ [] := by simpa using some
  let parts := (Text.split s.toList sep.toList).map String.ofList
  let made := w.store.newList (parts.map Value.text).toArray
  have here : made.2.list w.store.lists.size = (parts.map Value.text).toArray := by
    simp [made, Store.newList, Store.list]
  have pieces : parts.map String.toList = Text.piecesFrom sep.toList 0 s.toList := by
    simp [parts, Text.split, Function.comp_def]
  refine ⟨w.store.lists.size, parts, { w with store := made.2 }, ?_, here, ?_, fun part mem => ?_, ?_, ?_⟩
  · rw [call_split s some]
    simp [Eval.list, Eval.make, made, parts, Store.newList, Function.comp_def]
  · simpa [parts, Text.split] using Text.piecesFrom_ne_nil _ _ _
  · exact Text.not_infix_piece some' 0 s.toList _ (pieces ▸ List.mem_map_of_mem mem)
  · rw [call_join sep here, pieces, Text.join_piecesFrom some', List.drop_zero, String.ofList_toList]
  · rw [call_replace, call_join t here, pieces, Text.substitute, if_neg (by simpa using some'),
      Text.substituteFrom_eq]

/-- Occurrences of a separator that overlap: the text `aaa` is `aa` between nothing and `a`. -/
theorem split_join_replace_overlapping :
    ∃ (ref : Nat) (w' : World), call (.text "aaa") (.text .split) [.text "aa"] {} = .ok (.list ref, w') ∧
      call (.text "aa") (.text .join) [.list ref] w' = .ok (.text "aaa", w') ∧
      call (.text "-") (.text .join) [.list ref] w' = .ok (.text "-a", w') := by
  obtain ⟨ref, parts, w', done, -, -, -, joined, replaced⟩ := split_join_replace "aaa" "aa" "-" (by decide) {}
  exact ⟨ref, w', done, joined, replaced.symm.trans rfl⟩

end Method

end Scratchpad
