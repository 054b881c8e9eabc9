import Scratchpad.Proofs.Machine.Spares

/-!
# Global names out of sight

Two machines that differ in the values of hidden global names go on or end alike, as long as the code
at hand loads none of them (`together_step`).
-/

namespace Scratchpad

variable {Hidden : String → Prop}

/-- The same but for the values of hidden names. -/
structure World.Agree (Hidden : String → Prop) (w w' : World) : Prop where
  store : w'.store = w.store
  output : w'.output = w.output
  globals : ∀ name, ¬ Hidden name → w'.globals.get? name = w.globals.get? name

/-- The same value or the same fault, in worlds that agree. -/
inductive Eval.Alike (Hidden : String → Prop) :
    Except (Fault × World) (α × World) → Except (Fault × World) (α × World) → Prop
  | ok {a : α} {w w' : World} (agree : w.Agree Hidden w') : Alike Hidden (.ok (a, w)) (.ok (a, w'))
  | error (agree : w.Agree Hidden w') : Alike Hidden (.error (fault, w)) (.error (fault, w'))

/-- Worlds that agree are all one to the two computations. -/
def Agrees (Hidden : String → Prop) (x y : Eval α) : Prop :=
  ∀ w w', w.Agree Hidden w' → Eval.Alike Hidden (x w) (y w')

theorem agrees_pure (a : α) : Agrees Hidden (pure a) (pure a) := fun _ _ agree => .ok agree

theorem Agrees.bind {x y : Eval α} {f g : α → Eval β} (first : Agrees Hidden x y)
    (rest : ∀ a, Agrees Hidden (f a) (g a)) : Agrees Hidden (x >>= f) (y >>= g) := by
  intro w w' agree
  have alike := first w w' agree
  change Eval.Alike Hidden ((x w).bind _) ((y w').bind _)
  generalize x w = r at alike ⊢
  generalize y w' = r' at alike ⊢
  cases alike with
  | ok agree => exact rest _ _ _ agree
  | error agree => exact .error agree

theorem Aloof.agrees {x : Eval α} (h : Aloof x) : Agrees Hidden x x := by
  intro w w' agree
  have other : w' = { w with globals := w'.globals } := by
    obtain ⟨globals, store, output⟩ := w'
    cases agree.store
    cases agree.output
    rfl
  have kept := h.kept w
  have after (v : World) (same : v.globals = w.globals) :
      v.Agree Hidden { v with globals := w'.globals } :=
    ⟨rfl, rfl, fun name seen => (agree.globals name seen).trans (by rw [same])⟩
  rw [other, h w w'.globals]
  match done : x w with
  | .error (fault, v) =>
    rw [Eval.after_of_error done] at kept
    exact .error (after v kept)
  | .ok (a, v) =>
    rw [Eval.after_of_ok done] at kept
    exact .ok (after v kept)

namespace Frame

variable {f : Frame}

theorem loadName_agree (seen : ∀ name, f.code.names[i]? = some name → ¬ Hidden name)
    (agree : w.Agree Hidden w') : f.loadName w' i = f.loadName w i := by
  unfold loadName
  cases named : f.name i with
  | error fault => rfl
  | ok name =>
    dsimp only [bind, Except.bind]
    rw [agree.globals name (seen name (name_ok named))]

/-- Only one instruction looks at global names. -/
theorem agrees_exec {i : Instr}
    (seen : ∀ k, i = .loadName k → ∀ name, f.code.names[k]? = some name → ¬ Hidden name) :
    Agrees Hidden (f.exec i) (f.exec i) := by
  by_cases loads : ∃ k, i = .loadName k
  · obtain ⟨k, rfl⟩ := loads
    intro w w' agree
    have same := loadName_agree (seen k rfl) agree
    have given : Agrees Hidden (liftM (f.loadName w k) >>= fun g => pure (.go g.next) : Eval Turn)
        (liftM (f.loadName w' k) >>= fun g => pure (.go g.next)) := by
      rw [same]
      exact (aloof_lift _).agrees.bind fun _ => agrees_pure _
    exact given w w' agree
  by_cases stores : ∃ k, i = .storeName k
  · obtain ⟨k, rfl⟩ := stores
    refine (aloof_lift _).agrees.bind fun stored => (aloof_lift _).agrees.bind fun p w w' agree => .ok ?_
    refine ⟨agree.store, agree.output, fun name seen => ?_⟩
    by_cases same : name = stored
    · subst same
      rw [Globals.get?_insert_self, Globals.get?_insert_self]
    · rw [Globals.get?_insert_of_ne same, Globals.get?_insert_of_ne same, agree.globals name seen]
  exact (aloof_exec loads stores).agrees

end Frame

namespace Machine

/-- Both end with the same outcome, or go on in the same place, in worlds that agree. -/
inductive Together (Hidden : String → Prop) : Ending ⊕ Machine → Ending ⊕ Machine → Prop
  | ended {ending : Except Failure Value} (agree : w.Agree Hidden w') :
      Together Hidden (.inl ⟨ending, w⟩) (.inl ⟨ending, w'⟩)
  | goes {callers : List Frame} (agree : w.Agree Hidden w') :
      Together Hidden (.inr ⟨f, callers, w⟩) (.inr ⟨f, callers, w'⟩)

theorem together_step {m : Machine} {w : World} (agree : m.world.Agree Hidden w)
    (seen : ∀ k name, .loadName k ∈ m.frame.code.instructions → m.frame.code.names[k]? = some name →
      ¬ Hidden name) :
    Together Hidden (m.step limit) ({ m with world := w }.step limit) := by
  unfold step
  cases here : m.frame.code.instructions[m.frame.pc]? with
  | none => exact .ended agree
  | some i =>
    have alike : Eval.Alike Hidden (m.frame.exec i m.world) (m.frame.exec i w) :=
      Frame.agrees_exec (by rintro k rfl name; exact seen k name (Array.mem_of_getElem? here))
        m.world w agree
    dsimp only
    generalize m.frame.exec i m.world = r at alike ⊢
    generalize m.frame.exec i w = r' at alike ⊢
    cases alike with
    | error agree => exact .ended agree
    | @ok turn _ _ agree =>
      cases turn with
      | go f => exact .goes agree
      | leave v =>
        unfold leave
        dsimp only
        split
        · exact .ended agree
        · exact .goes agree
      | call function args caller =>
        unfold enter
        dsimp only
        split_ifs
        · exact .ended agree
        · exact .ended agree
        · exact .goes agree

end Machine

end Scratchpad
