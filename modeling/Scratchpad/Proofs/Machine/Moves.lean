import Scratchpad.Proofs.Machine.Follows

/-!
# Code in its place

`Placed` says where a segment stands in the code, and `Moves` what running from one place to
another does: it follows a meaning, takes values off the stack and puts others on it, and leaves
what is below alone.
-/

namespace Scratchpad

namespace Lower

/-- The instruction of an item in a loop that ends at `stop`. -/
def Item.within (stop : Nat) : Item → Instr
  | .op i _ => i
  | .leave _ => .jump stop

/-- The segment stands in the code from `pos` on; the loop around it ends at `stop`. -/
def Placed (code : Code) (stop pos : Nat) (s : Segment) : Prop :=
  ∀ i item, s[i]? = some item → code.instructions[pos + i]? = some (item.within stop)

theorem placed_cons : Placed code stop pos (item :: s) ↔
    code.instructions[pos]? = some (item.within stop) ∧ Placed code stop (pos + 1) s := by
  constructor
  · intro h
    refine ⟨h 0 item rfl, fun i item found => ?_⟩
    rw [Nat.add_assoc, Nat.add_comm 1]
    exact h (i + 1) item found
  · rintro ⟨first, rest⟩ i item found
    cases i with
    | zero => cases found; exact first
    | succ i =>
      rw [Nat.add_comm i, ← Nat.add_assoc]
      exact rest i item found

theorem placed_append : Placed code stop pos (s ++ s') ↔
    Placed code stop pos s ∧ Placed code stop (pos + s.length) s' := by
  induction s generalizing pos with
  | nil => simp [Placed]
  | cons item s ih =>
    rw [List.cons_append, placed_cons, placed_cons, ih, and_assoc, List.length_cons,
      Nat.add_right_comm, Nat.add_assoc]

@[simp] theorem length_close (stop : Nat) (s : Segment) : (close stop s).length = s.length := by
  simp [close]

/-- A closed loop does not mind what is around it. -/
theorem placed_close {s : Segment} :
    Placed code stop pos (close stop' s) ↔ Placed code stop' pos s := by
  induction s generalizing pos with
  | nil => simp [Placed, close]
  | cons item s ih =>
    refine placed_cons.trans (Iff.trans ?_ placed_cons.symm)
    refine and_congr ?_ ih
    cases item <;> exact Iff.rfl

theorem placed_finish (c : Context) (name : String) (argCount : Nat) (s : Segment)
    (tables : Tables) : Placed (finish c name argCount s tables) 0 0 s := by
  intro i item found
  have same : item.instr = item.within 0 := by cases item <;> rfl
  simp [finish, found, same]

end Lower

namespace Site

variable {site : Site} {x : Meaning slots α} {f : α → Meaning slots β}

/-- From `pos` to `stop` the machine does `x`, with `before` on the stack at first and `after` at
last; what is below stays. -/
def Moves (site : Site) (pos stop : Nat) (before : List Value) (after : α → List Value)
    (x : Meaning slots α) : Prop :=
  ∀ stack iters s, site.Follows (site.machine pos (before ++ stack) iters s)
    (fun a s' m' => m' = site.machine stop (after a ++ stack) iters s') (x s)

theorem Moves.bind_of (first : site.Moves pos mid before between x)
    (rest : ∀ a, (∃ s s', x s = some (.ok a, s')) → site.Moves mid stop (between a) after (f a)) :
    site.Moves pos stop before after (x >>= f) := by
  intro stack iters s
  refine (first stack iters s).bind ?_
  rintro a s' m' given rfl
  exact rest a ⟨s, s', given⟩ stack iters s'

theorem Moves.bind (first : site.Moves pos mid before between x)
    (rest : ∀ a, site.Moves mid stop (between a) after (f a)) :
    site.Moves pos stop before after (x >>= f) :=
  first.bind_of fun a _ => rest a

theorem Moves.ends (h : site.Moves pos stop before after x) (eq : stop = stop') :
    site.Moves pos stop' before after x :=
  eq ▸ h

theorem Moves.above (extra : List Value) (h : site.Moves pos stop before after x) :
    site.Moves pos stop (before ++ extra) (fun a => after a ++ extra) x := by
  intro stack iters s
  simp only [List.append_assoc]
  exact h (extra ++ stack) iters s

theorem moves_pure {a : α} (h : after a = before) :
    site.Moves pos pos before after (pure a : Meaning slots α) := by
  intro stack iters s
  exact .pure (by rw [h])

/-- An instruction that changes nothing but the stack. -/
theorem Moves.of_step (next : Nat) (between : List Value)
    (here : site.code.instructions[pos]? = some i)
    (does : ∀ stack iters (s : Scene slots),
      (site.frame pos (before ++ stack) iters s).exec i s.world =
        .ok (.go (site.frame next (between ++ stack) iters s), s.world))
    (rest : site.Moves next stop between after x) : site.Moves pos stop before after x := by
  intro stack iters s
  exact .of_step (step_go here (does stack iters s)) (rest stack iters s)

theorem Moves.of_next (between : List Value) (here : site.code.instructions[pos]? = some i)
    (does : ∀ stack iters (s : Scene slots),
      (site.frame pos (before ++ stack) iters s).exec i s.world =
        .ok (.go (site.frame (pos + 1) (between ++ stack) iters s), s.world))
    (rest : site.Moves (pos + 1) stop between after x) : site.Moves pos stop before after x :=
  .of_step _ _ here does rest

/-- One more such instruction behind. -/
theorem Moves.andStep (next : Nat) (after' : α → List Value) (h : site.Moves pos mid before after x)
    (here : site.code.instructions[mid]? = some i)
    (does : ∀ a stack iters (s : Scene slots),
      (site.frame mid (after a ++ stack) iters s).exec i s.world =
        .ok (.go (site.frame next (after' a ++ stack) iters s), s.world)) :
    site.Moves pos next before after' x := by
  intro stack iters s
  refine (h stack iters s).andThen ?_
  rintro a s' m' rfl
  exact ⟨_, .single (step_go here (does a stack iters s')), rfl⟩

theorem Moves.andNext (after' : α → List Value) (h : site.Moves pos mid before after x)
    (here : site.code.instructions[mid]? = some i)
    (does : ∀ a stack iters (s : Scene slots),
      (site.frame mid (after a ++ stack) iters s).exec i s.world =
        .ok (.go (site.frame (mid + 1) (after' a ++ stack) iters s), s.world)) :
    site.Moves pos (mid + 1) before after' x :=
  h.andStep _ after' here does

theorem Moves.jump (h : site.Moves pos mid before after x)
    (here : site.code.instructions[mid]? = some (.jump stop)) :
    site.Moves pos stop before after x :=
  h.andStep stop after here fun _ _ _ _ => rfl

/-- What comes behind may do more than move values. -/
theorem Moves.follows {Q : β → Scene slots → Machine → Prop} {s : Scene slots}
    (h : site.Moves pos mid before after x)
    (rest : ∀ a s', site.Follows (site.machine mid (after a) iters s') Q (f a s')) :
    site.Follows (site.machine pos before iters s) Q ((x >>= f) s) := by
  have first := h [] iters s
  simp only [List.append_nil] at first
  refine first.bind ?_
  rintro a s' m' _ rfl
  exact rest a s'

theorem moves_exec {y : Eval α} (here : site.code.instructions[pos]? = some i)
    (does : ∀ stack iters (s : Scene slots), (site.frame pos (before ++ stack) iters s).exec i =
      do return .go (site.frame (pos + 1) (after (← y) ++ stack) iters s)) :
    site.Moves pos (pos + 1) before after (Meaning.ofEval y : Meaning slots α) := by
  intro stack iters s
  exact follows_exec _ here (does stack iters s) fun a w => rfl

theorem moves_fault (here : site.code.instructions[pos]? = some i)
    (does : ∀ stack iters (s : Scene slots),
      (site.frame pos (before ++ stack) iters s).exec i s.world = .error (fault, s.world)) :
    site.Moves pos stop before after (Meaning.fault fault : Meaning slots α) := by
  intro stack iters s
  exact fails_here here (does stack iters s)

theorem moves_call (here : site.code.instructions[pos]? = some (.call args.length)) :
    site.Moves pos (pos + 1) (args.reverse ++ [v]) (fun r => [r])
      (Meaning.call (site.limit - site.callers.length) v args : Meaning slots Value) := by
  intro stack iters s
  rw [List.append_assoc]
  exact follows_call here

end Site

end Scratchpad
