import Scratchpad.Proofs.Machine.Primitives

/-!
# What an instruction needs

Values on the stack, iterators, and entries in the tables. The machine checks for all of them, so a
step that does not fail for a reason of its own had them (`ready_of_plain`).
-/

namespace Scratchpad

/-- How many values an instruction finds on the stack. -/
def Instr.operands : Instr → Nat
  | .storeName _ | .storeFast _ | .loadAttr _ | .unary _ | .unpack _ | .pop | .dupTop
  | .popJumpIfFalse _ | .popJumpIfTrue _ | .jumpIfFalseOrPop _ | .jumpIfTrueOrPop _
  | .getIter | .returnValue => 1
  | .storeAttr _ | .loadSubscript | .binary _ | .compare _ | .dupTwo | .rotTwo => 2
  | .storeSubscript | .rotThree => 3
  | .buildList n | .buildTuple n => n
  | .buildDict n => 2 * n
  | .call n => n + 1
  | .loadConst _ | .loadName _ | .loadFast _ | .makeFunction _ | .jump _ | .forIter _
  | .popIter => 0

/-- How many iterators it finds. -/
def Instr.iterators : Instr → Nat
  | .forIter _ | .popIter => 1
  | _ => 0

/-- The entry that it names is there, and of the right sort. -/
def Instr.Indexes (f : Frame) : Instr → Prop
  | .loadConst i => ∃ l, f.code.constants[i]? = some (.literal l)
  | .makeFunction i => ∃ c, f.code.constants[i]? = some (.code c)
  | .loadName i | .storeName i | .loadAttr i | .storeAttr i => i < f.code.names.size
  | .loadFast i | .storeFast i => i < f.locals.size
  | _ => True

namespace Frame

variable {f : Frame} {w : World}

/-- The frame has all that the instruction needs. -/
structure Ready (f : Frame) (i : Instr) : Prop where
  operands : i.operands ≤ f.stack.length
  iterators : i.iterators ≤ f.iterators.length
  indexes : i.Indexes f

theorem pop_of_plain {g : Value × Frame → Eval α} (h : PlainIn w (liftM f.pop >>= g)) :
    ∃ v rest, f.stack = v :: rest ∧ PlainIn w (g (v, { f with stack := rest })) := by
  unfold pop at h
  cases given : f.stack with
  | nil => rw [given] at h; exact absurd rfl (h _ _ rfl)
  | cons v rest => rw [given] at h; exact ⟨v, rest, rfl, h⟩

theorem popN_of_plain {g : List Value × Frame → Eval α} (h : PlainIn w (liftM (f.popN n) >>= g)) :
    n ≤ f.stack.length ∧
      PlainIn w (g ((f.stack.take n).reverse, { f with stack := f.stack.drop n })) := by
  unfold popN at h
  split at h
  · exact ⟨‹_›, h⟩
  · exact absurd rfl (h _ _ rfl)

theorem name_of_plain {g : String → Eval α} (h : PlainIn w (liftM (f.name i) >>= g)) :
    i < f.code.names.size ∧ ∃ name, PlainIn w (g name) := by
  unfold name at h
  cases found : f.code.names[i]? with
  | none => rw [found] at h; exact absurd rfl (h _ _ rfl)
  | some name =>
    rw [found] at h
    exact ⟨(Array.getElem?_eq_some_iff.mp found).1, name, h⟩

theorem constant_of_plain {g : Constant → Eval α} (h : PlainIn w (liftM (f.constant i) >>= g)) :
    ∃ k, f.code.constants[i]? = some k ∧ PlainIn w (g k) := by
  unfold constant at h
  cases found : f.code.constants[i]? with
  | none => rw [found] at h; exact absurd rfl (h _ _ rfl)
  | some k => rw [found] at h; exact ⟨k, rfl, h⟩

theorem lifted_of_plain {x : Except Fault α} {g : α → Eval β} (h : PlainIn w (liftM x >>= g)) :
    Plain x := by
  rintro fault rfl
  exact h fault w rfl

theorem loadConst_of_plain (h : Plain (f.loadConst i)) :
    ∃ l, f.code.constants[i]? = some (.literal l) := by
  unfold loadConst constant at h
  cases found : f.code.constants[i]? with
  | none => rw [found] at h; exact absurd rfl (h _ rfl)
  | some k =>
    rw [found] at h
    cases k with
    | literal l => exact ⟨l, rfl⟩
    | code c => exact absurd rfl (h _ rfl)

theorem loadName_of_plain (h : Plain (f.loadName w i)) : i < f.code.names.size := by
  unfold loadName name at h
  cases found : f.code.names[i]? with
  | none => rw [found] at h; exact absurd rfl (h _ rfl)
  | some name => exact (Array.getElem?_eq_some_iff.mp found).1

theorem loadFast_of_plain (h : Plain (f.loadFast i)) : i < f.locals.size := by
  unfold loadFast at h
  cases found : f.locals[i]? with
  | none => rw [found] at h; exact absurd rfl (h _ rfl)
  | some v => exact (Array.getElem?_eq_some_iff.mp found).1

theorem storeFast_of_plain (h : Plain (f.storeFast i)) :
    1 ≤ f.stack.length ∧ i < f.locals.size := by
  unfold storeFast pop at h
  cases stack : f.stack with
  | nil => rw [stack] at h; exact absurd rfl (h _ rfl)
  | cons v rest =>
    rw [stack] at h
    refine ⟨by simp, Decidable.byContradiction fun outside => ?_⟩
    change Plain (if i < f.locals.size then _ else _) at h
    rw [if_neg outside] at h
    exact absurd rfl (h _ rfl)

theorem unpack_of_plain {s : Store} (h : Plain (f.unpack s n)) : 1 ≤ f.stack.length := by
  unfold unpack pop at h
  cases stack : f.stack with
  | nil => rw [stack] at h; exact absurd rfl (h _ rfl)
  | cons v rest => simp

theorem shuffle_of_plain {i : Instr} (moves : i ∈ [.dupTop, .dupTwo, .rotTwo, .rotThree])
    (h : Plain (f.shuffle i)) : i.operands ≤ f.stack.length := by
  simp only [List.mem_cons, List.not_mem_nil, or_false] at moves
  unfold shuffle at h
  match stack : f.stack with
  | [] => rcases moves with rfl | rfl | rfl | rfl <;> (rw [stack] at h; exact absurd rfl (h _ rfl))
  | [a] => 
    rcases moves with rfl | rfl | rfl | rfl
    · simp [Instr.operands]
    all_goals rw [stack] at h; exact absurd rfl (h _ rfl)
  | [a, b] =>
    rcases moves with rfl | rfl | rfl | rfl
    · simp [Instr.operands]
    · simp [Instr.operands]
    · simp [Instr.operands]
    · rw [stack] at h; exact absurd rfl (h _ rfl)
  | a :: b :: c :: rest => rcases moves with rfl | rfl | rfl | rfl <;> simp [Instr.operands]

theorem forIter_of_plain {s : Store} (h : Plain (f.forIter s n)) : 1 ≤ f.iterators.length := by
  unfold forIter at h
  cases iterators : f.iterators with
  | nil => rw [iterators] at h; exact absurd rfl (h _ rfl)
  | cons it outer => simp

/-- An instruction that does not fail for a reason of the machine's own had all it needs. -/
theorem ready_of_plain {i : Instr} (h : PlainIn w (f.exec i)) : f.Ready i := by
  cases i with
  | loadConst i =>
    exact ⟨Nat.zero_le _, Nat.zero_le _, loadConst_of_plain (lifted_of_plain h)⟩
  | loadName i =>
    change PlainIn w (liftM (f.loadName w i) >>= fun f => pure (.go f.next) : Eval Turn) at h
    exact ⟨Nat.zero_le _, Nat.zero_le _, loadName_of_plain (lifted_of_plain h)⟩
  | storeName i =>
    obtain ⟨known, name, h⟩ := name_of_plain h
    obtain ⟨v, rest, stack, _⟩ := pop_of_plain h
    exact ⟨by simp [stack, Instr.operands], Nat.zero_le _, known⟩
  | loadFast i => exact ⟨Nat.zero_le _, Nat.zero_le _, loadFast_of_plain (lifted_of_plain h)⟩
  | storeFast i =>
    obtain ⟨enough, inside⟩ := storeFast_of_plain (lifted_of_plain h)
    exact ⟨enough, Nat.zero_le _, inside⟩
  | loadAttr i =>
    obtain ⟨known, name, h⟩ := name_of_plain h
    obtain ⟨v, rest, stack, _⟩ := pop_of_plain h
    exact ⟨by simp [stack, Instr.operands], Nat.zero_le _, known⟩
  | storeAttr i =>
    obtain ⟨known, name, h⟩ := name_of_plain h
    obtain ⟨v, rest, stack, h⟩ := pop_of_plain h
    obtain ⟨v', rest', stack', _⟩ := pop_of_plain h
    cases stack'
    exact ⟨by simp [stack, Instr.operands], Nat.zero_le _, known⟩
  | loadSubscript | binary _ | compare _ =>
    obtain ⟨v, rest, stack, h⟩ := pop_of_plain h
    obtain ⟨v', rest', stack', _⟩ := pop_of_plain h
    cases stack'
    exact ⟨by simp [stack, Instr.operands], Nat.zero_le _, trivial⟩
  | storeSubscript =>
    obtain ⟨v, rest, stack, h⟩ := pop_of_plain h
    obtain ⟨v', rest', stack', h⟩ := pop_of_plain h
    cases stack'
    obtain ⟨v'', rest'', stack'', _⟩ := pop_of_plain h
    cases stack''
    exact ⟨by simp [stack, Instr.operands], Nat.zero_le _, trivial⟩
  | unary _ | pop | popJumpIfFalse _ | popJumpIfTrue _ | jumpIfFalseOrPop _ | jumpIfTrueOrPop _
  | getIter | returnValue =>
    obtain ⟨v, rest, stack, _⟩ := pop_of_plain h
    exact ⟨by simp [stack, Instr.operands], Nat.zero_le _, trivial⟩
  | buildList n | buildTuple n | buildDict n =>
    exact ⟨(popN_of_plain h).1, Nat.zero_le _, trivial⟩
  | unpack n =>
    change PlainIn w (liftM (f.unpack w.store n) >>= fun f => pure (.go f.next) : Eval Turn) at h
    exact ⟨unpack_of_plain (lifted_of_plain h), Nat.zero_le _, trivial⟩
  | call n =>
    obtain ⟨enough, h⟩ := popN_of_plain h
    obtain ⟨v, rest, stack, _⟩ := pop_of_plain h
    have left := congrArg List.length stack
    rw [List.length_drop, List.length_cons] at left
    exact ⟨by rw [Instr.operands]; omega, Nat.zero_le _, trivial⟩
  | makeFunction i =>
    obtain ⟨k, found, h⟩ := constant_of_plain h
    cases k with
    | literal l => exact absurd rfl (h _ _ rfl)
    | code c => exact ⟨Nat.zero_le _, Nat.zero_le _, c, found⟩
  | dupTop | dupTwo | rotTwo | rotThree =>
    exact ⟨shuffle_of_plain (by simp) (lifted_of_plain h), Nat.zero_le _, trivial⟩
  | jump _ => exact ⟨Nat.zero_le _, Nat.zero_le _, trivial⟩
  | forIter target =>
    change PlainIn w (liftM (f.forIter w.store target) >>= fun f => pure (.go f) : Eval Turn) at h
    exact ⟨Nat.zero_le _, forIter_of_plain (lifted_of_plain h), trivial⟩
  | popIter =>
    unfold exec at h
    cases iterators : f.iterators with
    | nil => rw [iterators] at h; exact absurd rfl (h _ _ rfl)
    | cons it outer => exact ⟨Nat.zero_le _, by simp [iterators, Instr.iterators], trivial⟩

end Frame

/-- The machine stands at an instruction and has all that this needs. -/
def Machine.Ready (m : Machine) : Prop :=
  ∃ i, m.frame.code.instructions[m.frame.pc]? = some i ∧ m.frame.Ready i

theorem Machine.ready_of_step {m : Machine}
    (h : ∀ failure w, m.step limit = .inl ⟨.error failure, w⟩ → failure.fault.kind ≠ .systemError) :
    m.Ready := by
  unfold step at h
  cases here : m.frame.code.instructions[m.frame.pc]? with
  | none =>
    rw [here] at h
    exact absurd rfl (h _ _ rfl)
  | some i =>
    rw [here] at h
    dsimp only at h
    refine ⟨i, here, Frame.ready_of_plain (w := m.world) fun fault w failed => ?_⟩
    rw [failed] at h
    exact h _ _ rfl

end Scratchpad
