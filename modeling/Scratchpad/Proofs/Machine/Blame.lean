import Scratchpad.Proofs.Code.Tables
import Scratchpad.Proofs.Machine.Blind
import Scratchpad.Proofs.Machine.Run

/-!
# What a step keeps

An instruction leads to the next one or to its target (`leads_of_exec`). The codes of the frames and of the
functions stay in any set that has the codes inside its members (`Knows.step`), and a fault is blamed on the
instruction that failed (`span_of_step`).
-/

namespace Scratchpad

/-- All functions in the store have code with `K`. -/
def World.Knows (K : Code → Prop) (w : World) : Prop := ∀ f ∈ w.store.functions, K f.code

/-- Keeps the codes of the functions in `K`, and gives what `P` says. -/
def Keeps (K : Code → Prop) (x : Eval α) (P : α → Prop) : Prop :=
  ∀ w a w', w.Knows K → x w = .ok (a, w') → w'.Knows K ∧ P a

variable {K : Code → Prop}

theorem keeps_pure {P : α → Prop} {a : α} (h : P a) : Keeps K (pure a) P := by
  rintro w _ _ known ⟨⟩
  exact ⟨known, h⟩

theorem keeps_fail {P : α → Prop} (fault : Fault) : Keeps K (Eval.fail fault) P := by
  rintro w _ _ _ ⟨⟩

theorem Keeps.bind {x : Eval α} {g : α → Eval β} {P : α → Prop} {Q : β → Prop}
    (first : Keeps K x P) (rest : ∀ a, P a → Keeps K (g a) Q) : Keeps K (x >>= g) Q := by
  intro w b w' known h
  change (x w).bind _ = _ at h
  match done : x w with
  | .ok (a, w₁) =>
    rw [done] at h
    obtain ⟨known, holds⟩ := first w a w₁ known done
    exact rest a holds w₁ b w' known h
  | .error fault => rw [done] at h; cases h

theorem keeps_lift {x : Except Fault α} {P : α → Prop} (h : ∀ a, x = .ok a → P a) :
    Keeps K (liftM x : Eval α) P := by
  intro w a w' known done
  cases x with
  | ok b => cases done; exact ⟨known, h _ rfl⟩
  | error fault => cases done

theorem keeps_get : Keeps K (get : Eval World) fun w => w.Knows K := by
  rintro w _ _ known ⟨⟩
  exact ⟨known, known⟩

theorem Steady.knows {x : Eval α} (h : Steady x) {w : World} (known : w.Knows K) :
    (x.after w).Knows K := by
  rw [World.Knows, h.functions w]
  exact known

theorem Steady.keeps {x : Eval α} (h : Steady x) : Keeps K x fun _ => True := by
  intro w a w' known done
  exact ⟨Eval.after_of_ok done ▸ h.knows known, trivial⟩

theorem keeps_functions (ref : Nat) : Keeps K (Eval.ask fun s => .ok s.functions[ref]?)
    fun found => ∀ function ∈ found, K function.code := by
  rintro w _ _ all ⟨⟩
  exact ⟨all, fun function found => all function (Array.mem_of_getElem? found)⟩

/-! ### Where an instruction leads -/

def Instr.target? : Instr → Option Nat
  | .jump target | .popJumpIfFalse target | .popJumpIfTrue target | .jumpIfFalseOrPop target
  | .jumpIfTrueOrPop target | .forIter target => some target
  | _ => none

namespace Frame

variable {f f' : Frame}

/-- `f'` is at the same instruction. -/
def Stays (f f' : Frame) : Prop := f'.code = f.code ∧ f'.pc = f.pc

/-- What the instruction `i` may lead to from `f`; the code of a function that is called is in `K`. -/
def Leads (K : Code → Prop) (f : Frame) (i : Instr) : Turn → Prop
  | .go f' => f'.code = f.code ∧ (f'.pc = f.pc + 1 ∨ i.target? = some f'.pc)
  | .call function _ f' => K function.code ∧ f.Stays f'
  | .leave _ => True

theorem Stays.trans {f'' : Frame} (h : f.Stays f') (h' : f'.Stays f'') : f.Stays f'' :=
  ⟨h'.1.trans h.1, h'.2.trans h.2⟩

theorem Stays.next {i : Instr} (h : f.Stays f') : f.Leads K i (.go f'.next) :=
  ⟨h.1, .inl (congrArg (· + 1) h.2)⟩

theorem pop_stays (h : f.pop = .ok (v, f')) : f.Stays f' := by
  unfold pop at h
  split at h <;> cases h
  exact ⟨rfl, rfl⟩

theorem keeps_pop : Keeps K (liftM f.pop) fun p => f.Stays p.2 :=
  keeps_lift fun _ => pop_stays

theorem keeps_popN (n : Nat) : Keeps K (liftM (f.popN n)) fun p => f.Stays p.2 := by
  refine keeps_lift fun (vs, f') h => ?_
  unfold popN at h
  split at h <;> cases h
  exact ⟨rfl, rfl⟩

theorem keeps_loadConst (k : Nat) : Keeps K (liftM (f.loadConst k)) f.Stays := by
  refine keeps_lift fun f' h => ?_
  obtain ⟨k, _, h⟩ := except_bind_ok h
  cases k <;> cases h
  exact ⟨rfl, rfl⟩

theorem keeps_loadName (w : World) (k : Nat) : Keeps K (liftM (f.loadName w k)) f.Stays := by
  refine keeps_lift fun f' h => ?_
  obtain ⟨name, _, h⟩ := except_bind_ok h
  split at h
  · cases h
    exact ⟨rfl, rfl⟩
  · split at h <;> cases h
    exact ⟨rfl, rfl⟩

theorem keeps_loadFast (k : Nat) : Keeps K (liftM (f.loadFast k)) f.Stays := by
  refine keeps_lift fun f' h => ?_
  unfold loadFast at h
  split at h <;> cases h
  exact ⟨rfl, rfl⟩

theorem keeps_storeFast (k : Nat) : Keeps K (liftM (f.storeFast k)) f.Stays := by
  refine keeps_lift fun f' h => ?_
  obtain ⟨⟨v, f₁⟩, popped, h⟩ := except_bind_ok h
  dsimp only at h
  split at h <;> cases h
  exact (pop_stays popped).trans ⟨rfl, rfl⟩

theorem keeps_unpack (s : Store) (n : Nat) : Keeps K (liftM (f.unpack s n)) f.Stays := by
  refine keeps_lift fun f' h => ?_
  obtain ⟨⟨v, f₁⟩, popped, h⟩ := except_bind_ok h
  obtain ⟨items, _, h⟩ := except_bind_ok h
  split at h
  · cases h
  · split at h <;> cases h
    exact (pop_stays popped).trans ⟨rfl, rfl⟩

theorem keeps_shuffle (i : Instr) : Keeps K (liftM (f.shuffle i)) f.Stays := by
  refine keeps_lift fun f' h => ?_
  unfold shuffle at h
  repeat' split at h
  all_goals cases h
  all_goals exact ⟨rfl, rfl⟩

theorem keeps_forIter (s : Store) (target : Nat) :
    Keeps K (liftM (f.forIter s target)) fun f' => f.Leads K (.forIter target) (.go f') := by
  refine keeps_lift fun f' h => ?_
  unfold forIter at h
  split at h
  · cases h
  · split at h <;> cases h
    · exact ⟨rfl, .inl rfl⟩
    · exact ⟨rfl, .inr rfl⟩

theorem keeps_push {i : Instr} {x : Eval Value} (steady : Steady x) (h : f.Stays f') :
    Keeps K (do return .go (f'.push (← x)).next) (f.Leads K i) :=
  steady.keeps.bind fun _ _ => keeps_pure (Stays.next h)

theorem keeps_call {i : Instr} (n : Nat) : Keeps K (f.call n) (f.Leads K i) := by
  refine (keeps_popN n).bind fun (args, f₁) at₁ => keeps_pop.bind fun (callee, f₂) at₂ => ?_
  have at₂ := at₁.trans at₂
  cases callee with
  | function ref =>
    refine (keeps_functions ref).bind fun found all => ?_
    cases found with
    | some function => exact keeps_pure ⟨all function rfl, at₂⟩
    | none => exact keeps_fail _
  | builtin b => exact keeps_push (Builtin.formed_call b args).steady at₂
  | method ref =>
    refine (steady_ask fun _ => plain_ok _).keeps.bind fun found _ => ?_
    cases found with
    | some m => exact keeps_push (Method.formed_call _ _ _).steady at₂
    | none => exact keeps_fail _
  | _ => exact keeps_fail _

/-- An instruction leads to the next one or to its target, and keeps all codes in a set that has the codes inside
its members. -/
theorem keeps_exec (f : Frame) (inner : ∀ k : Code, .code k ∈ f.code.constants → K k) (i : Instr) :
    Keeps K (f.exec i) (f.Leads K i) := by
  have go {f' : Frame} (h : f.Stays f') : Keeps K (pure (.go f'.next)) (f.Leads K i) := keeps_pure h.next
  cases i with
  | loadConst k => exact (keeps_loadConst k).bind fun _ => go
  | loadName k => exact keeps_get.bind fun w _ => (keeps_loadName w k).bind fun _ => go
  | storeName k =>
    refine (keeps_lift fun _ _ => trivial).bind fun name _ => keeps_pop.bind fun p at₁ => ?_
    rintro w _ _ known ⟨⟩
    exact ⟨known, at₁.next⟩
  | loadFast k => exact (keeps_loadFast k).bind fun _ => go
  | storeFast k => exact (keeps_storeFast k).bind fun _ => go
  | loadAttr k =>
    exact (keeps_lift fun _ _ => trivial).bind fun name _ => keeps_pop.bind fun p at₁ =>
      keeps_push (Subscript.formed_loadAttribute _ _).steady at₁
  | storeAttr k =>
    exact (keeps_lift fun _ _ => trivial).bind fun name _ => keeps_pop.bind fun p _ =>
      keeps_pop.bind fun _ _ => keeps_fail _
  | loadSubscript =>
    exact keeps_pop.bind fun p at₁ => keeps_pop.bind fun q at₂ =>
      keeps_push (steady_ask fun s => Subscript.plain_load s _ _) (at₁.trans at₂)
  | storeSubscript =>
    exact keeps_pop.bind fun p at₁ => keeps_pop.bind fun q at₂ => keeps_pop.bind fun r at₃ =>
      (Subscript.formed_store _ _ _).steady.keeps.bind fun _ _ => go ((at₁.trans at₂).trans at₃)
  | binary op =>
    exact keeps_pop.bind fun p at₁ => keeps_pop.bind fun q at₂ =>
      keeps_push (Operator.formed_binary op _ _).steady (at₁.trans at₂)
  | unary op =>
    exact keeps_pop.bind fun p at₁ => keeps_push (steady_ask fun s => Operator.plain_unary s op _) at₁
  | compare op =>
    exact keeps_pop.bind fun p at₁ => keeps_pop.bind fun q at₂ =>
      (steady_ask fun s => Operator.plain_compare s op _ _).keeps.bind fun _ _ => go (at₁.trans at₂)
  | buildList n => exact (keeps_popN n).bind fun p at₁ => keeps_push (steady_list _) at₁
  | buildTuple n => exact (keeps_popN n).bind fun p at₁ => keeps_push (steady_tuple _) at₁
  | buildDict n =>
    exact (keeps_popN _).bind fun p at₁ => (steady_ask fun s => plain_buildDict s _ _).keeps.bind
      fun d _ => keeps_push (steady_dict _) at₁
  | unpack n => exact keeps_get.bind fun w _ => (keeps_unpack _ n).bind fun _ => go
  | call n => exact keeps_call n
  | makeFunction k =>
    have read : Keeps K (liftM (f.constant k)) fun entry => entry ∈ f.code.constants := by
      refine keeps_lift fun entry h => ?_
      unfold constant at h
      split at h <;> cases h
      exact Array.mem_of_getElem? ‹_›
    refine read.bind fun entry mem => ?_
    cases entry with
    | literal l => exact keeps_fail _
    | code c =>
      rintro w _ _ all ⟨⟩
      refine ⟨fun function made => ?_, rfl, .inl rfl⟩
      rcases Array.mem_push.mp made with old | rfl
      · exact all function old
      · exact inner c mem
  | pop => exact keeps_pop.bind fun _ => go
  | dupTop | dupTwo | rotTwo | rotThree => exact (keeps_shuffle _).bind fun _ => go
  | jump target => exact keeps_pure ⟨rfl, .inr rfl⟩
  | popJumpIfFalse target | popJumpIfTrue target =>
    refine keeps_pop.bind fun p at₁ => keeps_get.bind fun w _ => keeps_pure ?_
    unfold branch
    split
    · exact ⟨at₁.1, .inr rfl⟩
    · exact at₁.next
  | jumpIfFalseOrPop target =>
    refine keeps_pop.bind fun p at₁ => keeps_get.bind fun w _ => keeps_pure ?_
    split
    · exact at₁.next
    · exact ⟨rfl, .inr rfl⟩
  | jumpIfTrueOrPop target =>
    refine keeps_pop.bind fun p at₁ => keeps_get.bind fun w _ => keeps_pure ?_
    split
    · exact ⟨rfl, .inr rfl⟩
    · exact at₁.next
  | getIter =>
    exact keeps_pop.bind fun p at₁ => (steady_ask fun s => s.plain_iterate _).keeps.bind
      fun it _ => go ⟨at₁.1, at₁.2⟩
  | forIter target =>
    exact keeps_get.bind fun w _ => (keeps_forIter _ target).bind fun _ leads => keeps_pure leads
  | popIter =>
    dsimp only [exec]
    split
    · exact keeps_pure ⟨rfl, .inl rfl⟩
    · exact keeps_fail _
  | returnValue => exact keeps_pop.bind fun _ _ => keeps_pure trivial

theorem leads_of_exec {i : Instr} (h : f.exec i w = .ok (turn, w')) : f.Leads (fun _ => True) i turn :=
  (keeps_exec f (fun _ _ => trivial) i w turn w' (fun _ _ => trivial) h).2

end Frame

namespace Machine

/-- Every code that runs, waits or can be called is in `K`. -/
structure Knows (K : Code → Prop) (m : Machine) : Prop where
  frame : K m.frame.code
  callers : ∀ f ∈ m.callers, K f.code
  world : m.world.Knows K

variable {m m' : Machine} (inner : ∀ c k : Code, K c → .code k ∈ c.constants → K k)

include inner

theorem Knows.step (known : m.Knows K) (next : m.step limit = .inr m') : m'.Knows K := by
  unfold Machine.step at next
  split at next
  · cases next
  rename_i i _
  have keeps := Frame.keeps_exec m.frame (inner _ · known.frame) i
  split at next
  · cases next
  · cases next
    obtain ⟨world, same, _⟩ := keeps _ _ _ known.world ‹_›
    exact ⟨same ▸ known.frame, known.callers, world⟩
  · obtain ⟨world, _⟩ := keeps _ _ _ known.world ‹_›
    unfold leave at next
    split at next
    · cases next
    · rename_i caller callers waiting
      cases next
      exact ⟨known.callers caller (waiting ▸ List.mem_cons_self),
        fun f mem => known.callers f (waiting ▸ List.mem_cons_of_mem caller mem), world⟩
  · obtain ⟨world, function, caller, _⟩ := keeps _ _ _ known.world ‹_›
    split at next
    · cases next
    · rename_i entered
      cases next
      unfold enter at entered
      split at entered
      · cases entered
      split at entered
      · cases entered
      cases entered
      exact ⟨function, List.forall_mem_cons.mpr ⟨caller ▸ known.frame, known.callers⟩, world⟩

theorem Knows.reaches (known : m.Knows K) (path : Reaches limit m m') : m'.Knows K := by
  induction path with
  | refl => exact known
  | tail _ next ih => exact ih.step inner next

omit inner

/-- A fault is blamed on the instruction that failed. -/
theorem span_of_step {failure : Failure} (here : m.frame.code.instructions[m.frame.pc]? = some i)
    (failed : m.step limit = .inl ⟨.error failure, w⟩) : failure.span = m.blame? m.frame.pc := by
  unfold Machine.step at failed
  rw [here] at failed
  dsimp only at failed
  split at failed
  · cases failed; rfl
  · cases failed
  · unfold leave at failed
    split at failed <;> cases failed
  · split at failed
    · cases failed; rfl
    · cases failed

theorem blame?_of_span (placed : m.frame.code.spanAt? pc = some span) : m.blame? pc = some span := by
  simp [blame?, placed]

end Machine

end Scratchpad
