import Scratchpad.Proofs.Code.Expression
import Scratchpad.Proofs.Machine.Shared

/-!
# Expressions as a beginning

The segment of an expression refers to entries of its tables and jumps no further than its own end
(`Makes.bounded`). So code that holds at this end begins as any code does that has the segment first
(`begins_finish`).
-/

namespace Scratchpad.Lower

/-- Refers to entries of the tables, and jumps no further than `stop`. -/
def Item.Bounded (t : Tables) (stop : Nat) : Item → Prop
  | .op i _ => (∀ k, i.constant? = some k → ∃ entry, t.constants[k]? = some entry) ∧
      (∀ k, i.name? = some k → ∃ entry, t.names[k]? = some entry) ∧
      ∀ target, i.target? = some target → target ≤ stop
  | .leave _ => False

def Segment.Bounded (t : Tables) (stop : Nat) (s : Segment) : Prop := ∀ item ∈ s, item.Bounded t stop

namespace Segment

variable {t t' : Tables} {s s' : Segment} {i : Instr} {span : Span}

theorem Bounded.mono (h : s.Bounded t stop) (le : t.Le t') (further : stop ≤ stop') :
    s.Bounded t' stop' := by
  intro item mem
  have bounded := h item mem
  cases item with
  | leave => exact bounded
  | op i span =>
    obtain ⟨constants, names, targets⟩ := bounded
    refine ⟨fun k refers => ?_, fun k refers => ?_, fun target jumps => (targets target jumps).trans further⟩
    · obtain ⟨entry, found⟩ := constants k refers
      exact ⟨entry, le.constants found⟩
    · obtain ⟨entry, found⟩ := names k refers
      exact ⟨entry, le.names found⟩

theorem bounded_nil : Bounded t stop [] := nofun

theorem Bounded.append (h : s.Bounded t stop) (h' : s'.Bounded t stop) : Bounded t stop (s ++ s') :=
  fun item mem => (List.mem_append.mp mem).elim (h item) (h' item)

theorem Bounded.cons {item : Item} (first : item.Bounded t stop) (h : s.Bounded t stop) :
    Bounded t stop (item :: s) :=
  List.forall_mem_cons.mpr ⟨first, h⟩

end Segment

open Segment (bounded_nil)

theorem Item.bounded_plain {i : Instr} {span : Span} (constant : i.constant? = none) (name : i.name? = none)
    (target : i.target? = none) : (Item.op i span).Bounded t stop := by
  refine ⟨fun k h => ?_, fun k h => ?_, fun k h => ?_⟩
  · rw [constant] at h; cases h
  · rw [name] at h; cases h
  · rw [target] at h; cases h

theorem Item.bounded_jump {i : Instr} {span : Span} (constant : i.constant? = none) (name : i.name? = none)
    (target : i.target? = some pos) (le : pos ≤ stop) : (Item.op i span).Bounded t stop := by
  refine ⟨fun k h => ?_, fun k h => ?_, fun k h => ?_⟩
  · rw [constant] at h; cases h
  · rw [name] at h; cases h
  · rw [target] at h; cases h; exact le

theorem Item.bounded_name {i : Instr} {span : Span} (constant : i.constant? = none) (name : i.name? = some k)
    (target : i.target? = none) (entry : t.names[k]? = some found) :
    (Item.op i span).Bounded t stop := by
  refine ⟨fun k h => ?_, fun k h => ?_, fun k h => ?_⟩
  · rw [constant] at h; cases h
  · rw [name] at h; cases h; exact ⟨found, entry⟩
  · rw [target] at h; cases h

theorem Named.bounded {fast slow : Nat → Instr} (h : Named c name fast slow span t s t')
    (quick : ∀ slot, (fast slot).constant? = none ∧ (fast slot).name? = none ∧
      (fast slot).target? = none)
    (named : ∀ k, (slow k).constant? = none ∧ (slow k).name? = some k ∧ (slow k).target? = none) :
    Segment.Bounded t' stop s := by
  cases h with
  | slot =>
    obtain ⟨constant, name, target⟩ := quick _
    exact .cons (Item.bounded_plain constant name target) bounded_nil
  | global _ _ entry =>
    obtain ⟨constant, name, target⟩ := named _
    exact .cons (Item.bounded_name constant name target entry) bounded_nil

/-- How far behind its own end a part may jump. -/
def Part.slack : Part → Nat
  | .links _ (_ :: _ :: _) => 1
  | _ => 0

theorem slack_links (span : Span) (stop : Nat) (chain : List (CompareOp × NodeId)) :
    Part.slack (.links span chain) ≤ (linkEnd span stop chain).length := by
  match chain with
  | [] | [_] => exact Nat.zero_le _
  | l :: l' :: ls => simp [Part.slack, linkEnd]

/-- The code of an expression refers to what is in its tables and stays inside. -/
theorem Makes.bounded (h : Makes c part t pos s t') :
    Segment.Bounded t' (pos + s.length + part.slack) s := by
  induction h with
  | literal _ entry =>
    refine .cons ⟨fun k refers => ?_, nofun, nofun⟩ bounded_nil
    cases refers
    exact ⟨_, (constant_ok entry).2⟩
  | name _ load =>
    exact (loadName_ok load).bounded (fun _ => ⟨rfl, rfl, rfl⟩) fun _ => ⟨rfl, rfl, rfl⟩
  | unary _ _ ih | list _ _ ih | tuple _ _ ih | dict _ _ _ ih | lastLink _ ih =>
    refine (ih.mono (.refl _) ?_).append (.cons (Item.bounded_plain rfl rfl rfl) bounded_nil)
    simp only [Part.slack, List.length_append, List.length_cons, List.length_nil]
    omega
  | boolean _ _ _ ih | lastChoice _ ih => exact ih
  | @compare left ops comparators span t pos s t' s' t'' id _ _ _ _ chain ih ih' =>
    have room := slack_links span (pos + s.length + s'.length) (ops.zip comparators)
    refine ((ih.mono chain.le ?_).append (ih'.mono (.refl _) ?_)).append ?_
    · simp only [Part.slack, List.length_append]
      omega
    · simp only [List.length_append]
      omega
    · unfold linkEnd
      split
      · exact bounded_nil
      · refine .cons (Item.bounded_jump rfl rfl rfl ?_) (.cons (Item.bounded_plain rfl rfl rfl)
          (.cons (Item.bounded_plain rfl rfl rfl) bounded_nil))
        simp only [Part.slack, List.length_append, List.length_cons, List.length_nil]
        omega
  | conditional _ _ body orelse ih ih' ih'' =>
    refine (ih.mono (body.le.trans orelse.le) ?_).append
      (.cons (Item.bounded_jump rfl rfl rfl ?_) (ih'.mono orelse.le ?_)) |>.append
      (.cons (Item.bounded_jump rfl rfl rfl ?_) (ih''.mono (.refl _) ?_))
    all_goals
      simp only [Part.slack, List.length_append, List.length_cons]
      omega
  | named _ _ store ih =>
    have stores := storeName_ok store
    refine (ih.mono stores.le ?_).append (.cons (Item.bounded_plain rfl rfl rfl)
      (stores.bounded (fun _ => ⟨rfl, rfl, rfl⟩) fun _ => ⟨rfl, rfl, rfl⟩))
    simp only [Part.slack, List.length_append]
    omega
  | binary _ _ right ih ih' | call _ _ right ih ih' | subscript _ _ right ih ih' =>
    refine (ih.mono right.le ?_).append ((ih'.mono (.refl _) ?_).append
      (.cons (Item.bounded_plain rfl rfl rfl) bounded_nil))
    all_goals
      simp only [Part.slack, List.length_append, List.length_cons, List.length_nil]
      omega
  | «attribute» _ _ entry ih =>
    obtain ⟨le, found⟩ := nameIndex_ok entry
    refine (ih.mono le ?_).append (.cons (Item.bounded_name rfl rfl rfl found) bounded_nil)
    simp only [Part.slack, List.length_append, List.length_cons, List.length_nil]
    omega
  | none => exact bounded_nil
  | cons _ rest ih ih' =>
    refine (ih.mono rest.le ?_).append (ih'.mono (.refl _) ?_)
    all_goals
      simp only [Part.slack, List.length_append]
      omega
  | @choice a t pos s t' span op b as s' t'' _ rest ih ih' =>
    have jumps : (Item.op (choiceJump op (pos + s.length + 1 + s'.length)) span).Bounded t''
        (pos + (s ++ .op (choiceJump op (pos + s.length + 1 + s'.length)) span :: s').length) := by
      cases op
      all_goals
        refine Item.bounded_jump rfl rfl rfl ?_
        simp only [List.length_append, List.length_cons]
        omega
    refine (ih.mono rest.le ?_).append (.cons jumps (ih'.mono (.refl _) ?_))
    all_goals
      simp only [Part.slack, List.length_append, List.length_cons]
      omega
  | @link a t pos s t' span l ls s' t'' stop op _ rest stopAt ih ih' =>
    have slack : Part.slack (.links span (l :: ls)) ≤ 1 := by
      unfold Part.slack
      split <;> simp
    refine ((ih.mono rest.le ?_).append (.cons (Item.bounded_plain rfl rfl rfl)
      (.cons (Item.bounded_plain rfl rfl rfl) (.cons (Item.bounded_plain rfl rfl rfl)
        (.cons (Item.bounded_jump rfl rfl rfl ?_) bounded_nil))))).append (ih'.mono (.refl _) ?_)
    all_goals
      simp only [Part.slack, List.length_append, List.length_cons, List.length_nil] at slack ⊢
      omega

/-- Code that stays at the end of a segment begins as all code that starts with it. -/
theorem begins_finish {c c' : Context} {s rest : Segment} {t t' : Tables}
    (bounded : s.Bounded t s.length) (le : t.Le t') (locals : c'.locals = c.locals) (name : String)
    (argCount : Nat) (span : Span) :
    (finish c name argCount (s ++ [.op (.jump s.length) span]) t).Begins s.length
      (finish c' name argCount (s ++ rest) t') := by
  have known {pc : Nat} {i : Instr} (lt : pc < s.length)
      (here : (finish c name argCount (s ++ [.op (.jump s.length) span]) t).instructions[pc]? = some i) :
      ∃ item ∈ s, item.instr = i ∧ item.Bounded t s.length := by
    refine ⟨s[pc], List.getElem_mem lt, ?_, bounded _ (List.getElem_mem lt)⟩
    simpa [finish, List.getElem?_append_left, lt] using here
  constructor
  · rfl
  · simp only [finish, locals]
  · intro pc lt
    simp [finish, List.getElem?_append_left, lt]
  · intro pc lt
    simp [finish, CodeOf.spanAt?, List.getElem?_append_left, lt]
  · intro pc lt i here
    obtain ⟨item, mem, rfl, holds⟩ := known lt here
    cases item with
    | leave => exact holds.elim
    | op i span =>
      refine ⟨fun k refers => ?_, fun k refers => ?_⟩
      · obtain ⟨entry, found⟩ := holds.1 k refers
        simp only [finish, found, le.constants found, Option.map_some, Constant.mapSpans_id]
      · obtain ⟨entry, found⟩ := holds.2.1 k refers
        simp only [finish, found, le.names found]
  · intro pc lt i here target jumps
    obtain ⟨item, mem, rfl, holds⟩ := known lt here
    cases item with
    | leave => exact holds.elim
    | op i span => exact holds.2.2 target jumps

end Scratchpad.Lower
