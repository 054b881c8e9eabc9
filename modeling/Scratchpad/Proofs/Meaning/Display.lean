import Scratchpad.Proofs.Code.Accepts
import Scratchpad.Proofs.Machine.Safety
import Scratchpad.Proofs.Runner
import Scratchpad.Proofs.Store.Insertion
import Scratchpad.Proofs.Tree.Display

/-!
# The value of a display

`Shows` says which nodes write a datum. Such nodes compile, and evaluating them makes new objects
that are the datum again (`yields_of_shows`). So the text of a value is a source of an equal value
(`repr_reads_back`).
-/

namespace Scratchpad

/-- The keys and values of a dict in the order in which they are written. -/
def Datum.inTurn (pairs : List (Datum × Datum)) : List Datum := pairs.flatMap fun p => [p.1, p.2]

theorem Datum.mem_parts_of_inTurn {pairs : List (Datum × Datum)} (h : x ∈ inTurn pairs) :
    x ∈ (Datum.dict pairs).parts := by
  obtain ⟨p, mem, listed⟩ := List.mem_flatMap.mp h
  rcases List.mem_pair.mp listed with rfl | rfl
  · exact List.mem_append_left _ (List.mem_map_of_mem mem)
  · exact List.mem_append_right _ (List.mem_map_of_mem mem)

theorem forall₂_inTurn {R : NodeId → Datum → Prop} {keys values : List NodeId}
    {pairs : List (Datum × Datum)} (first : List.Forall₂ R keys (pairs.map (·.1)))
    (second : List.Forall₂ R values (pairs.map (·.2))) :
    List.Forall₂ R (NodeKind.dict keys values).children (Datum.inTurn pairs) := by
  rw [List.forall₂_map_right_iff] at first second
  induction first generalizing values with
  | nil => exact .nil
  | cons key _ ih =>
    cases second with
    | cons value rest => exact .cons key (.cons value (ih rest))

/-- The node and those below it write the datum. -/
inductive Tree.Shows (t : Tree) : NodeId → Datum → Prop where
  | scalar {id : NodeId} {d : Datum} (found : t.kind? id = some (.literal l))
      (same : d.expression = .literal l) : Shows t id d
  | negative {id x : NodeId} (found : t.kind? id = some (.unary .neg x))
      (operand : t.kind? x = some (.literal (.int (-n)))) : Shows t id (.int n negatable)
  | list {id : NodeId} (found : t.kind? id = some (.list elts))
      (each : List.Forall₂ (Shows t) elts ds) : Shows t id (.list ds)
  | tuple {id : NodeId} (found : t.kind? id = some (.tuple elts))
      (each : List.Forall₂ (Shows t) elts ds) : Shows t id (.tuple ds)
  | dict {id : NodeId} (found : t.kind? id = some (.dict keys values))
      (even : keys.length = values.length)
      (each : List.Forall₂ (Shows t) (NodeKind.dict keys values).children (Datum.inTurn pairs)) :
      Shows t id (.dict pairs)

namespace Expression

variable {part : NodeId → Option Expression} {kind : NodeKind}

/-- The node that a part of a display is made from. -/
theorem ofKind_display (h : ofKind part kind = some e) :
    match e with
    | .literal l => kind = .literal l
    | .unary op e => ∃ x, kind = .unary op x ∧ part x = some e
    | .list es => ∃ elts, kind = .list elts ∧ elts.mapM part = some es
    | .tuple es => ∃ elts, kind = .tuple elts ∧ elts.mapM part = some es
    | .dict pairs => ∃ keys values ks vs, kind = .dict keys values ∧ keys.length = values.length ∧
        keys.mapM part = some ks ∧ values.mapM part = some vs ∧ pairs = ks.zip vs
    | _ => True := by
  cases kind <;> simp only [ofKind, Option.bind_eq_bind, Option.bind_eq_some_iff,
    Option.ite_none_right_eq_some] at h <;> grind

end Expression

namespace Tree

variable {t : Tree} {id : NodeId} {d : Datum}

open Expression (ofNode ofKind ofKind_display)

theorem kind?_of_ofNode (made : ofNode t.nodes (depth + 1) id = some e) :
    ∃ kind, t.kind? id = some kind ∧ ofKind (ofNode t.nodes depth) kind = some e := by
  obtain ⟨n, found, made⟩ := Option.bind_eq_some_iff.mp made
  exact ⟨n.kind, by rw [kind?, get?, found]; rfl, made⟩

theorem forall₂_shows {ids : List NodeId} {ds : List Datum}
    (made : ids.mapM (ofNode t.nodes depth) = some (ds.map Datum.expression))
    (each : ∀ d ∈ ds, ∀ {id}, ofNode t.nodes depth id = some d.expression → t.Shows id d) :
    List.Forall₂ t.Shows ids ds := by
  have parts := forall₂_of_mapM made
  rw [List.forall₂_map_right_iff] at parts
  exact (forall₂_mem parts).imp fun id d h => each d h.1.2 h.2

theorem shows_of_ofNode (made : ofNode t.nodes depth id = some d.expression) : t.Shows id d := by
  induction d using Datum.induction generalizing depth id with
  | step d ih =>
  cases depth with
  | zero => cases made
  | succ depth =>
  obtain ⟨kind, found, made⟩ := kind?_of_ofNode made
  have literal {l : Literal} (same : d.expression = .literal l) : t.Shows id d := by
    rw [same] at made
    have node : kind = .literal l := ofKind_display made
    exact .scalar (node ▸ found) same
  cases d with
  | none | bool | text => exact literal rfl
  | int n negatable =>
    by_cases negative : n.toInt < 0
    · rw [Datum.expression, if_pos negative] at made
      obtain ⟨x, rfl, operand⟩ := ofKind_display made
      cases depth with
      | zero => cases operand
      | succ depth =>
        obtain ⟨kind, found', made⟩ := kind?_of_ofNode operand
        have node : kind = .literal (.int (-n)) := ofKind_display made
        exact .negative found (node ▸ found')
    · exact literal (if_neg negative)
  | list ds =>
    obtain ⟨elts, rfl, parts⟩ := ofKind_display made
    exact .list found (forall₂_shows (Datum.expressions_eq ds ▸ parts) fun d mem => ih d mem)
  | tuple ds =>
    obtain ⟨elts, rfl, parts⟩ := ofKind_display made
    exact .tuple found (forall₂_shows (Datum.expressions_eq ds ▸ parts) fun d mem => ih d mem)
  | dict pairs =>
    obtain ⟨keys, values, ks, vs, rfl, even, first, second, same⟩ := ofKind_display made
    have level : ks.length = vs.length := by
      rw [← (forall₂_of_mapM first).length_eq, ← (forall₂_of_mapM second).length_eq, even]
    rw [Datum.expressionPairs_eq] at same
    have firsts : (pairs.map (·.1)).map Datum.expression = ks := by
      simpa [Function.comp_def, List.map_fst_zip level.le] using congrArg (List.map (·.1)) same
    have seconds : (pairs.map (·.2)).map Datum.expression = vs := by
      simpa [Function.comp_def, List.map_snd_zip level.ge] using congrArg (List.map (·.2)) same
    refine .dict found even (forall₂_inTurn (forall₂_shows (firsts ▸ first) fun d mem => ?_)
      (forall₂_shows (seconds ▸ second) fun d mem => ?_))
    · exact ih d (List.mem_append_left _ mem)
    · exact ih d (List.mem_append_right _ mem)

theorem Shows.shaped (h : t.Shows id d) : Shaped t .expression id := by
  induction d using Datum.induction generalizing id with
  | step d ih =>
  have parts {ids : List NodeId} {ds : List Datum} (each : List.Forall₂ t.Shows ids ds)
      (inside : ∀ x ∈ ds, x ∈ d.parts) : ∀ p ∈ ids.map (Role.expression, ·), Shaped t p.1 p.2 := by
    intro p mem
    obtain ⟨x, listed, rfl⟩ := List.mem_map.mp mem
    obtain ⟨d', listed', shows⟩ := exists_of_forall₂ each listed
    exact ih d' (inside d' listed') shows
  cases h with
  | scalar found => exact .node found rfl trivial (by simp [Role.below, NodeKind.children])
  | negative found operand =>
    exact .node found rfl trivial
      (List.forall_mem_singleton.mpr (.node operand rfl trivial (by simp [Role.below, NodeKind.children])))
  | list found each | tuple found each =>
    exact .node found rfl trivial (parts each fun _ mem => mem)
  | dict found even each =>
    exact .node found rfl even (parts each fun _ => Datum.mem_parts_of_inTurn)

/-- A sign is one node more. -/
theorem Shows.fits (h : t.Shows id d) : t.Fits (d.depth + 2) id := by
  induction d using Datum.induction generalizing id with
  | step d ih =>
  have parts {ids : List NodeId} {ds : List Datum} (each : List.Forall₂ t.Shows ids ds)
      (inside : ∀ x ∈ ds, x ∈ d.parts) : ∀ x ∈ ids, t.Fits (d.depth + 1) x := by
    intro x mem
    obtain ⟨d', listed, shows⟩ := exists_of_forall₂ each mem
    exact (ih d' (inside d' listed) shows).mono
      (Nat.succ_le_succ (Datum.depth_part (inside d' listed)))
  cases h with
  | scalar found => exact ⟨_, found, by simp [NodeKind.children]⟩
  | negative found operand => exact ⟨_, found, List.forall_mem_singleton.mpr ⟨_, operand, by simp [NodeKind.children]⟩⟩
  | list found each | tuple found each => exact ⟨_, found, parts each fun _ mem => mem⟩
  | dict found _ each => exact ⟨_, found, parts each fun _ => Datum.mem_parts_of_inTurn⟩

end Tree

namespace Meaning

open Lower (Context)

/-- Wherever the objects of the store `b` are left alone, the computation gives the datum, and it
leaves all objects alone. -/
def Yields (b : Store) (x : Meaning slots Value) (d : Datum) : Prop :=
  ∀ s : Scene slots, b.Extends s.world.store →
    ∃ v s', x s = some (.ok v, s') ∧ s.world.store.Extends s'.world.store ∧
      s'.world.store.Stands v d

theorem yields_all {b : Store} {value : NodeId → Meaning slots Value}
    (each : List.Forall₂ (fun id d => Yields b (value id) d) ids ds) (s : Scene slots)
    (more : b.Extends s.world.store) :
    ∃ vs s', ids.mapM value s = some (.ok vs, s') ∧ s.world.store.Extends s'.world.store ∧
      List.Forall₂ s'.world.store.Stands vs ds := by
  induction each generalizing s with
  | nil => exact ⟨[], s, rfl, .refl _, .nil⟩
  | cons first _ ih =>
    obtain ⟨v, s₁, done, kept, stands⟩ := first s more
    obtain ⟨vs, s₂, rest, kept', all⟩ := ih s₁ (more.trans kept)
    refine ⟨v :: vs, s₂, ?_, kept.trans kept', .cons (stands.mono kept') all⟩
    rw [List.mapM_cons, bind_apply, done]
    simp only [bind_apply, rest]
    rfl

/-- The datum is made in one step of the store once its parts are there. -/
theorem yields_make {b : Store} {value : NodeId → Meaning slots Value} {build : List Value → Eval Value}
    (each : List.Forall₂ (fun id d => Yields b (value id) d) ids ds)
    (made : ∀ vs w, b.Extends w.store → List.Forall₂ w.store.Stands vs ds →
      ∃ v w', build vs w = .ok (v, w') ∧ w.store.Extends w'.store ∧ w'.store.Stands v d) :
    Yields b (do let vs ← ids.mapM value; ofEval (build vs)) d := by
  intro s more
  obtain ⟨vs, s₁, done, kept, all⟩ := yields_all each s more
  obtain ⟨v, w', built, kept', stands⟩ := made vs s₁.world (more.trans kept) all
  refine ⟨v, { s₁ with world := w' }, ?_, kept.trans kept', stands⟩
  rw [bind_apply, done]
  simp only [ofEval, built]

/-- Keys that are apart as they were in another store give entries of their own. -/
theorem buildDict_ok {s b : Store} {es : List Entry} {pairs : List (Datum × Datum)} {vs : List Value}
    (before : List Entry) (old : List.Forall₂ b.Holds es pairs)
    (new : List.Forall₂ s.Stands vs (Datum.inTurn pairs))
    (apart : ((before ++ es).map (·.hash)).Nodup) :
    ∃ es', Frame.buildDict s vs ⟨before⟩ = .ok ⟨before ++ es'⟩ ∧ List.Forall₂ s.Holds es' pairs ∧
      es'.map (·.hash) = es.map (·.hash) := by
  induction old generalizing vs before with
  | nil =>
    cases new
    exact ⟨[], by rw [List.append_nil]; rfl, .nil, rfl⟩
  | @cons e p es pairs first _ ih =>
    obtain ⟨key, rest₁, stands, new₁, rfl⟩ := List.forall₂_cons_right_iff.mp new
    obtain ⟨value, rest₂, stands', new₂, rfl⟩ := List.forall₂_cons_right_iff.mp new₁
    have hash : s.key key = .ok e.hash := (Store.key_of_stands stands first.key).trans first.hash
    have fresh : e.hash ∉ before.map (·.hash) := by
      rw [List.map_append] at apart
      exact fun mem => (List.nodup_append.mp apart).2.2 _ mem _ List.mem_cons_self rfl
    have inserted : s.inserted ⟨before⟩ key value = .ok ⟨before ++ [⟨e.hash, key, value⟩]⟩ := by
      rw [Store.inserted, hash]
      exact congrArg (fun es => Except.ok (Dict.mk es)) (Dict.put_fresh fresh)
    obtain ⟨es', built, holds, hashes⟩ :=
      ih (before ++ [⟨e.hash, key, value⟩]) new₂ (by simpa using apart)
    refine ⟨⟨e.hash, key, value⟩ :: es', ?_, .cons ⟨stands, stands', hash⟩ holds, ?_⟩
    · rw [Frame.buildDict, inserted]
      exact built.trans (by rw [List.append_assoc]; rfl)
    · rw [List.map_cons, hashes, List.map_cons]

theorem stands_literal {d : Datum} (same : d.expression = .literal l) (s : Store) :
    s.Stands l.value d := by
  cases d with
  | none => cases same; exact .none
  | bool b => cases same; exact .bool b
  | int n negatable =>
    rw [Datum.expression] at same
    split at same
    · cases same
    · cases same; exact .int n negatable
  | text t writable => cases same; exact .text t writable
  | list | tuple | dict => cases same

/-- Nodes that write a datum give it, if another store has it too. -/
theorem yields_of_shows {c : Context} {id : NodeId} {b : Store} (shows : c.tree.Shows id d)
    (fits : c.tree.Fits depth id) (known : b.Stands v d) (calls : Nat) :
    Yields b (Meaning.value c calls depth id) d := by
  induction d using Datum.induction generalizing depth id v with
  | step d ih =>
  cases depth with
  | zero => exact fits.elim
  | succ depth =>
  have value {kind : NodeKind} (found : c.tree.kind? id = some kind) :
      Meaning.value c calls (depth + 1) id =
        Meaning.expression c calls (Meaning.value c calls depth) kind := by
    rw [Meaning.value, found]
  have parts {kind : NodeKind} {ds : List Datum} (found : c.tree.kind? id = some kind)
      (each : List.Forall₂ c.tree.Shows kind.children ds) (inside : ∀ x ∈ ds, x ∈ d.parts) :
      List.Forall₂ (fun id d => Yields b (Meaning.value c calls depth id) d) kind.children ds := by
    refine (forall₂_mem each).imp ?_
    rintro x d ⟨⟨listed, mem⟩, shows⟩
    obtain ⟨v, known⟩ := known.part (inside d mem)
    exact ih d (inside d mem) shows (fits.child found listed) known
  cases shows with
  | scalar found same =>
    rw [value found]
    exact fun s _ => ⟨_, s, rfl, .refl _, stands_literal same _⟩
  | @negative n negatable _ x found operand =>
    rw [value found]
    intro s _
    have inner : Meaning.value c calls depth x s = some (.ok (.int (-n)), s) := by
      cases depth with
      | zero => exact (fits.child found List.mem_cons_self).elim
      | succ depth =>
        rw [Meaning.value, operand]
        rfl
    have opposite : Operator.unary s.world.store .neg (.int (-n)) = .ok (.int n) := by
      change Operator.exact (-(-n).toInt) = _
      rw [Operator.exact, Token.toInt_neg negatable, Int.neg_neg, Token.int64?_toInt, Operator.held]
    refine ⟨.int n, s, ?_, .refl _, .int n negatable⟩
    rw [Meaning.expression, bind_apply, inner]
    simp only [ofEval, Eval.ask, opposite]
    rfl
  | list found each =>
    rw [value found]
    refine yields_make (parts found each fun _ mem => mem) fun vs w _ all => ?_
    obtain ⟨more, stands⟩ := Store.newList_stands vs.toArray all
    exact ⟨_, _, rfl, more, stands⟩
  | tuple found each =>
    rw [value found]
    refine yields_make (parts found each fun _ mem => mem) fun vs w _ all => ?_
    obtain ⟨more, stands⟩ := Store.newTuple_stands vs.toArray all
    exact ⟨_, _, rfl, more, stands⟩
  | dict found _ each =>
    rw [value found]
    refine yields_make (parts found each fun _ => Datum.mem_parts_of_inTurn) fun vs w _ all => ?_
    cases known with
    | dict _ hashed apart keys values =>
      obtain ⟨es', built, holds, hashes⟩ :=
        buildDict_ok [] (Store.forall₂_holds hashed keys values) all apart
      obtain ⟨more, stands⟩ := Store.newDict_stands (hashes ▸ apart) holds
      have asked : Eval.ask (Frame.buildDict · vs {}) w = .ok (⟨es'⟩, w) := by
        rw [Eval.ask, built]
        rfl
      refine ⟨_, { w with store := (w.store.newDict ⟨es'⟩).2 }, ?_, more, stands⟩
      change (Eval.ask (Frame.buildDict · vs {}) w).bind _ = _
      rw [asked]
      rfl

end Meaning

open Lower (Context)

theorem Machine.run_of_answer {m : Machine} (h : m.answer limit = some (.ok v, w)) :
    ∃ fuel, m.run limit fuel = some ⟨.ok v, w⟩ := by
  obtain ⟨⟨outcome, world⟩, ended, same⟩ := Option.map_eq_some_iff.mp h
  cases outcome with
  | error => cases same
  | ok => cases same; exact Machine.outcome_eq_some_iff.mp ended

/-- The code of nodes that write a datum runs to a value that is the datum. -/
theorem run_of_shows {t : Tree} {id : NodeId} (root : t.root = .expression id) (shows : t.Shows id d)
    (shallow : d.depth + 2 ≤ Lower.maxNesting) (limit : Nat) {w : World} (known : w.store.Stands v d) :
    ∃ code fuel v' w', Code.ofTree t .eval = .ok code ∧ code.mode = .eval ∧
      code.run limit fuel w = some ⟨.ok v', w'⟩ ∧ w.store.Extends w'.store ∧ w'.store.Stands v' d := by
  have tops : ∀ p ∈ t.tops, Shaped t p.1 p.2 := by
    rw [Tree.tops, root]
    exact List.forall_mem_singleton.mpr shows.shaped
  have wellFormed : WellFormed t .eval := wellFormed_of_shaped (by rw [root]; rfl) tops (by simp)
  cases compiled : Code.ofTree t .eval with
  | error e =>
    obtain ⟨_, x, mem, deep⟩ := Lower.tooDeep_of_wellFormed wellFormed compiled
    rw [Tree.body, root] at mem
    obtain rfl := List.mem_singleton.mp mem
    exact absurd (shows.fits.mono shallow) deep
  | ok code =>
    rcases Lower.ofTree_ok compiled with ⟨id', seg, tables, root', made, whole⟩ | ⟨notEval, _⟩
    · cases root.symm.trans root'
      let c : Context := ⟨t, .eval, false, []⟩
      have size : (Frame.enter code []).locals.size = c.slots := by rw [whole]; rfl
      let s : Scene c.slots := ⟨⟨_, size⟩, w⟩
      obtain ⟨v', s', value, kept, stands⟩ : ∃ v' s', Meaning.value c limit t.size id s =
          some (.ok v', s') ∧ w.store.Extends s'.world.store ∧ s'.world.store.Stands v' d :=
        Meaning.yields_of_shows shows shows.shaped.fits known limit s (.refl _)
      have answer : (Site.machine ⟨code, [], limit⟩ 0 [] [] s).answer limit =
          some (.ok v', s'.world) := by
        rw [Site.answer_value made whole s, value]
        rfl
      obtain ⟨fuel, ran⟩ := Machine.run_of_answer answer
      exact ⟨code, fuel, v', s'.world, rfl, by rw [whole]; rfl, ran, kept, stands⟩
    · exact absurd rfl notEval

/-- The text of a value that is nested fewer than 90 containers deep, none of them inside itself, is
a source. In `eval` mode it runs to a value that is equal to the first and has the same text. -/
theorem repr_reads_back {w : World} {v : Value} {d : Datum} (stands : w.store.Stands v d)
    (shallow : d.depth < 90) (flags : Flags) (config : Config) :
    ∃ fuel result v',
      Runner.run { source := w.store.repr v, mode := .eval, flags, config } fuel w = some result ∧
        result.outcome = .ok (some v') ∧ result.world.store.equal v v' = .ok true ∧
        result.world.store.repr v' = w.store.repr v := by
  have fits : d.depth ≤ Store.maxDepth := Nat.le_of_lt (shallow.trans (by decide))
  have text := Store.toList_repr_of_stands stands fits
  have room : d.depth + 1 < Parse.maxNesting := (Nat.succ_lt_succ shallow).trans (by decide)
  obtain ⟨nodes, id, parsed, hangs⟩ := ofSource_chars d room flags
  let t : Tree := ⟨nodes, .expression id⟩
  have shows : t.Shows id d := Tree.shows_of_ofNode hangs
  have low : d.depth + 2 ≤ Lower.maxNesting := (Nat.add_lt_add_right shallow 2).le.trans (by decide)
  obtain ⟨code, fuel, v', w', compiled, mode, ran, kept, stands'⟩ :=
    run_of_shows rfl shows low config.maxRecursionDepth (w := Runner.withoutResult w) stands
  let r : Runner := { source := w.store.repr v, mode := .eval, flags, config }
  have ensured : r.ensureCode = .ok (code, { r with tree := some t, code := some code }) :=
    Runner.ensureCode_new ⟨rfl, rfl⟩ (text ▸ parsed) compiled
  have value : Runner.surfacedValue code v' w' = some v' := by rw [Runner.surfacedValue, mode]
  refine ⟨fuel, _, v', Runner.run_of_code ensured ran, congrArg Except.ok value, ?_, ?_⟩
  · exact Store.equal_of_stands (stands.mono kept) stands' fits
  · rw [← String.toList_inj, text]
    exact Store.toList_repr_of_stands stands' fits

/-- The list `[-2, "it's", (None,), {True: []}]`. -/
def nestedList : World where
  store.lists := #[#[], #[.int (-2), .text "it's", .tuple 0, .dict 0]]
  store.tuples := #[#[.none]]
  store.dicts := #[⟨[⟨.int 1, .bool true, .list 0⟩]⟩]

theorem nestedList_reads_back :
    nestedList.store.repr (.list 1) = "[-2, \"it's\", (None,), \x7bTrue: []\x7d]" ∧
      ∃ fuel result v', Runner.run { source := nestedList.store.repr (.list 1), mode := .eval } fuel
          nestedList = some result ∧
        result.outcome = .ok (some v') ∧ result.world.store.equal (.list 1) v' = .ok true ∧
        result.world.store.repr v' = nestedList.store.repr (.list 1) := by
  have stands : nestedList.store.Stands (.list 1) (.list [.int (-2) (by decide),
      .text "it's" (by simp [Token.Writable]), .tuple [.none], .dict [(.bool true, .list [])]]) := by
    refine .list rfl (.cons (.int ..) (.cons (.text ..) (.cons ?_ (.cons ?_ .nil))))
    · exact .tuple rfl (.cons .none .nil)
    · refine .dict rfl ?_ ?_ (.cons (.bool _) .nil) (.cons (.list rfl .nil) .nil)
      · exact List.forall_mem_singleton.mpr rfl
      · exact List.nodup_singleton _
  exact ⟨by cbv, repr_reads_back stands (by decide) {} {}⟩

end Scratchpad
