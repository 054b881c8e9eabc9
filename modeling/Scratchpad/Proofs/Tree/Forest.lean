import Scratchpad.Proofs.Code.Tables
import Scratchpad.Proofs.Tree.Progress

/-!
# Parsed trees are forests

In a tree that was read every node but those at the top is mentioned by just one other, which comes
after it, and each stands where its sort belongs (`ofTokens_forest`).
-/

namespace Scratchpad

namespace Parse

variable {s s' : State}

theorem skipNewlines_built (h : skipNewlines s = .ok (u, s')) : Built (fun _ => True) s s' [] := by
  refine iterate_ok (I := fun _ s' => Built (fun _ => True) s s' []) h (built_refl s)
    fun _ s₁ r s₂ inv h => ?_
  obtain ⟨eaten, s₃, ate, h⟩ := bind_ok h
  have more := inv.trans (eat_built ate trivial)
  cases eaten <;> obtain ⟨-, rfl⟩ := pure_ok h <;> exact more

/-- What the top of a tree is made of. -/
structure Rooted (d : Nat) (s : State) (t : Tree) (s' : State) : Prop where
  nodes : t.nodes = s'.nodes
  built : Built (fun _ => True) s s' t.body
  tops : ∀ p ∈ t.tops, Fills t.nodes p.1 p.2
  nests : ∀ x ∈ t.body, Nests t.nodes d x

theorem Made.rooted {t : Tree} (h : Made d s t.body s') (nodes : t.nodes = s'.nodes)
    (tops : t.tops = t.body.map (.statement false false, ·)) : Rooted d s t s' := by
  refine ⟨nodes, h.built, fun p mem => ?_, fun x mem => nodes ▸ h.nests x mem⟩
  rw [tops] at mem
  obtain ⟨x, inside, rfl⟩ := List.mem_map.mp mem
  exact nodes ▸ h.sorts x inside

theorem root_built (h : rootWithin room mode s = .ok (top, s')) :
    top.mode = mode ∧ Rooted (8 * room + 5) s ⟨s'.nodes, top⟩ s' := by
  have shallow := within_shallow room
  cases mode with
  | exec =>
    obtain ⟨_, s₁, skipped, h⟩ := bind_ok h
    obtain ⟨body, s₂, loop, h⟩ := bind_ok h
    obtain ⟨rfl, rfl⟩ := pure_ok h
    have made : Made (8 * room + 5) s body s₂ := by
      refine iterate_ok (I := fun body s' => Made (8 * room + 5) s body s') loop
        ((made_nil s).pass (skipNewlines_built skipped)) fun body s₁ r s₂ inv h => ?_
      obtain ⟨o, -, h⟩ := bind_still peek?_ok h
      split at h
      · obtain ⟨rfl, rfl⟩ := pure_ok h
        exact inv
      · obtain ⟨ids, s₃, read, h⟩ := bind_ok h
        obtain ⟨_, s₄, skipped, h⟩ := bind_ok h
        obtain ⟨rfl, rfl⟩ := pure_ok h
        exact (inv.append (statement_made shallow read).1).pass (skipNewlines_built skipped)
    exact ⟨rfl, made.rooted (t := ⟨s₂.nodes, .module body⟩) rfl rfl⟩
  | eval =>
    obtain ⟨_, s₁, skipped, h⟩ := bind_ok h
    obtain ⟨o, -, h⟩ := bind_still peek?_ok h
    split at h
    · obtain ⟨_, _, failed, _⟩ := bind_ok h
      exact (unexpected_ok failed).elim
    · obtain ⟨body, s₂, read, h⟩ := bind_ok h
      have given := testList_given shallow read
      obtain ⟨_, s₃, skipped', h⟩ := bind_ok h
      have passes := skipNewlines_built skipped'
      obtain ⟨o, -, h⟩ := bind_still peekSpan?_ok h
      split at h
      · obtain ⟨_, _, failed, _⟩ := bind_ok h
        exact (fail_ok failed).elim
      · obtain ⟨rfl, rfl⟩ := pure_ok h
        have sits := given.sits.grow passes.grows
        refine ⟨rfl, rfl, ?_, ?_, ?_⟩
        · exact (given.after (skipNewlines_built skipped)).trans passes
        · simpa [Tree.tops] using sits.sort
        · simpa [Tree.body] using sits.nests.mono (by omega)
  | single =>
    obtain ⟨_, s₁, skipped, h⟩ := bind_ok h
    obtain ⟨o, -, h⟩ := bind_still peek?_ok h
    have before : Made (8 * room + 5) s [] s₁ := (made_nil s).pass (skipNewlines_built skipped)
    split at h
    · obtain ⟨rfl, rfl⟩ := pure_ok h
      exact ⟨rfl, before.rooted (t := ⟨s₁.nodes, .interactive []⟩) rfl rfl⟩
    · obtain ⟨body, s₂, read, h⟩ := bind_ok h
      obtain ⟨_, s₃, skipped', h⟩ := bind_ok h
      obtain ⟨o, -, h⟩ := bind_still peekSpan?_ok h
      split at h
      · obtain ⟨_, _, failed, _⟩ := bind_ok h
        cases failed
      · obtain ⟨rfl, rfl⟩ := pure_ok h
        have made := (before.append (statement_made shallow read).1).pass (skipNewlines_built skipped')
        exact ⟨rfl, made.rooted (t := ⟨s₃.nodes, .interactive body⟩) rfl rfl⟩

end Parse

namespace Tree

theorem rooted_of_within {t : Tree} (h : ofTokensWithin room mode tokens = .ok t) :
    t.root.mode = mode ∧ ∃ s', Parse.Rooted (8 * room + 5) (.ofTokens tokens) t s' := by
  obtain ⟨⟨top, s'⟩, read, made⟩ := except_bind_ok h
  cases made
  obtain ⟨same, rooted⟩ := Parse.root_built read
  exact ⟨same, s', rooted⟩

/-- The nodes that a tree mentions, below other nodes or at its top, each as often as it does. -/
def mentioned (t : Tree) : List NodeId := t.nodes.toList.flatMap (·.kind.children) ++ t.body

/-- Each node is mentioned once, by one that comes after it or at the top, and is what its position asks
for; all are whole. -/
structure Forest (t : Tree) : Prop where
  resolves : ∀ id ∈ t.mentioned, id < t.size
  once : ∀ id < t.size, t.mentioned.count id = 1
  earlier : ∀ id kind, t.kind? id = some kind → ∀ child ∈ kind.children, child < id
  fills : ∀ id kind, t.kind? id = some kind → ∀ p ∈ kind.positions, Fills t.nodes p.1 p.2
  tops : ∀ p ∈ t.tops, Fills t.nodes p.1 p.2
  whole : ∀ id kind, t.kind? id = some kind → kind.Whole

namespace Forest

variable {t : Tree} {a b x last : NodeId}

/-- No statement gets to another one at the top. -/
theorem apart_of_before (h : t.Forest) (body : t.body = before ++ [last]) (mem : x ∈ before) :
    ¬ Relation.ReflTransGen t.Mentions x last := by
  intro path
  have atTop : 0 < t.body.count last := List.count_pos_iff.mpr (by simp [body])
  have known : last < t.size := h.resolves last (List.mem_append_right _ (by simp [body]))
  have once := h.once last known
  rw [mentioned, List.count_append] at once
  rcases Relation.ReflTransGen.cases_tail path with rfl | ⟨y, -, kind, found, child⟩
  · have twice : 0 < before.count last := List.count_pos_iff.mpr mem
    rw [body, List.count_append, List.count_singleton_self] at once
    omega
  · obtain ⟨n, there, rfl⟩ := Option.map_eq_some_iff.mp found
    have inside : n ∈ t.nodes.toList := Array.mem_toList_iff.mpr (Array.mem_of_getElem? there)
    have below : 0 < (t.nodes.toList.flatMap (·.kind.children)).count last :=
      List.count_pos_iff.mpr (List.mem_flatMap.mpr ⟨n, inside, child⟩)
    omega

end Forest

/-- The names in a tree are names among the tokens. -/
theorem names_of_rooted {t : Tree} (h : Parse.Rooted d s t s') (new : s.nodes = #[]) :
    ∀ id kind, t.kind? id = some kind → ∀ name ∈ kind.names, Token.name name ∈ s.tokens := by
  intro id kind found name mem
  obtain ⟨n, there, rfl⟩ := Option.map_eq_some_iff.mp found
  have first : s.nodes.size ≤ id := by rw [new]; exact Nat.zero_le id
  exact (h.built.sound id n first (h.nodes ▸ there)).names name mem

/-- What was built from nothing is a forest. -/
theorem forest_of_rooted {t : Tree} (h : Parse.Rooted d s t s') (new : s.nodes = #[]) : t.Forest := by
  have empty : s.nodes.size = 0 := by rw [new]; rfl
  have perm : t.mentioned.Perm (List.range t.size) := by
    obtain ⟨nodes, added, once⟩ := h.built.grown
    rw [new, Array.toList_empty, List.nil_append] at added
    have size : nodes.length = t.size := by rw [← added, ← h.nodes]; rfl
    rw [empty, ← List.range_eq_range', size] at once
    rw [mentioned, h.nodes, added]
    exact once
  have sound : ∀ id kind, t.kind? id = some kind → ∃ n, n.kind = kind ∧ Parse.Sound s t.nodes id n := by
    intro id kind found
    obtain ⟨n, there, same⟩ := Option.map_eq_some_iff.mp found
    rw [h.nodes]
    exact ⟨n, same, h.built.sound id n (empty ▸ Nat.zero_le id) (h.nodes ▸ there)⟩
  refine ⟨fun id mem => ?_, fun id lt => ?_, fun id kind found => ?_, fun id kind found => ?_, h.tops,
    fun id kind found => ?_⟩
  · exact List.mem_range.mp (perm.subset mem)
  · rw [perm.count_eq, List.count_eq_one_of_mem List.nodup_range (List.mem_range.mpr lt)]
  all_goals
    obtain ⟨n, rfl, sound⟩ := sound id kind found
  · exact sound.earlier
  · exact sound.fills
  · exact sound.whole

end Tree

/-- Every tree that is read from tokens is a forest. -/
theorem ofTokens_forest (mode : Mode) (tokens : List Token.Placed) (t : Tree)
    (h : Tree.ofTokens mode tokens = .ok t) : t.root.mode = mode ∧ t.Forest := by
  rw [Tree.ofTokens_within] at h
  obtain ⟨same, s', rooted⟩ := Tree.rooted_of_within h
  exact ⟨same, Tree.forest_of_rooted rooted rfl⟩

/-- A function with two parameters, whose body is `a, b[0] = x and y`. -/
def functionTokens : List Token.Placed :=
  List.map (⟨·, {}⟩) [.keyword .defKw, .name "f", .symbol .leftParen, .name "x", .symbol .comma, .name "y",
    .symbol .rightParen, .symbol .colon, .newline, .indent, .name "a", .symbol .comma, .name "b",
    .symbol .leftBracket, .int 0, .symbol .rightBracket, .symbol .assign, .name "x", .keyword .andKw,
    .name "y", .newline, .dedent]

theorem ofTokens_forest_function :
    ∃ t, Tree.ofTokens .exec functionTokens = .ok t ∧ t.root.mode = .exec ∧ t.Forest := by
  have read : (Tree.ofTokens .exec functionTokens).isOk = true := by decide +kernel
  cases h : Tree.ofTokens .exec functionTokens with
  | ok t => exact ⟨t, rfl, ofTokens_forest .exec functionTokens t h⟩
  | error e =>
    rw [h] at read
    cases read

end Scratchpad
