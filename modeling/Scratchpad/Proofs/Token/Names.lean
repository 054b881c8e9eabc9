import Scratchpad.Proofs.Token.Turns

/-!
# Which tokens a text can have

A token is one of the layout or was scanned from the front of some text (`tokenize_forall`). So what
holds of all that can be scanned holds of all tokens: a name is made of the characters of names
(`chars_of_name`).
-/

namespace Scratchpad.Token

variable {P : Token → Prop}

namespace State

variable {s s' : State}

/-- All tokens read so far have `P`. -/
def All (P : Token → Prop) (s : State) : Prop := ∀ p ∈ s.tokens, P p.token

theorem All.turn (layout : ∀ {t}, isLayout t = true → P t)
    (scanned : ∀ {c rest t size}, scan c rest = .ok (.token t, size) → P t) (h : s.All P)
    (turn : s.Turn s') : s'.All P := by
  cases turn with
  | line outside blank => exact h
  | indent outside width => exact List.forall_mem_cons.mpr ⟨layout rfl, h⟩
  | dedent outside n le =>
    intro p mem
    rcases List.mem_append.mp mem with new | old
    · rw [(List.mem_replicate.mp new).2]
      exact layout rfl
    · exact h p old
  | blank here found => exact h
  | joined inside here found => exact h
  | newline outside here found => exact List.forall_mem_cons.mpr ⟨layout rfl, h⟩
  | token here found kept =>
    intro p mem
    rw [(accept_ok kept).2.2.2] at mem
    rcases List.mem_cons.mp mem with rfl | old
    · exact scanned found
    · exact h p old

end State

/-- What holds of the tokens of the layout and of all that can be scanned, holds of every token of a
text. -/
theorem tokenize_forall (layout : ∀ {t}, isLayout t = true → P t)
    (scanned : ∀ {c rest t size}, scan c rest = .ok (.token t, size) → P t)
    (h : tokenize flags source = .ok tokens) : ∀ p ∈ tokens, P p.token := by
  obtain ⟨s, read, -, rfl⟩ := tokenize_ok h
  have none : (State.first source).All P := fun _ mem => by cases mem
  have all : s.All P := State.keeps_of_run (State.All.turn layout scanned) none read
  intro p mem
  rcases List.mem_append.mp mem with ended | closing
  · rcases List.mem_append.mp ended with old | newline
    · exact all p (List.mem_reverse.mp old)
    · split at newline
      · rw [List.mem_singleton.mp newline]
        exact layout rfl
      · cases newline
  · rw [(List.mem_replicate.mp closing).2]
    exact layout rfl

/-! ### Names -/

/-- A name has only the characters of names. -/
def OfNameChars (t : Token) : Prop := ∀ id, t = .name id → ∀ c ∈ id.toList, isNameChar c = true

theorem scanName_ok (h : scanName s = (t, n)) : OfNameChars t := by
  rintro id rfl
  unfold scanName at h
  dsimp only at h
  split at h
  · cases h
  · cases h
    intro c mem
    rw [String.toList_ofList] at mem
    exact List.mem_takeWhile_imp mem

theorem ofNameChars_scan (h : scan c rest = .ok (.token t, size)) : OfNameChars t := by
  cases scans_of_scan h with
  | word named => exact scanName_ok named
  | _ => exact fun _ same => by cases same

theorem chars_of_name {id : String} (h : tokenize flags source = .ok tokens)
    (mem : .name id ∈ tokens.map (·.token)) : ∀ c ∈ id.toList, isNameChar c = true := by
  obtain ⟨p, listed, same⟩ := List.mem_map.mp mem
  have layout {t : Token} (kind : isLayout t = true) : OfNameChars t := by
    rintro id rfl
    cases kind
  exact tokenize_forall layout ofNameChars_scan h p listed id same

end Scratchpad.Token
