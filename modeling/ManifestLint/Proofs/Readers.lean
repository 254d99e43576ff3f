import ManifestLint.Reader

/-!
# What readers take

A reader in sequence with another, and what the basic readers do with a text that begins with what
they look for.
-/

namespace ManifestLint.Reader

variable {τ α β : Type}

theorem pure_apply (a : α) (input : List τ) : (pure a : Reader τ α) input = some (a, input) := rfl

@[simp] theorem bind_apply (first : Reader τ α) (then_ : α → Reader τ β) (input : List τ) :
    (first >>= then_) input = (first input).bind fun p => then_ p.1 p.2 := by
  change (first input).bind _ = _
  cases first input <;> rfl

theorem next_cons (item : τ) (rest : List τ) : (next : Reader τ τ) (item :: rest) = some (item, rest) :=
  rfl

/-- What the reader finds if it takes exactly what comes first. -/
theorem bind_of_eq {first : Reader τ α} {then_ : α → Reader τ β} {input rest : List τ} {a : α}
    (h : first input = some (a, rest)) : (first >>= then_) input = then_ a rest := by
  rw [bind_apply, h, Option.bind_some]

theorem guard_of {p : Prop} [Decidable p] (h : p) (input : List τ) :
    (guard p : Reader τ Unit) input = some ((), input) := by
  change (if p then pure () else failure : Reader τ Unit) input = _
  rw [if_pos h]
  rfl

theorem take_append {n : Nat} {items rest : List τ} (h : items.length = n) :
    (take n : Reader τ (List τ)) (items ++ rest) = some (items, rest) := by
  unfold take
  rw [if_pos (by simp [← h]), ← h, List.take_left, List.drop_left]

/-- A run ends before an item that is not of the class. -/
theorem run_append {p : τ → Bool} {items rest : List τ} (all : ∀ item ∈ items, p item = true)
    (ends : ∀ item, rest.head? = some item → p item = false) :
    (run p : Reader τ (List τ)) (items ++ rest) = some (items, rest) := by
  have none : rest.takeWhile p = [] ∧ rest.dropWhile p = rest := by
    cases rest with
    | nil => exact ⟨rfl, rfl⟩
    | cons item more => simp [ends item rfl]
  unfold run
  rw [List.takeWhile_append_of_pos all, List.dropWhile_append_of_pos all, none.1, none.2,
    List.append_nil]

theorem runSome_append {p : τ → Bool} {items rest : List τ} (nonempty : items ≠ [])
    (all : ∀ item ∈ items, p item = true) (ends : ∀ item, rest.head? = some item → p item = false) :
    (runSome p : Reader τ (List τ)) (items ++ rest) = some (items, rest) := by
  unfold runSome
  rw [bind_of_eq (run_append all ends)]
  exact bind_of_eq (guard_of (by simp [nonempty]) rest)

section
variable [BEq τ] [LawfulBEq τ]

theorem accept_append (items rest : List τ) :
    accept items (items ++ rest) = some (true, rest) := by
  unfold accept
  rw [if_pos (by simp [List.isPrefixOf_iff_prefix]), List.drop_left]

theorem accept_cons (item : τ) (rest : List τ) : accept [item] (item :: rest) = some (true, rest) :=
  accept_append [item] rest

/-- Nothing is accepted where something else comes first. -/
theorem accept_of_head?_ne {item : τ} {input : List τ} (h : input.head? ≠ some item) :
    accept [item] input = some (false, input) := by
  unfold accept
  cases input with
  | nil => rfl
  | cons first rest =>
    have other : item ≠ first := fun same => h (congrArg some same.symm)
    simp [List.isPrefixOf, other]

theorem expect_append (items rest : List τ) : expect items (items ++ rest) = some ((), rest) := by
  unfold expect
  rw [bind_of_eq (accept_append items rest)]
  rfl

theorem expect_cons (item : τ) (rest : List τ) : expect [item] (item :: rest) = some ((), rest) :=
  expect_append [item] rest

end

end ManifestLint.Reader
