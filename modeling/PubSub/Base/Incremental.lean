import Mathlib.Data.List.Basic

/-!
# Incremental parsers

A parser takes one item off the front of its input, or takes nothing because the input has to grow
first, or fails. It is stable if input that comes later does not change what it has taken or how it
has failed. What a stable parser takes from input that arrives in chunks, with the rest of each chunk
kept for the next one, is what it takes from all of it at once.
-/

namespace Base
set_option autoImplicit false

/-- The first item and the rest of the input; nothing if there is no item yet. -/
abbrev Parser (ε τ β : Type*) := List τ → Except ε (Option (β × List τ))

namespace Parser

universe u

variable {ε : Type*} {τ β γ : Type u}

/-- Later input changes nothing. -/
structure Stable (p : Parser ε τ β) : Prop where
  item : ∀ {input rest b}, p input = .ok (some (b, rest)) → ∀ more, p (input ++ more) = .ok (some (b, rest ++ more))
  failed : ∀ {input e}, p input = .error e → ∀ more, p (input ++ more) = .error e

/-- Every item takes something off the input. -/
def Consuming (p : Parser ε τ β) : Prop :=
  ∀ {input rest b}, p input = .ok (some (b, rest)) → rest.length < input.length

/-- A parser that does not look at its input. -/
theorem stable_const (o : Option β) : Stable fun input : List τ => (.ok (o.map fun b => (b, input)) : Except ε _) := by
  constructor
  · intro input rest b taken more
    cases o with
    | none => cases taken
    | some b => cases taken; rfl
  · intro input e failed more
    cases failed

/-- One parser after the other. -/
theorem Stable.bind {p : Parser ε τ β} {k : Option (β × List τ) → Except ε (Option (γ × List τ))}
    (first : Stable p) (nothing : k none = .ok none) (second : ∀ b, Stable fun rest => k (some (b, rest))) :
    Stable fun input => p input >>= k := by
  constructor
  · intro input rest c taken more
    cases found : p input with
    | error e =>
      rw [found] at taken
      cases taken
    | ok o =>
      rw [found] at taken
      obtain none | ⟨b, rest'⟩ := o
      · cases nothing.symm.trans taken
      · show (p (input ++ more) >>= k) = _
        rw [first.item found more]
        exact (second b).item taken more
  · intro input e failed more
    show (p (input ++ more) >>= k) = _
    cases found : p input with
    | error e' =>
      rw [found] at failed
      rw [first.failed found more]
      exact failed
    | ok o =>
      rw [found] at failed
      obtain none | ⟨b, rest'⟩ := o
      · cases nothing.symm.trans failed
      · rw [first.item found more]
        exact (second b).failed failed more

/-- A computation of its own, then a parser. -/
theorem Stable.after {α : Type u} (x : Except ε α) {q : α → Parser ε τ β} (stable : ∀ a, Stable (q a)) :
    Stable fun input => x >>= fun a => q a input := by
  cases x with
  | error e => exact ⟨nofun, fun failed _ => failed⟩
  | ok a => exact stable a

/-! ## Taking all there is -/

/-- The items up to where no further one is, at most `n` of them, and the rest. -/
def drainUpTo (p : Parser ε τ β) : Nat → List τ → Except ε (List β × List τ)
  | 0, input => (p input).map fun _ => ([], input)
  | n + 1, input =>
    match p input with
    | .error e => .error e
    | .ok none => .ok ([], input)
    | .ok (some (b, rest)) => (drainUpTo p n rest).map fun s => (b :: s.1, s.2)

/-- All items that are there, and the rest. -/
def drain (p : Parser ε τ β) (input : List τ) : Except ε (List β × List τ) := p.drainUpTo input.length input

/-- The items of input that arrives in chunks, when some is pending already. -/
def feed (p : Parser ε τ β) : List (List τ) → List τ → Except ε (List β × List τ)
  | [], pending => .ok ([], pending)
  | chunk :: chunks, pending =>
    match p.drain (pending ++ chunk) with
    | .error e => .error e
    | .ok (items, rest) => (feed p chunks rest).map fun s => (items ++ s.1, s.2)

section Draining

variable {p : Parser ε τ β} (consuming : Consuming p)
include consuming

/-- No input that short has further items. -/
theorem drainUpTo_succ {n : Nat} {input : List τ} (short : input.length ≤ n) :
    p.drainUpTo (n + 1) input = p.drainUpTo n input := by
  induction n generalizing input with
  | zero =>
    rw [drainUpTo, drainUpTo]
    cases found : p input with
    | error e => rfl
    | ok o =>
      obtain none | ⟨b, rest⟩ := o
      · rfl
      · have := consuming found
        omega
  | succ n ih =>
    rw [drainUpTo, drainUpTo]
    cases found : p input with
    | error e => rfl
    | ok o =>
      obtain none | ⟨b, rest⟩ := o
      · rfl
      · have := consuming found
        dsimp only
        rw [ih (by omega)]

theorem drainUpTo_eq {n : Nat} {input : List τ} (enough : input.length ≤ n) :
    p.drainUpTo n input = p.drain input := by
  obtain ⟨k, rfl⟩ := Nat.exists_eq_add_of_le enough
  clear enough
  induction k with
  | zero => rfl
  | succ k ih => rw [← ih, ← Nat.add_assoc, drainUpTo_succ consuming (Nat.le_add_right _ _)]

theorem drain_of_item {input rest : List τ} {b : β} (taken : p input = .ok (some (b, rest))) :
    p.drain input = (p.drain rest).map fun s => (b :: s.1, s.2) := by
  have shorter := consuming taken
  obtain ⟨n, length⟩ : ∃ n, input.length = n + 1 := ⟨input.length - 1, by omega⟩
  rw [drain, length, drainUpTo, taken]
  dsimp only
  rw [drainUpTo_eq consuming (by omega)]

omit consuming in
theorem drain_of_none {input : List τ} (none : p input = .ok none) : p.drain input = .ok ([], input) := by
  rw [drain]
  cases input.length <;> simp [drainUpTo, none, Except.map]

omit consuming in
theorem drain_of_error {input : List τ} {e : ε} (failed : p input = .error e) : p.drain input = .error e := by
  rw [drain]
  cases input.length <;> simp [drainUpTo, failed, Except.map]

/-- Nothing is left to take. -/
theorem none_of_drain {input rest : List τ} {items : List β} (drained : p.drain input = .ok (items, rest)) :
    p rest = .ok none := by
  induction length : input.length using Nat.strongRecOn generalizing input items with
  | _ n ih =>
    cases found : p input with
    | error e =>
      rw [drain_of_error found] at drained
      cases drained
    | ok o =>
      obtain none | ⟨b, after⟩ := o
      · rw [drain_of_none found] at drained
        cases drained
        exact found
      · rw [drain_of_item consuming found] at drained
        cases further : p.drain after with
        | error e =>
          rw [further] at drained
          cases drained
        | ok s =>
          rw [further] at drained
          cases drained
          exact ih _ (length ▸ consuming found) further rfl

variable (stable : Stable p)
include stable

/-- What is taken before more arrives, and what then is taken of the rest. -/
theorem drain_append (input more : List τ) : p.drain (input ++ more) =
    match p.drain input with
    | .error e => .error e
    | .ok (items, rest) => (p.drain (rest ++ more)).map fun s => (items ++ s.1, s.2) := by
  induction length : input.length using Nat.strongRecOn generalizing input with
  | _ n ih =>
    cases found : p input with
    | error e => rw [drain_of_error found, drain_of_error (stable.failed found more)]
    | ok o =>
      obtain none | ⟨b, after⟩ := o
      · rw [drain_of_none found]
        dsimp only
        cases p.drain (input ++ more) <;> rfl
      · rw [drain_of_item consuming found, drain_of_item consuming (stable.item found more),
          ih _ (length ▸ consuming found) after rfl]
        cases p.drain after with
        | error e => rfl
        | ok s =>
          dsimp only [Except.map]
          cases p.drain (s.2 ++ more) <;> rfl

/-- **However the input is cut into chunks**, the items taken, the rest and the failure are those of
the whole. -/
theorem feed_eq_drain (chunks : List (List τ)) {pending : List τ} (idle : p pending = .ok none) :
    p.feed chunks pending = p.drain (pending ++ chunks.flatten) := by
  induction chunks generalizing pending with
  | nil => rw [feed, List.flatten_nil, List.append_nil, drain_of_none idle]
  | cons chunk chunks ih =>
    rw [feed, List.flatten_cons, ← List.append_assoc, drain_append consuming stable (pending ++ chunk)]
    cases drained : p.drain (pending ++ chunk) with
    | error e => rfl
    | ok s =>
      dsimp only
      rw [ih (none_of_drain consuming drained)]

end Draining

end Parser

end Base
