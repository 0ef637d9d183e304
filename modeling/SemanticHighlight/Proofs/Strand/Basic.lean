import Mathlib.Data.List.OfFn
import Mathlib.Logic.Function.Basic

/-!
# Strands of work

Strands take turns and share a state. A strand changes the state at one go, waits for news that others
bring, or starts several strands together and waits for all of them. If one of these fails, the strand
that waits for them fails at once; the others are not stopped, but nobody waits for them any more.
`Advance` is one turn of a strand, at whichever of its parts: nothing is said about who comes first.
-/

namespace SemanticHighlight

inductive Strand (State Key News Error : Type) : Type → Type 1 where
  | pure {α : Type} (a : α) : Strand State Key News Error α
  | fail {α : Type} (e : Error) : Strand State Key News Error α
  | act {α β : Type} (work : StateM State β) (next : β → Strand State Key News Error α) :
      Strand State Key News Error α
  | await {α : Type} (key : Key) (next : News → Strand State Key News Error α) :
      Strand State Key News Error α
  | together {α β : Type} (count : Nat) (children : Fin count → Strand State Key News Error β)
      (next : (Fin count → β) → Strand State Key News Error α) : Strand State Key News Error α

variable {State Key News Error α β γ : Type}

namespace Strand

/-- One strand after the other. -/
def bind : Strand State Key News Error α → (α → Strand State Key News Error β) →
    Strand State Key News Error β
  | pure a, f => f a
  | fail e, _ => fail e
  | act work next, f => act work fun b => (next b).bind f
  | await key next, f => await key fun news => (next news).bind f
  | together count children next, f => together count children fun values => (next values).bind f

instance : Monad (Strand State Key News Error) where
  pure := pure
  bind := bind

def ofResult : Except Error α → Strand State Key News Error α
  | .ok a => pure a
  | .error e => fail e

/-- Work that is done at one go and may fail. -/
def sync (x : ExceptT Error (StateM State) α) : Strand State Key News Error α := act x.run ofResult

def newsOf (key : Key) : Strand State Key News Error News := await key pure

/-- The results of a strand for each element, all of them at the same time. -/
def forAll (xs : List γ) (f : γ → Strand State Key News Error β) :
    Strand State Key News Error (List β) :=
  together xs.length (fun i => f xs[i]) fun values => pure (List.ofFn values)

def result? : Strand State Key News Error α → Option (Except Error α)
  | pure a => some (.ok a)
  | fail e => some (.error e)
  | _ => none

@[simp] theorem result?_ofResult (result : Except Error α) :
    (ofResult result : Strand State Key News Error α).result? = some result := by
  cases result <;> rfl

end Strand

/-- A strand that nobody waits for, with the type that its result would have. -/
abbrev Stray (State Key News Error : Type) := Σ β : Type, Strand State Key News Error β

namespace Strand

/-- One turn of a strand: it changes the state and leaves some strays behind. -/
inductive Advance (known : Key → News → Prop) : {α : Type} → State →
    Strand State Key News Error α → State → Strand State Key News Error α →
    List (Stray State Key News Error) → Prop where
  | act {α β : Type} {s : State} {work : StateM State β}
      {next : β → Strand State Key News Error α} :
      Advance known s (act work next) (work.run s).2 (next (work.run s).1) []
  | await {α : Type} {s : State} {key : Key} {news : News}
      {next : News → Strand State Key News Error α} (hknown : known key news) :
      Advance known s (await key next) s (next news) []
  | child {α β : Type} {s s' : State} {count : Nat}
      {children : Fin count → Strand State Key News Error β}
      {next : (Fin count → β) → Strand State Key News Error α} {i : Fin count}
      {child : Strand State Key News Error β} {strays : List (Stray State Key News Error)}
      (hchild : Advance known s (children i) s' child strays) :
      Advance known s (together count children next) s'
        (together count (Function.update children i child) next) strays
  | join {α β : Type} {s : State} {count : Nat}
      {children : Fin count → Strand State Key News Error β}
      {next : (Fin count → β) → Strand State Key News Error α} {values : Fin count → β}
      (hvalues : ∀ i, children i = pure (values i)) :
      Advance known s (together count children next) s (next values) []
  | fall {α β : Type} {s : State} {count : Nat}
      {children : Fin count → Strand State Key News Error β}
      {next : (Fin count → β) → Strand State Key News Error α} {i : Fin count} {e : Error}
      (hfail : children i = fail e) :
      Advance known s (together count children next) s (fail e)
        (List.ofFn fun j => ⟨β, children j⟩)

end Strand

end SemanticHighlight
