import SemanticHighlight.Registry.Basic

/-!
# Callers of the registry

Several callers may ask for languages at the same time. A desk is a registry with the callers who
asked it, each with what became of the request. It moves by events; a caller who gives up waiting
has no effect on anything else, and the load goes on.
-/

namespace SemanticHighlight

inductive Waiter (B : Type) where
  | waiting (load : Load)
  | served (held : Held B)
  | failed (e : LoadError)
  | unconfigured (lang : Text)
  | cancelled

inductive Event (B : Type) where
  /-- A caller asks for a language. -/
  | request (caller lang : Text)
  /-- A load comes to its end. -/
  | finish (load : Load) (outcome : Except LoadError B)
  /-- A caller gives up. -/
  | cancel (caller : Text)
  | reload (configs : Option (List LanguageConfig))

structure Desk (B : Type) where
  registry : Registry B
  /-- The callers, in the order in which they first asked. -/
  waiters : List (Text × Waiter B)

namespace Waiter

variable {B : Type}

/-- What the end of a load means to a caller. -/
def afterLoad (load : Load) (outcome : Except LoadError B) : Waiter B → Waiter B
  | waiting l =>
    if l = load then
      match outcome with
      | .ok binding => served ⟨load, binding⟩
      | .error e => failed e
    else waiting l
  | w => w

/-- A caller who gives up; what has been settled stays. -/
def cancel : Waiter B → Waiter B
  | waiting _ => cancelled
  | w => w

end Waiter

namespace Desk

variable {B : Type}

def ofConfigs (configs : List LanguageConfig) : Desk B := ⟨.ofConfigs configs, []⟩

def setWaiter (waiters : List (Text × Waiter B)) (caller : Text) (w : Waiter B) :
    List (Text × Waiter B) :=
  if waiters.any fun entry => entry.1 = caller then
    waiters.map fun entry => if entry.1 = caller then (caller, w) else entry
  else waiters ++ [(caller, w)]

def step (desk : Desk B) : Event B → Desk B
  | .request caller lang =>
    let (answer, registry) := desk.registry.request lang
    let w : Waiter B :=
      match answer with
      | .cached held => .served held
      | .waiting load => .waiting load
      | .unconfigured => .unconfigured lang
    ⟨registry, setWaiter desk.waiters caller w⟩
  | .finish load outcome =>
    ⟨(desk.registry.finish load outcome).1,
      desk.waiters.map fun entry => (entry.1, entry.2.afterLoad load outcome)⟩
  | .cancel caller =>
    { desk with
      waiters := desk.waiters.map fun entry =>
        if entry.1 = caller then (entry.1, entry.2.cancel) else entry }
  | .reload configs => { desk with registry := (desk.registry.reload configs).1 }

end Desk

end SemanticHighlight
