import Orchestrator.Requirements.Operation
/-!
Programs: finite dialogues with the requirements. A program performs operations and looks at the state, and what it
does next may depend on every answer. Hosts and observers are programs, so that a statement about every program is one
about whatever they may do.
-/

namespace Orchestrator

inductive Program (α : Type) where
  | done (result : α)
  | perform (operation : Operation) (next : Option Bool → Program α)
  | look (next : Requirements → Program α)

namespace Program

variable {α β σ : Type}

/-- Goes on with another program that knows the result. -/
def andThen : Program α → (α → Program β) → Program β
  | done result, f => f result
  | perform operation next, f => perform operation (fun answer => (next answer).andThen f)
  | look next, f => look (fun r => (next r).andThen f)

instance : Monad Program where
  pure := done
  bind := andThen

def performAll : List Operation → Program Unit
  | [] => done ()
  | operation :: rest => perform operation (fun _ => performAll rest)

/-- Runs a program in a place where operations can be performed and the requirements be seen. -/
def interpret (perform : Operation → σ → σ × Option Bool) (look : σ → Requirements) : Program α → σ → σ × α
  | .done result, s => (s, result)
  | .perform operation next, s =>
    let (s, answer) := perform operation s
    (next answer).interpret perform look s
  | .look next, s => (next (look s)).interpret perform look s

end Program

end Orchestrator
