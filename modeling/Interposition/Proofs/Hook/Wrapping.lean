import Interposition.Hook
import Interposition.Image
/-!
Handlers that wrap other handlers.

A wrapper finds the handler under it in a slot, asks it as often as it likes, and works
out its result from the answers.  `Wrapping` is what it does with its arguments, and
`Wrapping.around` is what comes out if the handler under it computes a function.
`Image.computes_wrapper` says that calls of the wrapper do come out so; that calls may
always be nested deeper (`Image.invoke_mono`) is what lets the questions follow each
other.
-/

namespace Interposition

/-- What a wrapper does with its arguments.  Its questions go without an answer for as
long as it was not handed a handler. -/
inductive Wrapping where
  | done (value : Value)
  | ask (arguments : List Value) (next : Option Value → Wrapping)

namespace Wrapping

/-- The script of a wrapper that finds the handler under it in a slot. -/
def script (slot : String) : Wrapping → Script
  | .done value => .done value
  | .ask arguments next => .callSaved slot arguments fun answer => (next answer).script slot

/-- The result of a wrapper over a handler that computes a function. -/
def around (inner : List Value → Value) : Wrapping → Value
  | .done value => value
  | .ask arguments next => (next (some (inner arguments))).around inner

end Wrapping

/-- A wrapper, the slot in which it finds the handler under it, and the deny list and the
owner with which it is hooked. -/
structure Wrapper where
  handler : Handler
  slot : String
  body : List Value → Wrapping
  deny : DenyList
  owner : Owner

namespace Wrapper

/-- The code of a wrapper. -/
def program (wrapper : Wrapper) : Program :=
  fun arguments => (wrapper.body arguments).script wrapper.slot

/-- What a wrapper computes over a handler that computes a function. -/
def around (wrapper : Wrapper) (inner : List Value → Value) : List Value → Value :=
  fun arguments => (wrapper.body arguments).around inner

/-- What wrappers compute one over the other, the first one over the given function. -/
def compose (base : List Value → Value) (wrappers : List Wrapper) : List Value → Value :=
  wrappers.foldl (fun inner wrapper => wrapper.around inner) base

theorem compose_concat (base : List Value → Value) (wrappers : List Wrapper) (last : Wrapper) :
    compose base (wrappers ++ [last]) = last.around (compose base wrappers) := by
  simp [compose]

end Wrapper

/-- A way to call handlers that gives more results than another lets scripts end with the
same results. -/
theorem Script.run_mono {invoke more : Handler → List Value → Image → Option (Value × Image)}
    (agrees : ∀ handler arguments image result,
      invoke handler arguments image = some result → more handler arguments image = some result)
    (script : Script) {image : Image} {result : Value × Image}
    (ran : script.run invoke image = some result) : script.run more image = some result := by
  induction script generalizing image with
  | done value => exact ran
  | call handler arguments next inductionHypothesis =>
      rw [run] at ran ⊢
      split at ran
      · cases ran
      · rename_i called
        rw [agrees _ _ _ _ called]
        exact inductionHypothesis _ ran
  | callSaved slot arguments next inductionHypothesis =>
      rw [run] at ran ⊢
      split at ran
      · exact inductionHypothesis _ ran
      · split at ran
        · cases ran
        · rename_i called
          simp only [agrees _ _ _ _ called]
          exact inductionHypothesis _ ran
  | callNamed name arguments next inductionHypothesis =>
      rw [run] at ran ⊢
      split at ran
      · exact inductionHypothesis _ ran
      · split at ran
        · cases ran
        · rename_i called
          simp only [agrees _ _ _ _ called]
          exact inductionHypothesis _ ran
  | patch name handler next inductionHypothesis => exact inductionHypothesis _ ran

namespace Image

/-- A call that ends also ends when calls may be nested deeper. -/
theorem invoke_mono {depth deeper : Nat} (more : depth ≤ deeper) {handler : Handler}
    {arguments : List Value} {image : Image} {result : Value × Image}
    (called : invoke depth handler arguments image = some result) :
    invoke deeper handler arguments image = some result := by
  induction depth generalizing deeper handler arguments image result with
  | zero => cases called
  | succ depth inductionHypothesis =>
      cases deeper with
      | zero => exact absurd more (Nat.not_succ_le_zero depth)
      | succ deeper =>
          refine Script.run_mono ?_ _ called
          intro handler arguments image result
          exact inductionHypothesis (Nat.le_of_succ_le_succ more)

/-- Whether another image has the same code, and the same handlers in the given slots. -/
structure Agrees (slots : List String) (image other : Image) : Prop where
  programs : other.programs = image.programs
  saved : ∀ slot ∈ slots, other.saved.get? slot = image.saved.get? slot

/-- Whether a handler computes a function from its arguments and from what it finds in the
given slots alone: its calls end with the value of the function, and they change nothing. -/
def Computes (slots : List String) (image : Image) (handler : Handler)
    (f : List Value → Value) : Prop :=
  ∀ other, image.Agrees slots other → ∀ arguments,
    ∃ depth, invoke depth handler arguments other = some (f arguments, other)

namespace Agrees

variable {slots : List String} {image other last : Image}

theorem refl (slots : List String) (image : Image) : image.Agrees slots image :=
  ⟨rfl, fun _ _ => rfl⟩

theorem trans (first : image.Agrees slots other) (second : other.Agrees slots last) :
    image.Agrees slots last :=
  ⟨second.programs.trans first.programs,
    fun slot member => (second.saved slot member).trans (first.saved slot member)⟩

theorem onHost {α : Type} (agrees : image.Agrees slots other) (operation : Host → α × Host) :
    image.Agrees slots (other.onHost operation).2 :=
  ⟨agrees.programs, agrees.saved⟩

end Agrees

/-- A handler computes the same in images that agree on what it uses. -/
theorem Computes.of_agrees {slots : List String} {image other : Image} {handler : Handler}
    {f : List Value → Value} (computes : image.Computes slots handler f)
    (agrees : image.Agrees slots other) : other.Computes slots handler f :=
  fun last onward => computes last (agrees.trans onward)

/-- A script that asks the handler in a slot ends with what the wrapper computes over it. -/
theorem exists_run_script {image : Image} {slot : String} {under : Handler}
    {inner : List Value → Value} (handed : image.saved.get? slot = some under)
    (computes : ∀ arguments, ∃ depth,
      invoke depth under arguments image = some (inner arguments, image))
    (wrapping : Wrapping) :
    ∃ depth,
      (wrapping.script slot).run (invoke depth) image = some (wrapping.around inner, image) := by
  induction wrapping with
  | done value => exact ⟨0, rfl⟩
  | ask arguments next inductionHypothesis =>
      obtain ⟨first, called⟩ := computes arguments
      obtain ⟨rest, ran⟩ := inductionHypothesis (some (inner arguments))
      -- The deeper of the two bounds serves the question and what comes after it.
      refine ⟨max first rest, ?_⟩
      have answered := invoke_mono (Nat.le_max_left first rest) called
      rw [Wrapping.script, Script.run, handed]
      simp only [answered]
      refine Script.run_mono ?_ _ ran
      intro handler arguments image result
      exact invoke_mono (Nat.le_max_right first rest)

/-- A wrapper over a handler that computes a function. -/
theorem computes_wrapper {slots : List String} {image : Image} {wrapper : Wrapper}
    {under : Handler} {inner : List Value → Value}
    (code : image.programs wrapper.handler = wrapper.program)
    (handed : image.saved.get? wrapper.slot = some under)
    (computes : image.Computes slots under inner) :
    image.Computes (wrapper.slot :: slots) wrapper.handler (wrapper.around inner) := by
  intro other agrees arguments
  have fewer : image.Agrees slots other :=
    ⟨agrees.programs, fun slot member => agrees.saved slot (List.mem_cons_of_mem _ member)⟩
  have also : other.saved.get? wrapper.slot = some under :=
    (agrees.saved wrapper.slot List.mem_cons_self).trans handed
  obtain ⟨depth, ran⟩ := exists_run_script also (computes other fewer) (wrapper.body arguments)
  refine ⟨depth + 1, ?_⟩
  rw [invoke, agrees.programs, code]
  exact ran

end Image
end Interposition
