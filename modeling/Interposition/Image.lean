import Interposition.Hook
/-!
The running image: a host together with the code of its handlers.

A handler is known by its identity.  What it does when it is called is a
script: it may call a handler, call the handler that was saved in a slot when
a hook displaced it, call a callable by name, patch a callable, and use the
results of all this for its own result.

Handlers may call each other without end.  Running a handler therefore takes a
bound on the depth of calls, and gives no result where it is exceeded.
-/

namespace Interposition

/-- What a handler does with its arguments. -/
inductive Script where
  /-- Return a value. -/
  | done (value : Value)
  /-- Call a handler. -/
  | call (handler : Handler) (arguments : List Value) (next : Value → Script)
  /-- Call the handler in a slot, if there is one. -/
  | callSaved (slot : String) (arguments : List Value) (next : Option Value → Script)
  /-- Call a callable of the registry, if there is one with the name. -/
  | callNamed (name : Name) (arguments : List Value) (next : Option Value → Script)
  /-- Patch a callable of the registry, if there is one with the name. -/
  | patch (name : Name) (handler : Handler) (next : Option Handler → Script)

/-- The code of a handler. -/
abbrev Program := List Value → Script

/-- A host, the code of its handlers, the handlers that were saved when a hook
displaced them, and the number of handlers made so far. -/
structure Image where
  host : Host
  programs : Handler → Program
  saved : OrderedMap String Handler
  made : Nat

namespace Image

/-- An image without entries and handlers. -/
def empty : Image :=
  { host := .empty
    programs := fun _ _ => .done .null
    saved := .empty
    made := 0 }

instance : Inhabited Image := ⟨empty⟩

/-- Make a handler that is not identical to any other. -/
def makeHandler (program : Program) (image : Image) : Handler × Image :=
  let handler : Handler := ⟨image.made⟩
  (handler,
    { image with
      programs := fun other => if other = handler then program else image.programs other
      made := image.made + 1 })

/-- Save a handler in a slot, whatever the slot held before. -/
def save (slot : String) (handler : Handler) (image : Image) : Image :=
  { image with saved := image.saved.append slot handler }

/-- Run an operation of the host. -/
def onHost {α : Type} (operation : Host → α × Host) (image : Image) : α × Image :=
  let (answer, host) := operation image.host
  (answer, { image with host := host })

end Image

/-- Run a script, with the given way to call a handler. -/
def Script.run (invoke : Handler → List Value → Image → Option (Value × Image)) :
    Script → Image → Option (Value × Image)
  | .done value, image => some (value, image)
  | .call handler arguments next, image =>
    match invoke handler arguments image with
    | none => none
    | some (value, image) => (next value).run invoke image
  | .callSaved slot arguments next, image =>
    match image.saved.get? slot with
    | none => (next none).run invoke image
    | some handler =>
      match invoke handler arguments image with
      | none => none
      | some (value, image) => (next (some value)).run invoke image
  | .callNamed name arguments next, image =>
    match image.host.registry.resolve? name with
    | none => (next none).run invoke image
    | some handler =>
      match invoke handler arguments image with
      | none => none
      | some (value, image) => (next (some value)).run invoke image
  | .patch name handler next, image =>
    let (previous?, image) := image.onHost (Host.patch name handler)
    (next previous?).run invoke image

namespace Image

/-- Call a handler, with calls nested at most as deep as given. -/
def invoke : Nat → Handler → List Value → Image → Option (Value × Image)
  | 0, _, _, _ => none
  | depth + 1, handler, arguments, image =>
    (image.programs handler arguments).run (invoke depth) image

/-- Call a callable by name.  The inner option tells whether there is one. -/
def callNamed (depth : Nat) (name : Name) (arguments : List Value) (image : Image) :
    Option (Option Value × Image) :=
  match image.host.registry.resolve? name with
  | none => some (none, image)
  | some handler =>
    (Image.invoke depth handler arguments image).map fun (value, image) => (some value, image)

end Image
end Interposition
