import Interposition.Eviction
import Interposition.ForcedConstant
import Interposition.Hook
/-!
Operations of the host as data.

A component that is loaded, used and unloaded makes a sequence of calls, each
of which may be refused.  An operation is such a call with its arguments.  A
sequence is carried out to its end whatever its operations answer, and keeps
the answers.
-/

namespace Interposition

/-- An operation of the host, with its arguments. -/
inductive Operation where
  /-- Register an entry under a free name. -/
  | define {kind : Kind} (draft : Draft kind)
  /-- Bind a constant whoever held the name before. -/
  | force (name : Name) (value : Value) (flags : ConstFlags) (owner : Owner)
  | hook (deny : DenyList) (name : Name) (handler : Handler) (owner : Owner)
  | batch (deny : DenyList) (hooks : List (Name × Handler)) (owner : Owner)
  | patch (name : Name) (handler : Handler)
  | remove (kind : Kind) (name : Name)
  | evict (kind : Kind) (owner : Owner)

namespace Operation

/-- What an operation answers. -/
inductive Answer where
  | defined {kind : Kind} (result : Except RegistryError (Entry kind))
  | forced (previous? : Option Constant)
  | hooked (result : Except HookError HookOutcome)
  | batch (report : BatchReport)
  | patched (previous? : Option Handler)
  | removed {kind : Kind} (removed? : Option (Entry kind))
  | evicted {kind : Kind} (removed : List (Entry kind))

/-- Carry out an operation. -/
def run (operation : Operation) (host : Host) : Answer × Host :=
  match operation with
  | .define draft =>
    let (result, host) := host.onRegistry (Registry.define draft)
    (.defined result, host)
  | .force name value flags owner =>
    let (previous?, host) := host.forceConstant name value flags owner
    (.forced previous?, host)
  | .hook deny name handler owner =>
    let (result, host) := host.hook deny name handler owner
    (.hooked result, host)
  | .batch deny hooks owner =>
    let (report, host) := host.hookBatch deny hooks owner
    (.batch report, host)
  | .patch name handler =>
    let (previous?, host) := host.patch name handler
    (.patched previous?, host)
  | .remove kind name =>
    let (removed?, host) := host.onRegistry (Registry.remove kind name)
    (.removed removed?, host)
  | .evict kind owner =>
    let (removed, host) := host.evict kind owner
    (.evicted removed, host)

/-- Carry out operations in order, whatever becomes of each, and keep them with
their answers. -/
def runAll : List Operation → Host → List (Operation × Answer) × Host
  | [], host => ([], host)
  | operation :: rest, host =>
    let (answer, next) := operation.run host
    let (answers, final) := runAll rest next
    ((operation, answer) :: answers, final)

end Operation
end Interposition
