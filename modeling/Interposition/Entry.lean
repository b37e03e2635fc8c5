import Interposition.Name
import Interposition.Owner
import Interposition.Value
import Interposition.ConstFlags
/-!
Entries of the registry.

There are three kinds of symbols: callables, constants and types.  An entry has
an identity of its own besides its content: two entries with the same content
are still two entries.  Nothing in an entry ever changes.  The one thing that
can change about a callable, the handler that its calls are dispatched to, is
kept outside the entry, under the identity of the entry.
-/

namespace Interposition

/-- The three kinds of symbols, each with a table of its own. -/
inductive Kind where
  | callable
  | constant
  | type
deriving DecidableEq, Repr, Inhabited

/-- The name of a kind's table, as used in messages. -/
def Kind.label : Kind → String
  | .callable => "callables"
  | .constant => "constants"
  | .type => "types"

/-- The invocation target of a callable, known by its identity alone. -/
structure Handler where
  id : Nat
deriving DecidableEq, Repr, Inhabited

/-- The inspection form of a handler does not tell handlers apart. -/
def Handler.inspect (_ : Handler) : String :=
  Text.Inspect.tagged "Handler" "ADDR"

/-- The identity of an entry. -/
abbrev EntryId := Nat

/-- What a constant is bound to. -/
structure Binding where
  value : Value
  flags : ConstFlags
deriving Repr, Inhabited

/-- What an entry of a kind holds besides name and owner. -/
abbrev Content : Kind → Type
  | .callable => Origin
  | .constant => Binding
  | .type => Origin

/-- A registered symbol. -/
structure Entry (kind : Kind) where
  id : EntryId
  name : Name
  owner : Owner
  content : Content kind

abbrev Callable := Entry .callable
abbrev Constant := Entry .constant
abbrev TypeDef := Entry .type

namespace Entry

/-- Whether an eviction of its owner may remove the entry.  What the hosting
platform provides is never removed. -/
def isEvictable : {kind : Kind} → Entry kind → Bool
  | .callable, entry => entry.content.isImage
  | .constant, _ => true
  | .type, entry => entry.content.isImage

/-- Whether two entries are one and the same. -/
def isSame {kind : Kind} (first second : Entry kind) : Bool :=
  first.id == second.id

/-- Whether two constants have the same content. -/
def sameConstant (first second : Constant) : Bool :=
  first.name == second.name && first.content.value == second.content.value &&
    first.content.flags == second.content.flags && first.owner == second.owner

/-- Whether two types have the same content. -/
def sameType (first second : TypeDef) : Bool :=
  first.name == second.name && first.owner == second.owner &&
    first.content == second.content

/-- The inspection form of an entry; for a callable with its current
handler. -/
def inspect : {kind : Kind} → Handler → Entry kind → String
  | .callable, target, entry =>
    Text.Inspect.record "CallableEntry"
      [("name", entry.name.inspect), ("owner", entry.owner.inspect),
        ("origin", entry.content.inspect), ("target", target.inspect)]
  | .constant, _, entry =>
    Text.Inspect.record "ConstantEntry"
      [("name", entry.name.inspect), ("value", entry.content.value.inspect),
        ("flags", entry.content.flags.inspect), ("owner", entry.owner.inspect)]
  | .type, _, entry =>
    Text.Inspect.record "TypeEntry"
      [("name", entry.name.inspect), ("owner", entry.owner.inspect),
        ("origin", entry.content.inspect)]

end Entry

/-- An entry before it has an identity, with the first handler of a
callable. -/
inductive Draft : Kind → Type where
  | callable (name : Name) (owner : Owner) (origin : Origin) (handler : Handler) :
      Draft .callable
  | constant (name : Name) (value : Value) (flags : ConstFlags) (owner : Owner) :
      Draft .constant
  | type (name : Name) (owner : Owner) (origin : Origin) : Draft .type

namespace Draft

/-- The name a draft asks for. -/
def name : {kind : Kind} → Draft kind → Name
  | _, .callable name _ _ _ => name
  | _, .constant name _ _ _ => name
  | _, .type name _ _ => name

/-- The owner of the entry to be. -/
def owner : {kind : Kind} → Draft kind → Owner
  | _, .callable _ owner _ _ => owner
  | _, .constant _ _ _ owner => owner
  | _, .type _ owner _ => owner

/-- The content of the entry to be. -/
def content : {kind : Kind} → Draft kind → Content kind
  | _, .callable _ _ origin _ => origin
  | _, .constant _ value flags _ => ⟨value, flags⟩
  | _, .type _ _ origin => origin

/-- The first handler of a callable. -/
def handler? : {kind : Kind} → Draft kind → Option Handler
  | _, .callable _ _ _ handler => some handler
  | _, .constant .. => none
  | _, .type .. => none

/-- The entry with the given identity. -/
def entry {kind : Kind} (draft : Draft kind) (id : EntryId) : Entry kind :=
  { id := id
    name := draft.name
    owner := draft.owner
    content := draft.content }

end Draft
end Interposition
