import Interposition.Concurrent.System
/-!
Trials: small concurrent programs that are played to their end.

A trial starts threads on a registry, lets them take turns until all of them are
finished, and counts what they answered.
-/

namespace Interposition.Concurrent.Trial

/-- More rounds of turns than the given number of calls can need.  While calls
are under way, one of them ends in every five rounds. -/
def turnsFor (calls : Nat) : Nat :=
  8 * (calls + 1)

/-- Run threads in turn until all of them are finished.  Every turn begins with
the given thread. -/
def play (first : Nat) (registry : Registry) (deny : DenyList)
    (requests : List (List Request)) : System :=
  let order := (List.range requests.length).rotateLeft first
  System.runInTurn order (turnsFor requests.flatten.length) (.start registry deny requests)

/-- A list without repetitions of its neighbours. -/
def mergeNeighbours {α : Type} [DecidableEq α] : List α → List α
  | [] => []
  | first :: rest =>
    match mergeNeighbours rest with
    | [] => [first]
    | second :: others =>
      if first = second then second :: others else first :: second :: others

/-- The owner of what a numbered thread makes. -/
def threadOwner (index : Nat) : Owner :=
  ⟨UInt32.ofNat index, "thread"⟩

/-- How many hooks installed, patched and were refused, and how many callables
there are in the end. -/
structure HookCount where
  installed : Nat
  patched : Nat
  refused : Nat
  callables : Nat
deriving DecidableEq, Repr

/-- Whether an answer says that a hook installed an entry. -/
def isInstalled : Answer → Bool
  | .hooked (.ok .installed) => true
  | _ => false

/-- Whether an answer says that a hook patched an entry. -/
def isPatched : Answer → Bool
  | .hooked (.ok (.patched _)) => true
  | _ => false

/-- Whether an answer says that a hook was refused. -/
def isRefused : Answer → Bool
  | .hooked (.error _) => true
  | _ => false

/-- All threads hook one name at once, each turn beginning with the given
thread.  The name may be defined before. -/
def hookOnce (threads : Nat) (name : Name) (deny : DenyList) (defined : Bool) (first : Nat) :
    HookCount :=
  let registry :=
    if defined then
      (Registry.empty.define
        (.callable name (threadOwner threads) .image ⟨threads⟩)).2
    else .empty
  let requests := (List.range threads).map fun index =>
    [Request.hook name ⟨index⟩ (threadOwner index)]
  let final := play first registry deny requests
  let answers := final.records.map (·.answer)
  { installed := answers.countP isInstalled
    patched := answers.countP isPatched
    refused := answers.countP isRefused
    callables := (final.registry.current .callable).size }

/-- The counts of some rounds of `hookOnce`, equal neighbours merged.  Every
round begins with another thread. -/
def hookRounds (threads rounds : Nat) (name : Name) (deny : DenyList) (defined : Bool) :
    List HookCount :=
  mergeNeighbours ((List.range rounds).map (hookOnce threads name deny defined))

/-- How many types there are in the end, how many definitions were refused,
and the least and the greatest name. -/
structure DefineCount where
  size : Nat
  duplicates : Nat
  first? : Option Name
  last? : Option Name
deriving DecidableEq, Repr

/-- Whether an answer says that a definition was refused. -/
def isDuplicate : Answer → Bool
  | .written (.inserted (.error _)) => true
  | _ => false

/-- The name of a type that a thread defines. -/
def typeName (thread index : Nat) : Name :=
  .ofString ("T" ++ toString thread ++ "_" ++ toString index)

/-- Every thread defines a number of types, under names of its own or under
names that all threads share. -/
def defineMany (threads each : Nat) (shared : Bool) : DefineCount :=
  let requests := (List.range threads).map fun thread =>
    (List.range each).map fun index =>
      Request.define
        (.type (typeName (if shared then 0 else thread) index) (threadOwner thread) .image)
  let final := play 0 .empty .empty requests
  let table := final.registry.current .type
  let sorted := Name.sortDistinct table.names
  { size := table.size
    duplicates := (final.records.map (·.answer)).countP isDuplicate
    first? := sorted.head?
    last? := sorted.getLast? }

/-- How many readers saw a table with only some of the evicted entries removed,
how many entries were removed, and how many are left. -/
structure EvictCount where
  torn : Nat
  removed : Nat
  size : Nat
deriving DecidableEq, Repr

/-- The number of entries in a snapshot of types that belong to an owner. -/
def ownedIn (owner : Owner) (snapshot : Snapshot .type) : Nat :=
  snapshot.toList.countP fun entry => entry.owner == owner

/-- Whether a reader saw something other than all or none of the entries of the
evicted owner, or missed entries of the other one. -/
def isTorn (evicted other : Owner) (count : Nat) : Answer → Bool
  | .read .type snapshot =>
    let seen := ownedIn evicted snapshot
    (seen != 0 && seen != count) || ownedIn other snapshot != count
  | _ => false

/-- The number of entries that an answer says were removed. -/
def removedBy : Answer → Nat
  | .written (.retained removed _) => removed.length
  | _ => 0

/-- How often every reader looks. -/
def looks : Nat := 4

/-- A registry with types of two owners in turn. -/
def twoOwners (first second : Owner) (count : Nat) : Registry :=
  (List.range count).foldl
    (fun registry index =>
      let registry := (registry.define (.type (typeName 0 index) first .image)).2
      (registry.define (.type (typeName 1 index) second .image)).2)
    .empty

/-- The types of one owner are evicted while readers look at the table. -/
def evictWatched (readers count : Nat) : EvictCount :=
  let evicted := threadOwner 0
  let other := threadOwner 1
  let reader := List.replicate looks (Request.read .type)
  let final := play 0 (twoOwners evicted other count) .empty
    ([Request.evict .type evicted] :: List.replicate readers reader)
  let isTornReader := fun (thread : Thread) =>
    thread.records.any fun record => isTorn evicted other count record.answer
  { torn := final.threads.countP isTornReader
    removed := final.records.foldl (fun total record => total + removedBy record.answer) 0
    size := (final.registry.current .type).size }

end Interposition.Concurrent.Trial
