import Mathlib.Data.List.Dedup
import Interposition.Proofs.Eviction.Independence
import Interposition.Proofs.Operation.Isolation
/-!
What forced constants leave behind.

A forced registration takes the constant of its name out of the table and puts a new one
at the end.  So a run of them leaves the constants that were not forced where they were,
and behind them those new ones whose names were not forced again, in the order in which
they were made (`Forcing.standing`).  Each registration answers the constant that its name
was bound to just then: the one that was made last under this name, or that of the start
(`Forcing.get?_runAll`).
-/

namespace Interposition

/-- What a constant is forced to, by the function that is called for it. -/
inductive Forcing.Given where
  | any (value : Value)
  | null
  | bool (value : Bool)
  | int (value : Int64)
  | float (value : Float)
  | text (value : List Char)
  | bytes (value : List UInt8)

/-- A forced registration of a constant. -/
structure Forcing where
  name : Name
  given : Forcing.Given
  flags : ConstFlags
  owner : Owner

namespace Forcing

/-- The value of the constant.  A text counts as its bytes. -/
def Given.toValue : Given → Value
  | .any value => value
  | .null => .null
  | .bool value => .bool value
  | .int value => .int value
  | .float value => .float value
  | .text value => .bytes (Text.Utf8.encode value)
  | .bytes value => .bytes value

/-- Carry out a forced registration, by the function for what is given. -/
def run (forcing : Forcing) : Host → Option Constant × Host :=
  match forcing.given with
  | .any value => Host.forceConstant forcing.name value forcing.flags forcing.owner
  | .null => Host.forceNull forcing.name forcing.flags forcing.owner
  | .bool value => Host.forceBool forcing.name value forcing.flags forcing.owner
  | .int value => Host.forceInt forcing.name value forcing.flags forcing.owner
  | .float value => Host.forceFloat forcing.name value forcing.flags forcing.owner
  | .text value => Host.forceText forcing.name value forcing.flags forcing.owner
  | .bytes value => Host.forceBytes forcing.name value forcing.flags forcing.owner

/-- Carry out forced registrations in order, and keep their answers. -/
def runAll : List Forcing → Host → List (Option Constant) × Host
  | [], host => ([], host)
  | forcing :: rest, host =>
    let (previous?, next) := forcing.run host
    let (answers, final) := runAll rest next
    (previous? :: answers, final)

/-- The constant that a forced registration makes. -/
def constant (forcing : Forcing) (id : EntryId) : Constant :=
  { id := id
    name := forcing.name
    owner := forcing.owner
    content := ⟨forcing.given.toValue, forcing.flags⟩ }

/-- The constants that forced registrations make, the first one with the given identity. -/
def made (id : EntryId) (forcings : List Forcing) : List Constant :=
  forcings.mapIdx fun index forcing => forcing.constant (id + index)

/-- Those of them whose names are not forced again. -/
def standing : EntryId → List Forcing → List Constant
  | _, [] => []
  | id, forcing :: later =>
    if forcing.name ∈ later.map (·.name) then standing (id + 1) later
    else forcing.constant id :: standing (id + 1) later

/-- The one of them that is made last under a name. -/
def latest? (id : EntryId) (name : Name) (forcings : List Forcing) : Option Constant :=
  (made id forcings).reverse.find? (·.name = name)

section Standing

variable (id : EntryId) (forcing : Forcing) (rest : List Forcing)

theorem made_cons : made id (forcing :: rest) = forcing.constant id :: made (id + 1) rest := by
  simp [made, List.mapIdx_cons, Nat.add_assoc, Nat.add_comm 1]

/-- What is made last under a name is made later on, or at first. -/
theorem latest?_cons (name : Name) :
    latest? id name (forcing :: rest) =
      (latest? (id + 1) name rest).or
        (if forcing.name = name then some (forcing.constant id) else none) := by
  rw [latest?, made_cons, List.reverse_cons, List.find?_append, List.find?_singleton, latest?]
  congr 1
  exact if_congr decide_eq_true_iff rfl rfl

/-- Each name stands once, in the order in which the names are forced last. -/
theorem names_standing : (standing id rest).map (·.name) = (rest.map (·.name)).dedup := by
  induction rest generalizing id with
  | nil => rfl
  | cons forcing later inductionHypothesis =>
      rw [standing, List.map_cons]
      split <;> rename_i again
      · rw [List.dedup_cons_of_mem again, inductionHypothesis]
      · rw [List.dedup_cons_of_notMem again, List.map_cons, inductionHypothesis]
        rfl

variable {id rest}

/-- A constant that stands is what the last registration of its name made. -/
theorem exists_of_mem_standing {entry : Constant} (member : entry ∈ standing id rest) :
    ∃ before last after, rest = before ++ last :: after ∧ last.name ∉ after.map (·.name) ∧
      entry = last.constant (id + before.length) := by
  induction rest generalizing id with
  | nil => cases member
  | cons forcing later inductionHypothesis =>
      have further (member : entry ∈ standing (id + 1) later) :
          ∃ before last after, forcing :: later = before ++ last :: after ∧
            last.name ∉ after.map (·.name) ∧ entry = last.constant (id + before.length) := by
        obtain ⟨before, last, after, split, unforced, rfl⟩ := inductionHypothesis member
        refine ⟨forcing :: before, last, after, by rw [split, List.cons_append], unforced, ?_⟩
        rw [List.length_cons, Nat.add_assoc, Nat.add_comm 1]
      rw [standing] at member
      split at member <;> rename_i unforced
      · exact further member
      · rcases List.mem_cons.mp member with rfl | member
        · exact ⟨[], forcing, later, rfl, unforced, rfl⟩
        · exact further member

end Standing

section Run

variable (forcing : Forcing) (host : Host)

/-- The draft of the constant that a forced registration makes. -/
def draft : Draft .constant :=
  .constant forcing.name forcing.given.toValue forcing.flags forcing.owner

/-- Each function binds the name to the value of what it is given. -/
theorem run_eq :
    forcing.run host =
      host.forceConstant forcing.name forcing.given.toValue forcing.flags forcing.owner := by
  obtain ⟨name, given, flags, owner⟩ := forcing
  cases given <;> rfl

theorem answer_run : (forcing.run host).1 = host.registry.get? .constant forcing.name := by
  rw [run_eq, Host.answer_forceConstant]

theorem registry_run : (forcing.run host).2.registry = host.registry.put forcing.draft := by
  rw [run_eq, Registration.registry_forceConstant, draft]

/-- What a run of forced registrations leaves alone. -/
theorem unchanged_runAll (forcings : List Forcing) :
    (∀ kind, kind ≠ .constant →
        (runAll forcings host).2.registry.current kind = host.registry.current kind) ∧
      (runAll forcings host).2.registry.targets = host.registry.targets := by
  induction forcings generalizing host with
  | nil => exact ⟨fun _ _ => rfl, rfl⟩
  | cons forcing rest inductionHypothesis =>
      obtain ⟨tables, targets⟩ := inductionHypothesis (forcing.run host).2
      rw [registry_run] at tables targets
      refine ⟨fun kind different => ?_, ?_⟩
      · exact (tables kind different).trans (Registry.current_put_of_ne _ _ different)
      · rw [Registry.put, Registry.targets_publish] at targets
        exact targets

/-- After forced registrations a name is bound to what was made last under it, or else to what
it was bound to before. -/
theorem get?_runAll (forcings : List Forcing) (name : Name) :
    (runAll forcings host).2.registry.get? .constant name =
      (latest? host.registry.fresh name forcings).or (host.registry.get? .constant name) := by
  induction forcings generalizing host with
  | nil => rfl
  | cons forcing rest inductionHypothesis =>
      have later := inductionHypothesis (forcing.run host).2
      rw [registry_run, Registry.fresh_put] at later
      rw [latest?_cons, Option.or_assoc]
      refine later.trans (congrArg _ ?_)
      split <;> rename_i named
      · subst named
        exact Registry.get?_put_self forcing.draft host.registry
      · exact Registry.get?_put_of_ne forcing.draft host.registry fun same => named same.2.symm

theorem length_runAll (forcings : List Forcing) :
    (runAll forcings host).1.length = forcings.length := by
  induction forcings generalizing host with
  | nil => rfl
  | cons forcing rest inductionHypothesis =>
      exact congrArg Nat.succ (inductionHypothesis (forcing.run host).2)

/-- A registration answers what its name was bound to after those before it. -/
theorem getElem?_runAll (before after : List Forcing) :
    (runAll (before ++ forcing :: after) host).1[before.length]? =
      some ((runAll before host).2.registry.get? .constant forcing.name) := by
  induction before generalizing host with
  | nil => exact congrArg some (forcing.answer_run host)
  | cons first rest inductionHypothesis => exact inductionHypothesis (first.run host).2

/-- The table after forced registrations: what was not forced, and then what stands. -/
theorem toList_runAll {host : Host} (wellFormed : host.registry.WellFormed)
    (forcings : List Forcing) :
    ((runAll forcings host).2.registry.current .constant).toList =
      (host.registry.current .constant).toList.filter
          (fun entry => entry.name ∉ forcings.map (·.name)) ++
        standing host.registry.fresh forcings := by
  induction forcings generalizing host with
  | nil => simp [runAll, standing]
  | cons forcing rest inductionHypothesis =>
      have nextFormed : (forcing.run host).2.registry.WellFormed :=
        registry_run forcing host ▸ wellFormed.put forcing.draft
      have later := inductionHypothesis nextFormed
      rw [registry_run, Registry.fresh_put, wellFormed.toList_put, List.filter_append,
        List.filter_filter, List.append_assoc] at later
      refine later.trans (congrArg₂ (· ++ ·) ?_ ?_)
      · refine List.filter_congr fun entry _ => Bool.eq_iff_iff.mpr ?_
        have named : forcing.draft.name = forcing.name := rfl
        simp [named, and_comm]
      · -- The new constant is there at the end exactly if its name is not forced again.
        change List.filter _ [forcing.constant host.registry.fresh] ++ _ = _
        rw [standing]
        split <;> rename_i again
        · rw [List.filter_cons_of_neg (by simpa [constant] using again), List.filter_nil,
            List.nil_append]
        · rw [List.filter_cons_of_pos (by simpa [constant] using again), List.filter_nil]
          rfl

end Run

/-- After any run of forced registrations, names repeating, the constants that were not forced
stand where they stood, and behind them stands one for each forced name, in the order in which
the names were forced last, with the value, the flags and the owner of that last registration.
Each registration answers the constant that its name was bound to just before it, and the
other tables and all targets are left alone. -/
theorem forced_runAll {held : EntryId → Prop} {host : Host}
    (reaches : Host.Reaches held .empty host) (forcings : List Forcing) :
    let start := host.registry
    let forced := runAll forcings host
    (forced.2.registry.current .constant).toList =
        (start.current .constant).toList.filter
            (fun entry => entry.name ∉ forcings.map (·.name)) ++
          standing start.fresh forcings ∧
      (standing start.fresh forcings).map (·.name) = (forcings.map (·.name)).dedup ∧
      (∀ entry ∈ standing start.fresh forcings, ∃ before last after,
        forcings = before ++ last :: after ∧ last.name ∉ after.map (·.name) ∧
          entry = ⟨start.fresh + before.length, last.name, last.owner,
            (⟨last.given.toValue, last.flags⟩ : Binding)⟩) ∧
      forced.1.length = forcings.length ∧
      (∀ before forcing after, forcings = before ++ forcing :: after →
        forced.1[before.length]? =
          some ((latest? start.fresh forcing.name before).or
            (start.get? .constant forcing.name))) ∧
      (∀ kind, kind ≠ .constant → forced.2.registry.current kind = start.current kind) ∧
      forced.2.registry.targets = start.targets := by
  intro start forced
  have wellFormed := reaches.evolves.wellFormed Registry.wellFormed_empty
  refine ⟨toList_runAll wellFormed forcings, names_standing start.fresh forcings,
    fun entry => exists_of_mem_standing, length_runAll host forcings, ?_,
    unchanged_runAll host forcings⟩
  rintro before forcing after rfl
  rw [getElem?_runAll, get?_runAll]

/-- A constant of another owner and one that is left alone, a name that is forced twice by
functions for different values, with flags that have no name, and a name that is new. -/
theorem forced_runAll_of_repeated :
    let first : Owner := ⟨0, "first"⟩
    let second : Owner := ⟨1, "second"⟩
    let taken : Name := ⟨[0x74]⟩
    let other : Name := ⟨[0x6F]⟩
    let new : Name := ⟨[0x6E]⟩
    let defined := ((Operation.define (.constant taken .null ⟨1⟩ first)).run .empty).2
    let host := ((Operation.define (.constant other (.bool true) ⟨2⟩ first)).run defined).2
    let forcings : List Forcing :=
      [⟨taken, .int 5, ⟨0x80000000⟩, second⟩, ⟨new, .null, ⟨0⟩, second⟩,
        ⟨taken, .text ['x', 'é'], ⟨0x40000004⟩, first⟩]
    let forced := runAll forcings host
    Host.Reaches (fun _ => False) .empty host ∧
      (forced.2.registry.current .constant).toList =
        [⟨1, other, first, (⟨.bool true, ⟨2⟩⟩ : Binding)⟩,
          ⟨3, new, second, (⟨.null, ⟨0⟩⟩ : Binding)⟩,
          ⟨4, taken, first, (⟨.bytes [0x78, 0xC3, 0xA9], ⟨0x40000004⟩⟩ : Binding)⟩] ∧
      forced.1[0]? = some (some ⟨0, taken, first, (⟨.null, ⟨1⟩⟩ : Binding)⟩) ∧
      forced.1[1]? = some none ∧
      forced.1[2]? = some (some ⟨2, taken, second, (⟨.int 5, ⟨0x80000000⟩⟩ : Binding)⟩) := by
  intro first second taken other new defined host forcings forced
  have reaches : Host.Reaches (fun _ => False) .empty host :=
    .operation (.operation (.refl _) _) _
  obtain ⟨table, -, -, -, answers, -, -⟩ := forced_runAll reaches forcings
  exact ⟨reaches, table.trans rfl, (answers [] _ _ rfl).trans rfl,
    (answers [_] _ _ rfl).trans rfl, (answers [_, _] _ _ rfl).trans rfl⟩

end Forcing
end Interposition
