import Interposition.Operation
import Interposition.Proofs.Hook.Hooked
import Interposition.Proofs.Takeover.Replacement
/-!
Unloading undoes loading.

A component that is loaded defines callables, types and constants, forces
constants and hooks callables, all under its own tag and whatever becomes of
each call.  What this adds up to is a `Tally`.  `Registry.Loaded` says how the
registry relates to the one at the start at any moment of such a run: what the
component does not own is what was there, less the constants whose names were
forced, and what it does own is what the tally says.  An eviction of the
component then leaves the first part and reports the second
(`Operation.evictAll_runAll`).
-/

namespace Interposition

/-- What the operations of a component add up to. -/
structure Tally where
  /-- How many callables were defined or installed. -/
  callables : Nat
  /-- How many types were defined. -/
  types : Nat
  /-- The constants that were defined or forced, as often as they were. -/
  constants : List Name
  /-- The constants that were forced, as often as they were. -/
  forced : List Name
  /-- The hooks in order, the refused ones among them.  No hook on a callable that
  is there is refused. -/
  hooks : List (Name × Handler)

namespace Tally

def empty : Tally := ⟨0, 0, [], [], []⟩

/-- Count a definition that was not refused. -/
def define {kind : Kind} (draft : Draft kind) (tally : Tally) : Tally :=
  match draft with
  | .callable .. => { tally with callables := tally.callables + 1 }
  | .constant name .. => { tally with constants := tally.constants ++ [name] }
  | .type .. => { tally with types := tally.types + 1 }

/-- Count a forced constant. -/
def force (name : Name) (tally : Tally) : Tally :=
  { tally with constants := tally.constants ++ [name], forced := tally.forced ++ [name] }

/-- Count hooks, some of which installed a callable. -/
def hook (hooks : List (Name × Handler)) (installed : Nat) (tally : Tally) : Tally :=
  { tally with callables := tally.callables + installed, hooks := tally.hooks ++ hooks }

/-- Count an operation with its answer. -/
def add (tally : Tally) : Operation × Operation.Answer → Tally
  | (.define draft, .defined (.ok _)) => tally.define draft
  | (.force name _ _ _, _) => tally.force name
  | (.hook _ name handler _, .hooked result) =>
    tally.hook [(name, handler)] (BatchReport.installed ⟨[(name, result)]⟩)
  | (.batch _ hooks _, .batch report) => tally.hook hooks report.installed
  | _ => tally

/-- Count operations with their answers. -/
def of (finished : List (Operation × Operation.Answer)) : Tally :=
  finished.foldl add empty

/-- The handler of the last hook on a name. -/
def lastHook? (tally : Tally) (name : Name) : Option Handler :=
  tally.hooks.reverse.lookup name

theorem lastHook?_hook_self (name : Name) (handler : Handler) (installed : Nat) (tally : Tally) :
    (tally.hook [(name, handler)] installed).lastHook? name = some handler := by
  simp [lastHook?, hook]

theorem lastHook?_hook_of_ne {name other : Name} (different : other ≠ name) (handler : Handler)
    (installed : Nat) (tally : Tally) :
    (tally.hook [(name, handler)] installed).lastHook? other = tally.lastHook? other := by
  simp [lastHook?, hook, List.lookup_cons, beq_false_of_ne different]

/-- A batch counts as its hooks do, one after the other. -/
theorem hook_hook (pair : Name × Handler) (rest : List (Name × Handler))
    (outcome : Name × Except HookError HookOutcome)
    (outcomes : List (Name × Except HookError HookOutcome)) (tally : Tally) :
    (tally.hook [pair] (BatchReport.installed ⟨[outcome]⟩)).hook rest
        (BatchReport.installed ⟨outcomes⟩) =
      tally.hook (pair :: rest) (BatchReport.installed ⟨outcome :: outcomes⟩) := by
  simp [hook, BatchReport.installed, List.countP_cons, Nat.add_assoc, Nat.add_comm]

end Tally

/-- The operations that a component makes under its own tag when it is loaded. -/
inductive Operation.LoadedBy (owner : Owner) : Operation → Prop where
  | function (name : Name) (handler : Handler) :
      LoadedBy owner (.define (.callable name owner .image handler))
  | type (name : Name) : LoadedBy owner (.define (.type name owner .image))
  | constant (name : Name) (value : Value) (flags : ConstFlags) :
      LoadedBy owner (.define (.constant name value flags owner))
  | force (name : Name) (value : Value) (flags : ConstFlags) :
      LoadedBy owner (.force name value flags owner)
  | hook (deny : DenyList) (name : Name) (handler : Handler) :
      LoadedBy owner (.hook deny name handler owner)
  | batch (deny : DenyList) (hooks : List (Name × Handler)) :
      LoadedBy owner (.batch deny hooks owner)

/-- A registry after operations of an owner that had nothing at the start. -/
structure Registry.Loaded (owner : Owner) (start : Registry) (tally : Tally)
    (registry : Registry) : Prop where
  started : start.WellFormed
  wellFormed : registry.WellFormed
  fresh_le : start.fresh ≤ registry.fresh
  /-- Callables and types of others are those of the start. -/
  spared : ∀ kind, kind ≠ .constant →
    (registry.current kind).entries.part owner.spares = (start.current kind).entries
  /-- Constants of others are those of the start, less what was forced. -/
  unforced : (registry.current .constant).entries.part owner.spares =
    (start.current .constant).entries.part fun pair => pair.1 ∉ tally.forced
  /-- Callables are new or those of the start. -/
  older : ∀ name entry, registry.get? .callable name = some entry →
    start.get? .callable name = some entry ∨ start.fresh ≤ entry.id
  callables : registry.owned .callable owner = tally.callables
  types : registry.owned .type owner = tally.types
  names : ∀ name, name ∈ Registration.ownedNames registry owner ↔ name ∈ tally.constants
  /-- Callables of the start dispatch to the last hook on their name. -/
  targets : ∀ name entry, start.get? .callable name = some entry →
    registry.target entry = (tally.lastHook? name).getD (start.target entry)
  /-- Callables that had left the table at the start are not touched. -/
  untouched : ∀ id < start.fresh, id ∉ EntryMap.ids (start.current .callable).entries →
    registry.targets id = start.targets id

namespace Registry.Loaded

open Registration

variable {owner : Owner} {start registry : Registry} {tally : Tally}

/-- At the start nothing happened yet. -/
theorem refl (wellFormed : start.WellFormed) (none : ∀ kind, start.owned kind owner = 0) :
    Loaded owner start .empty start := by
  have spared (kind : Kind) :
      (start.current kind).entries.part owner.spares = (start.current kind).entries := by
    apply part_spares_eq_self
    apply List.eq_nil_of_length_eq_zero
    rw [← List.countP_eq_length_filter]
    exact none kind
  have unnamed : ownedNames start owner = [] := by
    apply List.eq_nil_of_length_eq_zero
    rw [length_ownedNames]
    exact none .constant
  constructor
  case spared => exact fun kind _ => spared kind
  case unforced =>
    rw [spared, OrderedMap.part_eq_self]
    simp [Tally.empty]
  case older => exact fun name entry found => Or.inl found
  case names => simp [unnamed, Tally.empty]
  case targets => exact fun name entry _ => rfl
  case untouched => exact fun id _ _ => rfl
  · exact wellFormed
  · exact wellFormed
  · exact Nat.le_refl _
  · exact none .callable
  · exact none .type

/-- A callable of the start stays bound to its name. -/
theorem bound (loaded : Loaded owner start tally registry) {name : Name} {entry : Callable}
    (found : start.get? .callable name = some entry) :
    registry.get? .callable name = some entry := by
  have member := OrderedMap.mem_of_get?_eq_some found
  rw [← loaded.spared .callable (by decide)] at member
  exact OrderedMap.get?_eq_some_of_mem (loaded.wellFormed.sound .callable).distinctKeys
    (List.mem_of_mem_filter member)

/-- A new entry takes no target away from an old one. -/
theorem targets_put (loaded : Loaded owner start tally registry) {kind : Kind}
    (draft : Draft kind) {id : EntryId} (old : id < start.fresh) :
    (registry.put draft).targets id = registry.targets id :=
  targets_put_of_ne draft registry (Nat.ne_of_lt (Nat.lt_of_lt_of_le old loaded.fresh_le))

theorem older_put (loaded : Loaded owner start tally registry) {kind : Kind}
    (draft : Draft kind) (name : Name) (entry : Callable)
    (found : (registry.put draft).get? .callable name = some entry) :
    start.get? .callable name = some entry ∨ start.fresh ≤ entry.id := by
  by_cases new : Kind.callable = kind ∧ name = draft.name
  · obtain ⟨rfl, rfl⟩ := new
    rw [get?_put_self] at found
    cases found
    exact Or.inr loaded.fresh_le
  · rw [get?_put_of_ne draft registry new] at found
    exact loaded.older name entry found

/-- A new entry, whatever it displaces, leaves the callables of the start as they
are. -/
theorem put (loaded : Loaded owner start tally registry) {kind : Kind} (draft : Draft kind)
    {next : Tally} (hooks : next.hooks = tally.hooks)
    (spared : ∀ kind, kind ≠ .constant →
      ((registry.put draft).current kind).entries.part owner.spares = (start.current kind).entries)
    (unforced : ((registry.put draft).current .constant).entries.part owner.spares =
      (start.current .constant).entries.part fun pair => pair.1 ∉ next.forced)
    (callables : (registry.put draft).owned .callable owner = next.callables)
    (types : (registry.put draft).owned .type owner = next.types)
    (names : ∀ name, name ∈ ownedNames (registry.put draft) owner ↔ name ∈ next.constants) :
    Loaded owner start next (registry.put draft) where
  started := loaded.started
  wellFormed := loaded.wellFormed.put draft
  fresh_le := by
    rw [fresh_put]
    exact Nat.le_succ_of_le loaded.fresh_le
  spared := spared
  unforced := unforced
  older := loaded.older_put draft
  callables := callables
  types := types
  names := names
  targets name entry found := by
    rw [target, loaded.targets_put draft (loaded.started.id_lt_fresh found), Tally.lastHook?, hooks]
    exact loaded.targets name entry found
  untouched id old gone := by
    rw [loaded.targets_put draft old]
    exact loaded.untouched id old gone

/-- A definition under a free name. -/
theorem define (loaded : Loaded owner start tally registry) {kind : Kind} {draft : Draft kind}
    (evictable : (draft.entry registry.fresh).isEvictedWith owner = true)
    (free : registry.get? kind draft.name = none) :
    Loaded owner start (tally.define draft) (registry.put draft) := by
  have owned := owned_put_of_free evictable free
  apply loaded.put draft
  · cases draft <;> rfl
  · intro other different
    rw [spared_put_of_free evictable free]
    exact loaded.spared other different
  · rw [spared_put_of_free evictable free, loaded.unforced]
    cases draft <;> rfl
  · rw [owned, loaded.callables]
    cases draft <;> rfl
  · rw [owned, loaded.types]
    cases draft <;> rfl
  · intro name
    cases draft with
    | constant defined value flags holder =>
        have same : holder = owner := by
          simpa [Entry.isEvictedWith, Draft.entry, Draft.owner, Entry.isEvictable] using evictable
        rw [same, mem_ownedNames_put, loaded.names]
        simp [Tally.define]
    | _ =>
        rw [ownedNames, current_put_of_ne _ _ (by decide)]
        exact loaded.names name

/-- A forced constant displaces whatever held its name. -/
theorem force (loaded : Loaded owner start tally registry) (name : Name) (value : Value)
    (flags : ConstFlags) :
    Loaded owner start (tally.force name) (registry.put (.constant name value flags owner)) := by
  apply loaded.put
  · rfl
  · intro other different
    rw [current_put_of_ne _ _ different]
    exact loaded.spared other different
  · rw [spared_put (isEvictedWith_constant owner name value flags _), loaded.unforced,
      OrderedMap.part_part]
    congr 1
    funext pair
    by_cases same : pair.1 = name <;> simp [Tally.force, Draft.name, same]
  · rw [owned, current_put_of_ne _ _ (by decide)]
    exact loaded.callables
  · rw [owned, current_put_of_ne _ _ (by decide)]
    exact loaded.types
  · intro other
    rw [mem_ownedNames_put, loaded.names]
    simp [Tally.force]

/-- A hook on a name that no callable of the start has. -/
theorem hook_of_unbound (loaded : Loaded owner start tally registry) {name : Name}
    (unbound : start.get? .callable name = none) (handler : Handler) :
    Loaded owner start (tally.hook [(name, handler)] 0) registry := by
  refine { loaded with targets := ?_ }
  intro other entry found
  have different : other ≠ name := by
    rintro rfl
    rw [unbound] at found
    cases found
  rw [Tally.lastHook?_hook_of_ne different]
  exact loaded.targets other entry found

/-- A hook on a name that is bound exchanges one target. -/
theorem patch (loaded : Loaded owner start tally registry) {name : Name} {entry : Callable}
    (found : registry.get? .callable name = some entry) (handler : Handler) :
    Loaded owner start (tally.hook [(name, handler)] 0) (registry.retarget entry.id handler) where
  started := loaded.started
  wellFormed := loaded.wellFormed.retarget entry.id handler
  fresh_le := loaded.fresh_le
  spared kind different := by
    rw [current_retarget]
    exact loaded.spared kind different
  unforced := by
    rw [current_retarget]
    exact loaded.unforced
  older other another foundOther := loaded.older other another foundOther
  callables := loaded.callables
  types := loaded.types
  names := loaded.names
  targets other another foundOther := by
    have stays := loaded.bound foundOther
    by_cases same : other = name
    · subst same
      cases found.symm.trans stays
      rw [Tally.lastHook?_hook_self]
      exact targets_retarget_self registry entry.id handler
    · have apart := loaded.wellFormed.id_ne_of_name_ne found stays same
      rw [target, targets_retarget_of_ne _ _ _ apart, Tally.lastHook?_hook_of_ne same]
      exact loaded.targets other another foundOther
  untouched id old gone := by
    -- What was found is of the start or new, and this callable is neither.
    have apart : id ≠ entry.id := by
      rintro rfl
      rcases loaded.older name entry found with was | new
      · exact gone (EntryMap.mem_ids_of_mem (EntryMap.mem_values_of_get? was))
      · exact Nat.not_lt_of_le new old
    rw [targets_retarget_of_ne _ _ _ apart]
    exact loaded.untouched id old gone

/-- Whatever a hook comes to. -/
theorem hook (loaded : Loaded owner start tally registry) {deny : DenyList} {name : Name}
    {handler : Handler} {outcome : Except HookError HookOutcome} {next : Registry}
    (did : Hooked deny name handler owner registry outcome next) :
    Loaded owner start
      (tally.hook [(name, handler)] (BatchReport.installed ⟨[(name, outcome)]⟩)) next := by
  have unbound (absent : registry.get? .callable name = none) :
      start.get? .callable name = none := by
    by_contra present
    obtain ⟨entry, found⟩ := Option.ne_none_iff_exists'.mp present
    rw [loaded.bound found] at absent
    cases absent
  cases did with
  | patched found => exact loaded.patch found handler
  | refused absent denied => exact loaded.hook_of_unbound (unbound absent) handler
  | installed absent allowed =>
      -- An installation is a definition and a hook on a name that was free from the start.
      have defined := loaded.define (isEvictedWith_callable owner name handler _) absent
      exact defined.hook_of_unbound (unbound absent) handler

/-- The hooks of a batch, one after the other. -/
theorem hookEach (deny : DenyList) (hooks : List (Name × Handler)) {host : Host}
    (loaded : Loaded owner start tally host.registry) :
    Loaded owner start
      (tally.hook hooks (BatchReport.installed ⟨(Host.hookEach deny owner hooks host).1⟩))
      (Host.hookEach deny owner hooks host).2.registry := by
  induction hooks generalizing tally host with
  | nil => simpa [Host.hookEach, BatchReport.installed, Tally.hook] using loaded
  | cons pair rest inductionHypothesis =>
      obtain ⟨name, handler⟩ := pair
      have first := loaded.hook (Host.hooked_hook deny name handler owner host)
      have others := inductionHypothesis first
      rw [Tally.hook_hook] at others
      exact others

/-- One operation, whatever it answers. -/
theorem run {operation : Operation} (loading : operation.LoadedBy owner) {host : Host}
    (loaded : Loaded owner start tally host.registry) :
    Loaded owner start (tally.add (operation, (operation.run host).1))
      (operation.run host).2.registry := by
  have defined {kind : Kind} (draft : Draft kind)
      (evictable : (draft.entry host.registry.fresh).isEvictedWith owner = true) :
      Loaded owner start (tally.add (.define draft, ((Operation.define draft).run host).1))
        ((Operation.define draft).run host).2.registry := by
    cases taken : host.registry.contains kind draft.name with
    | true =>
        simp only [Operation.run, Host.onRegistry, define_of_taken draft _ taken]
        exact loaded
    | false =>
        simp only [Operation.run, Host.onRegistry, define_eq_put draft _ taken]
        exact loaded.define evictable (Registry.contains_eq_false_iff.mp taken)
  cases loading with
  | function name handler => exact defined _ (isEvictedWith_callable owner name handler _)
  | type name => exact defined _ (isEvictedWith_type owner name _)
  | constant name value flags => exact defined _ (isEvictedWith_constant owner name value flags _)
  | force name value flags =>
      change Loaded owner start _ (host.forceConstant name value flags owner).2.registry
      rw [registry_forceConstant]
      exact loaded.force name value flags
  | hook deny name handler => exact loaded.hook (Host.hooked_hook deny name handler owner host)
  | batch deny hooks =>
      have batch := loaded.hookEach deny hooks
      rw [← Host.outcomes_hookBatch, ← Host.registry_hookBatch] at batch
      exact batch

/-- Operations in any number. -/
theorem runAll {operations : List Operation}
    (loading : ∀ operation ∈ operations, operation.LoadedBy owner) {host : Host}
    (loaded : Loaded owner start tally host.registry) :
    Loaded owner start ((Operation.runAll operations host).1.foldl Tally.add tally)
      (Operation.runAll operations host).2.registry := by
  induction operations generalizing tally host with
  | nil => exact loaded
  | cons operation rest inductionHypothesis =>
      obtain ⟨first, others⟩ := List.forall_mem_cons.mp loading
      exact inductionHypothesis others (loaded.run first)

end Registry.Loaded

namespace Operation

/-- Evicting an owner who had nothing takes back all that was done under its tag,
except that forced constants do not come back and that hooked callables keep
their last hook.  The report counts what the operations registered. -/
theorem evictAll_runAll {host : Host} (wellFormed : host.registry.WellFormed) {owner : Owner}
    (none : ∀ kind, host.registry.owned kind owner = 0) {operations : List Operation}
    (loading : ∀ operation ∈ operations, operation.LoadedBy owner) :
    let loaded := runAll operations host
    let tally := Tally.of loaded.1
    let unloaded := loaded.2.evictAll owner
    (∀ kind, kind ≠ .constant → (unloaded.2.registry.current kind).entries =
      (host.registry.current kind).entries) ∧
    (unloaded.2.registry.current .constant).toList =
      (host.registry.current .constant).toList.filter (fun entry => entry.name ∉ tally.forced) ∧
    unloaded.2.registry.handlers =
      (host.registry.current .callable).toList.map (fun entry =>
        (tally.lastHook? entry.name).getD (host.registry.target entry)) ∧
    (∀ id < host.registry.fresh,
      id ∉ EntryMap.ids (host.registry.current .callable).entries →
        unloaded.2.registry.targets id = host.registry.targets id) ∧
    unloaded.1 =
      { constants := tally.constants.dedup.length
        types := tally.types
        callables := tally.callables } := by
  intro loaded tally unloaded
  have run : Registry.Loaded owner host.registry tally loaded.2.registry :=
    Registry.Loaded.runAll loading (.refl wellFormed none)
  have cleared := cleared_evictAll owner loaded.2
  have entries (kind : Kind) (different : kind ≠ .constant) :
      (unloaded.2.registry.current kind).entries = (host.registry.current kind).entries :=
    (cleared.entries kind).trans (run.spared kind different)
  refine ⟨entries, ?_, ?_, ?_, ?_⟩
  · have constants := (cleared.entries .constant).trans run.unforced
    rw [Snapshot.toList, constants]
    exact (wellFormed.sound .constant).values_part fun name => name ∉ tally.forced
  · rw [Registry.handlers, Snapshot.toList, entries .callable (by decide)]
    refine List.map_congr_left fun entry member => ?_
    rw [Registry.target, cleared.targets]
    exact run.targets entry.name entry ((wellFormed.sound .callable).get?_name member)
  · intro id old gone
    rw [cleared.targets]
    exact run.untouched id old gone
  · rw [report_evictAll, run.callables, run.types,
      Registration.owned_constant_of_names (run.wellFormed.sound .constant) run.names]

/-- A component that defines, forces, hooks and is refused in between, next to a
callable of its own that the platform provides. -/
theorem evictAll_runAll_of_refusals :
    let owner : Owner := ⟨0, "component"⟩
    let foreign : Owner := ⟨1, "foreign"⟩
    let shared : Name := ⟨[0x73]⟩
    let builtin : Name := ⟨[0x62]⟩
    let denied : Name := ⟨[0x64]⟩
    let made : Name := ⟨[0x6d]⟩
    let deny := DenyList.ofNames [⟨[0x44]⟩]
    let registry := (((Registry.empty.put (.callable shared foreign .image ⟨1⟩)).put
      (.callable builtin owner .intrinsic ⟨2⟩)).put (.constant shared (.int 1) ⟨0⟩ foreign)).put
      (.constant builtin (.int 2) ⟨0⟩ foreign)
    let operations : List Operation :=
      [.define (.callable shared owner .image ⟨3⟩), .define (.callable made owner .image ⟨4⟩),
        .define (.type shared owner .image), .define (.constant shared (.int 3) ⟨0⟩ owner),
        .force shared (.int 4) ⟨0⟩ owner, .force shared (.int 5) ⟨0⟩ owner,
        .define (.constant made (.int 6) ⟨0⟩ owner), .hook deny denied ⟨5⟩ owner,
        .hook deny shared ⟨6⟩ owner,
        .batch deny [(⟨[0x6e]⟩, ⟨7⟩), (denied, ⟨8⟩), (shared, ⟨9⟩), (made, ⟨10⟩)] owner]
    let loaded := runAll operations ⟨registry, []⟩
    let unloaded := loaded.2.evictAll owner
    registry.WellFormed ∧ (∀ kind, registry.owned kind owner = 0) ∧
      (∀ operation ∈ operations, operation.LoadedBy owner) ∧
      loaded.2.registry.handlers = [⟨9⟩, ⟨2⟩, ⟨10⟩, ⟨7⟩] ∧
      (unloaded.2.registry.current .callable).entries = (registry.current .callable).entries ∧
      (unloaded.2.registry.current .constant).names = [builtin] ∧
      unloaded.2.registry.handlers = [⟨9⟩, ⟨2⟩] ∧ unloaded.1 = ⟨2, 1, 2⟩ := by
  intro owner foreign shared builtin denied made deny registry operations
  have wellFormed : registry.WellFormed :=
    (((Registry.wellFormed_empty.put _).put _).put _).put _
  have none (kind : Kind) : registry.owned kind owner = 0 := by
    cases kind <;> decide +kernel
  have loading : ∀ operation ∈ operations, operation.LoadedBy owner := by
    simp only [operations, List.forall_mem_cons]
    exact ⟨.function _ _, .function _ _, .type _, .constant _ _ _, .force _ _ _, .force _ _ _,
      .constant _ _ _, .hook _ _ _, .hook _ _ _, .batch _ _, by simp⟩
  obtain ⟨entries, constants, handlers, -, report⟩ :=
    @evictAll_runAll ⟨registry, []⟩ wellFormed owner none operations loading
  refine ⟨wellFormed, none, loading, by decide +kernel, entries .callable (by decide),
    by decide +kernel, ?_, ?_⟩
  · exact handlers.trans (by decide +kernel)
  · exact report.trans (by decide +kernel)

end Operation
end Interposition
