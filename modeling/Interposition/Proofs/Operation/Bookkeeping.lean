import Mathlib.Algebra.GroupWithZero.Nat
import Interposition.Proofs.Operation.Deeds
/-!
The log as a set of books.

Whatever happens to a host at once, a single operation that came back, the end of a batch,
the end of a takeover, is told in the log by events of its own, in order
(`Happening.Emits`).  What an event says about the entries of a table, that one was
installed, displaced, or that some were evicted, and what the answers of definitions and
forced constants say, accounts for the size of the table (`Happening.told`).
-/

namespace Interposition

/-- Whether the log accounts for an operation: it is a single call, and it is not the
removal of a name, which is told by no event. -/
def Operation.isAudited : Operation → Bool
  | .batch .. | .remove .. => false
  | _ => true

/-- Something that happened to a host at once. -/
inductive Happening where
  /-- A single operation came back with an answer. -/
  | answered (operation : Operation) (answer : Operation.Answer)
  /-- All hooks of a batch were made. -/
  | reported (owner : Owner) (report : BatchReport)
  /-- A takeover ended, early or with a report. -/
  | superseded (takeover : Takeover) (result : Except TakeoverError TakeoverReport)

/-- How many entries an event says came into a table. -/
def Event.entering (kind : Kind) : Event → Nat
  | .installed .. => if kind = .callable then 1 else 0
  | _ => 0

/-- How many entries an event says left a table. -/
def Event.leaving (kind : Kind) : Event → Nat
  | .replaced .. => if kind = .constant then 1 else 0
  | .evicted table _ removed => if kind = table then removed else 0
  | _ => 0

namespace Happening

/-- How many entries an answer says came into a table: one for a definition that
succeeded, and one for a forced constant. -/
def entering (kind : Kind) : Happening → Nat
  | .answered (@Operation.define other _) (.defined (.ok _)) => if kind = other then 1 else 0
  | .answered (.force ..) _ => if kind = .constant then 1 else 0
  | _ => 0

/-- The events by which a happening is told, if the names are bound as in a registry. -/
inductive Emits (registry : Registry) : Happening → List Event → Prop where
  | defined {kind : Kind} (draft : Draft kind) (result : Except RegistryError (Entry kind)) :
      Emits registry (.answered (.define draft) (.defined result)) []
  | forced {name : Name} {value : Value} {flags : ConstFlags} {owner : Owner} :
      Emits registry (.answered (.force name value flags owner) (.forced none)) []
  | replaced {name : Name} {value : Value} {flags : ConstFlags} {owner : Owner}
      (previous : Constant) :
      Emits registry (.answered (.force name value flags owner) (.forced (some previous)))
        [.replaced name owner previous.owner]
  | installed {deny : DenyList} {name : Name} {handler : Handler} {owner : Owner} :
      Emits registry (.answered (.hook deny name handler owner) (.hooked (.ok .installed)))
        [.installed name owner]
  /-- A hook of a callable that is there is told with the owner of that callable. -/
  | hooked {deny : DenyList} {name : Name} {handler previous : Handler} {owner : Owner}
      {entry : Callable} (found : registry.get? .callable name = some entry) :
      Emits registry (.answered (.hook deny name handler owner) (.hooked (.ok (.patched previous))))
        [.patched name entry.owner]
  | refused {deny : DenyList} {name : Name} {handler : Handler} {owner : Owner} :
      Emits registry
        (.answered (.hook deny name handler owner) (.hooked (.error (.unhookable name))))
        [.refused name]
  | patched {name : Name} {handler previous : Handler} {entry : Callable}
      (found : registry.get? .callable name = some entry) :
      Emits registry (.answered (.patch name handler) (.patched (some previous)))
        [.patched name entry.owner]
  | missed {name : Name} {handler : Handler} :
      Emits registry (.answered (.patch name handler) (.patched none)) []
  | evicted {kind : Kind} (owner : Owner) (removed : List (Entry kind)) :
      Emits registry (.answered (.evict kind owner) (.evicted removed))
        [.evicted kind owner removed.length]
  | complete {owner : Owner} {report : BatchReport} (success : report.isSuccess = true) :
      Emits registry (.reported owner report) []
  | incomplete {owner : Owner} {report : BatchReport} (failed : report.isSuccess = false) :
      Emits registry (.reported owner report) [.batchIncomplete owner report.failures]
  | superseded (takeover : Takeover) (report : TakeoverReport) :
      Emits registry (.superseded takeover (.ok report))
        [.takeover takeover.successor report.owner report.evicted.total]
  | abandoned (takeover : Takeover) (error : TakeoverError) :
      Emits registry (.superseded takeover (.error error)) []

/-- What a happening makes of a host. -/
inductive Happens (host : Host) : Happening → Host → Prop where
  | answered {operation : Operation} (audited : operation.isAudited = true) :
      Happens host (.answered operation (operation.run host).1) (operation.run host).2
  | reported (owner : Owner) (report : BatchReport) :
      Happens host (.reported owner report)
        (if report.isSuccess then host else host.emit (.batchIncomplete owner report.failures))
  | superseded (takeover : Takeover) (evicted : EvictionReport) :
      Happens host (.superseded takeover (.ok (takeover.complete evicted host).1))
        (takeover.complete evicted host).2
  | abandoned (takeover : Takeover) (error : TakeoverError) :
      Happens host (.superseded takeover (.error error)) host

/-- That a happening is told by events, and that these and its answer say how the tables
grew and shrank. -/
structure Told (before : Host) (happening : Happening) (after : Host) (events : List Event) :
    Prop where
  emits : happening.Emits before.registry events
  log : after.log = before.log ++ events
  balance : ∀ kind,
    (after.registry.current kind).size + (events.map (Event.leaving kind)).sum =
      (before.registry.current kind).size + happening.entering kind +
        (events.map (Event.entering kind)).sum

end Happening

section Sizes

variable {kind : Kind}

/-- A new entry makes its table larger by one, less what it displaces. -/
theorem Registry.WellFormed.size_put {registry : Registry} (wellFormed : registry.WellFormed)
    (draft : Draft kind) :
    ((registry.put draft).current kind).size + (registry.get? kind draft.name).toList.length =
      (registry.current kind).size + 1 := by
  rw [Snapshot.size, Registry.entries_put]
  exact OrderedMap.size_append (wellFormed.sound kind).distinctKeys draft.name _

/-- An eviction makes its table smaller by what it removes. -/
theorem Host.size_evict (owner : Owner) (host : Host) :
    ((host.evict kind owner).2.registry.current kind).size + (host.evict kind owner).1.length =
      (host.registry.current kind).size := by
  rw [Snapshot.size, entries_evict, ← OrderedMap.length_values, values_part_spares, length_evict,
    Registry.owned, Snapshot.toList, List.countP_eq_length_filter, Nat.add_comm, Snapshot.size,
    ← OrderedMap.length_values]
  have split :=
    List.length_eq_countP_add_countP (fun entry : Entry kind => entry.isEvictedWith owner)
      (l := (host.registry.current kind).entries.values)
  simpa [List.countP_eq_length_filter] using split.symm

end Sizes

namespace Happening

variable {host : Host}

/-- A happening that leaves the tables as they are, and is told by no event that speaks of
their entries. -/
theorem Told.of_same_sizes {after : Host} {happening : Happening} {events : List Event}
    (emits : happening.Emits host.registry events) (log : after.log = host.log ++ events)
    (sizes : ∀ kind, (after.registry.current kind).size = (host.registry.current kind).size)
    (entering : ∀ kind, happening.entering kind + (events.map (Event.entering kind)).sum = 0)
    (leaving : ∀ kind, (events.map (Event.leaving kind)).sum = 0) :
    Told host happening after events where
  emits := emits
  log := log
  balance kind := by rw [sizes, leaving, Nat.add_assoc, entering]

/-- A new entry, told as one that came in, and as leaving whatever it displaced. -/
theorem Told.of_put (wellFormed : host.registry.WellFormed) {kind : Kind} {draft : Draft kind}
    {after : Host} {happening : Happening} {events : List Event}
    (emits : happening.Emits host.registry events) (log : after.log = host.log ++ events)
    (registry : after.registry = host.registry.put draft)
    (entering : ∀ other, happening.entering other + (events.map (Event.entering other)).sum =
      if other = kind then 1 else 0)
    (leaving : ∀ other, (events.map (Event.leaving other)).sum =
      if other = kind then (host.registry.get? kind draft.name).toList.length else 0) :
    Told host happening after events where
  emits := emits
  log := log
  balance other := by
    rw [registry, leaving, Nat.add_assoc, entering]
    by_cases same : other = kind
    · subst same
      rw [if_pos rfl, if_pos rfl, wellFormed.size_put draft]
    · rw [if_neg same, if_neg same, Registry.current_put_of_ne draft host.registry same]

/-- A definition is told by its answer alone. -/
theorem told_define (wellFormed : host.registry.WellFormed) {kind : Kind} (draft : Draft kind) :
    Told host (.answered (.define draft) ((Operation.define draft).run host).1)
      ((Operation.define draft).run host).2 [] := by
  simp only [Operation.run, Host.onRegistry]
  cases taken : host.registry.contains kind draft.name with
  | true =>
      rw [Registry.define_of_taken draft _ taken]
      exact .of_same_sizes (.defined draft _) (List.append_nil _).symm (fun _ => rfl)
        (fun _ => rfl) fun _ => rfl
  | false =>
      rw [Registry.define_eq_put draft _ taken]
      refine .of_put wellFormed (.defined draft _) (List.append_nil _).symm rfl (fun _ => rfl) ?_
      intro other
      rw [Registry.contains_eq_false_iff.mp taken]
      exact (ite_self 0).symm

/-- A forced constant comes in, and is told by an event if it displaced another one. -/
theorem told_force (wellFormed : host.registry.WellFormed) (name : Name) (value : Value)
    (flags : ConstFlags) (owner : Owner) :
    ∃ events, Told host
      (.answered (.force name value flags owner)
        (.forced (host.forceConstant name value flags owner).1))
      (host.forceConstant name value flags owner).2 events := by
  have replaced := Registry.replace_eq_put (.constant name value flags owner) host.registry
  simp only [Host.forceConstant, Host.onRegistry, replaced]
  cases bound : host.registry.get? .constant name with
  | none =>
      simp only [Draft.name, bound]
      refine ⟨[], .of_put wellFormed .forced (List.append_nil _).symm rfl (fun _ => rfl) ?_⟩
      intro other
      rw [Draft.name, bound]
      exact (ite_self 0).symm
  | some previous =>
      simp only [Draft.name, bound]
      refine ⟨_, .of_put wellFormed (.replaced previous) rfl rfl (fun _ => rfl) ?_⟩
      intro other
      rw [Draft.name, bound]
      rfl

/-- A hook is told by one event, whatever it comes to. -/
theorem told_hook (wellFormed : host.registry.WellFormed) (deny : DenyList) (name : Name)
    (handler : Handler) (owner : Owner) :
    ∃ events, Told host
      (.answered (.hook deny name handler owner) (.hooked (host.hook deny name handler owner).1))
      (host.hook deny name handler owner).2 events := by
  cases bound : host.registry.get? .callable name with
  | some entry =>
      rw [Host.hook_of_found deny handler owner bound]
      exact ⟨_, .of_same_sizes (.hooked bound) rfl
        (fun kind => by rw [Registry.current_retarget]) (fun _ => rfl) fun _ => rfl⟩
  | none =>
      rw [Host.hook_of_absent deny handler owner bound]
      cases denied : deny.contains name with
      | true =>
          exact ⟨_, .of_same_sizes .refused rfl (fun _ => rfl) (fun _ => rfl) fun _ => rfl⟩
      | false =>
          have log : (host.install name handler owner).log = host.log ++ [.installed name owner] :=
            rfl
          refine ⟨_, .of_put wellFormed .installed log (Host.registry_install handler owner bound)
            (fun _ => Nat.zero_add _) ?_⟩
          intro other
          rw [Draft.name, bound]
          exact (ite_self 0).symm

/-- A patch is told by an event with the owner of the callable, if there is one. -/
theorem told_patch (name : Name) (handler : Handler) :
    ∃ events, Told host (.answered (.patch name handler) (.patched (host.patch name handler).1))
      (host.patch name handler).2 events := by
  cases bound : host.registry.get? .callable name with
  | none =>
      rw [Host.patch_of_absent handler bound]
      exact ⟨[], .of_same_sizes .missed (List.append_nil _).symm (fun _ => rfl) (fun _ => rfl)
        fun _ => rfl⟩
  | some entry =>
      rw [Host.patch_of_found handler bound]
      exact ⟨_, .of_same_sizes (.patched bound) rfl
        (fun kind => by rw [Registry.current_retarget]) (fun _ => rfl) fun _ => rfl⟩

/-- An eviction is told by one event, which counts what it removes. -/
theorem told_evict (kind : Kind) (owner : Owner) :
    Told host (.answered (.evict kind owner) (.evicted (host.evict kind owner).1))
      (host.evict kind owner).2 [.evicted kind owner (host.evict kind owner).1.length] where
  emits := .evicted owner _
  log := rfl
  balance other := by
    by_cases same : other = kind
    · subst same
      simpa [Event.leaving, Event.entering, entering] using host.size_evict owner
    · simp [Event.leaving, Event.entering, entering, same, current_evict_of_ne kind owner host same]

/-- Whatever happens is told. -/
theorem Happens.told {happening : Happening} {after : Host}
    (happens : happening.Happens host after) (wellFormed : host.registry.WellFormed) :
    ∃ events, Told host happening after events := by
  cases happens with
  | @answered operation audited =>
      cases operation with
      | define draft => exact ⟨[], told_define wellFormed draft⟩
      | force name value flags owner => exact told_force wellFormed name value flags owner
      | hook deny name handler owner => exact told_hook wellFormed deny name handler owner
      | patch name handler => exact told_patch name handler
      | evict kind owner => exact ⟨_, told_evict kind owner⟩
      | batch | remove => exact absurd audited Bool.false_ne_true
  | reported owner report =>
      cases success : report.isSuccess with
      | true =>
          exact ⟨[], .of_same_sizes (.complete success) (List.append_nil _).symm (fun _ => rfl)
            (fun _ => rfl) fun _ => rfl⟩
      | false =>
          exact ⟨_, .of_same_sizes (.incomplete success) rfl (fun _ => rfl) (fun _ => rfl)
            fun _ => rfl⟩
  | superseded takeover evicted =>
      exact ⟨_, .of_same_sizes (.superseded takeover _) rfl (fun _ => rfl) (fun _ => rfl)
        fun _ => rfl⟩
  | abandoned takeover error =>
      exact ⟨[], .of_same_sizes (.abandoned takeover error) (List.append_nil _).symm
        (fun _ => rfl) (fun _ => rfl) fun _ => rfl⟩

/-- Whatever happens keeps a host well formed. -/
theorem Happens.wellFormed {happening : Happening} {after : Host}
    (happens : happening.Happens host after) (wellFormed : host.registry.WellFormed) :
    after.registry.WellFormed := by
  cases happens with
  | @answered operation audited =>
      exact (Operation.doAll_run host operation).wellFormed wellFormed
  | reported owner report => cases report.isSuccess <;> exact wellFormed
  | superseded | abandoned => exact wellFormed

end Happening
end Interposition
