import Interposition.Proofs.Hook.Hooked
/-!
Taking a batch back.

The report of a batch says what it takes to undo it: the displaced handler of
every callable that was patched, and the name of every callable that was
installed.  `Host.undo_hookBatch` says that going through the outcomes from the
last to the first finds everything there is to take back and leaves the
callables with the targets that they had before.
-/

namespace Interposition

namespace BatchReport

/-- Take one outcome back: patch the displaced handler back in, or remove what
was installed.  The answer says whether there was something to take back where
the outcome tells so. -/
def undoOutcome : Name × Except HookError HookOutcome → Host → Bool × Host
  | (name, .ok (.patched previous)), host =>
    let (displaced?, host) := host.patch name previous
    (displaced?.isSome, host)
  | (name, .ok .installed), host =>
    let (removed?, host) := host.onRegistry (Registry.remove .callable name)
    (removed?.isSome, host)
  | (_, .error _), host => (true, host)

/-- Take outcomes back, one after the other. -/
def undoEach : List (Name × Except HookError HookOutcome) → Host → Bool × Host
  | [], host => (true, host)
  | outcome :: rest, host =>
    let (hit, host) := undoOutcome outcome host
    let (hits, host) := undoEach rest host
    (hit && hits, host)

/-- Take a batch back, its last outcome first. -/
def undo (report : BatchReport) (host : Host) : Bool × Host :=
  undoEach report.outcomes.reverse host

theorem undoEach_append (first second : List (Name × Except HookError HookOutcome))
    (host : Host) :
    undoEach (first ++ second) host =
      ((undoEach first host).1 && (undoEach second (undoEach first host).2).1,
        (undoEach second (undoEach first host).2).2) := by
  induction first generalizing host with
  | nil => rfl
  | cons outcome rest inductionHypothesis =>
      simp [undoEach, inductionHypothesis, Bool.and_assoc]

end BatchReport

/-- Whether a registry shows the callables of an earlier one, each with the
target that it had then.  Versions, and callables that were made since, do not
matter. -/
structure Registry.Restores (earlier registry : Registry) : Prop where
  entries : (registry.current .callable).entries = (earlier.current .callable).entries
  targets : ∀ id < earlier.fresh, registry.targets id = earlier.targets id

namespace Registry.Restores

variable {earlier registry : Registry}

theorem refl (registry : Registry) : registry.Restores registry :=
  ⟨rfl, fun _ _ => rfl⟩

theorem get?_eq (restores : earlier.Restores registry) (name : Name) :
    registry.get? .callable name = earlier.get? .callable name := by
  rw [get?, get?, Snapshot.get?, Snapshot.get?, restores.entries]

theorem handlers_eq (restores : earlier.Restores registry) (wellFormed : earlier.WellFormed) :
    registry.handlers = earlier.handlers := by
  rw [handlers, handlers, Snapshot.toList, Snapshot.toList, restores.entries]
  refine List.map_congr_left fun entry member => ?_
  exact restores.targets entry.id
    (wellFormed.belowFresh .callable entry.id (EntryMap.mem_ids_of_mem member))

end Registry.Restores

namespace Registry

/-- Removing what was put under a free name leaves the table as it was. -/
theorem remove_put {kind : Kind} (draft : Draft kind) {earlier registry : Registry}
    (free : earlier.get? kind draft.name = none)
    (entries : (registry.current kind).entries = ((earlier.put draft).current kind).entries) :
    registry.remove kind draft.name =
      (some (draft.entry earlier.fresh), registry.publish (earlier.current kind).entries) := by
  have bound : (registry.current kind).entries.get? draft.name =
      some (draft.entry earlier.fresh) := by
    rw [entries]
    exact get?_put_self draft earlier
  have erased : (registry.current kind).entries.erase draft.name =
      (earlier.current kind).entries := by
    rw [entries, entries_put, OrderedMap.erase_append_self]
    exact OrderedMap.erase_eq_self (OrderedMap.get?_eq_none_iff.mp free)
  apply update_eq_publish
  simp [Edit.remove, bound, erased]

end Registry

namespace Host

open BatchReport

variable {deny : DenyList} {name : Name} {handler : Handler} {owner : Owner}
  {earlier hooked : Registry} {outcome : Except HookError HookOutcome}

/-- Taking back the outcome of a hook, from wherever the callables are as the
hook left them. -/
theorem undoOutcome_of_hooked
    (did : Registry.Hooked deny name handler owner earlier outcome hooked) {host : Host}
    (restores : hooked.Restores host.registry) :
    (undoOutcome (name, outcome) host).1 = true ∧
      earlier.Restores (undoOutcome (name, outcome) host).2.registry := by
  cases did with
  | @patched entry found =>
      have bound : host.registry.get? .callable name = some entry := by
        rw [restores.get?_eq, Registry.get?_retarget, found]
      rw [undoOutcome, patch_of_found _ bound]
      refine ⟨rfl, ?_, ?_⟩
      · rw [Registry.current_retarget, restores.entries, Registry.current_retarget]
      · intro id old
        by_cases same : id = entry.id
        · rw [same, Registry.targets_retarget_self]
          rfl
        · rw [Registry.targets_retarget_of_ne _ _ _ same, restores.targets id old,
            Registry.targets_retarget_of_ne _ _ _ same]
  | refused absent denied => exact ⟨rfl, restores⟩
  | installed absent allowed =>
      have removed : host.registry.remove .callable name = _ :=
        Registry.remove_put (.callable name owner .image handler) absent restores.entries
      rw [undoOutcome, onRegistry, removed]
      refine ⟨rfl, ?_, ?_⟩
      · rw [Registry.current_publish]
      · intro id old
        rw [Registry.targets_publish, restores.targets id, Registry.targets_put_of_ne]
        · exact Nat.ne_of_lt old
        · rw [Registry.fresh_put]
          exact Nat.lt_succ_of_lt old

/-- Taking back the outcomes of hooks, the last one first, from wherever the
callables are as the hooks left them. -/
theorem undoEach_hookEach (deny : DenyList) (owner : Owner) (hooks : List (Name × Handler))
    (host hooked : Host)
    (restores : (hookEach deny owner hooks host).2.registry.Restores hooked.registry) :
    (undoEach (hookEach deny owner hooks host).1.reverse hooked).1 = true ∧
      host.registry.Restores
        (undoEach (hookEach deny owner hooks host).1.reverse hooked).2.registry := by
  induction hooks generalizing host with
  | nil => exact ⟨rfl, restores⟩
  | cons pair rest inductionHypothesis =>
      obtain ⟨name, handler⟩ := pair
      have first := hooked_hook deny name handler owner host
      obtain ⟨restHits, restRestores⟩ :=
        inductionHypothesis (host.hook deny name handler owner).2 restores
      obtain ⟨firstHits, firstRestores⟩ := undoOutcome_of_hooked first restRestores
      simp only [hookEach, List.reverse_cons, undoEach_append, undoEach, restHits, firstHits]
      exact ⟨rfl, firstRestores⟩

/-- Taking a batch back, its last outcome first, finds everything there is to take
back, and leaves the callables as they were before the batch, each with the
target that it had. -/
theorem undo_hookBatch {host : Host} (wellFormed : host.registry.WellFormed) (deny : DenyList)
    (hooks : List (Name × Handler)) (owner : Owner) :
    let batch := host.hookBatch deny hooks owner
    let undone := batch.1.undo batch.2
    undone.1 = true ∧
      (undone.2.registry.current .callable).entries =
        (host.registry.current .callable).entries ∧
      undone.2.registry.handlers = host.registry.handlers := by
  obtain ⟨hit, restores⟩ := undoEach_hookEach deny owner hooks host
    (host.hookBatch deny hooks owner).2 (registry_hookBatch deny hooks owner host ▸ .refl _)
  dsimp only [undo]
  rw [outcomes_hookBatch]
  exact ⟨hit, restores.entries, restores.handlers_eq wellFormed⟩

/-- A batch that patches a callable twice, installs one and patches it, and is
refused for a denied name, while another denied name is bound and patched. -/
theorem undo_hookBatch_of_repeated :
    let bound : Name := ⟨[0x62]⟩
    let free : Name := ⟨[0x66]⟩
    let denied : Name := ⟨[0x64]⟩
    let first : Owner := ⟨0, "first"⟩
    let registry := Registry.empty.put (.callable bound first .image ⟨1⟩)
    let hooks : List (Name × Handler) :=
      [(free, ⟨2⟩), (bound, ⟨3⟩), (denied, ⟨4⟩), (free, ⟨5⟩), (bound, ⟨6⟩)]
    let batch :=
      Host.hookBatch (.ofNames [⟨[0x44]⟩, ⟨[0x42]⟩]) hooks ⟨1, "second"⟩ ⟨registry, []⟩
    let undone := batch.1.undo batch.2
    registry.WellFormed ∧ batch.1.failures = [denied] ∧ batch.1.installed = 1 ∧
      batch.1.patched = 3 ∧ batch.2.registry.handlers = [⟨6⟩, ⟨5⟩] ∧
      undone.1 = true ∧
      (undone.2.registry.current .callable).entries = (registry.current .callable).entries ∧
      undone.2.registry.handlers = [⟨1⟩] := by
  intro bound free denied first registry hooks
  have wellFormed : registry.WellFormed := Registry.wellFormed_empty.put _
  have started : registry.handlers = [⟨1⟩] := by decide +kernel
  obtain ⟨hit, entries, handlers⟩ := @undo_hookBatch ⟨registry, []⟩ wellFormed
    (.ofNames [⟨[0x44]⟩, ⟨[0x42]⟩]) hooks ⟨1, "second"⟩
  rw [started] at handlers
  exact ⟨wellFormed, by decide +kernel, by decide +kernel, by decide +kernel, by decide +kernel,
    hit, entries, handlers⟩

end Host
end Interposition
