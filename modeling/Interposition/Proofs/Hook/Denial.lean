import Interposition.Proofs.Concurrent.Custody
import Interposition.Proofs.Concurrent.Installation
import Interposition.Proofs.Hook.Hooked
/-!
What the deny list is for.

A hook installs a callable only after it asked the deny list, at the stage from
which it publishes; so no hook ever brings a denied name into the table, however
many others define and evict the name meanwhile (`System.denied_run`).  A denied
name that is bound is hooked like any other.  The deny list compares names up to
the case of ASCII letters, the table compares them byte for byte.
-/

namespace Interposition.Concurrent

/-- The hooks of a batch, as calls that a thread makes one after the other. -/
def Request.batch (hooks : List (Name × Handler)) (owner : Owner) : List Request :=
  hooks.map fun (name, handler) => .hook name handler owner

/-- A hook whose answer says so added an entry with the name. -/
theorem Record.mem_added_of_installs {record : Record} {name : Name}
    (installs : record.installs name = true) :
    ∃ handler owner, record.request = .hook name handler owner ∧
      (installDraft name handler owner).entry record.offered ∈ record.added .callable := by
  obtain ⟨hooks, installed⟩ := Bool.and_eq_true_iff.mp installs
  cases requested : record.request with
  | hook other handler owner =>
      rw [requested] at hooks
      obtain rfl : other = name := by simpa [Request.hooks] using hooks
      unfold Trial.isInstalled at installed
      split at installed
      · rename_i answered
        exact ⟨handler, owner, rfl, by simp [Record.added, Request.added, requested, answered]⟩
      · cases installed
  | _ =>
      rw [requested] at hooks
      cases hooks

/-- A draft in the table of callables is one of a callable. -/
theorem defines_of_mem_ofKind {other : Kind} {draft : Draft other} {id : EntryId}
    {entry : Callable} (member : entry ∈ ofKind .callable [draft.entry id]) :
    (Request.define draft).defines entry.name = true ∧
      (Request.replace draft).defines entry.name = true := by
  cases draft with
  | callable name owner origin handler =>
      rw [ofKind_self, List.mem_singleton] at member
      simp [Request.defines, member, Draft.entry, Draft.name]
  | _ => cases member

/-- What a call adds to the callables is what it defines or what it installs. -/
theorem Record.defines_or_installs {record : Record} {entry : Callable}
    (member : entry ∈ record.added .callable) :
    record.request.defines entry.name = true ∨ record.installs entry.name = true := by
  unfold Record.added Request.added at member
  split at member
  · rename_i requested answered
    rw [requested]
    exact Or.inl (defines_of_mem_ofKind member).1
  · rename_i requested answered
    rw [requested]
    exact Or.inl (defines_of_mem_ofKind member).2
  · rename_i requested answered
    rw [ofKind_self, List.mem_singleton] at member
    right
    simp [Record.installs, Request.hooks, Trial.isInstalled, requested, answered, member,
      installDraft, Draft.entry, Draft.name]
  · cases member

namespace System

variable {registry : Registry} {requests : List (List Request)}

/-- A hook that installed a callable asked the deny list before. -/
theorem allowed_of_installs (wellFormed : registry.WellFormed) (deny : DenyList)
    {schedule : List Nat} {record : Record} {name : Name}
    (finished : record ∈ ((start registry deny requests).run schedule).records)
    (installs : record.installs name = true) : deny.contains name = false := by
  obtain ⟨handler, owner, requested, added⟩ := record.mem_added_of_installs installs
  rcases decides_of_mem_records _ schedule record finished with
    atStart | ⟨first, index, rest, -, -, running, underway, request, offered, stepped⟩
  · rw [records_start] at atStart
    cases atStart
  · -- The step that ended the hook published, and so it stood where it was allowed to.
    have accounted := (Accounted.start wellFormed deny requests).run first
    have pursued := Stage.pursued (accounted.pursues running underway)
    rw [deny_run, stepped, request, offered] at pursued
    generalize ((start registry deny requests).run (first ++ [index])).registry = next at pursued
    cases pursued with
    | onward goes => cases goes
    | silent nothing tables fresh =>
        have none : record.added .callable = [] := (nothing .callable).2
        rw [none] at added
        cases added
    | published edited offers handedOut added allowed => exact allowed name handler owner requested

/-- Whatever threads do, no hook installs a callable whose name is denied, and a
denied name in the table is bound to a callable that was there in the beginning or
that a definition put in.  When nothing happens at the same time, a hook, alone or
in a batch, is refused exactly if its name is free and denied, and a name that is
bound is patched. -/
theorem denied_run (wellFormed : registry.WellFormed) (names : List Name)
    (requests : List (List Request)) (schedule : List Nat) :
    let deny := DenyList.ofNames names
    let system := (start registry deny requests).run schedule
    (∀ record ∈ system.records, ∀ name, record.installs name = true →
      ∀ listed ∈ names, listed.fold ≠ name.fold) ∧
    (∀ entry ∈ (system.registry.current .callable).toList,
      ∀ listed ∈ names, listed.fold = entry.name.fold →
        entry ∈ (registry.current .callable).toList ∨
          ∃ record ∈ system.records,
            record.request.defines entry.name = true ∧ entry ∈ record.added .callable) ∧
    ∀ (host : Host) (name : Name) (handler : Handler) (owner : Owner),
      ((host.hook deny name handler owner).1 = .error (.unhookable name) ↔
        host.registry.get? .callable name = none ∧ ∃ listed ∈ names, listed.fold = name.fold) ∧
      (∀ entry, host.registry.get? .callable name = some entry →
        (host.hook deny name handler owner).1 = .ok (.patched (host.registry.target entry)) ∧
          (host.hook deny name handler owner).2.registry.resolve? name = some handler) ∧
      ∀ before after : List (Name × Handler),
        let report := (host.hookBatch deny (before ++ (name, handler) :: after) owner).1
        let hooked := (Host.hookEach deny owner before host).2
        report.outcomes[before.length]? = some (name, (hooked.hook deny name handler owner).1) := by
  intro deny system
  have allowed : ∀ record ∈ system.records, ∀ name, record.installs name = true →
      ∀ listed ∈ names, listed.fold ≠ name.fold := by
    intro record finished name installs listed inNames same
    have denied : deny.contains name = true :=
      DenyList.contains_ofNames.mpr ⟨listed, inNames, same⟩
    rw [allowed_of_installs wellFormed deny finished installs] at denied
    cases denied
  refine ⟨allowed, ?_, ?_⟩
  · intro entry inTable listed inNames same
    have accounted := (Accounted.start wellFormed deny requests).run schedule
    rcases List.mem_append.mp
      ((accounted.places .callable).subset (List.mem_append_left _ inTable)) with old | new
    · exact Or.inl old
    · obtain ⟨record, finished, added⟩ := List.mem_flatMap.mp new
      rcases Record.defines_or_installs added with defines | installs
      · exact Or.inr ⟨record, finished, defines, added⟩
      · exact absurd same (allowed record finished entry.name installs listed inNames)
  · intro host name handler owner
    refine ⟨?_, ?_, ?_⟩
    · rw [Host.hook_eq_unhookable_iff, DenyList.contains_ofNames]
    · intro entry found
      rw [Host.hook_of_found deny handler owner found]
      refine ⟨rfl, ?_⟩
      rw [Registry.resolve?, Registry.get?_retarget, found]
      exact congrArg some (Registry.targets_retarget_self host.registry entry.id handler)
    · intro before after
      exact Host.getElem?_outcomes_hookBatch deny before after name handler owner host

/-- A denied name that is hooked while it is absent, patched by a batch while its
callable is evicted, hooked again, and defined again in the end. -/
theorem denied_run_of_eviction :
    let denied : Name := ⟨[0x64]⟩
    let free : Name := ⟨[0x66]⟩
    let owner : Owner := ⟨0, "first"⟩
    let other : Owner := ⟨1, "second"⟩
    let define : Request := .define (.callable denied owner .image ⟨1⟩)
    let requests : List (List Request) :=
      [[define, .evict .callable owner, define], Request.batch [(denied, ⟨2⟩), (free, ⟨3⟩)] other,
        [.hook denied ⟨4⟩ other, .hook denied ⟨5⟩ other]]
    let schedule := [2, 2, 0, 0, 0, 1, 1, 0, 0, 0, 2, 1, 2, 1, 1, 1, 1, 0, 0, 0]
    let deny := DenyList.ofNames [⟨[0x44]⟩]
    let final := (start .empty deny requests).run schedule
    Registry.WellFormed .empty ∧ final.isFinished ∧
      final.records.countP (Trial.isRefused ·.answer) = 2 ∧
      final.records.countP (Trial.isPatched ·.answer) = 1 ∧
      final.records.countP (Trial.isInstalled ·.answer) = 1 ∧
      (final.registry.current .callable).names = [free, denied] ∧
      (∀ record ∈ final.records, record.installs denied = false) ∧
      (∃ entry ∈ (final.registry.current .callable).toList, entry.name = denied ∧
        ∃ record ∈ final.records,
          record.request.defines denied = true ∧ entry ∈ record.added .callable) ∧
      ((Host.mk final.registry []).hook deny denied ⟨6⟩ other).1 = .ok (.patched ⟨1⟩) := by
  intro denied free owner other define requests schedule
  obtain ⟨allowed, defined, -⟩ :=
    denied_run Registry.wellFormed_empty [⟨[0x44]⟩] requests schedule
  have present : ∃ entry ∈ (((start .empty (.ofNames [⟨[0x44]⟩]) requests).run
      schedule).registry.current .callable).toList, entry.name = denied := by decide +kernel
  obtain ⟨entry, inTable, named⟩ := present
  refine ⟨Registry.wellFormed_empty, by decide +kernel, by decide +kernel, by decide +kernel,
    by decide +kernel, by decide +kernel, ?_, ⟨entry, inTable, named, ?_⟩, by decide +kernel⟩
  · intro record finished
    apply Bool.eq_false_iff.mpr
    intro installs
    exact allowed record finished denied installs ⟨[0x44]⟩ List.mem_cons_self (by decide)
  · rcases defined entry inTable ⟨[0x44]⟩ List.mem_cons_self (by rw [named]; decide) with
      old | ⟨record, finished, defines, added⟩
    · cases old
    · exact ⟨record, finished, named ▸ defines, added⟩

end System
end Interposition.Concurrent
