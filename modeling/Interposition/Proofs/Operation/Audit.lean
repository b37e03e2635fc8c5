import Interposition.Proofs.Operation.Bookkeeping
import Interposition.Proofs.Takeover.Ending
/-!
Audits.

A host that was empty at first was made what it is by definitions, forced constants, hooks,
patches, batches, evictions and takeovers.  What happened meanwhile is a history, in which
a batch is the hooks that it makes and its report, and a takeover the evictions of the
target, whatever the registration of the replacements does, and its end (`Host.Runs`).
At every moment of the history, in the middle of a batch or of a takeover as well, the log
holds the events of what happened until then and no others, and its counts balance with
the sizes of the tables (`Host.Runs.balances`).
-/

namespace Interposition

/-- Something that happened, with the host before and after it. -/
structure Occurrence where
  before : Host
  happening : Happening
  after : Host

namespace Occurrence

/-- The occurrences of operations that are carried out in order. -/
def ofOperations : List Operation → Host → List Occurrence
  | [], _ => []
  | operation :: rest, host =>
    ⟨host, .answered operation (operation.run host).1, (operation.run host).2⟩ ::
      ofOperations rest (operation.run host).2

end Occurrence

/-- The hooks of a batch, as operations of their own. -/
def Operation.hooks (deny : DenyList) (hooks : List (Name × Handler)) (owner : Owner) :
    List Operation :=
  hooks.map fun (name, handler) => .hook deny name handler owner

/-- The operation that a registration carries out. -/
def Registration.operation (registrar : Registrar) : Registration → Operation
  | .function name handler => .define (.callable name registrar.owner .image handler)
  | .hook name handler => .hook registrar.deny name handler registrar.owner
  | .constant name value flags => .force name value flags registrar.owner
  | .type name => .define (.type name registrar.owner .image)

/-- The evictions by which a takeover clears the surface of its target. -/
def Takeover.evictions (takeover : Takeover) : List Operation :=
  takeover.target?.elim [] fun target =>
    [.evict .constant target, .evict .type target, .evict .callable target]

namespace Host

/-- What callers make of a host by calls that the log accounts for, with all that happened. -/
inductive Runs : Host → List Occurrence → Host → Prop where
  | nil (host : Host) : Runs host [] host
  | operation {first host : Host} {history : List Occurrence} (runs : Runs first history host)
      {operation : Operation} (audited : operation.isAudited = true) :
      Runs first (history ++ Occurrence.ofOperations [operation] host) (operation.run host).2
  | batch {first host : Host} {history : List Occurrence} (runs : Runs first history host)
      (deny : DenyList) (hooks : List (Name × Handler)) (owner : Owner) :
      Runs first
        (history ++ Occurrence.ofOperations (Operation.hooks deny hooks owner) host ++
          [⟨(hookEach deny owner hooks host).2,
            .reported owner (host.hookBatch deny hooks owner).1,
            (host.hookBatch deny hooks owner).2⟩])
        (host.hookBatch deny hooks owner).2
  /-- A takeover comes before its target was loaded. -/
  | premature {first host : Host} {history : List Occurrence} (runs : Runs first history host)
      {takeover : Takeover} (premature : takeover.Premature host.registry)
      (register : Registrar → Host → Except TakeoverError Unit × Host) :
      Runs first
        (history ++ [⟨host, .superseded takeover (takeover.supersede register host).1,
          (takeover.supersede register host).2⟩])
        (takeover.supersede register host).2
  /-- A takeover clears the surface of its target.  What registers the replacements makes
  calls, too, and may fail at any of them. -/
  | takeover {first host : Host} {history : List Occurrence} (runs : Runs first history host)
      {takeover : Takeover} (ready : ¬takeover.Premature host.registry)
      {register : Registrar → Host → Except TakeoverError Unit × Host}
      {registered : List Occurrence}
      (registers : Runs (takeover.cleared host) registered
        (register takeover.registrar (takeover.cleared host)).2) :
      Runs first
        (history ++ Occurrence.ofOperations takeover.evictions host ++ registered ++
          [⟨(register takeover.registrar (takeover.cleared host)).2,
            .superseded takeover (takeover.supersede register host).1,
            (takeover.supersede register host).2⟩])
        (takeover.supersede register host).2

/-- What happenings make of a host, one after the other. -/
inductive Steps : Host → List Occurrence → Host → Prop where
  | nil (host : Host) : Steps host [] host
  | cons {first next last : Host} {happening : Happening} {rest : List Occurrence}
      (happens : happening.Happens first next) (steps : Steps next rest last) :
      Steps first (⟨first, happening, next⟩ :: rest) last

namespace Steps

variable {first middle last : Host} {earlier later : List Occurrence}

theorem single {happening : Happening} (happens : happening.Happens first last) :
    Steps first [⟨first, happening, last⟩] last :=
  .cons happens (.nil last)

theorem append (steps : Steps first earlier middle) (others : Steps middle later last) :
    Steps first (earlier ++ later) last := by
  induction steps with
  | nil => exact others
  | cons happens _ inductionHypothesis => exact .cons happens (inductionHypothesis others)

/-- Every place in a history is a moment of the host. -/
theorem split (steps : Steps first (earlier ++ later) last) :
    ∃ moment, Steps first earlier moment ∧ Steps moment later last := by
  induction earlier generalizing first with
  | nil => exact ⟨first, .nil first, steps⟩
  | cons occurrence rest inductionHypothesis =>
      cases steps with
      | cons happens steps =>
          obtain ⟨moment, before, after⟩ := inductionHypothesis steps
          exact ⟨moment, .cons happens before, after⟩

/-- Operations that are carried out in order are steps. -/
theorem ofOperations {operations : List Operation}
    (audited : ∀ operation ∈ operations, operation.isAudited = true) (host : Host) :
    Steps host (Occurrence.ofOperations operations host) (Operation.runAll operations host).2 := by
  induction operations generalizing host with
  | nil => exact .nil host
  | cons operation rest inductionHypothesis =>
      obtain ⟨first, others⟩ := List.forall_mem_cons.mp audited
      exact .cons (.answered first) (inductionHypothesis others _)

/-- A history is told by the events of its occurrences, and these and the answers say how
the tables grew and shrank. -/
theorem told (steps : Steps first earlier last) (wellFormed : first.registry.WellFormed) :
    ∃ events : List (List Event),
      List.Forall₂
        (fun occurrence => occurrence.happening.Emits occurrence.before.registry) earlier events ∧
      last.log = first.log ++ events.flatten ∧
      ∀ kind,
        (last.registry.current kind).size + (events.flatten.map (Event.leaving kind)).sum =
          (first.registry.current kind).size +
            (earlier.map fun occurrence => occurrence.happening.entering kind).sum +
            (events.flatten.map (Event.entering kind)).sum := by
  induction steps with
  | nil host => exact ⟨[], .nil, (List.append_nil _).symm, fun _ => rfl⟩
  | cons happens _ inductionHypothesis =>
      obtain ⟨own, told⟩ := happens.told wellFormed
      obtain ⟨others, emit, log, balance⟩ := inductionHypothesis (happens.wellFormed wellFormed)
      refine ⟨own :: others, .cons told.emits emit, ?_, fun kind => ?_⟩
      · rw [log, told.log, List.flatten_cons, List.append_assoc]
      · have before := told.balance kind
        have after := balance kind
        simp only [List.flatten_cons, List.map_append, List.sum_append, List.map_cons,
          List.sum_cons]
        omega

end Steps

/-- A batch carries out its hooks as operations. -/
theorem runAll_hooks (deny : DenyList) (hooks : List (Name × Handler)) (owner : Owner)
    (host : Host) :
    (Operation.runAll (Operation.hooks deny hooks owner) host).2 =
      (hookEach deny owner hooks host).2 := by
  induction hooks generalizing host with
  | nil => rfl
  | cons pair rest inductionHypothesis => exact inductionHypothesis _

/-- A batch ends with a report on its hooks. -/
theorem happens_hookBatch (deny : DenyList) (hooks : List (Name × Handler)) (owner : Owner)
    (host : Host) :
    (Happening.reported owner (host.hookBatch deny hooks owner).1).Happens
      (hookEach deny owner hooks host).2 (host.hookBatch deny hooks owner).2 := by
  have reports := @Happening.Happens.reported (hookEach deny owner hooks host).2 owner
    ⟨(hookEach deny owner hooks host).1⟩
  rw [hookBatch]
  dsimp only
  split <;> rename_i success
  · rwa [if_pos success] at reports
  · rwa [if_neg success] at reports

/-- The evictions of a takeover clear the surface of its target. -/
theorem runAll_evictions (takeover : Takeover) (host : Host) :
    (Operation.runAll takeover.evictions host).2 = takeover.cleared host := by
  rw [Takeover.evictions, Takeover.cleared]
  cases takeover.target? with
  | none => rfl
  | some target => rfl

/-- A takeover that came in time ends as the registration of the replacements ended. -/
theorem happens_supersede {takeover : Takeover} {host : Host}
    (ready : ¬takeover.Premature host.registry)
    (register : Registrar → Host → Except TakeoverError Unit × Host) :
    (Happening.superseded takeover (takeover.supersede register host).1).Happens
      (register takeover.registrar (takeover.cleared host)).2
      (takeover.supersede register host).2 := by
  rw [Takeover.supersede, Takeover.clear_of_not_premature ready]
  dsimp only
  split <;> rename_i ran <;> rw [ran]
  · exact .abandoned takeover _
  · exact .superseded takeover _

namespace Runs

variable {first last : Host} {history : List Occurrence}

/-- A run is made of steps. -/
theorem steps (runs : Runs first history last) : Steps first history last := by
  induction runs with
  | nil host => exact .nil host
  | operation _ audited inductionHypothesis =>
      exact inductionHypothesis.append (.single (.answered audited))
  | @batch _ host _ _ deny hooks owner inductionHypothesis =>
      have single : ∀ operation ∈ Operation.hooks deny hooks owner, operation.isAudited = true := by
        intro operation member
        obtain ⟨hook, -, rfl⟩ := List.mem_map.mp member
        rfl
      have each := Steps.ofOperations single host
      rw [runAll_hooks] at each
      exact (inductionHypothesis.append each).append
        (.single (happens_hookBatch deny hooks owner host))
  | premature _ premature register inductionHypothesis =>
      refine inductionHypothesis.append (.single ?_)
      rw [Takeover.supersede_of_premature premature]
      exact .abandoned _ _
  | @takeover _ host _ _ takeover ready register registered _ inductionHypothesis
      registersHypothesis =>
      have evict : ∀ operation ∈ takeover.evictions, operation.isAudited = true := by
        rw [Takeover.evictions]
        cases takeover.target? with
        | none => exact List.forall_mem_nil _
        | some target => simp [Operation.isAudited]
      have clears := Steps.ofOperations evict host
      rw [runAll_evictions] at clears
      exact ((inductionHypothesis.append clears).append registersHypothesis).append
        (.single (happens_supersede ready register))

/-- Registrations, up to the first one that fails, are calls that the log accounts for. -/
theorem registrations (runs : Runs first history last) (registrar : Registrar)
    (registrations : List Registration) :
    ∃ longer, Runs first longer (Registration.runAll registrar registrations last).2 := by
  induction registrations generalizing history last with
  | nil => exact ⟨history, runs⟩
  | cons registration rest inductionHypothesis =>
      have audited : (registration.operation registrar).isAudited = true := by
        cases registration <;> rfl
      have same : (registration.run registrar last).2 =
          ((registration.operation registrar).run last).2 := by
        cases registration <;> rfl
      have next := runs.operation audited
      rw [← same] at next
      rw [Registration.runAll]
      split <;> rename_i ran <;> rw [ran] at next
      · exact ⟨_, next⟩
      · exact inductionHypothesis next

/-- The log balances with the tables at every moment of a run, between any two calls on a
table.  It holds the events of what happened until then, in order and no others.  And what
came into a table, as the answers of definitions and forced constants and the events of
installations tell, is there or has left, as the events of evictions and displaced
constants tell. -/
theorem balances (runs : Runs .empty history last) {earlier later : List Occurrence}
    (split : history = earlier ++ later) :
    ∃ moment, Steps .empty earlier moment ∧ Steps moment later last ∧
      (∃ events : List (List Event),
        List.Forall₂ (fun occurrence => occurrence.happening.Emits occurrence.before.registry)
          earlier events ∧
        moment.log = events.flatten) ∧
      ∀ kind,
        (moment.registry.current kind).size + (moment.log.map (Event.leaving kind)).sum =
          (earlier.map fun occurrence => occurrence.happening.entering kind).sum +
            (moment.log.map (Event.entering kind)).sum := by
  have steps := runs.steps
  rw [split] at steps
  obtain ⟨moment, before, after⟩ := steps.split
  obtain ⟨events, emit, log, balance⟩ := before.told Registry.wellFormed_empty
  have log : moment.log = events.flatten := log
  refine ⟨moment, before, after, ⟨events, emit, log⟩, fun kind => ?_⟩
  have none : (Registry.empty.current kind).size = 0 := by cases kind <;> rfl
  rw [log, balance kind]
  change (Registry.empty.current kind).size + _ + _ = _
  rw [none, Nat.zero_add]

/-- A callable of a component that is taken over is hooked in a batch that also has a
denied name; the component's replacements come as far as a definition that is refused. -/
theorem balances_of_failures :
    let target : Owner := ⟨0, "target"⟩
    let other : Owner := ⟨1, "other"⟩
    let marker : Name := ⟨[0x4d]⟩
    let shared : Name := ⟨[0x73]⟩
    let denied : Name := ⟨[0x64]⟩
    let deny := DenyList.empty.insert denied
    let defined := ((Operation.define (.callable shared target .image ⟨1⟩)).run .empty).2
    let marked := ((Operation.define (.type marker target .image)).run defined).2
    let hooked := (marked.hookBatch deny [(shared, ⟨2⟩), (denied, ⟨3⟩)] other).2
    let takeover : Takeover := ⟨deny, other, some target, marker⟩
    let register := fun registrar =>
      Registration.runAll registrar [.hook shared ⟨4⟩, .function shared ⟨5⟩, .type marker]
    let last := (takeover.supersede register hooked).2
    last.log =
        [.patched shared target, .refused denied, .batchIncomplete other [denied],
          .evicted .constant target 0, .evicted .type target 1, .evicted .callable target 1,
          .installed shared target] ∧
      ∃ history, Runs .empty history last ∧
        (history.map fun occurrence => occurrence.happening.entering .callable).sum = 1 := by
  intro target other marker shared denied deny defined marked hooked takeover register last
  have runs : ∃ history, Runs .empty history last := by
    have ready : ¬takeover.Premature hooked.registry := by
      rintro ⟨-, missing⟩
      exact absurd missing (by decide +kernel)
    obtain ⟨registered, registers⟩ := (Runs.nil (takeover.cleared hooked)).registrations
      takeover.registrar [.hook shared ⟨4⟩, .function shared ⟨5⟩, .type marker]
    have defines : Runs .empty _ marked := .operation (.operation (.nil _) rfl) rfl
    exact ⟨_, .takeover (defines.batch deny _ other) ready registers⟩
  obtain ⟨history, runs⟩ := runs
  obtain ⟨moment, -, rest, -, balance⟩ := balances runs (List.append_nil history).symm
  cases rest
  have log : last.log =
      [.patched shared target, .refused denied, .batchIncomplete other [denied],
        .evicted .constant target 0, .evicted .type target 1, .evicted .callable target 1,
        .installed shared target] := by
    decide +kernel
  have size : (last.registry.current .callable).size = 1 := by decide +kernel
  have told := balance .callable
  rw [log, size] at told
  exact ⟨log, history, runs, (Nat.add_right_cancel told).symm⟩

end Runs
end Host
end Interposition
