import Interposition.Proofs.Hook.Hooked
/-!
What a batch of hooks comes to.

A hook acts on the callables that the pairs before it left.  What it answers can be
told without them: by the registry at the start and by the earlier pairs of the same
name (`Batch.answer`).  So can what all hooks of a batch leave behind
(`Batch.Leaves`): the callables of the start in their places, then one new callable
for each name that was installed, in the order in which the names first occur.

One hook keeps the two in step with the registry (`Batch.Leaves.hook`), hence a whole
batch does (`Host.leaves_hookBatch`, `Host.outcomes_hookBatch_eq`).
-/

namespace Interposition

namespace BatchReport

theorem failures_cons (outcome : Name × Except HookError HookOutcome)
    (rest : List (Name × Except HookError HookOutcome)) :
    failures ⟨outcome :: rest⟩ = failures ⟨[outcome]⟩ ++ failures ⟨rest⟩ :=
  @List.filterMap_append _ _ [outcome] rest _

theorem installed_cons (outcome : Name × Except HookError HookOutcome)
    (rest : List (Name × Except HookError HookOutcome)) :
    installed ⟨outcome :: rest⟩ = installed ⟨[outcome]⟩ + installed ⟨rest⟩ :=
  @List.countP_append _ _ [outcome] rest

theorem patched_cons (outcome : Name × Except HookError HookOutcome)
    (rest : List (Name × Except HookError HookOutcome)) :
    patched ⟨outcome :: rest⟩ = patched ⟨[outcome]⟩ + patched ⟨rest⟩ :=
  @List.countP_append _ _ [outcome] rest

/-- Every outcome of a report is an installation, a patch or a failure. -/
theorem installed_add_patched_add_failures (report : BatchReport) :
    report.installed + report.patched + report.failures.length = report.outcomes.length := by
  obtain ⟨outcomes⟩ := report
  induction outcomes with
  | nil => rfl
  | cons first rest inductionHypothesis =>
      have one : installed ⟨[first]⟩ + patched ⟨[first]⟩ + (failures ⟨[first]⟩).length = 1 := by
        obtain ⟨name, outcome⟩ := first
        cases outcome with
        | error error => rfl
        | ok outcome => cases outcome <;> rfl
      rw [installed_cons, patched_cons, failures_cons, List.length_append]
      simp only [List.length_cons] at inductionHypothesis ⊢
      omega

end BatchReport

/-- A registry hands out an identity for a callable that a hook installs. -/
theorem Registry.Hooked.fresh_eq {deny : DenyList} {name : Name} {handler : Handler}
    {owner : Owner} {registry next : Registry} {outcome : Except HookError HookOutcome}
    (did : Registry.Hooked deny name handler owner registry outcome next) :
    next.fresh = registry.fresh + BatchReport.installed ⟨[(name, outcome)]⟩ := by
  cases did with
  | patched found => rfl
  | refused absent denied => rfl
  | installed absent allowed => exact Registry.fresh_put _ _

theorem Host.fresh_hookEach (deny : DenyList) (hooks : List (Name × Handler)) (owner : Owner)
    (host : Host) :
    (hookEach deny owner hooks host).2.registry.fresh =
      host.registry.fresh + BatchReport.installed ⟨(hookEach deny owner hooks host).1⟩ := by
  induction hooks generalizing host with
  | nil => rfl
  | cons pair rest inductionHypothesis =>
      obtain ⟨name, handler⟩ := pair
      have first := (hooked_hook deny name handler owner host).fresh_eq
      rw [hookEach]
      dsimp only
      rw [BatchReport.installed_cons, inductionHypothesis, first, Nat.add_assoc]

namespace Batch

/-- The handler of the last hook on a name. -/
def lastHandler? (name : Name) (hooks : List (Name × Handler)) : Option Handler :=
  hooks.reverse.lookup name

/-- What a batch answers for a name, after the pairs `earlier` of the batch. -/
def answer (deny : DenyList) (start : Registry) (earlier : List (Name × Handler)) (name : Name) :
    Except HookError HookOutcome :=
  match start.get? .callable name with
  | some entry => .ok (.patched ((lastHandler? name earlier).getD (start.target entry)))
  | none =>
    if deny.contains name then .error (.unhookable name)
    else .ok ((lastHandler? name earlier).elim .installed .patched)

/-- Whether a batch makes a callable for a name that it hooks. -/
def installs (deny : DenyList) (start : Registry) (name : Name) : Bool :=
  !start.contains .callable name && !deny.contains name

/-- Whether a batch is refused a name that it hooks. -/
def refuses (deny : DenyList) (start : Registry) (name : Name) : Bool :=
  !start.contains .callable name && deny.contains name

/-- The names that a batch installs, in the order in which they first occur. -/
def newNames (deny : DenyList) (start : Registry) (hooks : List (Name × Handler)) : List Name :=
  ((hooks.map (·.1)).filter (installs deny start)).eraseDups

/-- The callables that a batch makes, in the order in which their names first occur. -/
def made (deny : DenyList) (owner : Owner) (start : Registry) (hooks : List (Name × Handler)) :
    List Callable :=
  (newNames deny start hooks).mapIdx fun index name => ⟨start.fresh + index, name, owner, .image⟩

/-- What a batch leaves behind. -/
structure Leaves (deny : DenyList) (owner : Owner) (start : Registry)
    (hooks : List (Name × Handler)) (final : Registry) : Prop where
  wellFormed : final.WellFormed
  /-- The callables of the start stay in their places, and the new ones follow them. -/
  callables : final.current .callable =
    { version := (start.current .callable).version + (newNames deny start hooks).length
      entries := ⟨(start.current .callable).entries.pairs ++
        (made deny owner start hooks).map fun entry => (entry.name, entry)⟩ }
  others : ∀ kind, kind ≠ .callable → final.current kind = start.current kind
  /-- Callables dispatch to the last hook on their name. -/
  targets : ∀ entry ∈ (final.current .callable).toList,
    final.target entry = (lastHandler? entry.name hooks).getD (start.target entry)
  /-- Callables that are not in the table keep their targets. -/
  detached : ∀ id, id ∉ EntryMap.ids (final.current .callable).entries →
    final.targets id = start.targets id
  fresh : final.fresh = start.fresh + (newNames deny start hooks).length

section Pairs

variable (hooks : List (Name × Handler)) (name : Name) (handler : Handler)

theorem lastHandler?_concat_self :
    lastHandler? name (hooks ++ [(name, handler)]) = some handler := by
  simp [lastHandler?]

theorem lastHandler?_concat_of_ne {other : Name} (different : other ≠ name) :
    lastHandler? other (hooks ++ [(name, handler)]) = lastHandler? other hooks := by
  simp [lastHandler?, List.lookup_cons, beq_false_of_ne different]

theorem lastHandler?_eq_none_iff : lastHandler? name hooks = none ↔ name ∉ hooks.map (·.1) := by
  simp only [lastHandler?, List.lookup_eq_none_iff, List.mem_reverse, bne_iff_ne, List.mem_map,
    not_exists, not_and, ne_comm]

/-- Only the hooks on a name matter for it. -/
theorem lastHandler?_filter :
    lastHandler? name (hooks.filter (·.1 = name)) = lastHandler? name hooks := by
  rw [lastHandler?, lastHandler?, ← List.filter_reverse]
  induction hooks.reverse with
  | nil => rfl
  | cons pair rest inductionHypothesis =>
      obtain ⟨other, handler⟩ := pair
      by_cases same : other = name
      · simp [same]
      · simp [same, inductionHypothesis, List.lookup_cons, beq_false_of_ne (Ne.symm same)]

variable (deny : DenyList) (start : Registry)

theorem answer_filter :
    answer deny start (hooks.filter (·.1 = name)) name = answer deny start hooks name := by
  simp only [answer, lastHandler?_filter]

theorem mem_newNames_iff :
    name ∈ newNames deny start hooks ↔
      name ∈ hooks.map (·.1) ∧ installs deny start name = true := by
  rw [newNames, List.mem_eraseDups, List.mem_filter]

theorem names_made (owner : Owner) :
    (made deny owner start hooks).map (·.name) = newNames deny start hooks := by
  rw [made, List.mapIdx_eq_zipIdx_map, List.map_map]
  exact List.zipIdx_map_fst 0 _

/-- A name is new if it is to be installed and did not occur before. -/
theorem newNames_concat_of_new (installed : installs deny start name = true)
    (new : name ∉ newNames deny start hooks) :
    newNames deny start (hooks ++ [(name, handler)]) = newNames deny start hooks ++ [name] := by
  have absent : name ∉ (hooks.map (·.1)).filter (installs deny start) := by
    rwa [newNames, List.mem_eraseDups] at new
  have added : [name].removeAll ((hooks.map (·.1)).filter (installs deny start)) = [name] := by
    simpa [List.removeAll] using absent
  rw [newNames, List.map_append, List.filter_append, List.map_singleton,
    List.filter_cons_of_pos installed, List.filter_nil, List.eraseDups_append, added, newNames]
  rfl

theorem newNames_concat_of_old
    (old : installs deny start name = false ∨ name ∈ newNames deny start hooks) :
    newNames deny start (hooks ++ [(name, handler)]) = newNames deny start hooks := by
  rw [newNames, List.map_append, List.filter_append, List.map_singleton]
  cases installed : installs deny start name with
  | false =>
      rw [List.filter_cons_of_neg (by simp [installed]), List.filter_nil, List.append_nil, newNames]
  | true =>
      have occurred : name ∈ (hooks.map (·.1)).filter (installs deny start) := by
        rcases old with not | member
        · exact absurd (not.symm.trans installed) Bool.false_ne_true
        · rwa [newNames, List.mem_eraseDups] at member
      have nothing : [name].removeAll ((hooks.map (·.1)).filter (installs deny start)) = [] := by
        simpa [List.removeAll] using occurred
      rw [List.filter_cons_of_pos installed, List.filter_nil, List.eraseDups_append, nothing,
        List.eraseDups_nil, List.append_nil, newNames]

end Pairs

variable {deny : DenyList} {owner : Owner} {start registry next : Registry} {name : Name}
  {handler : Handler} {done hooks : List (Name × Handler)} {entry : Callable}
  {outcome : Except HookError HookOutcome}

theorem installs_eq_true_iff :
    installs deny start name = true ↔
      start.get? .callable name = none ∧ deny.contains name = false := by
  simp [installs, Registry.contains_eq_false_iff]

/-- Whether a batch is refused a name does not depend on where in the batch it stands. -/
theorem failures_answer (deny : DenyList) (start : Registry) (done : List (Name × Handler))
    (name : Name) :
    BatchReport.failures ⟨[(name, answer deny start done name)]⟩ =
      if refuses deny start name then [name] else [] := by
  have present : start.contains .callable name = (start.get? .callable name).isSome := rfl
  rw [answer, refuses, present]
  cases start.get? .callable name with
  | some entry => rfl
  | none => cases deny.contains name <;> rfl

namespace Leaves

theorem nil (deny : DenyList) (owner : Owner) (wellFormed : start.WellFormed) :
    Leaves deny owner start [] start where
  wellFormed := wellFormed
  callables := by simp [newNames, made]
  others _ _ := rfl
  targets _ _ := rfl
  detached _ _ := rfl
  fresh := rfl

theorem keys_eq (leaves : Leaves deny owner start done registry) :
    (registry.current .callable).entries.keys =
      (start.current .callable).entries.keys ++ newNames deny start done := by
  rw [leaves.callables, ← names_made done deny start owner]
  simp [OrderedMap.keys, Function.comp_def]

/-- The free names are those that were free and that were not installed. -/
theorem get?_eq_none_iff (leaves : Leaves deny owner start done registry) :
    registry.get? .callable name = none ↔
      start.get? .callable name = none ∧ name ∉ newNames deny start done := by
  simp only [Registry.get?, Snapshot.get?, OrderedMap.get?_eq_none_iff, leaves.keys_eq,
    List.mem_append, not_or]

/-- A callable of the start stays bound to its name. -/
theorem bound (leaves : Leaves deny owner start done registry)
    (found : start.get? .callable name = some entry) :
    registry.get? .callable name = some entry := by
  have first : (start.current .callable).entries.pairs.lookup name = some entry := found
  rw [Registry.get?, Snapshot.get?, leaves.callables, OrderedMap.get?, List.lookup_append, first,
    Option.some_or]

/-- What is bound was there at the start or was installed since. -/
theorem before_or_new (leaves : Leaves deny owner start done registry)
    (found : registry.get? .callable name = some entry) :
    start.get? .callable name = some entry ∨
      start.get? .callable name = none ∧ name ∈ newNames deny start done := by
  cases before : start.get? .callable name with
  | some other => exact Or.inl ((leaves.bound before).symm.trans found)
  | none =>
      refine Or.inr ⟨rfl, by_contra fun new => ?_⟩
      have absent := leaves.get?_eq_none_iff.mpr ⟨before, new⟩
      exact Option.some_ne_none entry (found.symm.trans absent)

/-- An entry under a name that is free stands nowhere. -/
theorem name_ne_of_absent (leaves : Leaves deny owner start done registry)
    (absent : registry.get? .callable name = none)
    (member : entry ∈ (registry.current .callable).toList) : entry.name ≠ name := by
  rintro rfl
  have bound := (leaves.wellFormed.sound .callable).get?_name member
  exact Option.some_ne_none entry (bound.symm.trans absent)

/-- A hook on a name that is bound answers the handler of the hook before it. -/
theorem patched_eq_answer (leaves : Leaves deny owner start done registry)
    (found : registry.get? .callable name = some entry) :
    .ok (.patched (registry.target entry)) = answer deny start done name := by
  have target := leaves.targets entry (EntryMap.mem_values_of_get? found)
  rw [leaves.wellFormed.name_eq found] at target
  rcases leaves.before_or_new found with before | ⟨before, new⟩
  · simp [answer, before, target]
  · obtain ⟨occurs, installable⟩ := (mem_newNames_iff done name deny start).mp new
    obtain ⟨-, allowed⟩ := installs_eq_true_iff.mp installable
    -- A callable that was installed since is the work of an earlier pair.
    have hooked : lastHandler? name done ≠ none :=
      mt (lastHandler?_eq_none_iff done name).mp (not_not_intro occurs)
    obtain ⟨last, given⟩ := Option.ne_none_iff_exists'.mp hooked
    simp [answer, before, allowed, target, given]

/-- A hook on a name that is bound installs nothing. -/
theorem newNames_concat_of_found (leaves : Leaves deny owner start done registry)
    (found : registry.get? .callable name = some entry) (handler : Handler) :
    newNames deny start (done ++ [(name, handler)]) = newNames deny start done := by
  apply newNames_concat_of_old
  rcases leaves.before_or_new found with before | ⟨-, new⟩
  · left
    rw [Bool.eq_false_iff, ne_eq, installs_eq_true_iff, before]
    simp
  · exact Or.inr new

/-- A hook on a name that is bound exchanges its target. -/
theorem retarget (leaves : Leaves deny owner start done registry)
    (found : registry.get? .callable name = some entry) (handler : Handler) :
    Leaves deny owner start (done ++ [(name, handler)]) (registry.retarget entry.id handler) := by
  have unchanged := leaves.newNames_concat_of_found found handler
  constructor
  case wellFormed => exact leaves.wellFormed.retarget entry.id handler
  case callables => rw [Registry.current_retarget, leaves.callables, made, made, unchanged]
  case others =>
    intro kind different
    rw [Registry.current_retarget, leaves.others kind different]
  case targets =>
    intro other inTable
    rw [Registry.current_retarget] at inTable
    have bound := (leaves.wellFormed.sound .callable).get?_name inTable
    by_cases same : other.name = name
    · rw [same] at bound
      obtain rfl : entry = other := Option.some.inj (found.symm.trans bound)
      simp [same, lastHandler?_concat_self, Registry.target]
    · have apart : other.id ≠ entry.id := leaves.wellFormed.id_ne_of_name_ne found bound same
      rw [lastHandler?_concat_of_ne _ _ _ same, Registry.target,
        Registry.targets_retarget_of_ne _ _ _ apart]
      exact leaves.targets other inTable
  case detached =>
    intro id gone
    rw [Registry.current_retarget] at gone
    have apart : id ≠ entry.id := by
      rintro rfl
      exact gone (EntryMap.mem_ids_of_mem (EntryMap.mem_values_of_get? found))
    rw [Registry.targets_retarget_of_ne _ _ _ apart]
    exact leaves.detached id gone
  case fresh => rw [Registry.fresh_retarget, leaves.fresh, unchanged]

/-- A hook that is refused leaves everything as it is. -/
theorem refuse (leaves : Leaves deny owner start done registry)
    (absent : registry.get? .callable name = none) (denied : deny.contains name = true)
    (handler : Handler) : Leaves deny owner start (done ++ [(name, handler)]) registry := by
  have unchanged : newNames deny start (done ++ [(name, handler)]) = newNames deny start done :=
    newNames_concat_of_old done name handler deny start (Or.inl (by simp [installs, denied]))
  constructor
  case wellFormed => exact leaves.wellFormed
  case callables => rw [leaves.callables, made, made, unchanged]
  case others => exact leaves.others
  case targets =>
    intro other inTable
    rw [lastHandler?_concat_of_ne _ _ _ (leaves.name_ne_of_absent absent inTable)]
    exact leaves.targets other inTable
  case detached => exact leaves.detached
  case fresh => rw [leaves.fresh, unchanged]

/-- A name that is free and may be hooked is new. -/
theorem installs_of_absent (leaves : Leaves deny owner start done registry)
    (absent : registry.get? .callable name = none) (allowed : deny.contains name = false) :
    installs deny start name = true :=
  installs_eq_true_iff.mpr ⟨(leaves.get?_eq_none_iff.mp absent).1, allowed⟩

/-- The first hook on such a name answers that it installed it. -/
theorem installed_eq_answer (leaves : Leaves deny owner start done registry)
    (absent : registry.get? .callable name = none) (allowed : deny.contains name = false) :
    .ok .installed = answer deny start done name := by
  obtain ⟨before, new⟩ := leaves.get?_eq_none_iff.mp absent
  have first : lastHandler? name done = none := by
    rw [lastHandler?_eq_none_iff]
    intro occurs
    apply new
    exact (mem_newNames_iff done name deny start).mpr
      ⟨occurs, leaves.installs_of_absent absent allowed⟩
  simp [answer, before, allowed, first]

/-- A hook that installs puts a callable of the caller at the end of the table. -/
theorem put (leaves : Leaves deny owner start done registry)
    (absent : registry.get? .callable name = none) (allowed : deny.contains name = false)
    (handler : Handler) :
    Leaves deny owner start (done ++ [(name, handler)])
      (registry.put (.callable name owner .image handler)) := by
  have grown := newNames_concat_of_new done name handler deny start
    (leaves.installs_of_absent absent allowed) (leaves.get?_eq_none_iff.mp absent).2
  have toList := @Registry.WellFormed.toList_put_of_free _ _ leaves.wellFormed
    (.callable name owner .image handler) absent
  constructor
  case wellFormed => exact leaves.wellFormed.put _
  case callables =>
    have unbound : (Draft.callable name owner .image handler).name ∉
        (registry.current .callable).entries.keys := OrderedMap.get?_eq_none_iff.mp absent
    rw [Registry.put, Registry.current_publish, Registry.current_allocate, OrderedMap.append,
      OrderedMap.erase_eq_self unbound, leaves.callables, made, made, grown, List.mapIdx_concat,
      leaves.fresh]
    simp [Draft.name, Draft.entry, Draft.owner, Draft.content, Nat.add_assoc]
  case others =>
    intro kind different
    rw [Registry.current_put_of_ne _ _ different, leaves.others kind different]
  case targets =>
    intro other inTable
    rw [toList, List.mem_append, List.mem_singleton] at inTable
    rcases inTable with old | rfl
    · have bound := (leaves.wellFormed.sound .callable).get?_name old
      rw [lastHandler?_concat_of_ne _ _ _ (leaves.name_ne_of_absent absent old),
        leaves.wellFormed.target_put _ bound]
      exact leaves.targets other old
    -- The new entry has the identity that was handed out last.
    · change (registry.put _).targets registry.fresh =
        (lastHandler? name (done ++ [(name, handler)])).getD _
      rw [Registry.targets_put_fresh, lastHandler?_concat_self]
      rfl
  case detached =>
    intro id gone
    have listed : EntryMap.ids
        ((registry.put (.callable name owner .image handler)).current .callable).entries =
        EntryMap.ids (registry.current .callable).entries ++ [registry.fresh] := by
      change (Snapshot.toList _).map _ = (Snapshot.toList _).map _ ++ _
      rw [toList, List.map_append]
      rfl
    rw [listed, List.mem_append, List.mem_singleton, not_or] at gone
    rw [Registry.targets_put_of_ne _ _ gone.2]
    exact leaves.detached id gone.1
  case fresh => simp [leaves.fresh, grown, Nat.add_assoc]

/-- One more hook, whatever it comes to. -/
theorem hook (leaves : Leaves deny owner start done registry)
    (did : Registry.Hooked deny name handler owner registry outcome next) :
    outcome = answer deny start done name ∧
      Leaves deny owner start (done ++ [(name, handler)]) next := by
  cases did with
  | patched found => exact ⟨leaves.patched_eq_answer found, leaves.retarget found handler⟩
  | refused absent denied =>
      obtain ⟨before, -⟩ := leaves.get?_eq_none_iff.mp absent
      exact ⟨by simp [answer, before, denied], leaves.refuse absent denied handler⟩
  | installed absent allowed =>
      exact ⟨leaves.installed_eq_answer absent allowed, leaves.put absent allowed handler⟩

/-- Hooks in any number. -/
theorem hookEach (hooks : List (Name × Handler)) {host : Host}
    (leaves : Leaves deny owner start done host.registry) :
    Leaves deny owner start (done ++ hooks) (Host.hookEach deny owner hooks host).2.registry := by
  induction hooks generalizing done host with
  | nil => simpa [Host.hookEach] using leaves
  | cons pair rest inductionHypothesis =>
      obtain ⟨name, handler⟩ := pair
      obtain ⟨-, hooked⟩ := leaves.hook (Host.hooked_hook deny name handler owner host)
      rw [List.append_cons]
      exact inductionHypothesis hooked

/-- The failures of any number of hooks. -/
theorem failures_hookEach (hooks : List (Name × Handler)) {host : Host}
    (leaves : Leaves deny owner start done host.registry) :
    BatchReport.failures ⟨(Host.hookEach deny owner hooks host).1⟩ =
      (hooks.map (·.1)).filter (refuses deny start) := by
  induction hooks generalizing done host with
  | nil => rfl
  | cons pair rest inductionHypothesis =>
      obtain ⟨name, handler⟩ := pair
      obtain ⟨answered, hooked⟩ := leaves.hook (Host.hooked_hook deny name handler owner host)
      rw [Host.hookEach]
      dsimp only
      rw [BatchReport.failures_cons, inductionHypothesis hooked, answered, failures_answer,
        List.map_cons, List.filter_cons]
      split <;> rfl

end Leaves
end Batch

namespace Host

open Batch

variable {host : Host} (wellFormed : host.registry.WellFormed) (deny : DenyList)
  (hooks : List (Name × Handler)) (owner : Owner)

include wellFormed in
theorem leaves_hookBatch :
    Leaves deny owner host.registry hooks (host.hookBatch deny hooks owner).2.registry := by
  rw [registry_hookBatch]
  exact (Leaves.nil deny owner wellFormed).hookEach hooks

include wellFormed in
/-- A batch answers for each pair by the start and by the pairs before it. -/
theorem outcomes_hookBatch_eq :
    (host.hookBatch deny hooks owner).1.outcomes =
      hooks.mapIdx fun index hook =>
        (hook.1, answer deny host.registry (hooks.take index) hook.1) := by
  apply List.ext_getElem?
  intro index
  rw [List.getElem?_mapIdx]
  by_cases inside : index < hooks.length
  · have split := List.take_append_drop index hooks
    rw [List.drop_eq_getElem_cons inside] at split
    have earlier := (Leaves.nil deny owner wellFormed).hookEach (hooks.take index)
    obtain ⟨answered, -⟩ := earlier.hook
      (hooked_hook deny hooks[index].1 hooks[index].2 owner _)
    have outcome := getElem?_outcomes_hookBatch deny (hooks.take index) (hooks.drop (index + 1))
      hooks[index].1 hooks[index].2 owner host
    rw [split, List.length_take_of_le (Nat.le_of_lt inside), answered] at outcome
    rw [outcome, List.getElem?_eq_getElem inside]
    rfl
  · have outside := Nat.le_of_not_lt inside
    rw [List.getElem?_eq_none outside, List.getElem?_eq_none]
    · rfl
    · rwa [outcomes_hookBatch, length_hookEach]

include wellFormed in
/-- The failures of a batch are the occurrences of the names that it is refused. -/
theorem failures_hookBatch :
    (host.hookBatch deny hooks owner).1.failures =
      (hooks.map (·.1)).filter (refuses deny host.registry) := by
  rw [BatchReport.failures, outcomes_hookBatch]
  exact (Leaves.nil deny owner wellFormed).failures_hookEach hooks

include wellFormed in
/-- The installations of a batch are one for each name that it installs. -/
theorem installed_hookBatch :
    (host.hookBatch deny hooks owner).1.installed =
      (newNames deny host.registry hooks).length := by
  have counted := fresh_hookEach deny hooks owner host
  have listed := (Leaves.nil deny owner wellFormed).hookEach hooks
  rw [BatchReport.installed, outcomes_hookBatch]
  rw [listed.fresh] at counted
  exact (Nat.add_left_cancel counted).symm

include wellFormed in
/-- A batch succeeds if it is refused none of its names. -/
theorem isSuccess_hookBatch_iff :
    (host.hookBatch deny hooks owner).1.isSuccess = true ↔
      ∀ hook ∈ hooks, refuses deny host.registry hook.1 = false := by
  rw [BatchReport.isSuccess, failures_hookBatch wellFormed, List.isEmpty_iff,
    List.filter_eq_nil_iff, List.forall_mem_map]
  simp

/-- A batch answers for each of its pairs, in order, what `Batch.answer` says about the start
and the earlier pairs of the same name, and leaves what `Batch.Leaves` says.  Its failures are
the occurrences of names that were free at the start and are denied, in whichever case of
their letters; every other pair installs or patches. -/
theorem closed_hookBatch {host : Host} (wellFormed : host.registry.WellFormed)
    (names : List Name) (hooks : List (Name × Handler)) (owner : Owner) :
    let deny := DenyList.ofNames names
    let batch := host.hookBatch deny hooks owner
    (∀ name, deny.contains name = true ↔ ∃ listed ∈ names, listed.fold = name.fold) ∧
    batch.1.outcomes = (hooks.mapIdx fun index hook =>
      (hook.1, answer deny host.registry ((hooks.take index).filter (·.1 = hook.1)) hook.1)) ∧
    Leaves deny owner host.registry hooks batch.2.registry ∧
    batch.1.failures = (hooks.map (·.1)).filter (refuses deny host.registry) ∧
    batch.1.installed = (newNames deny host.registry hooks).length ∧
    batch.1.installed + batch.1.patched + batch.1.failures.length = hooks.length ∧
    (batch.1.isSuccess = true ↔ ∀ hook ∈ hooks, refuses deny host.registry hook.1 = false) := by
  intro deny batch
  have one := batch.1.installed_add_patched_add_failures
  rw [outcomes_hookBatch, length_hookEach] at one
  simp only [answer_filter]
  exact ⟨fun name => DenyList.contains_ofNames, outcomes_hookBatch_eq wellFormed deny hooks owner,
    leaves_hookBatch wellFormed deny hooks owner, failures_hookBatch wellFormed deny hooks owner,
    installed_hookBatch wellFormed deny hooks owner, one,
    isSuccess_hookBatch_iff wellFormed deny hooks owner⟩

/-- A batch that hooks a callable and two new names more than once.  The names differ in
case, which makes them different callables and the same denied name. -/
theorem closed_hookBatch_of_repeated :
    let bound : Name := ⟨[0x62]⟩
    let upperBound : Name := ⟨[0x42]⟩
    let free : Name := ⟨[0x66]⟩
    let upperFree : Name := ⟨[0x46]⟩
    let denied : Name := ⟨[0x64]⟩
    let registry := Registry.empty.put (.callable bound ⟨0, "first"⟩ .intrinsic ⟨1⟩)
    let hooks : List (Name × Handler) :=
      [(free, ⟨2⟩), (upperFree, ⟨3⟩), (denied, ⟨4⟩), (bound, ⟨5⟩), (free, ⟨6⟩), (bound, ⟨7⟩),
        (upperBound, ⟨8⟩), (denied, ⟨9⟩)]
    let batch := Host.hookBatch (.ofNames [⟨[0x44]⟩, bound]) hooks ⟨1, "second"⟩ ⟨registry, []⟩
    registry.WellFormed ∧
      batch.1.outcomes =
        [(free, .ok .installed), (upperFree, .ok .installed),
          (denied, .error (.unhookable denied)), (bound, .ok (.patched ⟨1⟩)),
          (free, .ok (.patched ⟨2⟩)), (bound, .ok (.patched ⟨5⟩)),
          (upperBound, .error (.unhookable upperBound)),
          (denied, .error (.unhookable denied))] ∧
      (batch.2.registry.current .callable).names = [bound, free, upperFree] ∧
      batch.2.registry.handlers = [⟨7⟩, ⟨6⟩, ⟨3⟩] ∧
      batch.1.failures = [denied, upperBound, denied] ∧ batch.1.installed = 2 := by
  intro bound upperBound free upperFree denied registry hooks
  have wellFormed : registry.WellFormed := Registry.wellFormed_empty.put _
  obtain ⟨-, outcomes, leaves, failures, installed, -, -⟩ :=
    @closed_hookBatch ⟨registry, []⟩ wellFormed [⟨[0x44]⟩, bound] hooks ⟨1, "second"⟩
  refine ⟨wellFormed, outcomes.trans (by decide +kernel), ?_, by decide +kernel,
    failures.trans (by decide +kernel), installed.trans (by decide +kernel)⟩
  exact leaves.keys_eq.trans (by decide +kernel)

end Host
end Interposition
