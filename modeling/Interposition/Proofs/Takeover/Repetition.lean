import Mathlib.Data.List.Forall2
import Interposition.Proofs.Takeover.Replacement
/-!
A takeover that is repeated.

The second takeover starts from tables that the first one left: its own entries
are evicted, targets of foreign callables are exchanged already, and foreign
constants are gone already.  `Lockstep` relates the registries of the two
takeovers, one registration after the other.  Names stand in the same order,
except for constants that are still to be displaced in the first one; entries
have the same content; and targets are the same, or they are in the second one
what they will be at the end of the first.
-/

namespace Interposition

/-- Whether an entry stands for another one: its content is the same, and if the
other one is older than the given identity, it is the same entry. -/
structure Entry.Renews {kind : Kind} (base : EntryId) (before after : Entry kind) : Prop where
  name : after.name = before.name
  owner : after.owner = before.owner
  content : after.content = before.content
  same : before.id < base → after = before

namespace Registration

/-- Whether a binding of the first registry has a counterpart in the second one: it
is new, or its name is not to be taken. -/
def stays {kind : Kind} (base : EntryId) (later : List Name) (pair : Name × Entry kind) : Bool :=
  base ≤ pair.2.id ∨ pair.1 ∉ later

theorem stays_congr {kind : Kind} {base : EntryId} {later rest : List Name}
    {pair : Name × Entry kind} (same : pair.1 ∈ later ↔ pair.1 ∈ rest) :
    stays base later pair = stays base rest pair :=
  decide_eq_decide.mpr (or_congr_right (not_congr same))

/-- Two registries on which the same registrations are carried out.  The names in
`later` are those that registrations to come take in the first one. -/
structure Lockstep (base : EntryId) (final : EntryId → Handler) (later : Kind → List Name)
    (first second : Registry) : Prop where
  wellFormed : first.WellFormed ∧ second.WellFormed
  base_le : base ≤ first.fresh
  keys : ∀ kind, (second.current kind).entries.keys =
    ((first.current kind).entries.part (stays base (later kind))).keys
  renews : ∀ kind name before after, first.get? kind name = some before →
    second.get? kind name = some after → Entry.Renews base before after
  targets : ∀ name before after, first.get? .callable name = some before →
    second.get? .callable name = some after →
      second.target after = first.target before ∨ second.target after = final before.id

namespace Lockstep

variable {base : EntryId} {final : EntryId → Handler} {later rest : Kind → List Name}
  {first second : Registry}

/-- A name that is free in the first registry is free in the second one. -/
theorem get?_eq_none (lockstep : Lockstep base final later first second) {kind : Kind}
    {name : Name} (free : first.get? kind name = none) : second.get? kind name = none := by
  apply OrderedMap.get?_eq_none_iff.mpr
  rw [lockstep.keys]
  intro member
  apply OrderedMap.get?_eq_none_iff.mp free
  exact (List.filter_sublist.map _).subset member

/-- A name that is bound in the first registry is bound in the second one, unless it
is to be taken. -/
theorem get?_eq_some (lockstep : Lockstep base final later first second) {kind : Kind}
    {name : Name} {before : Entry kind} (found : first.get? kind name = some before)
    (remains : name ∉ later kind) : ∃ after, second.get? kind name = some after := by
  apply Option.ne_none_iff_exists'.mp
  intro absent
  apply OrderedMap.get?_eq_none_iff.mp absent
  rw [lockstep.keys]
  apply List.mem_map.mpr
  refine ⟨(name, before), List.mem_filter.mpr ⟨OrderedMap.mem_of_get?_eq_some found, ?_⟩, rfl⟩
  exact decide_eq_true (Or.inr remains)

/-- The names of the remaining entries, after a name was put at the end of the
table. -/
theorem keys_append_part {kind : Kind} {entries others : EntryMap kind} (entry : Entry kind)
    {test testAfter : Name × Entry kind → Bool} (keys : others.keys = (entries.part test).keys)
    (agree : ∀ pair : Name × Entry kind, pair.1 ≠ entry.name → test pair = testAfter pair)
    (passes : testAfter (entry.name, entry) = true) (value : Entry kind) :
    (others.append entry.name value).keys =
      ((entries.append entry.name entry).part testAfter).keys := by
  have left : (entries.part test).erase entry.name =
      (entries.part testAfter).erase entry.name := by
    rw [OrderedMap.erase_eq_part, OrderedMap.erase_eq_part, OrderedMap.part_part,
      OrderedMap.part_part]
    congr 1
    funext pair
    by_cases equal : pair.1 = entry.name
    · simp [equal]
    · simp [agree pair equal]
  rw [OrderedMap.part_append_of_pos passes, OrderedMap.keys_append, OrderedMap.keys_append, keys,
    ← OrderedMap.keys_erase, ← OrderedMap.keys_erase, left]

/-- The same new entry in both registries. -/
theorem put (lockstep : Lockstep base final later first second) {kind : Kind}
    (draft : Draft kind)
    (same : ∀ other name, (other = kind → name ≠ draft.name) →
      (name ∈ later other ↔ name ∈ rest other)) :
    Lockstep base final rest (first.put draft) (second.put draft) := by
  obtain ⟨firstFormed, secondFormed⟩ := lockstep.wellFormed
  constructor
  · exact ⟨firstFormed.put draft, secondFormed.put draft⟩
  · rw [Registry.fresh_put]
    exact Nat.le_succ_of_le lockstep.base_le
  · intro other
    by_cases equal : other = kind
    · subst equal
      rw [Registry.entries_put, Registry.entries_put]
      apply keys_append_part (draft.entry first.fresh) (lockstep.keys other)
      · intro pair different
        exact stays_congr (same other pair.1 fun _ => different)
      · exact decide_eq_true (Or.inl lockstep.base_le)
    · rw [Registry.current_put_of_ne draft first equal,
        Registry.current_put_of_ne draft second equal, lockstep.keys]
      congr 2
      funext pair
      exact stays_congr (same other pair.1 fun absurdity => absurd absurdity equal)
  · intro other name before after foundBefore foundAfter
    by_cases new : other = kind ∧ name = draft.name
    · obtain ⟨rfl, rfl⟩ := new
      rw [Registry.get?_put_self] at foundBefore foundAfter
      cases foundBefore
      cases foundAfter
      exact ⟨rfl, rfl, rfl, fun older => absurd older (Nat.not_lt_of_le lockstep.base_le)⟩
    · rw [Registry.get?_put_of_ne draft _ new] at foundBefore foundAfter
      exact lockstep.renews other name before after foundBefore foundAfter
  · -- The new callables have the same target; no target of an old one changes.
    intro name before after foundBefore foundAfter
    by_cases new : Kind.callable = kind ∧ name = draft.name
    · obtain ⟨rfl, rfl⟩ := new
      rw [Registry.get?_put_self] at foundBefore foundAfter
      cases foundBefore
      cases foundAfter
      left
      cases draft with
      | callable name owner origin handler =>
          exact (Registry.targets_put_fresh second name owner origin handler).trans
            (Registry.targets_put_fresh first name owner origin handler).symm
    · rw [Registry.get?_put_of_ne draft _ new] at foundBefore foundAfter
      rw [firstFormed.target_put draft foundBefore, secondFormed.target_put draft foundAfter]
      exact lockstep.targets name before after foundBefore foundAfter

/-- The same patch in both registries. -/
theorem retarget (lockstep : Lockstep base final later first second) {name : Name}
    {before after : Callable} (foundBefore : first.get? .callable name = some before)
    (foundAfter : second.get? .callable name = some after) (handler : Handler) :
    Lockstep base final later (first.retarget before.id handler)
      (second.retarget after.id handler) := by
  obtain ⟨firstFormed, secondFormed⟩ := lockstep.wellFormed
  constructor
  · exact ⟨firstFormed.retarget _ _, secondFormed.retarget _ _⟩
  · exact lockstep.base_le
  · intro kind
    rw [Registry.current_retarget, Registry.current_retarget]
    exact lockstep.keys kind
  · intro kind other entry another found foundAgain
    rw [Registry.get?_retarget] at found foundAgain
    exact lockstep.renews kind other entry another found foundAgain
  · intro other entry another found foundAgain
    rw [Registry.get?_retarget] at found foundAgain
    by_cases same : other = name
    · subst same
      cases foundBefore.symm.trans found
      cases foundAfter.symm.trans foundAgain
      left
      exact (Registry.targets_retarget_self second _ handler).trans
        (Registry.targets_retarget_self first _ handler).symm
    · have left := firstFormed.id_ne_of_name_ne foundBefore found same
      have right := secondFormed.id_ne_of_name_ne foundAfter foundAgain same
      rw [Registry.target, Registry.target, Registry.targets_retarget_of_ne first _ _ left,
        Registry.targets_retarget_of_ne second _ _ right]
      exact lockstep.targets other entry another found foundAgain

end Lockstep

section Again

variable {registrar : Registrar} {registration : Registration}
  {registrations rest : List Registration} {base : EntryId} {final : EntryId → Handler}
  {first second next last : Registry}

/-- Registrations take only names of constants. -/
theorem mem_taken_cons_iff {kind : Kind} {name : Name}
    (other : name ∉ taken kind [registration]) :
    name ∈ taken kind (registration :: rest) ↔ name ∈ taken kind rest := by
  rw [taken_cons, List.mem_append]
  exact ⟨fun member => member.resolve_left other, Or.inr⟩

/-- A registration that succeeds in the first registry succeeds in the second one. -/
theorem Succeeds.again (succeeds : registration.Succeeds registrar first next)
    (lockstep : Lockstep base final (fun kind => taken kind (registration :: rest)) first
      second) :
    ∃ nextSecond, registration.Succeeds registrar second nextSecond ∧
      Lockstep base final (fun kind => taken kind rest) next nextSecond := by
  cases succeeds with
  | function free =>
      refine ⟨_, .function ?_, lockstep.put _ ?_⟩
      · rw [Registry.contains_eq_false_iff] at free ⊢
        exact lockstep.get?_eq_none free
      · intro kind name _
        exact mem_taken_cons_iff (by cases kind <;> exact List.not_mem_nil)
  | installed free allowed =>
      refine ⟨_, .installed (lockstep.get?_eq_none free) allowed, lockstep.put _ ?_⟩
      intro kind name _
      exact mem_taken_cons_iff (by cases kind <;> exact List.not_mem_nil)
  | patched found =>
      obtain ⟨after, foundAfter⟩ := lockstep.get?_eq_some found List.not_mem_nil
      refine ⟨_, .patched foundAfter, ?_⟩
      exact lockstep.retarget found foundAfter _
  | constant name value flags =>
      refine ⟨_, .constant name value flags, lockstep.put _ ?_⟩
      intro kind other different
      apply mem_taken_cons_iff
      cases kind with
      | constant =>
          rintro member
          exact different rfl (List.mem_singleton.mp member)
      | _ => exact List.not_mem_nil
  | type free =>
      refine ⟨_, .type ?_, lockstep.put _ ?_⟩
      · rw [Registry.contains_eq_false_iff] at free ⊢
        exact lockstep.get?_eq_none free
      · intro kind name _
        exact mem_taken_cons_iff (by cases kind <;> exact List.not_mem_nil)

/-- Registrations that all succeed in the first registry all succeed in the second
one. -/
theorem SucceedAll.again (succeedAll : SucceedAll registrar first registrations last)
    (lockstep : Lockstep base final (fun kind => taken kind registrations) first second) :
    ∃ lastSecond, SucceedAll registrar second registrations lastSecond ∧
      Lockstep base final (fun kind => taken kind []) last lastSecond := by
  induction succeedAll generalizing second with
  | nil => exact ⟨second, .nil second, lockstep⟩
  | cons succeeds _ inductionHypothesis =>
      obtain ⟨nextSecond, succeedsAgain, locksteps⟩ := succeeds.again lockstep
      obtain ⟨lastSecond, succeedAllAgain, lockstepLast⟩ := inductionHypothesis locksteps
      exact ⟨lastSecond, .cons succeedsAgain succeedAllAgain, lockstepLast⟩

/-- After a second eviction the second takeover starts in lockstep with the first
one. -/
theorem lockstep_of_cleared {before cleared again : Registry} {owner : Owner}
    (owned : registrar.owner = owner) (wellFormed : before.WellFormed)
    (clearedFirst : Registry.Cleared owner before cleared)
    (succeedAll : SucceedAll registrar cleared registrations last)
    (clearedAgain : Registry.Cleared owner last again) :
    Lockstep cleared.fresh last.targets (fun kind => taken kind registrations) cleared again := by
  subst owned
  have formed := clearedFirst.wellFormed wellFormed
  have formedLast := succeedAll.wellFormed formed
  have spared : ∀ kind, (cleared.current kind).entries.part registrar.owner.spares =
      (cleared.current kind).entries := by
    intro kind
    rw [clearedFirst.entries, OrderedMap.part_part]
    simp only [Bool.and_self]
  have entries : ∀ kind, (again.current kind).entries =
      (cleared.current kind).entries.part fun pair => pair.1 ∉ taken kind registrations := by
    intro kind
    rw [clearedAgain.entries, succeedAll.spared, spared]
  -- What is left after the second eviction is what was left after the first one,
  -- with the targets that the first takeover gave it.
  have found : ∀ kind name entry, again.get? kind name = some entry →
      cleared.get? kind name = some entry := by
    intro kind name entry inAgain
    rw [Registry.get?, Snapshot.get?, entries] at inAgain
    apply OrderedMap.get?_eq_some_of_mem (formed.sound kind).distinctKeys
    exact List.mem_of_mem_filter (OrderedMap.mem_of_get?_eq_some inAgain)
  constructor
  · exact ⟨formed, clearedAgain.wellFormed formedLast⟩
  · exact Nat.le_refl _
  · intro kind
    rw [entries, OrderedMap.part, OrderedMap.part]
    congr 2
    apply List.filter_congr
    intro pair member
    have old := formed.belowFresh kind pair.2.id
      (EntryMap.mem_ids_of_mem (EntryMap.mem_values_of_mem_pairs member))
    apply decide_eq_decide.mpr
    exact ⟨Or.inr, fun stays => stays.resolve_left (Nat.not_le_of_lt old)⟩
  · intro kind name entry another foundFirst foundAgain
    cases foundFirst.symm.trans (found kind name another foundAgain)
    exact ⟨rfl, rfl, rfl, fun _ => rfl⟩
  · intro name entry another foundFirst foundAgain
    cases foundFirst.symm.trans (found .callable name another foundAgain)
    right
    rw [Registry.target, clearedAgain.targets]

end Again

/-- Tables with the same names in the same order agree entry by entry, if the entries
of every name do. -/
theorem forall₂_values {kind : Kind} {relation : Entry kind → Entry kind → Prop}
    {first second : List (Name × Entry kind)} (keys : second.map (·.1) = first.map (·.1))
    (related : ∀ pair ∈ first, ∀ other ∈ second, other.1 = pair.1 → relation pair.2 other.2) :
    List.Forall₂ relation (first.map (·.2)) (second.map (·.2)) := by
  induction first generalizing second with
  | nil =>
      rw [List.map_eq_nil_iff.mp keys]
      exact .nil
  | cons pair rest inductionHypothesis =>
      cases second with
      | nil => cases keys
      | cons other others =>
          obtain ⟨head, tail⟩ := List.cons.inj keys
          apply List.Forall₂.cons
          · exact related pair List.mem_cons_self other List.mem_cons_self head
          · apply inductionHypothesis tail
            intro later inRest another inOthers
            exact related later (List.mem_cons_of_mem _ inRest) another
              (List.mem_cons_of_mem _ inOthers)

namespace Lockstep

variable {base : EntryId} {first second : Registry}

/-- In the end the tables agree entry by entry, and so do the targets. -/
theorem forall₂_toList
    (lockstep : Lockstep base first.targets (fun kind => taken kind []) first second)
    {kind : Kind} {relation : Entry kind → Entry kind → Prop}
    (related : ∀ name before after, first.get? kind name = some before →
      second.get? kind name = some after → relation before after) :
    List.Forall₂ relation (first.current kind).toList (second.current kind).toList := by
  obtain ⟨firstFormed, secondFormed⟩ := lockstep.wellFormed
  apply forall₂_values
  · have keys := lockstep.keys kind
    rw [OrderedMap.part_eq_self] at keys
    · exact keys
    · intro pair _
      apply decide_eq_true
      right
      cases kind <;> exact List.not_mem_nil
  · rintro ⟨name, before⟩ inFirst ⟨other, after⟩ inSecond rfl
    apply related other
    · exact OrderedMap.get?_eq_some_of_mem (firstFormed.sound kind).distinctKeys inFirst
    · exact OrderedMap.get?_eq_some_of_mem (secondFormed.sound kind).distinctKeys inSecond

theorem handlers_eq
    (lockstep : Lockstep base first.targets (fun kind => taken kind []) first second) :
    second.handlers = first.handlers := by
  have agree : List.Forall₂ (fun before after => first.target before = second.target after)
      (first.current .callable).toList (second.current .callable).toList := by
    apply lockstep.forall₂_toList
    intro name before after foundBefore foundAfter
    rcases lockstep.targets name before after foundBefore foundAfter with same | same
    · exact same.symm
    · exact same.symm
  have mapped := List.forall₂_map_left_iff.mpr (List.forall₂_map_right_iff.mpr agree)
  rw [List.forall₂_eq_eq_eq] at mapped
  exact mapped.symm

end Lockstep

end Registration

namespace Takeover

variable {takeover : Takeover} {target : Owner} {registrations : List Registration}
  {host first : Host} {report : TakeoverReport}

/-- A takeover whose marker is there evicts its target. -/
theorem clear_of_marked (targeted : takeover.target? = some target)
    (marked : host.registry.contains .type takeover.marker = true) :
    takeover.clear host = (.ok (host.evictAll target).1, (host.evictAll target).2) := by
  simp only [clear, targeted, marked]
  rfl

/-- What a takeover that succeeded did. -/
theorem supersede_inversion (targeted : takeover.target? = some target)
    {register : Registrar → Host → Except TakeoverError Unit × Host}
    (succeeded : takeover.supersede register host = (.ok report, first)) :
    ∃ registered, host.registry.contains .type takeover.marker = true ∧
      register takeover.registrar (host.evictAll target).2 = (.ok (), registered) ∧
      first.registry = registered.registry := by
  rw [supersede] at succeeded
  cases marked : host.registry.contains .type takeover.marker with
  | false =>
      simp only [clear, targeted, marked] at succeeded
      cases succeeded
  | true =>
      rw [clear_of_marked targeted marked] at succeeded
      dsimp only at succeeded
      split at succeeded
      · cases succeeded
      · rename_i registered ran
        cases succeeded
        exact ⟨registered, rfl, ran, rfl⟩

/-- A takeover that succeeded succeeds again, if its marker is there, and leaves the
tables as they are.  The report of the second one counts what the first one
registered. -/
theorem supersede_again (wellFormed : host.registry.WellFormed)
    (targeted : takeover.target? = some target)
    (succeeded : takeover.supersede
      (fun registrar => Registration.runAll registrar registrations) host = (.ok report, first))
    (marked : first.registry.contains .type takeover.marker = true) :
    ∃ again second,
      takeover.supersede (fun registrar => Registration.runAll registrar registrations) first =
        (.ok again, second) ∧
      again.owner = target ∧
      again.evicted =
        { constants := (Registration.forcedNames registrations).dedup.length
          types := registrations.countP Registration.isType
          callables := Registration.callablesMade takeover.registrar registrations
            (takeover.clear host).2 } ∧
      (∀ kind, List.Forall₂ (Entry.Renews host.registry.fresh)
        (first.registry.current kind).toList (second.registry.current kind).toList) ∧
      second.registry.handlers = first.registry.handlers := by
  obtain ⟨registered, wasMarked, ran, same⟩ := supersede_inversion targeted succeeded
  have owned : takeover.registrar.owner = target := by
    rw [registrar, owner, targeted]
    rfl
  have firstCleared := cleared_evictAll target host
  have secondCleared := cleared_evictAll target first
  have formed := firstCleared.wellFormed wellFormed
  have succeedAll := Registration.succeedAll_of_runAll ran
  have none := firstCleared.owned_eq_zero
  have callables := Registration.owned_callable_runAll ran
  have types := succeedAll.owned_type
  have constants := succeedAll.owned_constant formed
  rw [owned] at callables types constants
  rw [none, Nat.zero_add] at callables types
  rw [← same] at callables types constants succeedAll
  have lockstep := Registration.lockstep_of_cleared owned wellFormed firstCleared succeedAll
    secondCleared
  obtain ⟨last, succeedAgain, lockstepLast⟩ := succeedAll.again lockstep
  obtain ⟨log, ranAgain⟩ := succeedAgain.runAll_eq
  refine ⟨(takeover.complete (first.evictAll target).1 ⟨last, log⟩).1,
    (takeover.complete (first.evictAll target).1 ⟨last, log⟩).2, ?_, owned, ?_, ?_, ?_⟩
  · rw [supersede, clear_of_marked targeted marked]
    dsimp only
    rw [ranAgain]
  · rw [clear_of_marked targeted wasMarked]
    change (first.evictAll target).1 = _
    rw [report_evictAll, callables, types, constants (none .constant)]
  · intro kind
    rw [← firstCleared.fresh]
    exact lockstepLast.forall₂_toList (lockstepLast.renews kind)
  · exact lockstepLast.handlers_eq

/-- A takeover that defines and installs callables, patches a callable of somebody
else and displaces a constant, and that is repeated. -/
theorem supersede_again_of_displacing :
    let target : Owner := ⟨0, "target"⟩
    let foreign : Owner := ⟨1, "foreign"⟩
    let marker : Name := ⟨[0x4d]⟩
    let shared : Name := ⟨[0x73]⟩
    let registry := ((Registry.empty.put (.type marker target .image)).put
      (.callable shared foreign .image ⟨1⟩)).put (.constant shared (.int 1) ⟨0⟩ foreign)
    let takeover : Takeover := ⟨.empty, ⟨2, "successor"⟩, some target, marker⟩
    let registrations : List Registration :=
      [.function ⟨[0x66]⟩ ⟨2⟩, .hook shared ⟨3⟩, .hook ⟨[0x67]⟩ ⟨4⟩,
        .constant shared (.int 2) ⟨0⟩, .constant shared (.int 3) ⟨0⟩, .type marker]
    let supersede := takeover.supersede fun registrar =>
      Registration.runAll registrar registrations
    registry.WellFormed ∧ takeover.target? = some target ∧
      ∃ report first, supersede ⟨registry, []⟩ = (.ok report, first) ∧
        first.registry.contains .type marker = true ∧
        ∃ again second, supersede first = (.ok again, second) ∧ again.owner = target ∧
          again.evicted = ⟨1, 1, 2⟩ ∧ second.registry.handlers = first.registry.handlers := by
  intro target foreign marker shared registry takeover registrations supersede
  have wellFormed : registry.WellFormed :=
    ((Registry.wellFormed_empty.put _).put _).put _
  have answered : (supersede ⟨registry, []⟩).1 = .ok ⟨target, ⟨0, 1, 0⟩⟩ := by decide +kernel
  have succeeded : supersede ⟨registry, []⟩ =
      (.ok ⟨target, ⟨0, 1, 0⟩⟩, (supersede ⟨registry, []⟩).2) := by
    rw [← answered]
  have marked : (supersede ⟨registry, []⟩).2.registry.contains .type marker = true := by
    decide +kernel
  obtain ⟨again, second, superseded, owner, evicted, -, handlers⟩ :=
    supersede_again wellFormed rfl succeeded marked
  have counted : again.evicted = ⟨1, 1, 2⟩ := evicted.trans (by decide +kernel)
  exact ⟨wellFormed, rfl, _, _, succeeded, marked, again, second, superseded, owner, counted,
    handlers⟩

end Takeover
end Interposition
