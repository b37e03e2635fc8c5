import Interposition.Proofs.Takeover.Repetition
/-!
How a takeover ends.

A takeover whose target is loaded but whose marker is missing does nothing.  Any
other takeover clears the surface of its target and then carries out the
registrations up to the first one that fails; nothing that was done before is taken
back.  `Takeover.supersede_runAll` says what the registry then holds: what the
eviction spared, less the constants that were forced over, and after that what the
registrations made, all of it under the tag of the target.
-/

namespace Interposition

/-- Where an entry comes from, if entries of its kind tell. -/
def Entry.origin? : {kind : Kind} → Entry kind → Option Origin
  | .callable, entry => some entry.content
  | .constant, _ => none
  | .type, entry => some entry.content

/-- Whether an entry was made in the image for an owner, when the given identity had
not been handed out yet. -/
structure Entry.MadeFor {kind : Kind} (owner : Owner) (base : EntryId) (entry : Entry kind) :
    Prop where
  recent : base ≤ entry.id
  owned : entry.owner = owner
  image : ∀ origin, entry.origin? = some origin → origin = .image

namespace Registration

/-- The handler that a registration gives to a name. -/
def handlerFor? (name : Name) : Registration → Option Handler
  | .function other handler | .hook other handler =>
    if other = name then some handler else none
  | _ => none

/-- The handler that registrations give to a name last. -/
def lastHandler? (name : Name) : List Registration → Option Handler
  | [] => none
  | registration :: rest => (lastHandler? name rest).or (registration.handlerFor? name)

/-- The registrations that are refused, and the error that each is refused with. -/
inductive Refused (registrar : Registrar) (registry : Registry) :
    Registration → TakeoverError → Prop where
  | function {name : Name} (handler : Handler)
      (taken : registry.contains .callable name = true) :
      Refused registrar registry (.function name handler)
        (.registry (.duplicate .callable name))
  | hook {name : Name} (handler : Handler) (absent : registry.get? .callable name = none)
      (denied : registrar.deny.contains name = true) :
      Refused registrar registry (.hook name handler) (.hook (.unhookable name))
  | type {name : Name} (taken : registry.contains .type name = true) :
      Refused registrar registry (.type name) (.registry (.duplicate .type name))

variable {registrar : Registrar} {registration : Registration} {registry next last : Registry}
  {registrations : List Registration} {host after : Host} {error : TakeoverError}

/-- A registration that fails was refused, and changes nothing. -/
theorem refused_of_run (ran : registration.run registrar host = (.error error, after)) :
    registration.Refused registrar host.registry error ∧ after.registry = host.registry := by
  cases registration with
  | function name handler =>
      cases taken : host.registry.contains .callable name with
      | false =>
          simp only [run, function_of_free _ taken] at ran
          cases ran
      | true =>
          have refused := Registry.define_of_taken
            (.callable name registrar.owner .image handler) _ taken
          simp only [run, Registrar.function, Host.onRegistry, refused] at ran
          cases ran
          exact ⟨.function handler taken, rfl⟩
  | hook name handler =>
      cases bound : host.registry.get? .callable name with
      | some entry =>
          simp only [run, Registrar.hook, Host.hook_of_found _ _ _ bound] at ran
          cases ran
      | none =>
          cases denied : registrar.deny.contains name with
          | true =>
              simp only [run, Registrar.hook, Host.hook_of_absent _ _ _ bound, denied] at ran
              cases ran
              exact ⟨.hook handler bound denied, rfl⟩
          | false =>
              simp only [run, Registrar.hook, Host.hook_of_absent _ _ _ bound, denied,
                Bool.false_eq_true, if_false] at ran
              cases ran
  | constant name value flags => cases ran
  | type name =>
      cases taken : host.registry.contains .type name with
      | false =>
          simp only [run, defineType_of_free taken] at ran
          cases ran
      | true =>
          have refused := Registry.define_of_taken (.type name registrar.owner .image) _ taken
          simp only [run, Registrar.defineType, Host.onRegistry, refused] at ran
          cases ran
          exact ⟨.type taken, rfl⟩

/-- Registrations are carried out to the last one, or up to one that fails. -/
theorem runAll_eq_ok_or_error (registrar : Registrar) (registrations : List Registration)
    (host : Host) :
    (∃ reached, runAll registrar registrations host = (.ok (), reached)) ∨
      ∃ done failing others reached error refused, registrations = done ++ failing :: others ∧
        runAll registrar done host = (.ok (), reached) ∧
        failing.run registrar reached = (.error error, refused) ∧
        runAll registrar registrations host = (.error error, refused) := by
  induction registrations generalizing host with
  | nil => exact Or.inl ⟨host, rfl⟩
  | cons registration rest inductionHypothesis =>
      rcases ran : registration.run registrar host with ⟨answer, next⟩
      cases answer with
      | error error =>
          refine Or.inr ⟨[], registration, rest, host, error, next, rfl, rfl, ran, ?_⟩
          rw [runAll, ran]
      | ok done =>
          simp only [runAll, ran]
          rcases inductionHypothesis next with
            succeeded | ⟨done, failing, others, reached, error, refused, rfl, before, failed, all⟩
          · exact Or.inl succeeded
          · refine Or.inr ⟨registration :: done, failing, others, reached, error, refused, rfl,
              ?_, failed, all⟩
            simp only [runAll, ran, before]

theorem Succeeds.fresh_le (succeeds : registration.Succeeds registrar registry next) :
    registry.fresh ≤ next.fresh := by
  cases succeeds with
  | patched found => exact Nat.le_refl _
  | _ =>
      rw [Registry.fresh_put]
      exact Nat.le_succ _

/-- A registration leaves the entries of a table where they are, less what it takes,
and puts at most a new one after them. -/
theorem Succeeds.exists_toList (succeeds : registration.Succeeds registrar registry next)
    (wellFormed : registry.WellFormed) (kind : Kind) :
    ∃ made, (next.current kind).toList =
        (registry.current kind).toList.filter
          (fun entry => entry.name ∉ taken kind [registration]) ++ made ∧
      ∀ entry ∈ made, entry.MadeFor registrar.owner registry.fresh := by
  have keepsAll (nothing : taken kind [registration] = []) :
      (registry.current kind).toList.filter
        (fun entry => entry.name ∉ taken kind [registration]) = (registry.current kind).toList := by
    rw [nothing]
    exact List.filter_eq_self.mpr fun entry member => decide_eq_true List.not_mem_nil
  -- A definition under a free name, in its own table and in the other ones.
  have defined {other : Kind} {draft : Draft other}
      (free : registry.get? other draft.name = none) (nothing : taken kind [registration] = [])
      (made : (draft.entry registry.fresh).MadeFor registrar.owner registry.fresh) :
      ∃ made, ((registry.put draft).current kind).toList =
          (registry.current kind).toList.filter
            (fun entry => entry.name ∉ taken kind [registration]) ++ made ∧
        ∀ entry ∈ made, entry.MadeFor registrar.owner registry.fresh := by
    rw [keepsAll nothing]
    by_cases same : kind = other
    · subst same
      refine ⟨_, wellFormed.toList_put_of_free free, ?_⟩
      exact List.forall_mem_singleton.mpr made
    · rw [Registry.current_put_of_ne draft registry same]
      exact ⟨[], (List.append_nil _).symm, by simp⟩
  cases succeeds with
  | function free =>
      exact defined (Registry.contains_eq_false_iff.mp free) (by cases kind <;> rfl)
        ⟨Nat.le_refl _, rfl, fun origin comes => (Option.some.inj comes).symm⟩
  | installed free allowed =>
      exact defined free (by cases kind <;> rfl)
        ⟨Nat.le_refl _, rfl, fun origin comes => (Option.some.inj comes).symm⟩
  | type free =>
      exact defined (Registry.contains_eq_false_iff.mp free) (by cases kind <;> rfl)
        ⟨Nat.le_refl _, rfl, fun origin comes => (Option.some.inj comes).symm⟩
  | patched found =>
      rw [keepsAll (by cases kind <;> rfl), Registry.current_retarget]
      exact ⟨[], (List.append_nil _).symm, by simp⟩
  | constant name value flags =>
      by_cases same : kind = .constant
      · subst same
        refine ⟨_, (wellFormed.toList_put _).trans (congrArg (· ++ _) ?_), ?_⟩
        · refine List.filter_congr fun entry _ => decide_eq_decide.mpr ?_
          simp [taken, forcedNames, Draft.name]
        · intro entry member
          rw [List.mem_singleton.mp member]
          exact ⟨Nat.le_refl _, rfl, fun origin comes => by cases comes⟩
      · rw [keepsAll (by cases kind <;> first | rfl | exact absurd rfl same),
          Registry.current_put_of_ne _ _ same]
        exact ⟨[], (List.append_nil _).symm, by simp⟩

/-- Registrations leave the entries of a table where they are, less what they take,
and put new ones after them. -/
theorem SucceedAll.exists_toList
    (succeedAll : SucceedAll registrar registry registrations last)
    (wellFormed : registry.WellFormed) (kind : Kind) :
    ∃ made, (last.current kind).toList =
        (registry.current kind).toList.filter
          (fun entry => entry.name ∉ taken kind registrations) ++ made ∧
      ∀ entry ∈ made, entry.MadeFor registrar.owner registry.fresh := by
  induction succeedAll with
  | nil registry =>
      refine ⟨[], ?_, by simp⟩
      rw [List.append_nil]
      refine (List.filter_eq_self.mpr fun entry member => decide_eq_true ?_).symm
      cases kind <;> exact List.not_mem_nil
  | @cons registry next last registration rest succeeds succeedAll inductionHypothesis =>
      obtain ⟨first, firstList, firstMade⟩ := succeeds.exists_toList wellFormed kind
      obtain ⟨others, othersList, othersMade⟩ :=
        inductionHypothesis (succeeds.wellFormed wellFormed)
      refine ⟨first.filter (fun entry => entry.name ∉ taken kind rest) ++ others, ?_, ?_⟩
      · rw [othersList, firstList, List.filter_append, List.filter_filter, List.append_assoc,
          taken_cons kind registration rest]
        congr 1
        refine List.filter_congr fun entry _ => ?_
        simp [Bool.and_comm]
      · intro entry member
        rcases List.mem_append.mp member with old | new
        · exact firstMade entry (List.mem_of_mem_filter old)
        · have made := othersMade entry new
          exact { made with recent := Nat.le_trans succeeds.fresh_le made.recent }

/-- What a registration makes calls of a name go to. -/
theorem Succeeds.resolve?_eq (succeeds : registration.Succeeds registrar registry next)
    (wellFormed : registry.WellFormed) (name : Name) :
    next.resolve? name = (registration.handlerFor? name).or (registry.resolve? name) := by
  have made (other : Name) (handler : Handler) :
      (registry.put (.callable other registrar.owner .image handler)).resolve? name =
        (if other = name then some handler else none).or (registry.resolve? name) := by
    by_cases same : other = name
    · subst same
      rw [if_pos rfl, Registry.resolve?_put_self, Option.some_or]
    · rw [if_neg same, Option.none_or]
      exact wellFormed.resolve?_put_of_ne _ fun named => same named.2.symm
  cases succeeds with
  | function free => exact made _ _
  | installed free allowed => exact made _ _
  | constant other value flags =>
      exact wellFormed.resolve?_put_of_ne _ fun absurdity => nomatch absurdity.1
  | type free => exact wellFormed.resolve?_put_of_ne _ fun absurdity => nomatch absurdity.1
  | @patched other handler entry found =>
      rw [handlerFor?]
      by_cases same : other = name
      · subst same
        rw [if_pos rfl, Registry.resolve?_retarget_self found, Option.some_or]
      · rw [if_neg same, Option.none_or]
        exact wellFormed.resolve?_retarget_of_ne found (Ne.symm same) handler

theorem SucceedAll.resolve?_eq (succeedAll : SucceedAll registrar registry registrations last)
    (wellFormed : registry.WellFormed) (name : Name) :
    last.resolve? name = (lastHandler? name registrations).or (registry.resolve? name) := by
  induction succeedAll with
  | nil => rfl
  | cons succeeds succeedAll inductionHypothesis =>
      rw [inductionHypothesis (succeeds.wellFormed wellFormed),
        succeeds.resolve?_eq wellFormed, lastHandler?, Option.or_assoc]

end Registration

namespace Takeover

variable (takeover : Takeover) (host : Host)

/-- Whether a takeover comes too early: it has a target, and the marker of the target
is missing. -/
def Premature (registry : Registry) : Prop :=
  takeover.target?.isSome = true ∧ registry.contains .type takeover.marker = false

/-- Whether an entry outlives the eviction of the target, if there is one. -/
def spares {kind : Kind} (entry : Entry kind) : Bool :=
  takeover.target?.all fun target => !entry.isEvictedWith target

/-- A host from which the surface of the target was cleared, if there is one. -/
def cleared : Host :=
  takeover.target?.elim host fun target => (host.evictAll target).2

/-- How much of a registry belongs to the surface of the target. -/
def surface (registry : Registry) : EvictionReport :=
  takeover.target?.elim .none fun target =>
    ⟨registry.owned .constant target, registry.owned .type target,
      registry.owned .callable target⟩

/-- How far a takeover went through its registrations: to the last one, or to one
that was refused. -/
inductive Stopped (result : Except TakeoverError TakeoverReport × Host) (reached : Host) :
    List Registration → Prop where
  | complete
      (reported : result.1 = .ok ⟨takeover.owner, takeover.surface host.registry⟩) :
      Stopped result reached []
  | refused {failing : Registration} {others : List Registration} {error : TakeoverError}
      (failed : failing.run takeover.registrar reached = (.error error, result.2))
      (refused : failing.Refused takeover.registrar reached.registry error)
      (reported : result.1 = .error error) :
      Stopped result reached (failing :: others)

/-- What a takeover leaves behind that carried out some registrations. -/
structure Leaves (done : List Registration) (last : Registry) : Prop where
  /-- What the eviction spared stays in its order, less the constants that were forced
  over, and after it stands what the registrations made. -/
  tables : ∀ kind, ∃ made, (last.current kind).toList =
      (host.registry.current kind).toList.filter (fun entry =>
        takeover.spares entry ∧ entry.name ∉ Registration.taken kind done) ++ made ∧
    ∀ entry ∈ made, entry.MadeFor takeover.owner host.registry.fresh
  /-- Calls go to the handler that a name was given last, or where they went before. -/
  handlers : ∀ name, last.resolve? name = (Registration.lastHandler? name done).or
    (((host.registry.get? .callable name).filter takeover.spares).map host.registry.target)

variable {takeover} {host}

/-- A takeover that comes too early does nothing. -/
theorem supersede_of_premature (premature : takeover.Premature host.registry)
    (register : Registrar → Host → Except TakeoverError Unit × Host) :
    takeover.supersede register host =
      (.error (.loadOrder takeover.owner takeover.marker), host) := by
  obtain ⟨targeted, missing⟩ := premature
  obtain ⟨target, targeted⟩ := Option.isSome_iff_exists.mp targeted
  simp only [supersede, clear, owner, targeted, missing]
  rfl

theorem clear_of_not_premature (ready : ¬takeover.Premature host.registry) :
    takeover.clear host =
      (.ok (takeover.surface host.registry), takeover.cleared host) := by
  cases targeted : takeover.target? with
  | none => simp only [clear, surface, cleared, targeted, Option.elim]
  | some target =>
      have marked : host.registry.contains .type takeover.marker = true := by
        by_contra missing
        exact ready ⟨by rw [targeted]; rfl, eq_false_of_ne_true missing⟩
      rw [clear_of_marked targeted marked, report_evictAll]
      simp only [surface, cleared, targeted, Option.elim]

theorem fresh_cleared : (takeover.cleared host).registry.fresh = host.registry.fresh := by
  cases targeted : takeover.target? with
  | none => simp only [cleared, targeted, Option.elim]
  | some target =>
      simp only [cleared, targeted, Option.elim]
      exact (cleared_evictAll target host).fresh

theorem targets_cleared : (takeover.cleared host).registry.targets = host.registry.targets := by
  cases targeted : takeover.target? with
  | none => simp only [cleared, targeted, Option.elim]
  | some target =>
      simp only [cleared, targeted, Option.elim]
      exact (cleared_evictAll target host).targets

theorem entries_cleared (kind : Kind) :
    ((takeover.cleared host).registry.current kind).entries =
      (host.registry.current kind).entries.part fun pair => takeover.spares pair.2 := by
  cases targeted : takeover.target? with
  | none =>
      simp only [cleared, spares, targeted, Option.elim, Option.all]
      exact (OrderedMap.part_eq_self fun _ _ => rfl).symm
  | some target =>
      simp only [cleared, spares, targeted, Option.elim, Option.all]
      exact (cleared_evictAll target host).entries kind

theorem wellFormed_cleared (wellFormed : host.registry.WellFormed) :
    (takeover.cleared host).registry.WellFormed := by
  cases targeted : takeover.target? with
  | none => simpa only [cleared, targeted, Option.elim] using wellFormed
  | some target =>
      simp only [cleared, targeted, Option.elim]
      exact (cleared_evictAll target host).wellFormed wellFormed

theorem toList_cleared (kind : Kind) :
    ((takeover.cleared host).registry.current kind).toList =
      (host.registry.current kind).toList.filter takeover.spares := by
  rw [Snapshot.toList, Snapshot.toList, entries_cleared, OrderedMap.values, OrderedMap.part,
    OrderedMap.values, List.filter_map]
  rfl

theorem resolve?_cleared (wellFormed : host.registry.WellFormed) (name : Name) :
    (takeover.cleared host).registry.resolve? name =
      ((host.registry.get? .callable name).filter takeover.spares).map host.registry.target := by
  have found : (takeover.cleared host).registry.get? .callable name =
      (host.registry.get? .callable name).filter takeover.spares := by
    rw [Registry.get?, Snapshot.get?, entries_cleared]
    exact OrderedMap.get?_part (wellFormed.sound .callable).distinctKeys _ name
  rw [Registry.resolve?, found]
  refine Option.map_congr fun entry _ => ?_
  rw [Registry.target, Registry.target, targets_cleared]

/-- What registrations that all succeed leave behind after the surface of the target
was cleared. -/
theorem leaves_of_succeedAll (wellFormed : host.registry.WellFormed)
    {done : List Registration} {last : Registry}
    (succeedAll : Registration.SucceedAll takeover.registrar
      (takeover.cleared host).registry done last) :
    takeover.Leaves host done last where
  tables kind := by
    obtain ⟨made, tables, madeFor⟩ := succeedAll.exists_toList (wellFormed_cleared wellFormed) kind
    rw [fresh_cleared] at madeFor
    refine ⟨made, ?_, madeFor⟩
    rw [tables, toList_cleared, List.filter_filter]
    congr 1
    refine List.filter_congr fun entry _ => ?_
    rw [Bool.decide_and, Bool.and_comm, Bool.decide_eq_true]
  handlers name := by
    rw [succeedAll.resolve?_eq (wellFormed_cleared wellFormed), resolve?_cleared wellFormed]

/-- A takeover that does not come too early clears the surface of its target and
carries out its registrations up to the first one that is refused. -/
theorem stopped_of_not_premature (ready : ¬takeover.Premature host.registry)
    (registrations : List Registration) :
    let result := takeover.supersede
      (fun registrar => Registration.runAll registrar registrations) host
    ∃ done rest reached, registrations = done ++ rest ∧
      Registration.runAll takeover.registrar done (takeover.cleared host) = (.ok (), reached) ∧
      takeover.Stopped host result reached rest ∧ result.2.registry = reached.registry := by
  rw [supersede, clear_of_not_premature ready]
  rcases Registration.runAll_eq_ok_or_error takeover.registrar registrations
      (takeover.cleared host) with
    ⟨reached, ran⟩ | ⟨done, failing, others, reached, error, refused, split, before, failed, ran⟩
  · dsimp only
    rw [ran]
    exact ⟨registrations, [], reached, (List.append_nil _).symm, ran, .complete rfl, rfl⟩
  · dsimp only
    rw [ran]
    obtain ⟨refusal, same⟩ := Registration.refused_of_run failed
    exact ⟨done, failing :: others, reached, split, before, .refused failed refusal rfl, same⟩

/-- No registration is refused for the order of loading. -/
theorem Stopped.error_ne_loadOrder {result : Except TakeoverError TakeoverReport × Host}
    {reached : Host} {rest : List Registration}
    (stopped : takeover.Stopped host result reached rest)
    (target : Owner) (marker : Name) : result.1 ≠ .error (.loadOrder target marker) := by
  cases stopped with
  | complete reported =>
      rw [reported]
      exact nofun
  | refused failed refused reported =>
      rw [reported]
      cases refused <;> exact nofun

/-- How a takeover ends.  It answers that it comes too early exactly if it does, and
then it touches nothing and registers nothing.  Otherwise it ends after its last
registration with an exact report, or at the first one that is refused, and the
registry holds what the eviction and the registrations until then left there. -/
theorem supersede_runAll (takeover : Takeover) (registrations : List Registration)
    (wellFormed : host.registry.WellFormed) :
    let result := takeover.supersede
      (fun registrar => Registration.runAll registrar registrations) host
    ((∃ target marker, result.1 = .error (.loadOrder target marker)) ↔
        takeover.Premature host.registry) ∧
      (takeover.Premature host.registry → ∀ register,
        takeover.supersede register host =
          (.error (.loadOrder takeover.owner takeover.marker), host)) ∧
      (¬takeover.Premature host.registry → ∃ done rest reached,
        registrations = done ++ rest ∧
          Registration.runAll takeover.registrar done (takeover.cleared host) =
            (.ok (), reached) ∧
          takeover.Stopped host result reached rest ∧
          result.2.registry = reached.registry ∧
          takeover.Leaves host done result.2.registry) := by
  intro result
  refine ⟨⟨?_, ?_⟩, fun premature => supersede_of_premature premature, ?_⟩
  · rintro ⟨target, marker, answered⟩
    by_contra ready
    obtain ⟨done, rest, reached, -, -, stopped, -⟩ := stopped_of_not_premature ready registrations
    exact stopped.error_ne_loadOrder target marker answered
  · intro premature
    exact ⟨takeover.owner, takeover.marker,
      congrArg Prod.fst (supersede_of_premature premature _)⟩
  · intro ready
    obtain ⟨done, rest, reached, split, ran, stopped, same⟩ :=
      stopped_of_not_premature ready registrations
    refine ⟨done, rest, reached, split, ran, stopped, same, ?_⟩
    rw [same]
    exact leaves_of_succeedAll wellFormed (Registration.succeedAll_of_runAll ran)

/-- A takeover that evicts a callable, displaces a constant, hooks a callable of
somebody else, and is then refused a hook. -/
theorem supersede_runAll_of_refused_hook :
    let target : Owner := ⟨0, "target"⟩
    let foreign : Owner := ⟨1, "foreign"⟩
    let marker : Name := ⟨[0x4d]⟩
    let freed : Name := ⟨[0x66]⟩
    let shared : Name := ⟨[0x73]⟩
    let denied : Name := ⟨[0x64]⟩
    let registry := (((Registry.empty.put (.type marker target .image)).put
      (.callable freed target .image ⟨1⟩)).put (.callable shared foreign .image ⟨2⟩)).put
        (.constant shared (.int 1) ⟨0⟩ foreign)
    let takeover : Takeover := ⟨DenyList.empty.insert denied, ⟨2, "successor"⟩, some target, marker⟩
    let registrations : List Registration :=
      [.function freed ⟨3⟩, .constant shared (.int 2) ⟨0⟩, .hook shared ⟨4⟩, .hook denied ⟨5⟩,
        .type marker]
    let result := takeover.supersede
      (fun registrar => Registration.runAll registrar registrations) ⟨registry, []⟩
    registry.WellFormed ∧ ¬takeover.Premature registry ∧
      result.1 = .error (.hook (.unhookable denied)) ∧
      result.2.registry.contains .type marker = false ∧
      ((result.2.registry.get? .callable freed).map (·.owner) = some target ∧
        result.2.registry.resolve? freed = some ⟨3⟩) ∧
      ((result.2.registry.get? .callable shared).map (·.owner) = some foreign ∧
        result.2.registry.resolve? shared = some ⟨4⟩) ∧
      ∃ done rest reached, registrations = done ++ rest ∧
        takeover.Stopped ⟨registry, []⟩ result reached rest ∧
        takeover.Leaves ⟨registry, []⟩ done result.2.registry := by
  intro target foreign marker freed shared denied registry takeover registrations result
  have wellFormed : registry.WellFormed :=
    (((Registry.wellFormed_empty.put _).put _).put _).put _
  have ready : ¬takeover.Premature registry := by
    rintro ⟨-, missing⟩
    exact absurd missing (by decide +kernel)
  obtain ⟨done, rest, reached, split, -, stopped, -, leaves⟩ :=
    (@supersede_runAll ⟨registry, []⟩ takeover registrations wellFormed).2.2 ready
  refine ⟨wellFormed, ready, by decide +kernel, by decide +kernel, by decide +kernel,
    by decide +kernel, done, rest, reached, split, stopped, leaves⟩

end Takeover
end Interposition
