import Interposition.Takeover
import Interposition.Proofs.Hook.Hooked
/-!
Registrations that succeed.

`Registration.Succeeds` lists what a registration can do to a registry when it
succeeds: put a new entry into a table, or patch a callable that is there.
`Registration.SucceedAll` is a run of registrations without an error.  Both say
as much as the programs `Registration.run` and `Registration.runAll`, without
the log of the host.
-/

namespace Interposition
namespace Registration

/-- What a registration that succeeds makes of a registry. -/
inductive Succeeds (registrar : Registrar) (registry : Registry) :
    Registration → Registry → Prop where
  | function {name : Name} {handler : Handler}
      (free : registry.contains .callable name = false) :
      Succeeds registrar registry (.function name handler)
        (registry.put (.callable name registrar.owner .image handler))
  | installed {name : Name} {handler : Handler} (free : registry.get? .callable name = none)
      (allowed : registrar.deny.contains name = false) :
      Succeeds registrar registry (.hook name handler)
        (registry.put (.callable name registrar.owner .image handler))
  | patched {name : Name} {handler : Handler} {entry : Callable}
      (found : registry.get? .callable name = some entry) :
      Succeeds registrar registry (.hook name handler) (registry.retarget entry.id handler)
  | constant (name : Name) (value : Value) (flags : ConstFlags) :
      Succeeds registrar registry (.constant name value flags)
        (registry.put (.constant name value flags registrar.owner))
  | type {name : Name} (free : registry.contains .type name = false) :
      Succeeds registrar registry (.type name)
        (registry.put (.type name registrar.owner .image))

/-- What registrations that all succeed make of a registry, one after the
other. -/
inductive SucceedAll (registrar : Registrar) :
    Registry → List Registration → Registry → Prop where
  | nil (registry : Registry) : SucceedAll registrar registry [] registry
  | cons {registry next last : Registry} {registration : Registration}
      {rest : List Registration} (succeeds : registration.Succeeds registrar registry next)
      (succeedAll : SucceedAll registrar next rest last) :
      SucceedAll registrar registry (registration :: rest) last

/-- Whether a registration makes a callable: a definition that is not refused, or a
hook that installs one. -/
def creates (registrar : Registrar) (registration : Registration) (host : Host) : Bool :=
  match registration with
  | .function name handler => (registrar.function name handler host).1.isOk
  | .hook name handler =>
    match (registrar.hook name handler host).1 with
    | .ok outcome => outcome.isInstalled
    | .error _ => false
  | _ => false

/-- How many callables a run of registrations makes. -/
def callablesMade (registrar : Registrar) : List Registration → Host → Nat
  | [], _ => 0
  | registration :: rest, host =>
    callablesMade registrar rest (registration.run registrar host).2 +
      if registration.creates registrar host then 1 else 0

section Outcomes

variable {registrar : Registrar} {host : Host} {name : Name}

theorem function_of_free (handler : Handler)
    (free : host.registry.contains .callable name = false) :
    registrar.function name handler host =
      (.ok ((Draft.callable name registrar.owner .image handler).entry host.registry.fresh),
        ⟨host.registry.put (.callable name registrar.owner .image handler), host.log⟩) := by
  rw [Registrar.function, Host.onRegistry, Registry.define_eq_put _ _ free]

theorem defineType_of_free (free : host.registry.contains .type name = false) :
    registrar.defineType name host =
      (.ok ((Draft.type name registrar.owner .image).entry host.registry.fresh),
        ⟨host.registry.put (.type name registrar.owner .image), host.log⟩) := by
  rw [Registrar.defineType, Host.onRegistry, Registry.define_eq_put _ _ free]

theorem registry_forceConstant (value : Value) (flags : ConstFlags) (owner : Owner) :
    (host.forceConstant name value flags owner).2.registry =
      host.registry.put (.constant name value flags owner) := by
  have replaced := Registry.replace_eq_put (.constant name value flags owner) host.registry
  simp only [Host.forceConstant, Host.onRegistry, replaced]
  split
  · rfl
  · rfl

end Outcomes

variable {registrar : Registrar} {registration : Registration} {host : Host}
  {next : Registry}

/-- A registration that can succeed does. -/
theorem Succeeds.run_eq (succeeds : registration.Succeeds registrar host.registry next) :
    ∃ log, registration.run registrar host = (.ok (), ⟨next, log⟩) := by
  cases succeeds with
  | function free =>
      refine ⟨host.log, ?_⟩
      simp only [run, function_of_free _ free]
      rfl
  | installed free allowed =>
      rename_i name handler
      refine ⟨(host.install name handler registrar.owner).log, ?_⟩
      simp only [run, Registrar.hook, Host.hook_of_absent _ _ _ free, allowed,
        ← Host.registry_install _ _ free]
      rfl
  | patched found =>
      rename_i name handler entry
      refine ⟨host.log ++ [.patched name entry.owner], ?_⟩
      simp only [run, Registrar.hook, Host.hook_of_found _ _ _ found]
      rfl
  | constant name value flags =>
      refine ⟨(host.forceConstant name value flags registrar.owner).2.log, ?_⟩
      rw [← registry_forceConstant]
      rfl
  | type free =>
      refine ⟨host.log, ?_⟩
      simp only [run, defineType_of_free free]
      rfl

/-- A registration that succeeds could. -/
theorem succeeds_of_run {after : Host}
    (ran : registration.run registrar host = (.ok (), after)) :
    registration.Succeeds registrar host.registry after.registry := by
  cases registration with
  | function name handler =>
      cases taken : host.registry.contains .callable name with
      | false =>
          simp only [run, function_of_free _ taken] at ran
          cases ran
          exact .function taken
      | true =>
          have refused := Registry.define_of_taken
            (.callable name registrar.owner .image handler) _ taken
          simp only [run, Registrar.function, Host.onRegistry, refused] at ran
          cases ran
  | hook name handler =>
      cases bound : host.registry.get? .callable name with
      | some entry =>
          simp only [run, Registrar.hook, Host.hook_of_found _ _ _ bound] at ran
          cases ran
          exact .patched bound
      | none =>
          cases denied : registrar.deny.contains name with
          | true =>
              simp only [run, Registrar.hook, Host.hook_of_absent _ _ _ bound, denied] at ran
              cases ran
          | false =>
              simp only [run, Registrar.hook, Host.hook_of_absent _ _ _ bound, denied,
                Bool.false_eq_true, if_false] at ran
              cases ran
              rw [Host.registry_install _ _ bound]
              exact .installed bound denied
  | constant name value flags =>
      change (Except.ok (), (host.forceConstant name value flags registrar.owner).2) = _ at ran
      obtain ⟨-, rfl⟩ := Prod.mk.inj ran
      rw [registry_forceConstant]
      exact .constant name value flags
  | type name =>
      cases taken : host.registry.contains .type name with
      | false =>
          simp only [run, defineType_of_free taken] at ran
          cases ran
          exact .type taken
      | true =>
          have refused := Registry.define_of_taken (.type name registrar.owner .image) _ taken
          simp only [run, Registrar.defineType, Host.onRegistry, refused] at ran
          cases ran

/-- Registrations that can all succeed do. -/
theorem SucceedAll.runAll_eq {registrations : List Registration} {host : Host}
    {last : Registry} (succeedAll : SucceedAll registrar host.registry registrations last) :
    ∃ log, runAll registrar registrations host = (.ok (), ⟨last, log⟩) := by
  induction registrations generalizing host with
  | nil =>
      cases succeedAll
      exact ⟨host.log, rfl⟩
  | cons registration rest inductionHypothesis =>
      cases succeedAll with
      | cons succeeds succeedAll =>
          obtain ⟨log, ran⟩ := succeeds.run_eq
          rw [runAll, ran]
          exact inductionHypothesis succeedAll

/-- Registrations that all succeed could. -/
theorem succeedAll_of_runAll {registrations : List Registration} {host after : Host}
    (ran : runAll registrar registrations host = (.ok (), after)) :
    SucceedAll registrar host.registry registrations after.registry := by
  induction registrations generalizing host with
  | nil =>
      obtain ⟨-, rfl⟩ := Prod.mk.inj ran
      exact .nil host.registry
  | cons registration rest inductionHypothesis =>
      rw [runAll] at ran
      split at ran
      · cases ran
      · rename_i next succeeded
        exact .cons (succeeds_of_run succeeded) (inductionHypothesis ran)

end Registration
end Interposition
