import Interposition.Session.Run
/-!
Takeovers in a session.

A session clears the surface of a target, carries out the steps of the registration and
reports, and keeps the replies to the steps on the way.  On the host this is a takeover whose
registration is what the steps do to the host (`Command.run_supersede`).  Steps that only call
the registrar are registrations with the handlers that their labels stand for
(`RegisterStep.runAll_of_resolved`), so that such a session does to the host what the takeover
with these registrations does (`Command.run_supersede_of_resolved`).
-/

namespace Interposition

/-- The session on another host. -/
def Session.withHost (session : Session) (host : Host) : Session :=
  session.setImage { session.image with host := host }

theorem Session.onHost_eq {α : Type} (operation : Host → α × Host) (session : Session) :
    session.onHost operation =
      ((operation session.host).1, session.withHost (operation session.host).2) := rfl

/-- What the steps of a registration do to a host, in a session. -/
def RegisterStep.onHost (steps : List RegisterStep) (session : Session) (registrar : Registrar)
    (host : Host) : Except TakeoverError Unit × Host :=
  let ((_, verdict), session) := runAll registrar steps (session.withHost host)
  (verdict, session.host)

/-- A takeover in a session is a takeover on its host. -/
theorem Command.run_supersede (target? : Option Owner) (successor : Owner) (marker : Name)
    (steps : List RegisterStep) (session : Session) :
    let takeover : Takeover := ⟨session.deny, successor, target?, marker⟩
    let result := takeover.supersede (RegisterStep.onHost steps session) session.host
    ∃ replies,
      (run (.supersede target? successor marker steps) session).1 = .takeover replies result.1 ∧
        (run (.supersede target? successor marker steps) session).2.host = result.2 := by
  intro takeover result
  simp only [run, Session.onHost_eq, result, Takeover.supersede]
  cases cleared : takeover.clear session.host with
  | mk answer host =>
      cases answer with
      | error error => exact ⟨[], rfl, rfl⟩
      | ok evicted =>
          simp only [RegisterStep.onHost]
          cases registered :
              RegisterStep.runAll takeover.registrar steps (session.withHost host) with
          | mk outcome after =>
              obtain ⟨replies, verdict⟩ := outcome
              cases verdict with
              | error error => exact ⟨replies, rfl, rfl⟩
              | ok => exact ⟨replies, rfl, rfl⟩

/-- The registration that a command to a registrar asks for, with the handler that its label
stands for.  Other commands to a registrar are no registrations. -/
def RegistrarAction.resolve? (handlers : OrderedMap Label Handler) :
    RegistrarAction → Option Registration
  | .function name label => (handlers.get? label).map (.function name)
  | .hook name label _ => (handlers.get? label).map (.hook name)
  | .constant name value flags => some (.constant name value flags)
  | .type name => some (.type name)
  | .owner | .hookBatch _ | .loadOrder _ => none

theorem RegistrarAction.verdict_settle {α : Type} (view : α → Reply)
    (result : Except TakeoverError α) : (settle view result).2 = result.map fun _ => () := by
  cases result <;> rfl

@[simp] theorem Session.host_save (slot? : Option Label) (handler? : Option Handler)
    (session : Session) : (session.save slot? handler?).host = session.host := by
  cases slot? <;> cases handler? <;> rfl

@[simp] theorem Session.handlers_save (slot? : Option Label) (handler? : Option Handler)
    (session : Session) : (session.save slot? handler?).handlers = session.handlers := by
  cases slot? <;> cases handler? <;> rfl

/-- What a registrar's command did in a session: it came to the same verdict as a registration
and made the same of the host, and the labels stand for what they stood for. -/
structure Session.Registered (before : Session) (registrar : Registrar)
    (registration : Registration) (verdict : Except TakeoverError Unit) (after : Session) :
    Prop where
  verdict : verdict = (registration.run registrar before.host).1
  host : after.host = (registration.run registrar before.host).2
  handlers : after.handlers = before.handlers

theorem Session.registered_run {session : Session} {action : RegistrarAction}
    {registration : Registration} (registrar : Registrar)
    (resolved : action.resolve? session.handlers = some registration) :
    session.Registered registrar registration (action.run registrar session).1.2
      (action.run registrar session).2 := by
  cases action with
  | function name label =>
      obtain ⟨handler, found, rfl⟩ := Option.map_eq_some_iff.mp resolved
      simp only [RegistrarAction.run, found, onHost_eq, RegistrarAction.verdict_settle]
      exact ⟨rfl, rfl, rfl⟩
  | hook name label slot? =>
      obtain ⟨handler, found, rfl⟩ := Option.map_eq_some_iff.mp resolved
      have hooked : registrar.hook name handler session.host =
          session.host.hook registrar.deny name handler registrar.owner := rfl
      simp only [RegistrarAction.run, found, hookSaving, onHost_eq, RegistrarAction.verdict_settle]
      cases did : session.host.hook registrar.deny name handler registrar.owner with
      | mk outcome host =>
          rw [did] at hooked
          have runs : (Registration.hook name handler).run registrar session.host =
              ((outcome.mapError .hook).map fun _ => (), host) := by
            rw [Registration.run, hooked]
          constructor
          · rw [runs]
            cases outcome <;> rfl
          · rw [runs]
            cases outcome with
            | error error => rfl
            | ok outcome => exact Session.host_save _ _ _
          · cases outcome with
            | error error => rfl
            | ok outcome => exact Session.handlers_save _ _ _
  | constant name value flags =>
      cases resolved
      exact ⟨rfl, rfl, rfl⟩
  | type name =>
      cases resolved
      simp only [RegistrarAction.run, onHost_eq, RegistrarAction.verdict_settle]
      exact ⟨rfl, rfl, rfl⟩
  | owner | hookBatch hooks | loadOrder marker => cases resolved

/-- Steps that are registrations come to the same verdict as these registrations, and make the
same of the host. -/
theorem RegisterStep.runAll_of_resolved {handlers : OrderedMap Label Handler}
    {actions : List RegistrarAction} {registrations : List Registration} (registrar : Registrar)
    (resolved : actions.mapM (·.resolve? handlers) = some registrations) (session : Session)
    (known : session.handlers = handlers) :
    let result := runAll registrar (actions.map (.registrar · false)) session
    let registered := Registration.runAll registrar registrations session.host
    result.1.2 = registered.1 ∧ result.2.host = registered.2 := by
  induction actions generalizing registrations session with
  | nil =>
      cases resolved
      exact ⟨rfl, rfl⟩
  | cons action rest inductionHypothesis =>
      simp only [List.mapM_cons, Option.bind_eq_bind, Option.bind_eq_some_iff, Option.pure_def,
        Option.some.injEq] at resolved
      obtain ⟨registration, first, others, later, rfl⟩ := resolved
      obtain ⟨verdict, host, handlersKept⟩ :=
        Session.registered_run registrar (known.symm ▸ first)
      -- The labels still stand for their handlers when the other commands are carried out.
      simp only [List.map_cons, runAll, Registration.runAll]
      cases did : action.run registrar session with
      | mk outcome after =>
          obtain ⟨reply, decision⟩ := outcome
          rw [did] at verdict host handlersKept
          cases registered : registration.run registrar session.host with
          | mk answer next =>
              rw [registered] at verdict host
              subst verdict
              have rest := inductionHypothesis later after (handlersKept.trans known)
              rw [host] at rest
              cases decision with
              | error error => exact ⟨rfl, host⟩
              | ok => exact rest

/-- A session whose registration only calls the registrar does to its host what a takeover with
these registrations does, and ends with the same report or error. -/
theorem Command.run_supersede_of_resolved (target? : Option Owner) (successor : Owner)
    (marker : Name) {session : Session} {actions : List RegistrarAction}
    {registrations : List Registration}
    (resolved : actions.mapM (·.resolve? session.handlers) = some registrations) :
    let takeover : Takeover := ⟨session.deny, successor, target?, marker⟩
    let command : Command :=
      .supersede target? successor marker (actions.map (.registrar · false))
    let result := takeover.supersede (Registration.runAll · registrations) session.host
    ∃ replies, (command.run session).1 = .takeover replies result.1 ∧
      (command.run session).2.host = result.2 := by
  intro takeover command result
  have same : RegisterStep.onHost (actions.map (.registrar · false)) session =
      (Registration.runAll · registrations) := by
    funext registrar host
    obtain ⟨verdict, after⟩ :=
      RegisterStep.runAll_of_resolved registrar resolved (session.withHost host) rfl
    exact Prod.ext verdict after
  have took := run_supersede target? successor marker (actions.map (.registrar · false)) session
  rw [same] at took
  exact took

end Interposition
