import Interposition.Proofs.Concurrent.Order
/-!
What a call has to blame others for.

A write loses an attempt because another call published its table after the attempt was
begun, and a hook starts over because another call registered its name after the hook had
not found it.  `Stage.Contends` says how far the losses and rounds of a call under way are
covered by calls that ended since it began.  Steps of the call keep this
(`Running.Counts.contends`), and so do calls of others that end (`Stage.Contends.cons`).
What follows for the call, whenever one looks at it, is `Contended`.
-/

namespace Interposition.Concurrent

variable {kind : Kind}

/-- The table that a call writes to, if any. -/
def Request.table? : Request → Option Kind
  | @Request.define kind _ => some kind
  | @Request.replace kind _ => some kind
  | .remove kind _ => some kind
  | .retain kind _ => some kind
  | .hook .. => some .callable
  | .read _ | .patch .. | .resolve _ => none

namespace Record

/-- Whether a finished call published a table: it put an entry in or handed one out. -/
def publishes (kind : Kind) (record : Record) : Bool :=
  !(record.added kind).isEmpty || !(record.answer.handedOut kind).isEmpty

/-- Whether a finished call put a callable with a name into the table. -/
def registers (name : Name) (record : Record) : Bool :=
  (record.added .callable).any fun entry => entry.name = name

/-- Whether a finished call took a callable with a name out of the table and put no other
one in its place. -/
def removes (name : Name) (record : Record) : Bool :=
  ((record.answer.handedOut .callable).any fun entry => entry.name = name) &&
    !record.registers name

/-- Whether another call ended while this one was under way. -/
def spans (record other : Record) : Bool :=
  record.began < other.ended && other.ended < record.ended

theorem publishes_iff {record : Record} {kind : Kind} :
    record.publishes kind = true ↔ record.added kind ≠ [] ∨ record.answer.handedOut kind ≠ [] := by
  simp [publishes]

theorem spans_iff {record other : Record} : record.spans other = true ↔
    record.began < other.ended ∧ other.ended < record.ended := by
  simp [spans]

end Record

/-- How often the table of callables holds a name. -/
def occupancy (registry : Registry) (name : Name) : Nat :=
  if registry.contains .callable name then 1 else 0

/-- That the lost attempts and the rounds of a call are covered by calls of others: each
lost attempt by a publication of the table, and each round of a hook by a registration of
the name and, but for one, by a removal. -/
structure Contended (request : Request) (others : List Record) (losses rounds : Nat) : Prop where
  lost : ∀ kind, request.table? = some kind → losses ≤ others.countP (·.publishes kind)
  /-- A call that writes to no table loses no attempt. -/
  silent : request.table? = none → losses = 0
  again : ∀ name handler owner, request = .hook name handler owner →
    rounds ≤ others.countP (·.registers name) ∧ rounds ≤ others.countP (·.removes name) + 1
  /-- Only hooks start over. -/
  steady : (∀ name handler owner, request ≠ .hook name handler owner) → rounds = 0

/-- How the lost attempts of a write are covered by calls that ended since it began.  Of
these, the ones that published since the attempt was begun are not used up yet. -/
def WriteStage.Contends (registry : Registry) (others : List Record) (losses : Nat) :
    WriteStage kind → Prop
  | .loading _ => losses ≤ others.countP (·.publishes kind)
  | .publishing _ loaded _ _ =>
      losses + (registry.current kind).version ≤
        loaded.version + others.countP (·.publishes kind)

/-- How the lost attempts and the rounds of a call are covered by calls that ended since it
began.  A hook that is about to install has not found the name, so that one registration is
left over if the name is there; one that is about to look the name up again may still have
the last of these registrations before it. -/
def Stage.Contends (registry : Registry) (others : List Record) (losses rounds : Nat) :
    Stage → Prop
  | .writing stage => stage.Contends registry others losses ∧ rounds = 0
  | .hooking name _ _ .looking =>
      losses ≤ others.countP (·.publishes .callable) ∧
        rounds ≤ others.countP (·.registers name) ∧
        rounds ≤ others.countP (·.removes name) + occupancy registry name
  | .hooking name _ _ (.exchanging _) =>
      losses ≤ others.countP (·.publishes .callable) ∧
        rounds ≤ others.countP (·.registers name) ∧
        rounds ≤ others.countP (·.removes name) + 1
  | .hooking name _ _ (.installing stage) =>
      stage.Contends registry others losses ∧
        rounds + occupancy registry name ≤ others.countP (·.registers name) ∧
        rounds ≤ others.countP (·.removes name)
  | .reading _ | .patching .. | .resolving .. => losses = 0 ∧ rounds = 0

theorem occupancy_le_one (registry : Registry) (name : Name) : occupancy registry name ≤ 1 := by
  rw [occupancy]
  split <;> omega

theorem occupancy_congr {first second : Registry}
    (tables : ∀ kind, second.current kind = first.current kind) (name : Name) :
    occupancy second name = occupancy first name := by
  rw [occupancy, occupancy, Registry.contains, Registry.contains, tables]

theorem Request.Writes.table?_eq {id : EntryId} {request : Request} {write : Write kind}
    (writes : request.Writes id write) : request.table? = some kind := by
  cases writes <;> rfl

/-- What is to be covered of a hook. -/
theorem Contended.of_hook {name : Name} {handler : Handler} {owner : Owner} {others : List Record}
    {losses rounds : Nat} (lost : losses ≤ others.countP (·.publishes .callable))
    (registered : rounds ≤ others.countP (·.registers name))
    (removed : rounds ≤ others.countP (·.removes name) + 1) :
    Contended (.hook name handler owner) others losses rounds where
  lost kind written := by
    cases written
    exact lost
  silent := nofun
  again other otherHandler otherOwner same := by
    cases same
    exact ⟨registered, removed⟩
  steady other := absurd rfl (other name handler owner)

theorem Contended.of_perm {request : Request} {others same : List Record} {losses rounds : Nat}
    (contended : Contended request others losses rounds) (perm : same.Perm others) :
    Contended request same losses rounds where
  lost kind written := perm.countP_eq _ ▸ contended.lost kind written
  silent := contended.silent
  again name handler owner hook := by
    rw [perm.countP_eq, perm.countP_eq]
    exact contended.again name handler owner hook
  steady := contended.steady

theorem Contended.losses_le_length {request : Request} {others : List Record}
    {losses rounds : Nat} (contended : Contended request others losses rounds) :
    losses ≤ others.length := by
  cases written : request.table? with
  | none => exact contended.silent written ▸ Nat.zero_le _
  | some kind => exact Nat.le_trans (contended.lost kind written) List.countP_le_length

theorem Contended.rounds_le_length {request : Request} {others : List Record}
    {losses rounds : Nat} (contended : Contended request others losses rounds) :
    rounds ≤ others.length := by
  by_cases hook : ∃ name handler owner, request = .hook name handler owner
  · obtain ⟨name, handler, owner, hook⟩ := hook
    exact Nat.le_trans (contended.again name handler owner hook).1 List.countP_le_length
  · have none := contended.steady fun name handler owner same =>
      hook ⟨name, handler, owner, same⟩
    exact none ▸ Nat.zero_le _

/-- A call that begins has lost nothing yet. -/
theorem Request.contends_start (id : EntryId) (request : Request) (first second : Registry)
    (others : List Record) : (request.start id first).1.Contends second others 0 0 := by
  cases request with
  | define | replace | remove | retain => exact ⟨Nat.zero_le _, rfl⟩
  | hook name handler owner => exact ⟨Nat.zero_le _, Nat.zero_le _, Nat.zero_le _⟩
  | read | patch | resolve => exact ⟨rfl, rfl⟩

/-- What the end of a call does to the tables, in numbers. -/
structure Record.Affects (record : Record) (before after : Registry) : Prop where
  version : ∀ kind, (after.current kind).version =
    (before.current kind).version + if record.publishes kind then 1 else 0
  /-- A name that is there and was not was registered. -/
  appears : ∀ name, occupancy after name ≤
    occupancy before name + if record.registers name then 1 else 0
  /-- A name that was there and is not was removed. -/
  vanishes : ∀ name, occupancy before name ≤
    occupancy after name + if record.removes name then 1 else 0

section Finish

variable {deny : DenyList} {id : EntryId} {registry next : Registry} {request : Request}
  {answer : Answer}

theorem contains_iff_exists (wellFormed : registry.WellFormed) {name : Name} :
    registry.contains kind name = true ↔
      ∃ entry ∈ (registry.current kind).toList, entry.name = name := by
  constructor
  · intro taken
    obtain ⟨entry, found⟩ := Option.isSome_iff_exists.mp taken
    exact ⟨entry, EntryMap.mem_values_of_get? found, wellFormed.name_eq found⟩
  · rintro ⟨entry, member, rfl⟩
    have bound := (wellFormed.sound kind).get?_name member
    exact Option.isSome_iff_exists.mpr ⟨entry, bound⟩

/-- A call publishes the table that it writes to, and no other one. -/
theorem Stage.table?_of_publishes {stage : Stage}
    (pursues : stage.Pursues deny id registry request)
    (stepped : stage.step deny id registry = (.finished answer, next))
    (publishes : request.added kind id answer ≠ [] ∨ answer.handedOut kind ≠ []) :
    request.table? = some kind := by
  rcases publishes with adds | removes
  · have single {other : Kind} {entry : Entry other} (some : ofKind kind [entry] ≠ []) :
        other = kind := by
      by_contra different
      exact some (ofKind_of_ne different _)
    unfold Request.added at adds
    split at adds
    · rw [Request.table?, single adds]
    · rw [Request.table?, single adds]
    · rw [Request.table?, @single .callable _ adds]
    · exact absurd rfl adds
  · obtain ⟨entry, handedOut⟩ := List.exists_mem_of_ne_nil _ removes
    obtain ⟨write, writes, -⟩ := Stage.exists_removals pursues stepped handedOut
    exact writes.table?_eq

/-- The version of a table counts the calls that publish it. -/
theorem Stage.Pursued.version_eq
    (pursued : Stage.Pursued deny id registry request (.finished answer) next) {record : Record}
    (added : ∀ kind, record.added kind = request.added kind id answer)
    (answered : record.answer = answer) (kind : Kind) :
    (next.current kind).version =
      (registry.current kind).version + if record.publishes kind then 1 else 0 := by
  rw [Record.publishes, added, answered]
  cases pursued with
  | onward goes => cases goes
  | silent nothing tables fresh =>
      rw [(nothing kind).1, (nothing kind).2, tables]
      rfl
  | @published other write entries given answer edited offers handedOut takenIn allowed =>
      rw [handedOut, takenIn]
      by_cases same : other = kind
      · subst same
        rw [ofKind_self, ofKind_self, Registry.current_publish]
        rcases Write.offer_or_removals_of_edit edited with offer | removals
        · simp [offer]
        · simp [removals]
      · rw [ofKind_of_ne same, ofKind_of_ne same,
          Registry.current_publish_of_ne registry entries (Ne.symm same)]
        rfl

/-- The end of a call changes versions and names as its record says. -/
theorem Stage.Pursued.affects
    (pursued : Stage.Pursued deny id registry request (.finished answer) next)
    (wellFormed : registry.WellFormed) (after : next.WellFormed) {record : Record}
    (added : ∀ kind, record.added kind = request.added kind id answer)
    (answered : record.answer = answer) : record.Affects registry next where
  version := pursued.version_eq added answered
  appears name := by
    rw [occupancy, occupancy]
    by_cases there : next.contains .callable name = true
    · obtain ⟨entry, member, named⟩ := (contains_iff_exists after).mp there
      have source := (pursued.exchange wellFormed .callable).subset
        (List.mem_append_left _ member)
      rcases List.mem_append.mp source with old | new
      · rw [if_pos there, if_pos ((contains_iff_exists wellFormed).mpr ⟨entry, old, named⟩)]
        exact Nat.le_add_right _ _
      · have registers : record.registers name = true :=
          List.any_eq_true.mpr ⟨entry, added .callable ▸ new, decide_eq_true named⟩
        rw [if_pos there, if_pos registers]
        exact Nat.le_add_left _ _
    · rw [if_neg there]
      exact Nat.zero_le _
  vanishes name := by
    rw [occupancy, occupancy]
    by_cases there : next.contains .callable name = true
    · rw [if_pos there]
      exact Nat.le_trans (occupancy_le_one registry name) (Nat.le_add_right _ _)
    by_cases was : registry.contains .callable name = true
    · -- What bore the name is not in the table any more, and nothing else bears it.
      have none {entry : Callable} (member : entry ∈ (next.current .callable).toList) :
          entry.name ≠ name :=
        fun named => there ((contains_iff_exists after).mpr ⟨entry, member, named⟩)
      obtain ⟨entry, member, named⟩ := (contains_iff_exists wellFormed).mp was
      have place := (pursued.exchange wellFormed .callable).symm.subset
        (List.mem_append_left _ member)
      obtain ⟨⟨kept, table, -⟩, -⟩ := pursued.exists_toList .callable
      have registers : record.registers name = false := by
        refine Bool.eq_false_iff.mpr fun registered => ?_
        obtain ⟨other, inAdded, bears⟩ := List.any_eq_true.mp registered
        refine none ?_ (of_decide_eq_true bears)
        rw [table, ← added]
        exact List.mem_append_right _ inAdded
      have removes : record.removes name = true := by
        rcases List.mem_append.mp place with present | out
        · exact absurd named (none present)
        · rw [Record.removes, registers, answered]
          have gone : (answer.handedOut .callable).any (fun entry => entry.name = name) = true :=
            List.any_eq_true.mpr ⟨entry, out, decide_eq_true named⟩
          rw [gone]
          rfl
      rw [if_pos was, if_pos removes]
      exact Nat.le_add_left _ _
    · rw [if_neg was]
      exact Nat.zero_le _

end Finish

section Others

variable {registry next : Registry} {others : List Record} {record : Record} {losses rounds : Nat}

/-- A write is covered as before when another call ends. -/
theorem WriteStage.Contends.cons {stage : WriteStage kind}
    (contends : stage.Contends registry others losses) (affects : record.Affects registry next) :
    stage.Contends next (record :: others) losses := by
  have version := affects.version kind
  cases stage with
  | loading write =>
      simp only [Contends, List.countP_cons] at contends ⊢
      omega
  | publishing write loaded entries answer =>
      simp only [Contends, List.countP_cons] at contends ⊢
      omega

/-- A call is covered as before when another call ends. -/
theorem Stage.Contends.cons {stage : Stage}
    (contends : stage.Contends registry others losses rounds)
    (affects : record.Affects registry next) :
    stage.Contends next (record :: others) losses rounds := by
  cases stage with
  | writing stage => exact ⟨contends.1.cons affects, contends.2⟩
  | hooking name handler owner stage =>
      have appears := affects.appears name
      have vanishes := affects.vanishes name
      cases stage with
      | looking | exchanging entry =>
          simp only [Contends, List.countP_cons] at contends ⊢
          omega
      | installing stage =>
          obtain ⟨write, registered, removed⟩ := contends
          refine ⟨write.cons affects, ?_, ?_⟩
          · rw [List.countP_cons]
            omega
          · rw [List.countP_cons]
            omega
  | reading | patching | resolving => exact contends

end Others

section Step

variable {deny : DenyList} {id : EntryId} {registry next : Registry} {others : List Record}
  {losses rounds : Nat}

theorem Stage.Contends.congr {stage : Stage}
    (contends : stage.Contends registry others losses rounds)
    (tables : ∀ kind, next.current kind = registry.current kind) {same : List Record}
    (perm : same.Perm others) : stage.Contends next same losses rounds := by
  have counts (test : Record → Bool) : same.countP test = others.countP test := perm.countP_eq test
  have there := occupancy_congr tables
  have writes {kind : Kind} {stage : WriteStage kind}
      (contends : stage.Contends registry others losses) : stage.Contends next same losses := by
    cases stage with
    | loading write => simpa only [WriteStage.Contends, counts] using contends
    | publishing write loaded entries answer =>
        simpa only [WriteStage.Contends, counts, tables] using contends
  cases stage with
  | writing stage => exact ⟨writes contends.1, contends.2⟩
  | hooking name handler owner stage =>
      cases stage with
      | looking | exchanging entry => simpa only [Contends, counts, there] using contends
      | installing stage =>
          obtain ⟨write, registered, removed⟩ := contends
          rw [Contends, counts, counts, there]
          exact ⟨writes write, registered, removed⟩
  | reading | patching | resolving => exact contends

/-- An attempt is lost only after another call published the table. -/
theorem version_lt_of_lost {loaded : Snapshot kind} {entries : EntryMap kind}
    (past : WasCurrent registry loaded) (lost : registry.compareAndSwap loaded entries = none) :
    loaded.version < (registry.current kind).version := by
  rcases past with rfl | older
  · rw [Registry.compareAndSwap, Snapshot.isSame, beq_self_eq_true, if_pos rfl] at lost
    cases lost
  · exact older

theorem WasCurrent.version_le {loaded : Snapshot kind} (past : WasCurrent registry loaded) :
    loaded.version ≤ (registry.current kind).version := by
  rcases past with rfl | older
  · exact Nat.le_refl _
  · exact Nat.le_of_lt older

/-- Whatever a write lost so far is covered by publications of its table. -/
theorem WriteStage.Contends.losses_le {stage : WriteStage kind} {write : Write kind}
    (contends : stage.Contends registry others losses) (stands : stage.StandsAt registry write) :
    losses ≤ others.countP (·.publishes kind) := by
  cases stands with
  | loading => exact contends
  | publishing edited past =>
      have older := past.version_le
      simp only [Contends] at contends
      omega

/-- A write that loaded a snapshot has nothing left over yet. -/
theorem WriteStage.contends_of_ongoing {stage after : WriteStage kind} {write : Write kind}
    (stands : stage.StandsAt registry write) (contends : stage.Contends registry others losses)
    (stepped : stage.step registry = (.ongoing after, next)) :
    after.Contends registry others losses := by
  cases stands with
  | loading =>
      rw [WriteStage.step] at stepped
      split at stepped <;> cases stepped
      rw [Contends, Nat.add_comm]
      exact Nat.add_le_add_left contends _
  | publishing edited past =>
      rw [WriteStage.step] at stepped
      split at stepped <;> cases stepped

/-- A lost attempt uses up a publication that came since the attempt was begun. -/
theorem WriteStage.contends_of_lost {stage after : WriteStage kind} {write : Write kind}
    (stands : stage.StandsAt registry write) (contends : stage.Contends registry others losses)
    (stepped : stage.step registry = (.lost after, next)) :
    after.Contends registry others (losses + 1) := by
  cases stands with
  | loading =>
      rw [WriteStage.step] at stepped
      split at stepped <;> cases stepped
  | publishing edited past =>
      rw [WriteStage.step] at stepped
      split at stepped
      · cases stepped
      · rename_i failed
        cases stepped
        have older := version_lt_of_lost past failed
        simp only [Contends] at contends ⊢
        omega

/-- An insertion is refused only if its name is taken. -/
theorem WriteStage.contains_of_refused {stage : WriteStage kind} {entry : Entry kind}
    (stands : stage.StandsAt registry (.insert entry)) {error : RegistryError}
    (refused : stage.step registry = (.finished (.inserted (.error error)), next)) :
    registry.contains kind entry.name = true := by
  cases WriteStage.moved_of_step stands refused with
  | kept edited =>
      rw [Write.edit, Edit.insert] at edited
      split at edited
      · rename_i taken
        exact taken
      · cases edited
  | published edited =>
      rw [Write.edit, Edit.insert] at edited
      split at edited <;> cases edited

/-- How a call that goes on counts what its last step came to. -/
inductive Running.Counts (running : Running) : Progress → Running → Prop where
  | ongoing (stage : Stage) :
      Counts running (.ongoing stage) { running with stage := stage }
  | lost (stage : Stage) :
      Counts running (.lost stage) { running with stage := stage, losses := running.losses + 1 }
  | again (stage : Stage) :
      Counts running (.again stage) { running with stage := stage, rounds := running.rounds + 1 }

/-- Each step of a call keeps what it counts covered. -/
theorem Running.Counts.contends {running again : Running} {progress : Progress}
    (counts : running.Counts progress again)
    (pursues : running.stage.Pursues deny running.offered registry running.request)
    (contends : running.stage.Contends registry others running.losses running.rounds)
    (stepped : running.stage.step deny running.offered registry = (progress, next)) :
    again.stage.Contends registry others again.losses again.rounds := by
  obtain ⟨request, offered, began, stage, losses, rounds⟩ := running
  dsimp only at pursues contends stepped
  cases pursues with
  | @writing kind request write stage writes stands =>
      obtain ⟨covered, steady⟩ := contends
      rw [Stage.step] at stepped
      split at stepped <;> rename_i result <;> cases stepped <;> cases counts
      · exact ⟨WriteStage.contends_of_ongoing stands covered result, steady⟩
      · exact ⟨WriteStage.contends_of_lost stands covered result, steady⟩
  | reading kind =>
      cases stepped
      cases counts
  | looking name handler owner =>
      obtain ⟨covered, registered, removed⟩ := contends
      rw [Stage.step, HookStage.step] at stepped
      split at stepped
      · cases stepped
        cases counts
        exact ⟨covered, registered,
          Nat.le_trans removed (Nat.add_le_add_left (occupancy_le_one registry name) _)⟩
      · rename_i absent
        have none : occupancy registry name = 0 := by
          rw [occupancy, Registry.contains_eq_false_iff.mpr absent]
          rfl
        rw [none] at removed
        split at stepped <;> cases stepped <;> cases counts
        refine ⟨covered, ?_, removed⟩
        rw [none]
        exact registered
  | exchanging name handler owner entry =>
      cases stepped
      cases counts
  | @installing name handler owner stage allowed stands =>
      obtain ⟨covered, registered, removed⟩ := contends
      rw [Stage.step, HookStage.step] at stepped
      split at stepped <;> rename_i result <;> cases stepped <;> cases counts
      · exact ⟨WriteStage.contends_of_ongoing stands covered result, registered, removed⟩
      · exact ⟨WriteStage.contends_of_lost stands covered result, registered, removed⟩
      · have taken := WriteStage.contains_of_refused stands result
        have there : occupancy registry name = 1 := if_pos taken
        rw [there] at registered
        refine ⟨covered.losses_le stands, registered, ?_⟩
        rw [there]
        exact Nat.succ_le_succ removed
  | patching name handler found? =>
      cases found? with
      | none =>
          rw [Stage.step] at stepped
          split at stepped <;> cases stepped <;> cases counts
          exact contends
      | some entry =>
          cases stepped
          cases counts
  | resolving name found? =>
      cases found? with
      | none =>
          rw [Stage.step] at stepped
          split at stepped <;> cases stepped <;> cases counts
          exact contends
      | some entry =>
          cases stepped
          cases counts

/-- Whatever a call under way lost so far is covered by what others did since it began. -/
theorem Stage.Contends.contended {stage : Stage} {request : Request}
    (contends : stage.Contends registry others losses rounds)
    (pursues : stage.Pursues deny id registry request) :
    Contended request others losses rounds := by
  cases pursues with
  | writing writes stands =>
      refine ⟨fun kind written => ?_, fun none => ?_, fun name handler owner hook => ?_,
        fun _ => contends.2⟩
      · rw [writes.table?_eq] at written
        cases written
        exact contends.1.losses_le stands
      · rw [writes.table?_eq] at none
        cases none
      · subst hook
        cases writes
  | looking name handler owner =>
      obtain ⟨covered, registered, removed⟩ := contends
      have once := occupancy_le_one registry name
      exact .of_hook covered registered (by omega)
  | exchanging name handler owner entry =>
      obtain ⟨covered, registered, removed⟩ := contends
      exact .of_hook covered registered removed
  | installing allowed stands =>
      obtain ⟨covered, registered, removed⟩ := contends
      exact .of_hook (covered.losses_le stands) (by omega) (by omega)
  | reading | patching | resolving =>
      exact ⟨nofun, fun _ => contends.1, nofun, fun _ => contends.2⟩

end Step

end Interposition.Concurrent
