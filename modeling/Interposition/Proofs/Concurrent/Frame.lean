import Interposition.Proofs.Concurrent.Outcome
/-!
Dispatch targets that a call does not touch.

A call reads and writes the dispatch target of the callable that its name is
bound to, and it writes the target of the entry that it offers.  All other
targets are its frame.  `Outcome.retarget` says that the frame may be changed
before the call or after it, which comes to the same.  `Outcome.agrees` says
that registries with the same tables and the same targets, as far as the
targets matter, stay so.
-/

namespace Interposition.Concurrent

/-- Two registries with the same tables and the same dispatch targets of known
identities. -/
structure Agree (known : EntryId → Prop) (first second : Registry) : Prop where
  current : ∀ kind, first.current kind = second.current kind
  targets : ∀ id, known id → first.targets id = second.targets id

theorem Agree.symm {known : EntryId → Prop} {first second : Registry}
    (agree : Agree known first second) : Agree known second first :=
  ⟨fun kind => (agree.current kind).symm, fun id isKnown => (agree.targets id isKnown).symm⟩

theorem Agree.get? {known : EntryId → Prop} {first second : Registry}
    (agree : Agree known first second) (kind : Kind) (name : Name) :
    first.get? kind name = second.get? kind name := by
  rw [Registry.get?, Registry.get?, agree.current]

theorem Agree.retarget {known : EntryId → Prop} {first second : Registry}
    (agree : Agree known first second) (id : EntryId) (handler : Handler) :
    Agree known (first.retarget id handler) (second.retarget id handler) where
  current kind := by
    rw [Registry.current_retarget, Registry.current_retarget]
    exact agree.current kind
  targets other isKnown := by
    by_cases equal : other = id
    · rw [equal, Registry.targets_retarget_self, Registry.targets_retarget_self]
    · rw [Registry.targets_retarget_of_ne first id handler equal,
        Registry.targets_retarget_of_ne second id handler equal]
      exact agree.targets other isKnown

theorem Agree.publish {known : EntryId → Prop} {first second : Registry}
    (agree : Agree known first second) {kind : Kind} (next : EntryMap kind) :
    Agree known (first.publish next) (second.publish next) where
  current := Registry.current_publish_congr next agree.current
  targets id isKnown := by
    rw [Registry.targets_publish, Registry.targets_publish]
    exact agree.targets id isKnown

theorem Agree.mono {known fewer : EntryId → Prop} {first second : Registry}
    (agree : Agree known first second) (implies : ∀ id, fewer id → known id) :
    Agree fewer first second :=
  ⟨agree.current, fun id isKnown => agree.targets id (implies id isKnown)⟩

/-- A callable that a name is bound to has its identity in the table. -/
theorem mem_ids_of_get? {registry : Registry} {name : Name} {entry : Callable}
    (found : registry.get? .callable name = some entry) :
    entry.id ∈ EntryMap.ids (registry.current .callable).entries :=
  EntryMap.mem_ids_of_mem (EntryMap.mem_values_of_get? found)

theorem Request.Accesses.not_isTableCall {request : Request} {name : Name}
    {current next : Handler} {answer : Answer}
    (accesses : request.Accesses name current answer next) : ¬request.IsTableCall := by
  cases accesses <;> exact id

theorem Request.Accesses.not_adds {request : Request} {name : Name} {current next : Handler}
    {answer : Answer} {kind : Kind} (accesses : request.Accesses name current answer next) :
    ¬answer.Adds kind := by
  intro adds
  cases accesses <;> cases adds

section Offered

variable {id : EntryId} {request : Request}

/-- Preparing a call keeps agreement on any target. -/
theorem Request.targets_prepare_congr (id : EntryId) (request : Request)
    {first second : Registry} {other : EntryId}
    (same : first.targets other = second.targets other) :
    (request.prepare id first).targets other = (request.prepare id second).targets other := by
  by_cases equal : other = id
  · rw [prepare_eq, prepare_eq]
    split
    · exact same
    · rw [equal, Registry.targets_retarget_self, Registry.targets_retarget_self]
  · rw [Request.targets_prepare_of_ne id request first equal,
      Request.targets_prepare_of_ne id request second equal]
    exact same

/-- A callable that is put into its table has its target from the call that
offers it. -/
theorem Request.Writes.targets_prepare {write : Write .callable}
    {entries next : EntryMap .callable} {answer : WriteAnswer .callable}
    (writes : request.Writes id write)
    (published : Write.Published entries write next answer) (adds : answer.Adds)
    (first second : Registry) :
    (request.prepare id first).targets id = (request.prepare id second).targets id := by
  have bound : ∀ draft : Draft .callable,
      (first.bindTarget draft id).targets id = (second.bindTarget draft id).targets id := by
    rintro ⟨⟩
    exact (Registry.targets_retarget_self first id _).trans
      (Registry.targets_retarget_self second id _).symm
  cases published with
  | inserted free =>
      cases writes with
      | define draft => exact bound draft
  | replaced entry =>
      cases writes with
      | replace draft => exact bound draft
  | removed found => exact adds.elim
  | retained matched => exact adds.elim

theorem Write.Kept.not_adds {kind : Kind} {entries : EntryMap kind} {write : Write kind}
    {answer : WriteAnswer kind} (kept : Write.Kept entries write answer) : ¬answer.Adds := by
  cases kept <;> exact fun adds => adds

end Offered

namespace Outcome

variable {deny : DenyList} {id : EntryId} {registry next : Registry} {request : Request}
  {answer : Answer} {other : EntryId}

/-- A dispatch target that the call does not touch stays as it is. -/
theorem targets_next (outcome : Outcome deny id registry request answer next)
    (apart : other ≠ id)
    (quiet : request.IsTableCall ∨
      other ∉ EntryMap.ids (registry.current .callable).entries) :
    next.targets other = registry.targets other := by
  cases outcome with
  | kept => exact Request.targets_prepare_of_ne id request registry apart
  | published =>
      rw [Registry.targets_publish]
      exact Request.targets_prepare_of_ne id request registry apart
  | read => rfl
  | accessed found accesses =>
      apply Registry.targets_retarget_of_ne
      rintro rfl
      rcases quiet with tableCall | unbound
      · exact accesses.not_isTableCall tableCall
      · exact unbound (mem_ids_of_get? found)
  | missed => rfl
  | installed =>
      rw [Registry.targets_publish]
      exact Registry.targets_retarget_of_ne registry id _ apart

/-- Such a target may as well be changed before the call. -/
theorem retarget (outcome : Outcome deny id registry request answer next)
    (apart : other ≠ id)
    (quiet : request.IsTableCall ∨
      other ∉ EntryMap.ids (registry.current .callable).entries)
    (handler : Handler) :
    Outcome deny id (registry.retarget other handler) request answer
      (next.retarget other handler) := by
  have current := Registry.current_retarget registry other handler
  cases outcome with
  | kept writes kept =>
      rw [← Request.prepare_retarget id request registry apart]
      apply Outcome.kept writes
      rwa [current]
  | published writes published =>
      rw [← Registry.publish_retarget, ← Request.prepare_retarget id request registry apart]
      apply Outcome.published writes
      rwa [current]
  | read kind =>
      rw [← current kind]
      exact Outcome.read kind
  | @accessed _ name entry _ left found accesses =>
      have different : other ≠ entry.id := by
        rintro rfl
        rcases quiet with tableCall | unbound
        · exact accesses.not_isTableCall tableCall
        · exact unbound (mem_ids_of_get? found)
      rw [Registry.retarget_comm registry other handler different.symm]
      have sameTarget : (registry.retarget other handler).target entry =
          registry.target entry :=
        Registry.targets_retarget_of_ne registry other handler different.symm
      have sameFound : (registry.retarget other handler).get? .callable name = some entry := by
        rw [Registry.get?_retarget]
        exact found
      apply Outcome.accessed sameFound
      rwa [sameTarget]
  | missed absent misses =>
      apply Outcome.missed _ misses
      rw [Registry.get?_retarget]
      exact absent
  | installed allowed published =>
      rw [← Registry.publish_retarget, Registry.retarget_comm registry other handler apart.symm]
      apply Outcome.installed allowed
      rwa [current]

/-- On registries that agree on the callables in the table, a call gives the
same answer, and they agree afterwards, also on a callable that came in. -/
theorem agrees {known : EntryId → Prop} {second : Registry}
    (outcome : Outcome deny id registry request answer next)
    (agree : Agree known registry second)
    (live : ∀ other ∈ EntryMap.ids (registry.current .callable).entries, known other) :
    ∃ after, Outcome deny id second request answer after ∧
      Agree (fun other => known other ∨ (other = id ∧ answer.Adds .callable)) next after := by
  have prepared : Agree known (request.prepare id registry) (request.prepare id second) :=
    { current := by
        intro kind
        rw [Request.current_prepare, Request.current_prepare]
        exact agree.current kind
      targets := fun other isKnown =>
        Request.targets_prepare_congr id request (agree.targets other isKnown) }
  cases outcome with
  | kept writes kept =>
      refine ⟨_, .kept writes (agree.current _ ▸ kept), prepared.mono ?_⟩
      rintro other (isKnown | ⟨-, ⟨adds⟩⟩)
      · exact isKnown
      · exact absurd adds kept.not_adds
  | published writes published =>
      refine ⟨_, .published writes (agree.current _ ▸ published), ?_⟩
      refine ⟨(prepared.publish _).current, ?_⟩
      rintro other (isKnown | ⟨rfl, ⟨adds⟩⟩)
      · exact (prepared.publish _).targets other isKnown
      · rw [Registry.targets_publish, Registry.targets_publish]
        exact writes.targets_prepare published adds registry second
  | read kind =>
      refine ⟨second, agree.current kind ▸ .read kind, agree.mono ?_⟩
      rintro other (isKnown | ⟨-, ⟨⟩⟩)
      exact isKnown
  | @accessed _ name entry _ left found accesses =>
      have isKnown := live entry.id (mem_ids_of_get? found)
      have sameTarget : registry.target entry = second.target entry :=
        agree.targets entry.id isKnown
      refine ⟨second.retarget entry.id left,
        .accessed (agree.get? .callable name ▸ found) (sameTarget ▸ accesses),
        (agree.retarget entry.id left).mono ?_⟩
      rintro other (isKnown | ⟨-, adds⟩)
      · exact isKnown
      · exact absurd adds accesses.not_adds
  | @missed _ name _ absent misses =>
      refine ⟨second, .missed (agree.get? .callable name ▸ absent) misses, agree.mono ?_⟩
      rintro other (isKnown | ⟨-, adds⟩)
      · exact isKnown
      · cases misses <;> cases adds
  | @installed _ handler _ entries _ allowed published =>
      refine ⟨_, .installed allowed (agree.current _ ▸ published),
        ((agree.retarget id handler).publish entries).current, ?_⟩
      rintro other (isKnown | ⟨rfl, -⟩)
      · exact ((agree.retarget id handler).publish entries).targets other isKnown
      · rw [Registry.targets_publish, Registry.targets_publish,
          Registry.targets_retarget_self, Registry.targets_retarget_self]

end Outcome
end Interposition.Concurrent
