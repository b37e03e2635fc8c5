import Interposition.Concurrent.Trial
import Interposition.Proofs.Concurrent.Handlers
/-!
Who installs a callable.

If a name is bound to no callable, the first hook on it that is allowed installs
one, and the hooks after it find it.  As long as nobody else binds the name and
nobody removes the callable, no other hook installs one.
-/

namespace Interposition.Concurrent

/-- Whether a call hooks a name. -/
def Request.hooks (name : Name) : Request → Bool
  | .hook other _ _ => other == name
  | _ => false

/-- Whether a call defines a callable with a name. -/
def Request.defines (name : Name) : Request → Bool
  | .define (.callable other _ _ _) | .replace (.callable other _ _ _) => other == name
  | _ => false

/-- Whether a finished call is a hook that installed a callable with a name. -/
def Record.installs (name : Name) (record : Record) : Bool :=
  record.request.hooks name && Trial.isInstalled record.answer

variable {deny : DenyList} {name : Name}

/-- A name that is bound to nothing is bound to nothing in a part of the table. -/
theorem get?_part_eq_none {kind : Kind} {entries : EntryMap kind}
    (absent : entries.get? name = none) (test : Name × Entry kind → Bool) :
    (entries.part test).get? name = none := by
  rw [OrderedMap.get?_eq_none_iff] at absent ⊢
  intro member
  exact absent ((List.filter_sublist.map _).subset member)

/-- Only the names of offered entries come to be bound. -/
theorem Write.Published.get?_eq_none {kind : Kind} {entries next : EntryMap kind}
    {write : Write kind} {answer : WriteAnswer kind}
    (published : Write.Published entries write next answer) (absent : entries.get? name = none)
    (others : ∀ entry ∈ write.offer, entry.name ≠ name) : next.get? name = none := by
  cases published with
  | @inserted entry free =>
      rw [OrderedMap.get?_append_of_ne _ (others entry List.mem_cons_self).symm]
      exact absent
  | replaced entry =>
      rw [OrderedMap.get?_append_of_ne _ (others entry List.mem_cons_self).symm]
      exact absent
  | removed found => exact get?_part_eq_none absent _
  | retained matched => exact get?_part_eq_none absent _

namespace Outcome

variable {id : EntryId} {registry next : Registry} {request : Request} {answer : Answer}

/-- A name that is bound to no callable stays so, unless the call defines it or
hooks it. -/
theorem get?_eq_none_next (outcome : Outcome deny id registry request answer next)
    (absent : registry.get? .callable name = none)
    (undefined : answer.isAccepted = true → request.defines name = false)
    (unhooked : request.hooks name = false) : next.get? .callable name = none := by
  cases outcome with
  | kept writes kept =>
      rw [Registry.get?, Request.current_prepare]
      exact absent
  | @published kind _ write entries written writes published =>
      by_cases callable : kind = .callable
      · subst callable
        rw [Registry.get?, Registry.current_publish]
        apply published.get?_eq_none absent
        intro entry offered
        cases published with
        | inserted free =>
            cases writes with
            | define draft =>
                cases draft with
                | callable other owner origin handler =>
                    rw [List.mem_singleton.mp offered]
                    simpa [Request.defines, Draft.entry, Draft.name] using undefined rfl
        | replaced added =>
            cases writes with
            | replace draft =>
                cases draft with
                | callable other owner origin handler =>
                    rw [List.mem_singleton.mp offered]
                    simpa [Request.defines, Draft.entry, Draft.name] using undefined rfl
        | removed found => cases offered
        | retained matched => cases offered
      · rw [Registry.get?, Registry.current_publish_of_ne _ _ (Ne.symm callable),
          Request.current_prepare]
        exact absent
  | read kind => exact absent
  | accessed found accesses =>
      rw [Registry.get?_retarget]
      exact absent
  | missed _ misses => exact absent
  | @installed other handler owner entries written allowed published =>
      rw [Registry.get?, Registry.current_publish]
      apply published.get?_eq_none absent
      intro entry offered
      rw [List.mem_singleton.mp offered]
      simpa [Request.hooks, installDraft, Draft.entry, Draft.name] using unhooked

/-- A callable in the table stays there, or the call hands it out. -/
theorem mem_or_evicted (outcome : Outcome deny id registry request answer next)
    (sound : EntryMap.Sound (registry.current .callable).entries) {entry : Callable}
    (member : entry ∈ (registry.current .callable).toList) :
    entry ∈ (next.current .callable).toList ∨ entry ∈ answer.evicted := by
  cases outcome with
  | kept writes kept =>
      rw [Request.current_prepare]
      exact Or.inl member
  | @published kind _ write entries written writes published =>
      by_cases callable : kind = .callable
      · subst callable
        rw [Registry.current_publish]
        have split := (published.values_perm sound.distinctKeys).symm.subset
          (List.mem_append_left _ member)
        exact List.mem_append.mp split
      · rw [Registry.current_publish_of_ne _ _ (Ne.symm callable), Request.current_prepare]
        exact Or.inl member
  | read kind => exact Or.inl member
  | accessed found accesses =>
      rw [Registry.current_retarget]
      exact Or.inl member
  | missed absent misses => exact Or.inl member
  | @installed _ _ _ entries written allowed published =>
      rw [Registry.current_publish]
      have split := (published.values_perm sound.distinctKeys).symm.subset
        (List.mem_append_left _ member)
      cases published with
      | inserted free =>
          rw [WriteAnswer.removals, List.append_nil] at split
          exact Or.inl split

/-- A name stays bound to its callable, if the call does not remove a callable
with that name. -/
theorem get?_eq_some_next (outcome : Outcome deny id registry request answer next)
    (sound : EntryMap.Sound (registry.current .callable).entries)
    (unused : id ∉ EntryMap.ids (registry.current .callable).entries) {entry : Callable}
    (found : registry.get? .callable name = some entry)
    (stays : ∀ removed ∈ answer.evicted, removed.name ≠ name) :
    next.get? .callable name = some entry := by
  rcases outcome.get?_next sound unused found with bound | ⟨-, gone⟩
  · exact bound
  · rcases outcome.mem_or_evicted sound (EntryMap.mem_values_of_get? found) with there | evicted
    · exact absurd (EntryMap.mem_ids_of_mem there) gone
    · have named := sound.named _ (OrderedMap.mem_of_get?_eq_some found)
      exact absurd named (stays entry evicted)

/-- A hook on a name that is bound to no callable and not denied installs one. -/
theorem installs_of_absent (outcome : Outcome deny id registry request answer next)
    (absent : registry.get? .callable name = none) (allowed : deny.contains name = false)
    (hooks : request.hooks name = true) :
    Trial.isInstalled answer = true ∧
      ∃ entry, next.get? .callable name = some entry := by
  cases outcome with
  | kept writes kept => cases writes <;> cases hooks
  | published writes published => cases writes <;> cases hooks
  | read kind => cases hooks
  | accessed found accesses =>
      cases accesses with
      | hook other =>
          rw [Request.hooks, beq_iff_eq] at hooks
          rw [hooks, absent] at found
          cases found
      | _ => cases hooks
  | missed _ misses =>
      cases misses with
      | @hook other _ _ denied =>
          rw [Request.hooks, beq_iff_eq] at hooks
          rw [hooks, allowed] at denied
          cases denied
      | _ => cases hooks
  | @installed other handler owner entries written _ published =>
      rw [Request.hooks, beq_iff_eq] at hooks
      refine ⟨rfl, (installDraft other handler owner).entry id, ?_⟩
      rw [Registry.get?, Registry.current_publish]
      cases published with
      | inserted free =>
          rw [← hooks]
          exact OrderedMap.get?_append_self _ other _

/-- A hook on a name that is bound to a callable installs none. -/
theorem not_installs_of_found (outcome : Outcome deny id registry request answer next)
    {entry : Callable} (found : registry.get? .callable name = some entry)
    (hooks : request.hooks name = true) : Trial.isInstalled answer = false := by
  cases outcome with
  | accessed _ accesses => cases accesses <;> rfl
  | missed _ misses => cases misses <;> rfl
  | @installed other handler owner entries written _ published =>
      rw [Request.hooks, beq_iff_eq] at hooks
      cases published with
      | inserted free =>
          rw [OrderedMap.contains, Option.isSome_eq_false_iff, Option.isNone_iff_eq_none] at free
          rw [← hooks] at found
          exact absurd (free.symm.trans found) (by simp)
  | _ => rfl

end Outcome

namespace Serial

variable {first last : Registry} {history : List Moment}

/-- While a name is bound to a callable, no hook on it installs one. -/
theorem not_installs (serial : Serial deny first history last) (tidy : Tidy first history)
    {entry : Callable} (found : first.get? .callable name = some entry)
    (stays : ∀ moment ∈ history, ∀ removed ∈ moment.record.answer.evicted,
      removed.name ≠ name) :
    ∀ moment ∈ history, moment.record.installs name = false := by
  induction serial with
  | nil => simp
  | @cons moment rest last outcome serial inductionHypothesis =>
      intro later member
      rcases List.mem_cons.mp member with rfl | inRest
      · rw [Record.installs, Bool.and_eq_false_iff]
        cases hooks : later.record.request.hooks name with
        | false => exact Or.inl rfl
        | true => exact Or.inr (outcome.not_installs_of_found found hooks)
      · apply inductionHypothesis (tidy.next outcome) _ _ later inRest
        · exact outcome.get?_eq_some_next (tidy.sound .callable)
            (tidy.unused moment List.mem_cons_self .callable) found
            (stays moment List.mem_cons_self)
        · exact fun other inRest => stays other (List.mem_cons_of_mem moment inRest)

/-- Of the hooks on a name that is bound to no callable, one installs a callable. -/
theorem countP_installs (serial : Serial deny first history last) (tidy : Tidy first history)
    (absent : first.get? .callable name = none) (allowed : deny.contains name = false)
    (undefined : ∀ moment ∈ history, moment.record.answer.isAccepted = true →
      moment.record.request.defines name = false)
    (stays : ∀ moment ∈ history, ∀ removed ∈ moment.record.answer.evicted,
      removed.name ≠ name)
    (hooked : ∃ moment ∈ history, moment.record.request.hooks name = true) :
    (history.map (·.record)).countP (·.installs name) = 1 := by
  induction serial with
  | nil =>
      obtain ⟨moment, member, -⟩ := hooked
      cases member
  | @cons moment rest last outcome serial inductionHypothesis =>
      have staysLater : ∀ later ∈ rest, ∀ removed ∈ later.record.answer.evicted,
          removed.name ≠ name :=
        fun later inRest => stays later (List.mem_cons_of_mem moment inRest)
      cases hooks : moment.record.request.hooks name with
      | true =>
          obtain ⟨installed, entry, found⟩ := outcome.installs_of_absent absent allowed hooks
          have none := serial.not_installs (tidy.next outcome) found staysLater
          have here : moment.record.installs name = true := by
            rw [Record.installs, hooks, installed]
            rfl
          have noLater : (rest.map (·.record)).countP (·.installs name) = 0 := by
            rw [List.countP_eq_zero]
            intro record member
            obtain ⟨later, inRest, rfl⟩ := List.mem_map.mp member
            rw [none later inRest]
            exact Bool.false_ne_true
          rw [List.map_cons, List.countP_cons_of_pos here, noLater]
      | false =>
          have passed : ¬moment.record.installs name = true := by
            rw [Record.installs, hooks]
            exact Bool.false_ne_true
          rw [List.map_cons, List.countP_cons_of_neg passed]
          apply inductionHypothesis (tidy.next outcome)
          · exact outcome.get?_eq_none_next absent (undefined moment List.mem_cons_self) hooks
          · exact fun later inRest => undefined later (List.mem_cons_of_mem moment inRest)
          · exact staysLater
          · obtain ⟨later, member, laterHooks⟩ := hooked
            rcases List.mem_cons.mp member with rfl | inRest
            · rw [hooks] at laterHooks
              cases laterHooks
            · exact ⟨later, inRest, laterHooks⟩

end Serial
end Interposition.Concurrent
