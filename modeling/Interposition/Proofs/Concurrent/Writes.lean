import Interposition.Concurrent.Call
import Interposition.Proofs.Registry.WellFormed
/-!
What one attempt of a write does.

`Write.Kept` and `Write.Published` list the ways in which an attempt can end:
which answer it gives, and which entries it proposes, if any.  A write whose
predicate forgets what it was asked before always ends in one of these ways
(`Write.kept_of_edit`, `Write.published_of_edit`).  What holds of proposed
entries is then shown by cases: they are sound, they hold no identity but old
ones and the offered one, and a name that was bound is either still bound to
its entry or its entry is gone for good.  That nothing is lost, and that proposed
entries are sound, holds of any predicate (`Write.values_perm_of_edit`,
`Write.sound_of_edit`).
-/

namespace Interposition.Concurrent

variable {kind : Kind}

/-- A write whose predicate, if it has one, looks at the entry alone. -/
def Write.IsSteady : Write kind → Prop
  | .retain predicate _ => ∃ keep, predicate = fun _ => keep
  | _ => True

/-- The attempts that leave the entries of a table as they are. -/
inductive Write.Kept (entries : EntryMap kind) : Write kind → WriteAnswer kind → Prop where
  | duplicate {entry : Entry kind} (taken : entries.contains entry.name = true) :
      Kept entries (.insert entry) (.inserted (.error (.duplicate kind entry.name)))
  | absent {name : Name} (missing : entries.get? name = none) :
      Kept entries (.remove name) (.removed none)
  | nothing {keep : Entry kind → Bool} {seen : List (Entry kind)}
      (unmatched : entries.values.filter (fun entry => !keep entry) = []) :
      Kept entries (.retain (fun _ => keep) seen)
        (.retained [] (entries.values.reverse ++ seen))

/-- The attempts that propose other entries for a table. -/
inductive Write.Published (entries : EntryMap kind) :
    Write kind → EntryMap kind → WriteAnswer kind → Prop where
  | inserted {entry : Entry kind} (free : entries.contains entry.name = false) :
      Published entries (.insert entry) (entries.append entry.name entry)
        (.inserted (.ok entry))
  | replaced (entry : Entry kind) :
      Published entries (.replace entry) (entries.append entry.name entry)
        (.replaced (entries.get? entry.name))
  | removed {name : Name} {entry : Entry kind} (found : entries.get? name = some entry) :
      Published entries (.remove name) (entries.erase name) (.removed (some entry))
  | retained {keep : Entry kind → Bool} {seen : List (Entry kind)}
      (matched : entries.values.filter (fun entry => !keep entry) ≠ []) :
      Published entries (.retain (fun _ => keep) seen)
        (entries.part fun pair => keep pair.2)
        (.retained (entries.values.filter fun entry => !keep entry)
          (entries.values.reverse ++ seen))

namespace Write

variable {entries next : EntryMap kind} {write : Write kind} {answer : WriteAnswer kind}

/-- An attempt of a sweep answers what it removed and what its predicate saw. -/
theorem edit_retain (predicate : List (Entry kind) → Entry kind → Bool)
    (seen : List (Entry kind)) (entries : EntryMap kind) :
    (Write.retain predicate seen).edit entries =
      if (entries.sweep predicate seen).removed.isEmpty then
        .keep (.retained [] (entries.sweep predicate seen).seen)
      else
        .publish (entries.sweep predicate seen).kept
          (.retained (entries.sweep predicate seen).removed
            (entries.sweep predicate seen).seen) := by
  rw [edit, Edit.retain]
  dsimp only
  split <;> rfl

theorem edit_retain_steady (keep : Entry kind → Bool) (seen : List (Entry kind))
    (entries : EntryMap kind) :
    (Write.retain (fun _ => keep) seen).edit entries =
      if (entries.values.filter fun entry => !keep entry).isEmpty then
        .keep (.retained [] (entries.values.reverse ++ seen))
      else
        .publish (entries.part fun pair => keep pair.2)
          (.retained (entries.values.filter fun entry => !keep entry)
            (entries.values.reverse ++ seen)) := by
  rw [edit_retain, OrderedMap.sweep_steady]

theorem kept_of_edit (steady : write.IsSteady) (edited : write.edit entries = .keep answer) :
    Kept entries write answer := by
  cases write with
  | insert entry =>
      rw [edit, Edit.insert] at edited
      split at edited
      · rename_i taken
        cases edited
        exact .duplicate taken
      · cases edited
  | replace entry => cases edited
  | remove name =>
      rw [edit, Edit.remove] at edited
      split at edited
      · rename_i missing
        cases edited
        exact .absent missing
      · cases edited
  | retain predicate seen =>
      obtain ⟨keep, rfl⟩ := steady
      rw [edit_retain_steady] at edited
      split at edited
      · rename_i unmatched
        cases edited
        exact .nothing (List.isEmpty_iff.mp unmatched)
      · cases edited

theorem published_of_edit (steady : write.IsSteady)
    (edited : write.edit entries = .publish next answer) :
    Published entries write next answer := by
  cases write with
  | insert entry =>
      rw [edit, Edit.insert] at edited
      split at edited
      · cases edited
      · rename_i free
        cases edited
        exact .inserted (Bool.not_eq_true _ ▸ free)
  | replace entry =>
      cases edited
      exact .replaced entry
  | remove name =>
      rw [edit, Edit.remove] at edited
      split at edited
      · cases edited
      · rename_i found
        cases edited
        exact .removed found
  | retain predicate seen =>
      obtain ⟨keep, rfl⟩ := steady
      rw [edit_retain_steady] at edited
      split at edited
      · cases edited
      · rename_i matched
        cases edited
        exact .retained fun none => matched (List.isEmpty_iff.mpr none)

theorem edit_eq_of_kept (kept : Kept entries write answer) :
    write.edit entries = .keep answer := by
  cases kept with
  | duplicate taken => rw [edit, Edit.insert, if_pos taken, Edit.map]
  | absent missing => rw [edit, Edit.remove, missing, Edit.map]
  | nothing unmatched => rw [edit_retain_steady, if_pos (List.isEmpty_iff.mpr unmatched)]

theorem edit_eq_of_published (published : Published entries write next answer) :
    write.edit entries = .publish next answer := by
  cases published with
  | inserted free => rw [edit, Edit.insert, if_neg (by simp [free]), Edit.map]
  | replaced entry => rw [edit, Edit.replace, Edit.map]
  | removed found => rw [edit, Edit.remove, found, Edit.map]
  | retained matched =>
      rw [edit_retain_steady, if_neg fun none => matched (List.isEmpty_iff.mp none)]

/-- Whether an entry that a write offers has the given identity. -/
def Offers (id : EntryId) : Write kind → Prop
  | .insert entry | .replace entry => entry.id = id
  | _ => True

end Write

/-- Whether an answer says that the offered entry was put into the table. -/
def WriteAnswer.Adds : WriteAnswer kind → Prop
  | .inserted (.ok _) | .replaced _ => True
  | _ => False

/-- The entries that an answer hands out as removed. -/
def WriteAnswer.removals : WriteAnswer kind → List (Entry kind)
  | .inserted _ => []
  | .replaced previous? => previous?.toList
  | .removed removed? => removed?.toList
  | .retained entries _ => entries

/-- The entry that a write brings along. -/
def Write.offer : Write kind → List (Entry kind)
  | .insert entry | .replace entry => [entry]
  | .remove _ | .retain .. => []

namespace Write

variable {entries next : EntryMap kind} {write : Write kind} {answer : WriteAnswer kind}

/-- An attempt that leaves a table as it is hands nothing out. -/
theorem removals_eq_nil_of_edit (edited : write.edit entries = .keep answer) :
    answer.removals = [] := by
  cases write with
  | insert entry =>
      rw [edit, Edit.insert] at edited
      split at edited
      · cases edited
        rfl
      · cases edited
  | replace entry => cases edited
  | remove name =>
      rw [edit, Edit.remove] at edited
      split at edited
      · cases edited
        rfl
      · cases edited
  | retain predicate seen =>
      rw [edit] at edited
      cases kept : Edit.retain predicate seen entries with
      | keep given =>
          rw [kept] at edited
          cases edited
          exact Edit.removed_eq_nil_of_retain_eq_keep kept
      | publish next given =>
          rw [kept] at edited
          cases edited

/-- Nothing is lost or doubled, whatever a predicate remembers: what was in the
table or is offered is in the next entries or is handed out. -/
theorem values_perm_of_edit (edited : write.edit entries = .publish next answer)
    (distinct : entries.DistinctKeys) :
    (next.values ++ answer.removals).Perm (entries.values ++ write.offer) := by
  cases write with
  | insert entry =>
      rw [edit, Edit.insert] at edited
      split at edited
      · cases edited
      · rename_i free
        cases edited
        have absent : entries.get? entry.name = none := by
          simpa [OrderedMap.contains] using free
        have unchanged := OrderedMap.values_erase_perm distinct entry.name
        rw [absent, Option.toList_none, List.append_nil] at unchanged
        rw [EntryMap.values_append, WriteAnswer.removals, List.append_nil]
        exact unchanged.append_right _
  | replace entry =>
      cases edited
      have split := OrderedMap.values_erase_perm distinct entry.name
      rw [EntryMap.values_append, WriteAnswer.removals, List.append_assoc]
      apply (List.perm_append_comm.append_left _).trans
      rw [← List.append_assoc]
      exact split.append_right _
  | remove name =>
      rw [edit, Edit.remove] at edited
      split at edited
      · cases edited
      · rename_i entry found
        cases edited
        have split := OrderedMap.values_erase_perm distinct name
        rw [found] at split
        rw [offer, List.append_nil]
        exact split
  | retain predicate seen =>
      rw [edit, Edit.retain] at edited
      dsimp only at edited
      split at edited
      · cases edited
      · cases edited
        rw [offer, List.append_nil]
        exact OrderedMap.values_sweep_perm entries predicate seen

theorem sound_of_edit (edited : write.edit entries = .publish next answer)
    (before : EntryMap.Sound entries) {id : EntryId} (offers : write.Offers id)
    (unused : id ∉ EntryMap.ids entries) : EntryMap.Sound next := by
  cases write with
  | insert entry =>
      rw [edit, Edit.insert] at edited
      split at edited
      · cases edited
      · cases edited
        apply before.append
        rwa [offers]
  | replace entry =>
      cases edited
      apply before.append
      rwa [offers]
  | remove name =>
      rw [edit, Edit.remove] at edited
      split at edited
      · cases edited
      · cases edited
        exact before.part _
  | retain predicate seen =>
      rw [edit, Edit.retain] at edited
      dsimp only at edited
      split at edited
      · cases edited
      · cases edited
        exact before.of_sublist (OrderedMap.sweepPairs_sublist predicate seen entries.pairs)

end Write

namespace Write.Published

variable {entries next : EntryMap kind} {write : Write kind} {answer : WriteAnswer kind}
  {id : EntryId}

theorem sound (published : Published entries write next answer)
    (before : EntryMap.Sound entries) (offers : write.Offers id)
    (unused : id ∉ EntryMap.ids entries) : EntryMap.Sound next :=
  Write.sound_of_edit (Write.edit_eq_of_published published) before offers unused

/-- Nothing comes into a table but what a write offers. -/
theorem ids_next (published : Published entries write next answer)
    (offers : write.Offers id) {other : EntryId} (member : other ∈ EntryMap.ids next) :
    other ∈ EntryMap.ids entries ∨ (other = id ∧ answer.Adds) := by
  have appended : ∀ entry : Entry kind, entry.id = id →
      other ∈ EntryMap.ids (entries.append entry.name entry) →
        other ∈ EntryMap.ids entries ∨ other = id := by
    intro entry offered member
    rw [EntryMap.ids_append] at member
    rcases List.mem_append.mp member with old | new
    · exact Or.inl ((EntryMap.ids_part_sublist entries _).subset old)
    · rw [List.mem_singleton] at new
      exact Or.inr (new.trans offered)
  cases published with
  | inserted free => exact (appended _ offers member).imp_right fun equal => ⟨equal, trivial⟩
  | replaced entry => exact (appended _ offers member).imp_right fun equal => ⟨equal, trivial⟩
  | removed found => exact Or.inl ((EntryMap.ids_part_sublist entries _).subset member)
  | retained matched => exact Or.inl ((EntryMap.ids_part_sublist entries _).subset member)

theorem values_perm (published : Published entries write next answer)
    (distinct : entries.DistinctKeys) :
    (next.values ++ answer.removals).Perm (entries.values ++ write.offer) :=
  Write.values_perm_of_edit (Write.edit_eq_of_published published) distinct

theorem mem_values_of_mem_removals (published : Published entries write next answer)
    {entry : Entry kind} (member : entry ∈ answer.removals) : entry ∈ entries.values := by
  cases published with
  | inserted free => cases member
  | replaced added => exact EntryMap.mem_values_of_get? (Option.mem_toList.mp member)
  | removed found =>
      rw [List.mem_singleton.mp member]
      exact EntryMap.mem_values_of_get? found
  | retained matched => exact List.mem_of_mem_filter member

/-- What is handed out is not in the table any more. -/
theorem id_notMem_of_mem_removals (published : Published entries write next answer)
    (before : EntryMap.Sound entries) (offers : write.Offers id)
    (unused : id ∉ EntryMap.ids entries) {entry : Entry kind}
    (member : entry ∈ answer.removals) : entry.id ∉ EntryMap.ids next := by
  have split := (published.values_perm before.distinctKeys).map (·.id)
  have distinct : ((entries.values ++ write.offer).map (·.id)).Nodup := by
    rw [List.map_append]
    refine List.nodup_append.mpr ⟨before.distinctIds, ?_, ?_⟩
    · cases write <;> simp [Write.offer]
    · rintro old present new offered rfl
      apply unused
      obtain ⟨added, inOffer, rfl⟩ := List.mem_map.mp offered
      cases write with
      | insert entry =>
          rw [← offers, ← List.mem_singleton.mp inOffer]
          exact present
      | replace entry =>
          rw [← offers, ← List.mem_singleton.mp inOffer]
          exact present
      | _ => cases inOffer
  have apart := split.symm.nodup distinct
  rw [List.map_append] at apart
  intro present
  exact (List.nodup_append.mp apart).2.2 entry.id present entry.id
    (List.mem_map_of_mem member) rfl

/-- A name that was bound to an entry stays bound to it, or the entry is gone. -/
theorem get?_next (published : Published entries write next answer)
    (before : EntryMap.Sound entries) (offers : write.Offers id)
    (unused : id ∉ EntryMap.ids entries) {name : Name} {entry : Entry kind}
    (found : entries.get? name = some entry) :
    next.get? name = some entry ∨ entry.id ∉ EntryMap.ids next := by
  cases published with
  | inserted free =>
      apply before.get?_append _ found
      rwa [offers]
  | replaced entry =>
      apply before.get?_append _ found
      rwa [offers]
  | removed _ => exact before.get?_part _ found
  | retained matched => exact before.get?_part _ found

end Write.Published
end Interposition.Concurrent
