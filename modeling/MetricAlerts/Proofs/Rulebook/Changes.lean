import Mathlib.Data.List.Induction
import MetricAlerts.Rulebook.Edit

/-!
# What can become of a rulebook

Rulebooks are not made by hand.  They start out empty and come about by
changes, each of which is asked for and may be refused.  This file puts the six
changes under one roof, says once what each of them does to the book, and draws
the first consequence: every rule is found under its own id, so no two rules
of a book share one.
-/

namespace MetricAlerts

/-- A change of the rules, as it is asked for. -/
inductive Change where
  | create (rule : Rule)
  | replace (id : String) (rule : Rule)
  | edit (id : String) (edit : RuleEdit)
  | setEnabled (id : String) (enabled : Bool)
  | delete (id : String)
  | copy (id : String) (newId : Option String)

/-- The rule that a change works on.  To create and to copy only adds rules. -/
def Change.target? : Change → Option String
  | create _ => none
  | copy _ _ => none
  | replace id _ => some id
  | edit id _ => some id
  | setEnabled id _ => some id
  | delete id => some id

/-- A change with the person who asks for it and what it takes from outside. -/
structure ChangeRequest where
  change : Change
  actor : Actor
  stamp : Stamp

namespace Registry

def perform (registry : Registry) (request : ChangeRequest) :
    Except EditError Rule × Registry :=
  match request.change with
  | .create rule => registry.create rule request.actor request.stamp
  | .replace id rule => registry.replace id rule request.actor request.stamp
  | .edit id edit => registry.edit id edit request.actor request.stamp
  | .setEnabled id enabled => registry.setEnabled id enabled request.actor request.stamp
  | .delete id => registry.delete id request.actor request.stamp
  | .copy id newId => registry.copy id newId request.actor request.stamp

def afterRequest (registry : Registry) (request : ChangeRequest) : Registry :=
  (registry.perform request).2

/-- What a registry becomes by requests, from the beginning. -/
def ofRequests (requests : List ChangeRequest) : Registry :=
  requests.foldl afterRequest empty

/-- What a change that gets through does: it starts a lineage under an id that
was free, goes on with one, or ends one; and it leaves one record. -/
inductive Becomes (registry : Registry) (actor : Actor) (stamp : Stamp) :
    Rule → Registry → Prop
  | created (asked rule : Rule)
      (hrule : rule = { asked with id := normalId asked.id stamp.token, version := 1 })
      (hvalid : rule.fault? = none)
      (hfree : registry.book.find? rule.id = none) :
      Becomes registry actor stamp rule
        ⟨registry.book.insert rule.id (.start (revisionBy actor stamp rule)),
          registry.trail ++ [recordOf actor stamp .create rule.id none (some rule)]⟩
  | copied (id : String) (newId : Option String) (lineage : Lineage) (rule : Rule)
      (hlineage : registry.book.find? id = some lineage)
      (hrule : rule =
        { lineage.rule with
          id := copyId id newId stamp.token, enabled := false, version := 1 })
      (hfree : registry.book.find? rule.id = none) :
      Becomes registry actor stamp rule
        ⟨registry.book.insert rule.id (.start (revisionBy actor stamp rule)),
          registry.trail ++
            [recordOf actor stamp .clone rule.id (some lineage.rule) (some rule)]⟩
  | revised (id : String) (action : AuditAction) (change : Rule → Rule) (lineage : Lineage)
      (rule : Rule)
      (hlineage : registry.book.find? id = some lineage)
      (hrule : rule =
        { change lineage.rule with
          id := lineage.rule.id, version := lineage.rule.version + 1 })
      (hvalid : rule.fault? = none)
      (haction : action = .update ∨ action = .enable) :
      Becomes registry actor stamp rule
        ⟨registry.book.insert id (lineage.extend (revisionBy actor stamp rule)),
          registry.trail ++
            [recordOf actor stamp action id (some lineage.rule) (some rule)]⟩
  | deleted (id : String) (lineage : Lineage)
      (hlineage : registry.book.find? id = some lineage) :
      Becomes registry actor stamp lineage.rule
        ⟨registry.book.erase id,
          registry.trail ++ [recordOf actor stamp .delete id (some lineage.rule) none]⟩

/-- What can come of a request: it is refused and leaves the registry as it
was, or it gets through. -/
inductive Answers (registry : Registry) (actor : Actor) (stamp : Stamp) :
    Except EditError Rule × Registry → Prop
  | refused (error : EditError) : Answers registry actor stamp (.error error, registry)
  | done {rule : Rule} {later : Registry} (hbecomes : registry.Becomes actor stamp rule later) :
      Answers registry actor stamp (.ok rule, later)

section Operations

variable (registry : Registry) (actor : Actor) (stamp : Stamp)

theorem answers_create (asked : Rule) :
    registry.Answers actor stamp (registry.create asked actor stamp) := by
  rw [create]
  generalize hstored : { asked with id := normalId asked.id stamp.token, version := 1 } = stored
  dsimp only
  split
  · exact .refused _
  · next hvalid =>
      split
      · exact .refused _
      · next hfree =>
          apply Answers.done
          exact .created asked stored hstored.symm hvalid (Table.not_contains_iff.1 hfree)

theorem answers_revise (id : String) {action : AuditAction} (change : Rule → Rule)
    (haction : action = .update ∨ action = .enable) :
    registry.Answers actor stamp (registry.revise id action change actor stamp) := by
  rw [revise]
  split
  · exact .refused _
  · next lineage hlineage =>
      dsimp only
      split
      · exact .refused _
      · next hvalid => exact .done (.revised id action change lineage _ hlineage rfl hvalid haction)

theorem answers_replace (id : String) (asked : Rule) :
    registry.Answers actor stamp (registry.replace id asked actor stamp) := by
  rw [replace]
  split
  · exact .refused _
  · exact answers_revise registry actor stamp id _ (.inl rfl)

/-- Here the book was touched before the request is refused. -/
theorem answers_delete (id : String) :
    registry.Answers actor stamp (registry.delete id actor stamp) := by
  rw [delete]
  dsimp only
  split
  · next hnone =>
      rw [Table.erase_eq_self hnone]
      exact .refused _
  · next lineage hlineage => exact .done (.deleted id lineage hlineage)

theorem answers_copy (id : String) (newId : Option String) :
    registry.Answers actor stamp (registry.copy id newId actor stamp) := by
  rw [copy]
  split
  · exact .refused _
  · next lineage hlineage =>
      dsimp only
      split
      · exact .refused _
      · next hfree =>
          apply Answers.done
          exact .copied id newId lineage _ hlineage rfl (Table.not_contains_iff.1 hfree)

end Operations

theorem answers_perform (registry : Registry) (request : ChangeRequest) :
    registry.Answers request.actor request.stamp (registry.perform request) := by
  rw [perform]
  split
  · exact answers_create ..
  · exact answers_replace ..
  · exact answers_revise registry _ _ _ _ (.inl rfl)
  · exact answers_revise registry _ _ _ _ (.inr rfl)
  · exact answers_delete ..
  · exact answers_copy ..

variable {registry : Registry}

/-- A request that is refused leaves rules and records as they were. -/
theorem afterRequest_eq_self {request : ChangeRequest} {error : EditError}
    (hrefused : (registry.perform request).1 = .error error) :
    registry.afterRequest request = registry := by
  rw [afterRequest]
  have hanswers := registry.answers_perform request
  generalize registry.perform request = answer at hanswers hrefused ⊢
  cases hanswers with
  | refused error => rfl
  | done hbecomes => cases hrefused

theorem becomes_afterRequest {request : ChangeRequest} {rule : Rule}
    (hdone : (registry.perform request).1 = .ok rule) :
    registry.Becomes request.actor request.stamp rule (registry.afterRequest request) := by
  rw [afterRequest]
  have hanswers := registry.answers_perform request
  generalize registry.perform request = answer at hanswers hdone ⊢
  cases hanswers with
  | refused error => cases hdone
  | done hbecomes =>
      cases hdone
      exact hbecomes

/-- What holds at the beginning and is kept by every request that gets through
holds of the registry that the requests lead to. -/
theorem ofRequests_induction {motive : Registry → Prop} (requests : List ChangeRequest)
    (hempty : motive empty)
    (hbecomes : ∀ request ∈ requests, ∀ registry rule later, motive registry →
      registry.Becomes request.actor request.stamp rule later → motive later) :
    motive (ofRequests requests) := by
  rw [ofRequests]
  induction requests using List.reverseRecOn with
  | nil => exact hempty
  | append_singleton requests request ih =>
      have hbefore := ih fun other hother => hbecomes other (List.mem_append_left _ hother)
      rw [List.foldl_append, List.foldl_cons, List.foldl_nil]
      generalize requests.foldl afterRequest empty = registry at hbefore ⊢
      cases hanswer : (registry.perform request).1 with
      | error error => rwa [afterRequest_eq_self hanswer]
      | ok rule => exact hbecomes request (by simp) _ _ _ hbefore (becomes_afterRequest hanswer)

/-! ## Rules that a change does not work on -/

variable {id other : String} {lineage : Lineage} (actor : Actor) (stamp : Stamp)

/-- What is stored under a free id hides nothing. -/
theorem find?_insert_of_free {book : Rulebook} {added : Lineage}
    (hfound : book.find? id = some lineage) (hfree : ¬book.contains other = true) :
    (book.insert other added).find? id = some lineage := by
  rw [Table.find?_insert, if_neg]
  · exact hfound
  · rintro rfl
    cases hfound.symm.trans (Table.not_contains_iff.1 hfree)

theorem find?_create (hfound : registry.book.find? id = some lineage) (asked : Rule) :
    (registry.create asked actor stamp).2.book.find? id = some lineage := by
  rw [create]
  generalize { asked with id := normalId asked.id stamp.token, version := 1 } = stored
  dsimp only
  split
  · exact hfound
  · split
    · exact hfound
    · next hfree => exact find?_insert_of_free hfound hfree

theorem find?_revise (hne : id ≠ other) (action : AuditAction) (change : Rule → Rule) :
    (registry.revise other action change actor stamp).2.book.find? id =
      registry.book.find? id := by
  rw [revise]
  split
  · rfl
  · dsimp only
    split
    · rfl
    · rw [Table.find?_insert, if_neg hne]

theorem find?_replace (hne : id ≠ other) (asked : Rule) :
    (registry.replace other asked actor stamp).2.book.find? id = registry.book.find? id := by
  rw [replace]
  split
  · rfl
  · exact find?_revise actor stamp hne _ _

theorem find?_delete (hne : id ≠ other) :
    (registry.delete other actor stamp).2.book.find? id = registry.book.find? id := by
  rw [delete]
  dsimp only
  split <;> rw [Table.find?_erase, if_neg hne]

theorem find?_copy (hfound : registry.book.find? id = some lineage) (newId : Option String) :
    (registry.copy other newId actor stamp).2.book.find? id = some lineage := by
  rw [copy]
  split
  · exact hfound
  · dsimp only
    split
    · exact hfound
    · next hfree => exact find?_insert_of_free hfound hfree

/-- A change that works on another rule leaves a rule and its revisions as they
are, whether it gets through or not. -/
theorem find?_afterRequest {request : ChangeRequest}
    (hfound : registry.book.find? id = some lineage)
    (htarget : request.change.target? ≠ some id) :
    (registry.afterRequest request).book.find? id = some lineage := by
  obtain ⟨change, actor, stamp⟩ := request
  have hne : ∀ other, change.target? = some other → id ≠ other := by
    rintro other hother rfl
    exact htarget hother
  cases change with
  | create asked => exact find?_create actor stamp hfound asked
  | copy other newId => exact find?_copy actor stamp hfound newId
  | replace other asked => exact (find?_replace actor stamp (hne other rfl) asked).trans hfound
  | edit other edit => exact (find?_revise actor stamp (hne other rfl) _ _).trans hfound
  | setEnabled other enabled => exact (find?_revise actor stamp (hne other rfl) _ _).trans hfound
  | delete other => exact (find?_delete actor stamp (hne other rfl)).trans hfound

end Registry

namespace Rulebook

/-- Every revision of a lineage carries the id that the lineage is found under. -/
def IsKeyed (book : Rulebook) : Prop :=
  ∀ id lineage, book.find? id = some lineage →
    ∀ revision ∈ lineage.revisions, revision.rule.id = id

variable {book : Rulebook} {id : String} {lineage : Lineage}

theorem isKeyed_empty : IsKeyed .empty := by
  intro id lineage hlineage
  cases hlineage

theorem IsKeyed.insert (hbook : book.IsKeyed)
    (hlineage : ∀ revision ∈ lineage.revisions, revision.rule.id = id) :
    IsKeyed (book.insert id lineage) := by
  intro other found hfound
  rw [Table.find?_insert] at hfound
  split at hfound
  · next hother =>
      cases hfound
      rw [hother]
      exact hlineage
  · exact hbook other found hfound

theorem IsKeyed.erase (hbook : book.IsKeyed) (id : String) : IsKeyed (book.erase id) := by
  intro other found hfound
  rw [Table.find?_erase] at hfound
  split at hfound
  · cases hfound
  · exact hbook other found hfound

theorem IsKeyed.rule_id (hbook : book.IsKeyed) (hlineage : book.find? id = some lineage) :
    lineage.rule.id = id := by
  apply hbook id lineage hlineage lineage.current
  simp [Lineage.revisions]

theorem IsKeyed.of_becomes {registry later : Registry} {actor : Actor} {stamp : Stamp}
    {rule : Rule} (hbook : registry.book.IsKeyed)
    (hbecomes : registry.Becomes actor stamp rule later) : later.book.IsKeyed := by
  cases hbecomes with
  | created asked rule hrule hvalid hfree =>
      apply hbook.insert
      simp [Lineage.start, Lineage.revisions, Registry.revisionBy]
  | copied id newId lineage rule hlineage hrule hfree =>
      apply hbook.insert
      simp [Lineage.start, Lineage.revisions, Registry.revisionBy]
  | revised id action change lineage rule hlineage hrule hvalid haction =>
      have hrevision : rule.id = id := by
        rw [hrule]
        exact hbook.rule_id hlineage
      apply hbook.insert
      intro revision hmem
      rcases List.mem_append.1 hmem with hmem | hmem
      · exact hbook id lineage hlineage revision hmem
      · rw [List.mem_singleton.1 hmem]
        exact hrevision
  | deleted id lineage hlineage => exact hbook.erase id

theorem isKeyed_ofRequests (requests : List ChangeRequest) :
    (Registry.ofRequests requests).book.IsKeyed := by
  apply Registry.ofRequests_induction (motive := fun registry => registry.book.IsKeyed)
  · exact isKeyed_empty
  · intro request _ registry rule later hbook hbecomes
    exact hbook.of_becomes hbecomes

theorem IsKeyed.rule?_eq_some_iff (hbook : book.IsKeyed) {rule : Rule} :
    book.rule? id = some rule ↔ rule ∈ book.rules ∧ rule.id = id := by
  simp only [rule?, rules, Table.values, Option.map_eq_some_iff, List.map_map, List.mem_map]
  constructor
  · rintro ⟨lineage, hlineage, rfl⟩
    exact ⟨⟨(id, lineage), Table.find?_eq_some_iff.1 hlineage, rfl⟩, hbook.rule_id hlineage⟩
  · rintro ⟨⟨⟨key, lineage⟩, hentry, rfl⟩, hid⟩
    have hlineage := Table.find?_eq_some_iff.2 hentry
    have hkey : key = id := (hbook.rule_id hlineage).symm.trans hid
    exact ⟨lineage, hkey ▸ hlineage, rfl⟩

theorem IsKeyed.nodup_rules (hbook : book.IsKeyed) : (book.rules.map Rule.id).Nodup := by
  have hkeys : book.rules.map Rule.id = book.entries.map Prod.fst := by
    simp only [rules, Table.values, List.map_map]
    apply List.map_congr_left
    rintro ⟨id, lineage⟩ hentry
    exact hbook.rule_id (Table.find?_eq_some_iff.2 hentry)
  rw [hkeys]
  exact book.nodup

theorem mem_list {tenant : String} {filter : RuleFilter} {rule : Rule} :
    rule ∈ book.list tenant filter ↔
      rule ∈ book.rules ∧ rule.tenant = tenant ∧ filter.accepts rule = true := by
  simp [list]

theorem IsKeyed.nodup_list (hbook : book.IsKeyed) (tenant : String) (filter : RuleFilter) :
    ((book.list tenant filter).map Rule.id).Nodup := by
  have hperm := (List.mergeSort_perm (book.rules.filter fun rule =>
    rule.tenant == tenant && filter.accepts rule) Rule.precedes).map Rule.id
  apply hperm.nodup_iff.2
  exact (List.filter_sublist.map Rule.id).nodup hbook.nodup_rules

end Rulebook

end MetricAlerts
