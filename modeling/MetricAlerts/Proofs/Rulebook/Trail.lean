import MetricAlerts.Proofs.Rulebook.Changes

/-!
# What the trail tells of a rulebook

Rules and records are kept side by side, and every change writes to both.  So
the trail knows the whole book: going through it and keeping what each record
says comes to the present rules, and each record that changes or ends something
starts from what the record before it has left.  This holds on from deletions,
and when a rule comes back later under the same id.
-/

namespace MetricAlerts

/-- Keeps what a record says there is afterwards. -/
def AuditRecord.applyTo (record : AuditRecord) (documents : Table String Document) :
    Table String Document :=
  if record.action = .delete then documents.erase record.entity
  else match record.after with
    | some after => documents.insert record.entity after
    | none => documents

/-- Whether a record is about a rule that was there already under its id. -/
def AuditRecord.goesOn (record : AuditRecord) : Bool :=
  record.action matches .update | .enable | .delete

theorem AuditRecord.goesOn_iff {record : AuditRecord} :
    record.goesOn = true ↔
      record.action = .update ∨ record.action = .enable ∨ record.action = .delete := by
  unfold goesOn
  cases record.action <;> simp

namespace AuditTrail

/-- What is left when a trail is gone through from its beginning. -/
def replay (trail : AuditTrail) : Table String Document :=
  trail.foldl (fun documents record => record.applyTo documents) .empty

/-- The latest record about an id. -/
def lastOn (trail : AuditTrail) (id : String) : Option AuditRecord :=
  trail.reverse.find? fun record => record.entity = id

/-- Records that go on do so from what the previous record about the same id
has left. -/
def IsChained (trail : AuditTrail) : Prop :=
  ∀ before record rest, trail = before ++ record :: rest → record.goesOn = true →
    ∃ previous document, lastOn before record.entity = some previous ∧
      previous.after = some document ∧ record.before = some document

variable {trail : AuditTrail} {record : AuditRecord}

theorem replay_append (trail : AuditTrail) (record : AuditRecord) :
    replay (trail ++ [record]) = record.applyTo trail.replay := by
  rw [replay, List.foldl_append]
  rfl

theorem lastOn_append (trail : AuditTrail) (record : AuditRecord) (id : String) :
    lastOn (trail ++ [record]) id =
      if record.entity = id then some record else trail.lastOn id := by
  rw [lastOn, List.reverse_append, List.reverse_singleton, List.singleton_append, List.find?_cons]
  split
  · next hid => rw [if_pos (of_decide_eq_true hid)]
  · next hid => rw [if_neg (of_decide_eq_false hid)]; rfl

theorem IsChained.append (htrail : trail.IsChained)
    (hrecord : record.goesOn = true → ∃ previous document,
      trail.lastOn record.entity = some previous ∧ previous.after = some document ∧
        record.before = some document) : IsChained (trail ++ [record]) := by
  intro before found rest hsplit hfound
  rcases List.eq_nil_or_concat rest with rfl | ⟨rest, last, rfl⟩
  · obtain ⟨rfl, hsame⟩ := List.append_inj' hsplit rfl
    obtain ⟨rfl, -⟩ := List.cons_eq_cons.1 hsame
    exact hrecord hfound
  · rw [List.concat_eq_append, ← List.cons_append, ← List.append_assoc] at hsplit
    obtain ⟨hbefore, -⟩ := List.append_inj' hsplit rfl
    exact htrail before found rest hbefore hfound

end AuditTrail

/-- A record says what was done to a book. -/
structure AuditRecord.Tells (record : AuditRecord) (book later : Rulebook) : Prop where
  after : record.after = (later.rule? record.entity).map Rule.toDocument
  ends : record.action = .delete ↔ later.rule? record.entity = none
  others : ∀ id ≠ record.entity, later.rule? id = book.rule? id
  before : record.goesOn = true → ∃ rule, book.rule? record.entity = some rule ∧
    record.before = some rule.toDocument

/-- What a record does to the present documents is what was done to the book. -/
theorem AuditRecord.Tells.find?_applyTo {record : AuditRecord} {book later : Rulebook}
    {documents : Table String Document} (hrecord : record.Tells book later)
    (hdocuments : ∀ id, documents.find? id = (book.rule? id).map Rule.toDocument) (id : String) :
    (record.applyTo documents).find? id = (later.rule? id).map Rule.toDocument := by
  have hafter := hrecord.after
  rw [applyTo]
  by_cases hid : id = record.entity
  · subst hid
    cases hlater : later.rule? record.entity with
    | none =>
        rw [if_pos (hrecord.ends.2 hlater), Table.find?_erase, if_pos rfl]
        rfl
    | some rule =>
        have haction : record.action ≠ .delete := by
          intro hdelete
          simp [hrecord.ends.1 hdelete] at hlater
        rw [hlater] at hafter
        simp [haction, hafter]
  · rw [hrecord.others id hid, ← hdocuments id]
    split
    · rw [Table.find?_erase, if_neg hid]
    · split
      · rw [Table.find?_insert, if_neg hid]
      · rfl

namespace Rulebook

theorem rule?_insert (book : Rulebook) (id other : String) (lineage : Lineage) :
    rule? (book.insert id lineage) other =
      if other = id then some lineage.rule else book.rule? other := by
  rw [rule?, Table.find?_insert]
  split <;> rfl

theorem rule?_erase (book : Rulebook) (id other : String) :
    rule? (book.erase id) other = if other = id then none else book.rule? other := by
  rw [rule?, Table.find?_erase]
  split <;> rfl

end Rulebook

namespace Registry

variable {registry later : Registry} {actor : Actor} {stamp : Stamp} {rule : Rule}

/-- The record of a change that stores a rule. -/
theorem tells_insert {book : Rulebook} {id : String} {lineage : Lineage} {action : AuditAction}
    {before : Option Rule} (hlineage : lineage.rule = rule) (haction : action ≠ .delete)
    (hbefore : action = .update ∨ action = .enable →
      ∃ old, book.rule? id = some old ∧ before = some old) :
    (recordOf actor stamp action id before (some rule)).Tells book
      (book.insert id lineage) where
  after := by
    change some rule.toDocument = (Rulebook.rule? (book.insert id lineage) id).map _
    rw [Rulebook.rule?_insert, if_pos rfl, hlineage]
    rfl
  ends := by
    change action = .delete ↔ Rulebook.rule? (book.insert id lineage) id = none
    rw [Rulebook.rule?_insert, if_pos rfl]
    simp [haction]
  others other hother := by
    change other ≠ id at hother
    rw [Rulebook.rule?_insert, if_neg hother]
  before hgoesOn := by
    have hrevises : action = .update ∨ action = .enable := by
      rcases AuditRecord.goesOn_iff.1 hgoesOn with hupdate | henable | hdelete
      · exact .inl hupdate
      · exact .inr henable
      · exact absurd hdelete haction
    obtain ⟨old, hold, rfl⟩ := hbefore hrevises
    exact ⟨old, hold, rfl⟩

theorem tells_erase {book : Rulebook} {id : String} (hrule : book.rule? id = some rule) :
    (recordOf actor stamp .delete id (some rule) none).Tells book (book.erase id) where
  after := by
    change none = (Rulebook.rule? (book.erase id) id).map _
    rw [Rulebook.rule?_erase, if_pos rfl]
    rfl
  ends := by
    change AuditAction.delete = .delete ↔ Rulebook.rule? (book.erase id) id = none
    rw [Rulebook.rule?_erase, if_pos rfl]
    simp
  others other hother := by
    change other ≠ id at hother
    rw [Rulebook.rule?_erase, if_neg hother]
  before _ := ⟨rule, hrule, rfl⟩

/-- A change leaves one record, which tells what was done and to which rule. -/
theorem Becomes.exists_record (hbecomes : registry.Becomes actor stamp rule later)
    (hbook : registry.book.IsKeyed) :
    ∃ record, later.trail = registry.trail ++ [record] ∧ record.actor = actor ∧
      record.entity = rule.id ∧ record.Tells registry.book later.book := by
  cases hbecomes with
  | created asked rule hrule hvalid hfree =>
      exact ⟨_, rfl, rfl, rfl, tells_insert rfl (by decide) (by simp)⟩
  | copied id newId lineage rule hlineage hrule hfree =>
      exact ⟨_, rfl, rfl, rfl, tells_insert rfl (by decide) (by simp)⟩
  | revised id action change lineage rule hlineage hrule hvalid haction =>
      have hid : rule.id = id := by
        rw [hrule]
        exact hbook.rule_id hlineage
      have hcurrent : registry.book.rule? id = some lineage.rule := by
        rw [Rulebook.rule?, hlineage]
        rfl
      refine ⟨_, rfl, rfl, hid.symm, tells_insert rfl ?_ fun _ => ⟨_, hcurrent, rfl⟩⟩
      rcases haction with rfl | rfl
      · decide
      · decide
  | deleted id lineage hlineage =>
      have hcurrent : registry.book.rule? id = some lineage.rule := by
        rw [Rulebook.rule?, hlineage]
        rfl
      exact ⟨_, rfl, rfl, (hbook.rule_id hlineage).symm, tells_erase hcurrent⟩

/-- The trail and the book of a registry agree. -/
structure IsRecorded (registry : Registry) : Prop where
  replay : ∀ id, registry.trail.replay.find? id =
    (registry.book.rule? id).map Rule.toDocument
  last : ∀ id rule, registry.book.rule? id = some rule →
    ∃ record, registry.trail.lastOn id = some record ∧ record.after = some rule.toDocument
  chained : registry.trail.IsChained

theorem isRecorded_empty : empty.IsRecorded where
  replay id := rfl
  last id rule hrule := by cases hrule
  chained before record rest hsplit := by
    have hlength := congrArg List.length hsplit
    simp [empty] at hlength

theorem IsRecorded.append {record : AuditRecord} (hregistry : registry.IsRecorded)
    (hrecord : record.Tells registry.book later.book)
    (htrail : later.trail = registry.trail ++ [record]) : later.IsRecorded where
  replay id := by
    rw [htrail, AuditTrail.replay_append, hrecord.find?_applyTo hregistry.replay]
  last id rule hrule := by
    rw [htrail, AuditTrail.lastOn_append]
    by_cases hid : record.entity = id
    · refine ⟨record, if_pos hid, ?_⟩
      rw [hrecord.after, hid, hrule]
      rfl
    · rw [if_neg hid]
      apply hregistry.last
      rw [← hrecord.others id (Ne.symm hid)]
      exact hrule
  chained := by
    rw [htrail]
    apply hregistry.chained.append
    intro hgoesOn
    obtain ⟨rule, hrule, hbefore⟩ := hrecord.before hgoesOn
    obtain ⟨previous, hprevious, hafter⟩ := hregistry.last _ rule hrule
    exact ⟨previous, _, hprevious, hafter, hbefore⟩

theorem isRecorded_ofRequests (requests : List ChangeRequest) :
    (ofRequests requests).IsRecorded := by
  have hboth : (ofRequests requests).book.IsKeyed ∧ (ofRequests requests).IsRecorded := by
    apply ofRequests_induction (motive := fun registry =>
      registry.book.IsKeyed ∧ registry.IsRecorded)
    · exact ⟨Rulebook.isKeyed_empty, isRecorded_empty⟩
    · rintro request - registry rule later ⟨hbook, hregistry⟩ hbecomes
      obtain ⟨record, htrail, -, -, hrecord⟩ := hbecomes.exists_record hbook
      exact ⟨hbook.of_becomes hbecomes, hregistry.append hrecord htrail⟩
  exact hboth.2

/-- A request that is refused changes neither the rules nor the trail, and one
that gets through adds one record to the trail, about the rule it answers with.
Gone through from its beginning, the trail comes to the present revision of
every rule; and every record of a revision or a deletion starts from what the
previous record about the same rule has left. -/
theorem replay_trail_eq_rules (requests : List ChangeRequest) :
    let registry := ofRequests requests
    (∀ request error, (registry.perform request).1 = .error error →
      registry.afterRequest request = registry) ∧
    (∀ request rule, (registry.perform request).1 = .ok rule →
      ∃ record, (registry.afterRequest request).trail = registry.trail ++ [record] ∧
        record.actor = request.actor ∧ record.entity = rule.id) ∧
    (∀ id, registry.trail.replay.find? id = (registry.book.rule? id).map Rule.toDocument) ∧
    registry.trail.IsChained := by
  intro registry
  have hbook : registry.book.IsKeyed := Rulebook.isKeyed_ofRequests requests
  have hregistry : registry.IsRecorded := isRecorded_ofRequests requests
  refine ⟨?_, ?_, hregistry.replay, hregistry.chained⟩
  · intro request error hrefused
    exact afterRequest_eq_self hrefused
  · intro request rule hdone
    obtain ⟨record, htrail, hactor, hentity, -⟩ :=
      (becomes_afterRequest hdone).exists_record hbook
    exact ⟨record, htrail, hactor, hentity⟩

end Registry

end MetricAlerts
