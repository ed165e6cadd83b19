import MetricAlerts.Proofs.Document.Values
import MetricAlerts.Rule.Written

/-!
# Reading rules that were written

A rule is read back from its value in JSON, whatever the shape and the depth of
its formula, as long as its numbers are finite.  Formulas are read from more forms
than they are written in, and there is one form for each formula in which it is
written.
-/

namespace MetricAlerts

open Document

/-- A set is made again of its members. -/
theorem Ascending.ofList_items (set : Ascending String) : .ofList set.items = set := by
  obtain ⟨items, hascending⟩ := set
  have hitems : (ofList items).items = items := by
    induction items with
    | nil => rfl
    | cons first items ih =>
        obtain ⟨hfirst, hrest⟩ := List.pairwise_cons.1 hascending
        change insertInto first (ofList items).items = first :: items
        rw [ih hrest]
        cases items with
        | nil => rfl
        | cons second items => rw [insertInto, if_pos (hfirst second List.mem_cons_self)]
  generalize hset : ofList items = made at hitems
  obtain ⟨members, hmembers⟩ := made
  cases hitems
  rfl

namespace Document

theorem asUInt32?_writeUInt32 (n : UInt32) : (writeUInt32 n).asUInt32? = some n := by
  have hn := n.toNat_lt
  have hrange : (0 : Int) ≤ n.toNat ∧ (n.toNat : Int) ≤ UInt32.size - 1 := by
    simp only [UInt32.size]
    omega
  simp only [writeUInt32, asUInt32?, asNatBelow?, asIntWithin?, if_pos hrange, Option.map_some,
    Int.toNat_natCast, UInt32.ofNat_toNat]

theorem asInt32?_writeInt32 (n : Int32) : (writeInt32 n).asInt32? = some n := by
  have hrange : Int32.minValue.toInt ≤ n.toInt ∧ n.toInt ≤ Int32.maxValue.toInt :=
    ⟨n.minValue_le_toInt, n.toInt_le⟩
  simp only [writeInt32, asInt32?, asIntWithin?, if_pos hrange, Option.map_some, Int32.ofInt_toInt]

variable {order : FieldOrder}

@[simp]
theorem inJson_writeUInt32 (n : UInt32) : (writeUInt32 n).inJson order = writeUInt32 n :=
  inJson_int _

end Document

variable {order : FieldOrder}

theorem Statistic.ofDocument?_inJson (lax : Leniency) (statistic : Statistic) :
    ofDocument? lax (statistic.toDocument.inJson order) = some statistic := by
  rw [toDocument, inJson_text]
  exact ofName?_name statistic

theorem Comparison.ofDocument?_inJson (lax : Leniency) (comparison : Comparison) :
    ofDocument? lax (comparison.toDocument.inJson order) = some comparison := by
  rw [toDocument, inJson_text]
  exact ofName?_name comparison

namespace Operand

def IsFinite : Operand → Prop
  | one value => value.isFinite = true
  | many values => ∀ value ∈ values, value.isFinite = true

instance : DecidablePred IsFinite
  | one value => inferInstanceAs (Decidable (value.isFinite = true))
  | many values => inferInstanceAs (Decidable (∀ value ∈ values, value.isFinite = true))

variable {operand : Operand}

theorem inJson_toDocument (hfinite : operand.IsFinite) :
    operand.toDocument.inJson order = operand.toDocument := by
  cases operand with
  | one value => exact inJson_number hfinite
  | many values =>
      rw [toDocument, inJson_list, List.map_map]
      congr 1
      apply List.map_congr_left
      intro value hvalue
      exact inJson_number (hfinite value hvalue)

theorem ofDocument?_toDocument (operand : Operand) :
    ofDocument? operand.toDocument = some operand := by
  cases operand with
  | one value => rfl
  | many values =>
      have hvalues : (values.map Document.number).mapM asFloat? = some values :=
        mapM_map fun _ _ => rfl
      rw [toDocument, ofDocument?, hvalues]
      rfl

theorem ofDocument?_inJson (hfinite : operand.IsFinite) :
    ofDocument? (operand.toDocument.inJson order) = some operand := by
  rw [inJson_toDocument hfinite, ofDocument?_toDocument]

theorem isFinite_of_ofDocument? {d : Document} (hjson : d.IsJson)
    (hread : ofDocument? d = some operand) : operand.IsFinite := by
  unfold ofDocument? at hread
  split at hread
  · rw [IsJson, areJson_iff] at hjson
    obtain ⟨values, hvalues, hoperand⟩ := Option.map_eq_some_iff.1 hread
    cases hoperand
    intro value hvalue
    obtain ⟨item, hitem, hread⟩ := exists_of_mem_mapM hvalues hvalue
    exact isFinite_of_asFloat? (hjson item hitem) hread
  · obtain ⟨value, hvalue, hoperand⟩ := Option.map_eq_some_iff.1 hread
    cases hoperand
    exact isFinite_of_asFloat? hjson hvalue

end Operand

namespace Condition

theorem ofDocument?_inJson {condition : Condition} (hfinite : condition.operand.IsFinite) :
    ofDocument? (condition.toDocument.inJson order) = some condition := by
  rw [toDocument]
  obtain ⟨entries, hvalue, hlookup⟩ := exists_fields_inJson order
    [("var", .text condition.metric), ("agg", condition.statistic.toDocument),
      ("op", condition.comparison.toDocument), ("value", condition.operand.toDocument)]
    (by decide : ["var", "agg", "op", "value"].Nodup)
  have hmetric : Fields.required ⟨entries, false⟩ "var" asText? = some condition.metric :=
    required_of_lookup (hlookup "var") rfl
  have hstatistic : Fields.withDefault ⟨entries, false⟩ "agg" .current
      (Statistic.ofDocument? .held) = some condition.statistic :=
    withDefault_of_lookup (hlookup "agg") (Statistic.ofDocument?_inJson .held _)
  have hcomparison : Fields.required ⟨entries, false⟩ "op" (Comparison.ofDocument? .held) =
      some condition.comparison :=
    required_of_lookup (hlookup "op") (Comparison.ofDocument?_inJson .held _)
  have hoperand : Fields.required ⟨entries, false⟩ "value" Operand.ofDocument? =
      some condition.operand :=
    required_of_lookup (hlookup "value") (Operand.ofDocument?_inJson hfinite)
  rw [hvalue, ofDocument?, fields?_ofFields, Option.bind_eq_bind, Option.bind_some, hmetric,
    hstatistic, hcomparison, hoperand]
  rfl

theorem isFinite_of_ofDocument? {d : Document} {condition : Condition} (hjson : d.IsJson)
    (hread : ofDocument? d = some condition) : condition.operand.IsFinite := by
  obtain ⟨fields, hfields, hread⟩ := Option.bind_eq_some_iff.1 hread
  obtain ⟨metric, -, hread⟩ := Option.bind_eq_some_iff.1 hread
  obtain ⟨statistic, -, hread⟩ := Option.bind_eq_some_iff.1 hread
  obtain ⟨comparison, -, hread⟩ := Option.bind_eq_some_iff.1 hread
  obtain ⟨operand, hoperand, hread⟩ := Option.bind_eq_some_iff.1 hread
  cases hread
  obtain ⟨value, hvalue, hoperand⟩ := exists_of_required hjson hfields hoperand
  exact Operand.isFinite_of_ofDocument? hvalue hoperand

end Condition

/-! ## Formulas -/

namespace Formula

def IsFinite (formula : Formula) : Prop :=
  ∀ condition ∈ formula.conditions, condition.operand.IsFinite

instance : DecidablePred IsFinite := fun formula =>
  inferInstanceAs (Decidable (∀ condition ∈ formula.conditions, condition.operand.IsFinite))

variable {formula : Formula} {d : Document}

theorem isFinite_leaf {condition : Condition} :
    IsFinite (leaf condition) ↔ condition.operand.IsFinite := by
  simp [IsFinite, conditions]

theorem isFinite_group {quantifier : Quantifier} {parts : List Formula} :
    IsFinite (group quantifier parts) ↔ ∀ part ∈ parts, part.IsFinite := by
  have hparts : (∀ condition ∈ conditionsAll parts, condition.operand.IsFinite) ↔
      ∀ part ∈ parts, part.IsFinite := by
    induction parts with
    | nil => simp [conditionsAll]
    | cons part parts ih =>
        rw [conditionsAll, List.forall_mem_append, List.forall_mem_cons, ih]
        rfl
  rw [IsFinite, conditions, hparts]

/-- What does not have the form of a group is read as a condition. -/
theorem ofDocument?_eq_leaf (hrecord : ∀ key parts, d ≠ .record [(key, .list parts)])
    (hlist : ∀ parts, d ≠ .list [.list parts]) :
    ofDocument? d = (Condition.ofDocument? d).map leaf := by
  rw [ofDocument?]
  · exact hrecord
  · exact hlist

theorem ofDocument?_record {fields : List (Key × Document)} (hseveral : 2 ≤ fields.length) :
    ofDocument? (.record fields) = (Condition.ofDocument? (.record fields)).map leaf := by
  apply ofDocument?_eq_leaf
  · rintro key parts ⟨⟩
    exact absurd hseveral (Nat.not_succ_le_self 1)
  · rintro parts ⟨⟩

theorem groupKey?_name (quantifier : Quantifier) :
    groupKey? (.name quantifier.name) = some quantifier := by
  cases quantifier <;> rfl

mutual

theorem ofDocument?_inJson (formula : Formula) (hfinite : formula.IsFinite) :
    ofDocument? (formula.toDocument.inJson order) = some formula := by
  cases formula with
  | leaf condition =>
      have hcondition : ofDocument? (condition.toDocument.inJson order) =
          (Condition.ofDocument? (condition.toDocument.inJson order)).map leaf := by
        obtain ⟨entries, hvalue, hperm⟩ := exists_inJson_ofFields order
          [("var", .text condition.metric), ("agg", condition.statistic.toDocument),
            ("op", condition.comparison.toDocument), ("value", condition.operand.toDocument)]
        rw [Condition.toDocument, hvalue]
        apply ofDocument?_record
        rw [List.length_map, hperm.length_eq]
        exact Nat.le_add_left 2 2
      rw [toDocument, hcondition, Condition.ofDocument?_inJson (isFinite_leaf.1 hfinite)]
      rfl
  | group quantifier parts =>
      have hparts := ofDocuments?_inJson parts (isFinite_group.1 hfinite)
      rw [toDocument, inJson_singleField, inJson_list]
      change ofDocument? (.record [(.name quantifier.name, .list _)]) = _
      rw [ofDocument?, groupKey?_name, hparts]
      rfl

theorem ofDocuments?_inJson (parts : List Formula) (hfinite : ∀ part ∈ parts, part.IsFinite) :
    ofDocuments? ((toDocuments parts).map (inJson order)) = some parts := by
  cases parts with
  | nil => rfl
  | cons part parts =>
      obtain ⟨hpart, hparts⟩ := List.forall_mem_cons.1 hfinite
      rw [toDocuments, List.map_cons, ofDocuments?, ofDocument?_inJson part hpart,
        ofDocuments?_inJson parts hparts]
      rfl

end

/-- Formulas that are read have finite numbers, and so do the parts of a group. -/
theorem isFinite_of_read :
    (∀ d : Document, d.IsJson → ∀ formula, ofDocument? d = some formula → formula.IsFinite) ∧
      ∀ ds : List Document, AreJson ds → ∀ parts, ofDocuments? ds = some parts →
        ∀ part ∈ parts, part.IsFinite := by
  -- The cases are those of reading: two forms of groups, anything else, and parts one by one.
  apply ofDocument?.mutual_induct
    (fun d => d.IsJson → ∀ formula, ofDocument? d = some formula → formula.IsFinite)
    (fun ds => AreJson ds → ∀ parts, ofDocuments? ds = some parts → ∀ part ∈ parts, part.IsFinite)
  · intro key ds ih hjson formula hread
    rw [IsJson, FieldsAreJson, IsJson] at hjson
    rw [ofDocument?] at hread
    obtain ⟨quantifier, -, hread⟩ := Option.bind_eq_some_iff.1 hread
    obtain ⟨parts, hparts, hread⟩ := Option.bind_eq_some_iff.1 hread
    cases hread
    exact isFinite_group.2 (ih hjson.2.2.1 parts hparts)
  · intro ds ih hjson formula hread
    rw [IsJson, AreJson, IsJson] at hjson
    rw [ofDocument?] at hread
    obtain ⟨parts, hparts, hformula⟩ := Option.map_eq_some_iff.1 hread
    cases hformula
    exact isFinite_group.2 (ih hjson.1 parts hparts)
  · intro d hrecord hlist hjson formula hread
    rw [ofDocument?_eq_leaf hrecord hlist] at hread
    obtain ⟨condition, hcondition, hformula⟩ := Option.map_eq_some_iff.1 hread
    cases hformula
    exact isFinite_leaf.2 (Condition.isFinite_of_ofDocument? hjson hcondition)
  · intro _ parts hread
    cases hread
    exact List.forall_mem_nil _
  · intro d ds ih ihRest hjson parts hread
    rw [AreJson] at hjson
    rw [ofDocuments?] at hread
    obtain ⟨part, hpart, hread⟩ := Option.bind_eq_some_iff.1 hread
    obtain ⟨rest, hrest, hread⟩ := Option.bind_eq_some_iff.1 hread
    cases hread
    exact List.forall_mem_cons.2 ⟨ih hjson.1 part hpart, ihRest hjson.2 rest hrest⟩

/-- The form in which formulas are written: a group is a record with its
quantifier as the only field, and a leaf is a record of four fields, in any
order. -/
inductive IsCanonical : Document → Prop
  | leaf (condition : Condition) (hfinite : condition.operand.IsFinite)
      (fields : List (String × Document))
      (hfields : fields.Perm
        [("var", .text condition.metric), ("agg", condition.statistic.toDocument),
          ("op", condition.comparison.toDocument), ("value", condition.operand.toDocument)]) :
      IsCanonical (.ofFields fields)
  | group (quantifier : Quantifier) (parts : List Document)
      (hparts : ∀ part ∈ parts, IsCanonical part) :
      IsCanonical (.ofFields [(quantifier.name, .list parts)])

theorem isCanonical_condition (order : FieldOrder) {condition : Condition}
    (hfinite : condition.operand.IsFinite) :
    IsCanonical (condition.toDocument.inJson order) := by
  obtain ⟨entries, hvalue, hperm⟩ := exists_inJson_ofFields order
    [("var", .text condition.metric), ("agg", condition.statistic.toDocument),
      ("op", condition.comparison.toDocument), ("value", condition.operand.toDocument)]
  rw [Condition.toDocument, hvalue]
  apply IsCanonical.leaf condition hfinite
  have hsame : condition.operand.toDocument.inJson order = condition.operand.toDocument :=
    Operand.inJson_toDocument hfinite
  simpa [Statistic.toDocument, Comparison.toDocument, hsame] using hperm

mutual

theorem isCanonical_inJson (formula : Formula) (hfinite : formula.IsFinite) :
    IsCanonical (formula.toDocument.inJson order) := by
  cases formula with
  | leaf condition => exact isCanonical_condition order (isFinite_leaf.1 hfinite)
  | group quantifier parts =>
      rw [toDocument, inJson_singleField, inJson_list]
      exact .group quantifier _ (areCanonical_inJson parts (isFinite_group.1 hfinite))

theorem areCanonical_inJson (parts : List Formula) (hfinite : ∀ part ∈ parts, part.IsFinite) :
    ∀ d ∈ (toDocuments parts).map (inJson order), IsCanonical d := by
  cases parts with
  | nil => exact List.forall_mem_nil _
  | cons part parts =>
      obtain ⟨hpart, hparts⟩ := List.forall_mem_cons.1 hfinite
      rw [toDocuments, List.map_cons, List.forall_mem_cons]
      exact ⟨isCanonical_inJson part hpart, areCanonical_inJson parts hparts⟩

end

/-- A record that has the field of a group and another one is no group. -/
theorem isLeaf_of_record {fields : List (Key × Document)} {quantifier : Quantifier}
    {value : Document} {another : Key} (hgroup : (.name quantifier.name, value) ∈ fields)
    (hanother : another ∈ fields.map Prod.fst) (hne : another ≠ .name quantifier.name)
    (hread : ofDocument? (.record fields) = some formula) :
    ∃ condition, formula = leaf condition := by
  have hseveral : 2 ≤ fields.length := by
    match fields with
    | [] => cases hgroup
    | [field] =>
        cases List.mem_singleton.1 hgroup
        exact absurd (List.mem_singleton.1 hanother) hne
    | first :: second :: rest => exact Nat.le_add_left 2 rest.length
  rw [ofDocument?_record hseveral] at hread
  obtain ⟨condition, -, hformula⟩ := Option.map_eq_some_iff.1 hread
  exact ⟨condition, hformula.symm⟩

end Formula

namespace MessageSet

def IsFinite (messages : MessageSet) : Prop :=
  ∀ candidate ∈ messages.candidates, candidate.weight.isFinite = true

instance : DecidablePred IsFinite := fun messages =>
  inferInstanceAs (Decidable (∀ candidate ∈ messages.candidates, candidate.weight.isFinite = true))

end MessageSet

theorem Candidate.ofDocument?_inJson (lax : Leniency) {candidate : Candidate}
    (hfinite : candidate.weight.isFinite = true) :
    ofDocument? lax (candidate.toDocument.inJson order) = some candidate := by
  obtain ⟨entries, hvalue, hlookup⟩ := exists_fields_inJson order
    (optionalField "id" .text candidate.id ++
      [("text", .text candidate.text), ("weight", .number candidate.weight)])
    (by
      cases candidate.id with
      | none => exact (by decide : ["text", "weight"].Nodup)
      | some id => exact (by decide : ["id", "text", "weight"].Nodup))
  have hother {name : String} (hne : name ≠ "id") := (hlookup name).trans
    (congrArg (Option.map (inJson order)) (lookup_around_optionalField hne _ _ [] _))
  have hid : Fields.optional ⟨entries, false⟩ "id" asText? = some candidate.id := by
    refine optional_inJson order .text ?_ fun id _ => rfl
    simp only [hlookup, List.lookup_append, lookup_optionalField, List.lookup_cons,
      String.reduceBEq, if_true, List.lookup_nil, Option.or_none]
  have htext : Fields.required ⟨entries, false⟩ "text" asText? = some candidate.text :=
    required_of_lookup (hother (by decide)) rfl
  have hweight : Fields.withDefault ⟨entries, false⟩ "weight" 1.0 asFloat? =
      some candidate.weight :=
    withDefault_of_lookup (hother (by decide)) (congrArg asFloat? (inJson_number hfinite))
  rw [toDocument, hvalue, ofDocument?, fields?_ofFields, Option.bind_eq_bind, Option.bind_some, hid,
    htext, hweight]
  rfl

theorem MessageSet.ofDocument?_inJson (lax : Leniency) {messages : MessageSet}
    (hfinite : messages.IsFinite) :
    ofDocument? lax (messages.toDocument.inJson order) = some messages := by
  obtain ⟨entries, hvalue, hlookup⟩ := exists_fields_inJson order
    [("locale", .text messages.locale),
      ("candidates", .list (messages.candidates.map Candidate.toDocument))]
    (by decide : ["locale", "candidates"].Nodup)
  have hlocale : Fields.withDefault ⟨entries, false⟩ "locale" defaultLocale asText? =
      some messages.locale :=
    withDefault_of_lookup (hlookup "locale") rfl
  have hcandidates : Fields.withDefault ⟨entries, false⟩ "candidates" []
      (readList? lax (Candidate.ofDocument? lax)) = some messages.candidates :=
    withDefault_of_lookup (hlookup "candidates")
      (readList?_inJson order lax fun candidate hcandidate =>
        Candidate.ofDocument?_inJson lax (hfinite candidate hcandidate))
  rw [toDocument, hvalue, ofDocument?, fields?_ofFields, Option.bind_eq_bind, Option.bind_some,
    hlocale, hcandidates]
  rfl

/-! ## Rules -/

namespace Rule

theorem readTags_inJson (lax : Leniency) (tags : Ascending String) :
    readTags lax ((Document.texts tags.items).inJson order) = some tags := by
  rw [readTags, readList?_texts, Option.map_some, Ascending.ofList_items]

/-- A rule with no number in it that JSON cannot express. -/
structure IsFinite (rule : Rule) : Prop where
  operands : rule.logic.IsFinite
  weights : rule.messages.IsFinite

theorem ofDocument?_inJson (lax : Leniency) {rule : Rule} (hfinite : rule.IsFinite) :
    ofDocument? lax (rule.toDocument.inJson order) = some rule := by
  obtain ⟨entries, hvalue, hlookup⟩ := exists_fields_inJson order
    ([("id", .text rule.id), ("version", writeUInt32 rule.version),
        ("tenant_id", .text rule.tenant), ("enabled", .bool rule.enabled)] ++
      optionalField "description" .text rule.description ++
      [("category", .text rule.category), ("priority", writeInt32 rule.priority),
        ("severity", writeInt32 rule.severity),
        ("cooldown_days", writeUInt32 rule.cooldownDays),
        ("max_per_day", writeUInt32 rule.maxPerDay), ("tags", .texts rule.tags.items),
        ("logic", rule.logic.toDocument), ("messages", rule.messages.toDocument)])
    (by
      cases rule.description with
      | none => exact (by decide : (fieldNames.erase "description").Nodup)
      | some description => exact (by decide : fieldNames.Nodup))
  have hother {name : String} (hne : name ≠ "description") := (hlookup name).trans
    (congrArg (Option.map (inJson order)) (lookup_around_optionalField hne _ _ _ _))
  have hdescription : Fields.optional ⟨entries, false⟩ "description" asText? =
      some rule.description := by
    refine optional_inJson order .text ?_ fun description _ => rfl
    simp only [hlookup, List.lookup_append, lookup_optionalField, List.lookup_cons,
      String.reduceBEq, if_true, List.lookup_nil, Option.or_none, Option.none_or]
  have hid : Fields.required ⟨entries, false⟩ "id" asText? = some rule.id :=
    required_of_lookup (hother (by decide)) rfl
  have hversion : Fields.withDefault ⟨entries, false⟩ "version" 1 asUInt32? = some rule.version :=
    withDefault_of_lookup (hother (by decide)) (asUInt32?_writeUInt32 rule.version)
  have htenant : Fields.withDefault ⟨entries, false⟩ "tenant_id" defaultTenant asText? =
      some rule.tenant :=
    withDefault_of_lookup (hother (by decide)) rfl
  have henabled : Fields.withDefault ⟨entries, false⟩ "enabled" true asBool? = some rule.enabled :=
    withDefault_of_lookup (hother (by decide)) rfl
  have hcategory : Fields.withDefault ⟨entries, false⟩ "category" "" asText? =
      some rule.category :=
    withDefault_of_lookup (hother (by decide)) rfl
  have hpriority : Fields.withDefault ⟨entries, false⟩ "priority" 50 asInt32? =
      some rule.priority :=
    withDefault_of_lookup (hother (by decide)) (asInt32?_writeInt32 rule.priority)
  have hseverity : Fields.withDefault ⟨entries, false⟩ "severity" 1 asInt32? =
      some rule.severity :=
    withDefault_of_lookup (hother (by decide)) (asInt32?_writeInt32 rule.severity)
  have hcooldown : Fields.withDefault ⟨entries, false⟩ "cooldown_days" 0 asUInt32? =
      some rule.cooldownDays :=
    withDefault_of_lookup (hother (by decide)) (asUInt32?_writeUInt32 rule.cooldownDays)
  have hcap : Fields.withDefault ⟨entries, false⟩ "max_per_day" 1 asUInt32? =
      some rule.maxPerDay :=
    withDefault_of_lookup (hother (by decide)) (asUInt32?_writeUInt32 rule.maxPerDay)
  have htags : Fields.withDefault ⟨entries, false⟩ "tags" .empty (readTags lax) =
      some rule.tags :=
    withDefault_of_lookup (hother (by decide)) (readTags_inJson lax rule.tags)
  have hlogic : Fields.required ⟨entries, false⟩ "logic" Formula.ofDocument? = some rule.logic :=
    required_of_lookup (hother (by decide))
      (Formula.ofDocument?_inJson rule.logic hfinite.operands)
  have hmessages : Fields.required ⟨entries, false⟩ "messages" (MessageSet.ofDocument? lax) =
      some rule.messages :=
    required_of_lookup (hother (by decide)) (MessageSet.ofDocument?_inJson lax hfinite.weights)
  rw [toDocument, hvalue, ofDocument?, fields?_ofFields, Option.bind_eq_bind, Option.bind_some, hid,
    hversion, htenant, henabled, hdescription, hcategory, hpriority, hseverity, hcooldown, hcap,
    htags, hlogic, hmessages]
  rfl

/-- Rules with finite numbers are read back from their values in JSON, in
whatever order the fields stand there and however strict the reading is.  A
formula that was read in any form is written in the canonical one, from which the
same formula is read; and what has the field of a group next to another field is
never read as a group. -/
theorem reads_back :
    (∀ (rule : Rule) (order : FieldOrder) (lax : Leniency), rule.IsFinite →
      ofDocument? lax (rule.toDocument.inJson order) = some rule) ∧
    (∀ (d : Document) (formula : Formula), d.IsJson → Formula.ofDocument? d = some formula →
      ∀ order : FieldOrder, Formula.IsCanonical (formula.toDocument.inJson order) ∧
        Formula.ofDocument? (formula.toDocument.inJson order) = some formula) ∧
    ∀ (fields : List (Key × Document)) (quantifier : Quantifier) (value : Document)
      (another : Key), (.name quantifier.name, value) ∈ fields →
        another ∈ fields.map Prod.fst → another ≠ .name quantifier.name →
          ∀ formula, Formula.ofDocument? (.record fields) = some formula →
            ∃ condition, formula = .leaf condition := by
  refine ⟨fun rule order lax hfinite => ofDocument?_inJson lax hfinite, ?_, ?_⟩
  · intro d formula hjson hread order
    have hfinite := Formula.isFinite_of_read.1 d hjson formula hread
    exact ⟨Formula.isCanonical_inJson formula hfinite, Formula.ofDocument?_inJson formula hfinite⟩
  · intro fields quantifier value another hgroup hanother hne formula hread
    exact Formula.isLeaf_of_record hgroup hanother hne hread

def restRule : Rule where
  id := "rest"
  version := 3
  tenant := "acme"
  enabled := true
  description := some "Too little rest"
  category := ""
  priority := -2
  severity := 0
  cooldownDays := 1
  maxPerDay := 1
  tags := .ofList ["sleep", "rest"]
  logic := .group .any
    [.leaf ⟨"steps", .mean7, .less, .one 4000⟩,
      .group .noneOf [.leaf ⟨"sleep", .current, .between, .many [6.5, 9]⟩]]
  messages := ⟨"en", [⟨none, "hello", 0.5⟩]⟩

/-- A group and a condition as lists, and a condition that has the field of a
group besides its own. -/
def looseFormula : Document :=
  .list [.list
    [.list [.text "steps", .text "mean_7d", .text "<", .int 4000],
      .ofFields [("any", .list []), ("op", .text ">"), ("value", .number 6.5),
        ("var", .text "sleep")]]]

theorem reads_back_restRule :
    restRule.IsFinite ∧ ofDocument? .handed (restRule.toDocument.inJson .byName) = some restRule ∧
    ∃ formula, looseFormula.IsJson ∧ Formula.ofDocument? looseFormula = some formula ∧
      Formula.IsCanonical (formula.toDocument.inJson .byName) ∧
      Formula.ofDocument? (formula.toDocument.inJson .byName) = some formula := by
  have hrule : restRule.IsFinite := ⟨by decide +kernel, by decide +kernel⟩
  have hjson : looseFormula.IsJson := by
    simp [looseFormula, ofFields, IsJson, AreJson, FieldsAreJson]
    decide +kernel
  have hread : (Formula.ofDocument? looseFormula).isSome = true := by decide +kernel
  obtain ⟨formula, hformula⟩ := Option.isSome_iff_exists.1 hread
  exact ⟨hrule, reads_back.1 restRule .byName .handed hrule, formula, hjson, hformula,
    reads_back.2.1 looseFormula formula hjson hformula .byName⟩

end Rule

end MetricAlerts
