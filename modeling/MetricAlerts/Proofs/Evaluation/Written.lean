import MetricAlerts.Evaluation.Report
import MetricAlerts.Proofs.Admission.Written

/-!
# Reading reports that were written

Traces, alerts, simulations and what became of single rules are read back from
their values in JSON.  The form of a record is told by a tag, and some records
have fields of two kinds side by side, so every field is looked for among more of
them than belong to it.  Traces are nested, and reading goes as deep as the
value does.
-/

namespace MetricAlerts

open Document

variable {order : FieldOrder}

namespace Document

variable {entries : List (String × Document)} {field tag : String} {choice : List String}

/-- The tag of a record, and the record as it is. -/
theorem tagged?_ofFields (lax : Leniency) (hlookup : entries.lookup field = some (.text tag))
    (htag : tag ∈ choice) :
    (ofFields entries).tagged? lax field choice = some (tag, ofFields entries) := by
  have hfield := fieldNamed?_map_name field entries
  rw [hlookup] at hfield
  have htagged : (ofFields entries).tagged? lax field choice =
      ((fieldNamed? field (entries.map fun entry => (.name entry.1, entry.2))).bind
        (asTag? lax choice)).bind fun tag => some (tag, ofFields entries) := rfl
  rw [htagged, hfield, Option.bind_some, asTag?, if_pos (List.contains_iff_mem.2 htag)]
  rfl

theorem one_le_depth (d : Document) : 1 ≤ d.depth := by
  cases d with
  | list items => exact Nat.le_add_right 1 _
  | record fields => exact Nat.le_add_right 1 _
  | _ => exact Nat.le_refl 1

theorem depth_lt_of_lookup {name : String} {value : Document}
    (hlookup : entries.lookup name = some value) : value.depth < (ofFields entries).depth := by
  have hfields : value.depth ≤
      depthOfFields (entries.map fun entry => (.name entry.1, entry.2)) := by
    induction entries with
    | nil => cases hlookup
    | cons entry entries ih =>
        rw [List.map_cons, depthOfFields]
        rw [List.lookup_cons] at hlookup
        split at hlookup
        · cases hlookup
          exact Nat.le_max_left _ _
        · exact Nat.le_trans (ih hlookup) (Nat.le_max_right _ _)
  change value.depth < depth (.record (entries.map fun entry => (.name entry.1, entry.2)))
  rw [depth]
  omega

end Document

namespace Shortfall

theorem ofDocument?_ofFields (lax : Leniency) {entries : List (String × Document)}
    {kind detail : String} (hkind : entries.lookup "kind" = some (.text kind))
    (hdetail : entries.lookup "detail" = some (.text detail))
    (hmem : kind ∈ ["missing_data", "insufficient_data"]) :
    ofDocument? lax (ofFields entries) =
      some (if kind = "missing_data" then missing detail else insufficient detail) := by
  have htext : Fields.required ⟨entries, false⟩ "detail" asText? = some detail :=
    required_of_lookup hdetail rfl
  rw [ofDocument?, tagged?_ofFields lax hkind hmem]
  simp only [Option.bind_eq_bind, Option.bind_some, fields?_ofFields]
  rw [htext]
  rfl

theorem ofDocument?_inJson (lax : Leniency) (shortfall : Shortfall) :
    ofDocument? lax (shortfall.toDocument.inJson order) = some shortfall := by
  cases shortfall with
  | missing detail =>
      obtain ⟨entries, hvalue, hlookup⟩ := exists_fields_inJson order
        [("kind", .text "missing_data"), ("detail", .text detail)]
        (by decide : ["kind", "detail"].Nodup)
      rw [toDocument, hvalue]
      exact ofDocument?_ofFields lax (hlookup "kind") (hlookup "detail") (by decide)
  | insufficient detail =>
      obtain ⟨entries, hvalue, hlookup⟩ := exists_fields_inJson order
        [("kind", .text "insufficient_data"), ("detail", .text detail)]
        (by decide : ["kind", "detail"].Nodup)
      rw [toDocument, hvalue]
      exact ofDocument?_ofFields lax (hlookup "kind") (hlookup "detail") (by decide)

/-- A record is not null. -/
theorem asOption?_inJson (lax : Leniency) (shortfall : Shortfall) :
    (shortfall.toDocument.inJson order).asOption? (ofDocument? lax) = some (some shortfall) := by
  have hread : ofDocument? lax (shortfall.toDocument.inJson order) = some shortfall :=
    ofDocument?_inJson lax shortfall
  cases shortfall <;> exact congrArg (Option.map some) hread

end Shortfall

/-! ## Traces -/

namespace LeafTrace

structure IsFinite (leaf : LeafTrace) : Prop where
  operand : leaf.operand.IsFinite
  observed : ∀ value ∈ leaf.observed, value.isFinite = true

instance : DecidablePred IsFinite := fun leaf =>
  decidable_of_iff
    (leaf.operand.IsFinite ∧ ∀ value ∈ leaf.observed, value.isFinite = true)
    ⟨fun ⟨hoperand, hobserved⟩ => ⟨hoperand, hobserved⟩,
      fun hfinite => ⟨hfinite.operand, hfinite.observed⟩⟩

/-- A condition of a trace is read from among its fields and the tag. -/
theorem ofDocument?_ofFields {leaf : LeafTrace} (hfinite : leaf.IsFinite)
    {entries : List (String × Document)} (hlookup : ∀ name, entries.lookup name =
      ((("node", .text "condition") :: leaf.fields).lookup name).map (inJson order)) :
    ofDocument? (ofFields entries) = some leaf := by
  have hobserved : Fields.nullable ⟨entries, false⟩ "observed" asFloat? = some leaf.observed := by
    have hfound : entries.lookup "observed" =
        some ((ofOption .number leaf.observed).inJson order) := hlookup "observed"
    rw [Fields.nullable, hfound]
    have hvalue := hfinite.observed
    cases hobserved : leaf.observed with
    | none => rfl
    | some value =>
        simp only [ofOption, inJson_number (hvalue value hobserved)]
        rfl
  have hshortfall : Fields.optional ⟨entries, false⟩ "failure" (Shortfall.ofDocument? .held) =
      some leaf.shortfall := by
    apply optional_inJson order Shortfall.toDocument
    · rw [hlookup]
      simp only [fields, List.cons_append, List.nil_append, List.lookup_cons, String.reduceBEq,
        lookup_optionalField, if_true]
    · intro shortfall _
      exact Shortfall.asOption?_inJson .held shortfall
  have hmetric : Fields.required ⟨entries, false⟩ "var" asText? = some leaf.metric :=
    required_of_lookup (hlookup "var") rfl
  have hstatistic : Fields.required ⟨entries, false⟩ "agg" (Statistic.ofDocument? .held) =
      some leaf.statistic :=
    required_of_lookup (hlookup "agg") (Statistic.ofDocument?_inJson .held _)
  have hcomparison : Fields.required ⟨entries, false⟩ "op" (Comparison.ofDocument? .held) =
      some leaf.comparison :=
    required_of_lookup (hlookup "op") (Comparison.ofDocument?_inJson .held _)
  have hoperand : Fields.required ⟨entries, false⟩ "operand" Operand.ofDocument? =
      some leaf.operand :=
    required_of_lookup (hlookup "operand") (Operand.ofDocument?_inJson hfinite.operand)
  have hresult : Fields.required ⟨entries, false⟩ "result" asBool? = some leaf.result :=
    required_of_lookup (hlookup "result") rfl
  rw [ofDocument?, fields?_ofFields, Option.bind_eq_bind, Option.bind_some, hmetric, hstatistic,
    hcomparison, hoperand, hobserved, hresult, hshortfall]
  rfl

end LeafTrace

namespace Trace

mutual

/-- Number of levels of a trace. -/
def height : Trace → Nat
  | leaf _ => 1
  | group _ _ parts => 1 + heightAll parts

def heightAll : List Trace → Nat
  | [] => 0
  | part :: parts => max part.height (heightAll parts)

end

def IsFinite (trace : Trace) : Prop :=
  ∀ leaf ∈ trace.leaves, leaf.IsFinite

instance : DecidablePred IsFinite := fun trace =>
  inferInstanceAs (Decidable (∀ leaf ∈ trace.leaves, leaf.IsFinite))

theorem isFinite_leaf {found : LeafTrace} : IsFinite (leaf found) ↔ found.IsFinite := by
  simp [IsFinite, leaves]

theorem isFinite_group {quantifier : Quantifier} {result : Bool} {parts : List Trace} :
    IsFinite (group quantifier result parts) ↔ ∀ part ∈ parts, part.IsFinite := by
  have hparts : (∀ leaf ∈ leavesAll parts, leaf.IsFinite) ↔ ∀ part ∈ parts, part.IsFinite := by
    induction parts with
    | nil => simp [leavesAll]
    | cons part parts ih =>
        rw [leavesAll, List.forall_mem_append, List.forall_mem_cons, ih]
        rfl
  rw [IsFinite, leaves, hparts]

theorem toDocuments_eq_map (parts : List Trace) : toDocuments parts = parts.map toDocument := by
  induction parts with
  | nil => rfl
  | cons part parts ih => rw [toDocuments, ih, List.map_cons]

theorem height_le_heightAll {parts : List Trace} {part : Trace} (hpart : part ∈ parts) :
    part.height ≤ heightAll parts := by
  induction parts with
  | nil => cases hpart
  | cons first parts ih =>
      rw [heightAll]
      rcases List.mem_cons.1 hpart with rfl | hpart
      · exact Nat.le_max_left _ _
      · exact Nat.le_trans (ih hpart) (Nat.le_max_right _ _)

theorem nodup_names_leaf (found : LeafTrace) :
    (((("node", .text "condition") : String × Document) :: found.fields).map Prod.fst).Nodup := by
  rw [LeafTrace.fields]
  cases found.shortfall with
  | none =>
      exact (by decide : ["node", "var", "agg", "op", "operand", "observed", "result"].Nodup)
  | some shortfall =>
      exact (by decide :
        ["node", "var", "agg", "op", "operand", "observed", "result", "failure"].Nodup)

/-- Reading takes as many levels as the trace has. -/
theorem readWithin_inJson (lax : Leniency) {trace : Trace} (hfinite : trace.IsFinite)
    {levels : Nat} (hlevels : trace.height ≤ levels) :
    readWithin levels lax (trace.toDocument.inJson order) = some trace := by
  induction levels generalizing trace lax with
  | zero => cases trace <;> simp [height] at hlevels
  | succ levels ih =>
      cases trace with
      | leaf found =>
          obtain ⟨entries, hvalue, hlookup⟩ := exists_fields_inJson order _ (nodup_names_leaf found)
          have htag := tagged?_ofFields lax (hlookup "node")
            (by decide : "condition" ∈ ["condition", "combinator"])
          have hleaf := LeafTrace.ofDocument?_ofFields (isFinite_leaf.1 hfinite) hlookup
          rw [toDocument, hvalue, readWithin, htag]
          simp only [Option.bind_eq_bind, Option.bind_some, if_true, hleaf, Option.map_some]
      | group quantifier result parts =>
          obtain ⟨entries, hvalue, hlookup⟩ := exists_fields_inJson order
            [("node", .text "combinator"), ("kind", .text quantifier.name),
              ("result", .bool result), ("children", .list (toDocuments parts))]
            (by decide : ["node", "kind", "result", "children"].Nodup)
          have htag := tagged?_ofFields lax (hlookup "node")
            (by decide : "combinator" ∈ ["condition", "combinator"])
          have hkind : Fields.required ⟨entries, false⟩ "kind" (Quantifier.ofDocument? .held) =
              some quantifier :=
            required_of_lookup (hlookup "kind") (by cases quantifier <;> rfl)
          have hresult : Fields.required ⟨entries, false⟩ "result" asBool? = some result :=
            required_of_lookup (hlookup "result") rfl
          have hparts : readList? .held (readWithin levels .held)
              ((Document.list (toDocuments parts)).inJson order) = some parts := by
            rw [toDocuments_eq_map]
            apply readList?_inJson
            intro part hpart
            apply ih .held (isFinite_group.1 hfinite part hpart)
            rw [height] at hlevels
            have hle := height_le_heightAll hpart
            omega
          have hchildren : Fields.required ⟨entries, false⟩ "children"
              (readList? .held (readWithin levels .held)) = some parts :=
            required_of_lookup (hlookup "children") hparts
          rw [toDocument, hvalue, readWithin, htag]
          simp only [Option.bind_eq_bind, Option.bind_some, String.reduceEq, if_false,
            fields?_ofFields]
          rw [hkind, hresult, hchildren]
          rfl

mutual

theorem height_le_depth (trace : Trace) :
    trace.height ≤ (trace.toDocument.inJson order).depth := by
  cases trace with
  | leaf found => exact one_le_depth _
  | group quantifier result parts =>
      obtain ⟨entries, hvalue, hlookup⟩ := exists_fields_inJson order
        [("node", .text "combinator"), ("kind", .text quantifier.name),
          ("result", .bool result), ("children", .list (toDocuments parts))]
        (by decide : ["node", "kind", "result", "children"].Nodup)
      have hchildren : entries.lookup "children" =
          some ((Document.list (toDocuments parts)).inJson order) := hlookup "children"
      have hdepth := depth_lt_of_lookup hchildren
      have hparts := heightAll_le_depthOfItems parts
      rw [inJson_list, depth] at hdepth
      rw [toDocument, hvalue, height]
      omega

theorem heightAll_le_depthOfItems (parts : List Trace) :
    heightAll parts ≤ depthOfItems ((toDocuments parts).map (inJson order)) := by
  cases parts with
  | nil => exact Nat.zero_le _
  | cons part parts =>
      have hpart := height_le_depth part
      have hparts := heightAll_le_depthOfItems parts
      rw [heightAll, toDocuments, List.map_cons, depthOfItems]
      omega

end

theorem ofDocument?_inJson (lax : Leniency) {trace : Trace} (hfinite : trace.IsFinite) :
    ofDocument? lax (trace.toDocument.inJson order) = some trace :=
  readWithin_inJson lax hfinite (height_le_depth trace)

/-- A record is not null. -/
theorem asOption?_inJson (lax : Leniency) {trace : Trace} (hfinite : trace.IsFinite) :
    (trace.toDocument.inJson order).asOption? (ofDocument? lax) = some (some trace) := by
  have hread : ofDocument? lax (trace.toDocument.inJson order) = some trace :=
    ofDocument?_inJson lax hfinite
  cases trace <;> exact congrArg (Option.map some) hread

end Trace

namespace Suppression

/-- The number of days that remain has 64 bits. -/
def IsExpressible : Suppression → Prop
  | cooldown _ daysRemaining =>
      Int64.minValue.toInt ≤ daysRemaining ∧ daysRemaining ≤ Int64.maxValue.toInt
  | dailyCap _ _ => True

theorem ofDocument?_inJson (lax : Leniency) {reason : Suppression}
    (hexpressible : reason.IsExpressible) :
    ofDocument? lax (reason.toDocument.inJson order) = some reason := by
  cases reason with
  | cooldown last daysRemaining =>
      obtain ⟨entries, hvalue, hlookup⟩ := exists_fields_inJson order
        [("reason", .text "cooldown"), ("last_triggered_on", writeDay last),
          ("days_remaining", .int daysRemaining)]
        (by decide : ["reason", "last_triggered_on", "days_remaining"].Nodup)
      have htag := tagged?_ofFields lax (hlookup "reason")
        (by decide : "cooldown" ∈ ["cooldown", "daily_cap"])
      have hlast : Fields.required ⟨entries, false⟩ "last_triggered_on" readDay? = some last :=
        required_of_lookup (hlookup "last_triggered_on") (readDay?_writeDay last)
      have hdays : Fields.required ⟨entries, false⟩ "days_remaining" readRemaining =
          some daysRemaining :=
        required_of_lookup (hlookup "days_remaining") (if_pos hexpressible)
      rw [toDocument, hvalue, ofDocument?, htag]
      simp only [Option.bind_eq_bind, Option.bind_some, if_true, fields?_ofFields]
      rw [hlast, hdays]
      rfl
  | dailyCap count maxPerDay =>
      obtain ⟨entries, hvalue, hlookup⟩ := exists_fields_inJson order
        [("reason", .text "daily_cap"), ("count_today", writeUInt32 count),
          ("max_per_day", writeUInt32 maxPerDay)]
        (by decide : ["reason", "count_today", "max_per_day"].Nodup)
      have htag := tagged?_ofFields lax (hlookup "reason")
        (by decide : "daily_cap" ∈ ["cooldown", "daily_cap"])
      have hcount : Fields.required ⟨entries, false⟩ "count_today" asUInt32? = some count :=
        required_of_lookup (hlookup "count_today") (asUInt32?_writeUInt32 count)
      have hcap : Fields.required ⟨entries, false⟩ "max_per_day" asUInt32? = some maxPerDay :=
        required_of_lookup (hlookup "max_per_day") (asUInt32?_writeUInt32 maxPerDay)
      rw [toDocument, hvalue, ofDocument?, htag]
      simp only [Option.bind_eq_bind, Option.bind_some, String.reduceEq, if_false,
        fields?_ofFields]
      rw [hcount, hcap]
      rfl

end Suppression

namespace RuleStatus

def IsExpressible : RuleStatus → Prop
  | suppressed reason => reason.IsExpressible
  | _ => True

theorem names_fields (status : RuleStatus) : status.fields.map Prod.fst ∈
    [["status"], ["status", "reason"], ["status", "message_id"], ["status", "error"]] := by
  cases status <;> simp [fields]

/-- A status is read from among the fields of a record that has others too, as
long as they have other names. -/
theorem ofDocument?_ofFields (order : FieldOrder) {status : RuleStatus}
    (hexpressible : status.IsExpressible) {entries : List (String × Document)}
    (hlookup : ∀ name ∈ ["status", "reason", "message_id", "error"],
      entries.lookup name = (status.fields.lookup name).map (inJson order)) :
    ofDocument? (ofFields entries) = some status := by
  have hstatus := hlookup "status" (by decide)
  cases status with
  | notMatched =>
      have htag := tagged?_ofFields .held hstatus (by decide : "not_matched" ∈ names)
      rw [ofDocument?, htag]
      rfl
  | suppressed reason =>
      have htag := tagged?_ofFields .held hstatus (by decide : "suppressed" ∈ names)
      have hreason : Fields.required ⟨entries, false⟩ "reason" (Suppression.ofDocument? .held) =
          some reason :=
        required_of_lookup (hlookup "reason" (by decide))
          (Suppression.ofDocument?_inJson .held hexpressible)
      rw [ofDocument?, htag]
      simp only [Option.bind_eq_bind, Option.bind_some, fields?_ofFields]
      rw [hreason]
      rfl
  | admitted messageId =>
      have htag := tagged?_ofFields .held hstatus (by decide : "admitted" ∈ names)
      have hmessage : Fields.required ⟨entries, false⟩ "message_id" asText? = some messageId :=
        required_of_lookup (hlookup "message_id" (by decide)) rfl
      rw [ofDocument?, htag]
      simp only [Option.bind_eq_bind, Option.bind_some, fields?_ofFields]
      rw [hmessage]
      rfl
  | skipped error =>
      have htag := tagged?_ofFields .held hstatus (by decide : "skipped" ∈ names)
      have herror : Fields.required ⟨entries, false⟩ "error" asText? = some error :=
        required_of_lookup (hlookup "error" (by decide)) rfl
      rw [ofDocument?, htag]
      simp only [Option.bind_eq_bind, Option.bind_some, fields?_ofFields]
      rw [herror]
      rfl

end RuleStatus

namespace RuleEntry

structure IsExpressible (entry : RuleEntry) : Prop where
  status : entry.status.IsExpressible
  trace : ∀ trace, entry.trace = some trace → trace.IsFinite

theorem ofDocument?_inJson (lax : Leniency) {entry : RuleEntry}
    (hexpressible : entry.IsExpressible) :
    ofDocument? lax (entry.toDocument.inJson order) = some entry := by
  have hnodup : ∀ names ∈ [["status"], ["status", "reason"], ["status", "message_id"],
      ["status", "error"]], ∀ last ∈ [[], ["trace"]],
        (["rule_id", "priority"] ++ names ++ last).Nodup := by
    decide
  obtain ⟨entries, hvalue, hlookup⟩ := exists_fields_inJson order
    ([("rule_id", .text entry.rule), ("priority", writeInt32 entry.priority)] ++
      entry.status.fields ++ optionalField "trace" Trace.toDocument entry.trace)
    (by
      rw [List.map_append, List.map_append]
      exact hnodup _ (RuleStatus.names_fields _) _ (names_optionalField _ _ _))
  have hstatus : RuleStatus.ofDocument? (ofFields entries) = some entry.status := by
    apply RuleStatus.ofDocument?_ofFields order hexpressible.status
    intro name hname
    rw [hlookup, List.lookup_append, List.lookup_append, lookup_optionalField]
    simp only [List.mem_cons, List.not_mem_nil, or_false] at hname
    rcases hname with rfl | rfl | rfl | rfl <;> simp [List.lookup_cons]
  have htrace : Fields.optional ⟨entries, false⟩ "trace" (Trace.ofDocument? lax) =
      some entry.trace := by
    apply optional_inJson order Trace.toDocument
    · have hnone : entry.status.fields.lookup "trace" = none := by
        cases entry.status <;> simp [RuleStatus.fields, List.lookup_cons]
      simp [hlookup, List.lookup_append, lookup_optionalField, hnone, List.lookup_cons]
    · intro trace htrace
      exact Trace.asOption?_inJson lax (hexpressible.trace trace htrace)
  have hrule : Fields.required ⟨entries, false⟩ "rule_id" asText? = some entry.rule :=
    required_of_lookup (hlookup "rule_id") rfl
  have hpriority : Fields.required ⟨entries, false⟩ "priority" asInt32? = some entry.priority :=
    required_of_lookup (hlookup "priority") (asInt32?_writeInt32 entry.priority)
  rw [toDocument, hvalue, ofDocument?, fields?_ofFields, Option.bind_eq_bind, Option.bind_some,
    hrule, hpriority, hstatus, htrace]
  rfl

end RuleEntry

/-! ## Alerts and simulations -/

namespace AlertEvent

theorem lookup_unlessEmpty (name other : String) (items : List String) :
    (unlessEmpty name items).lookup other =
      if other = name ∧ items ≠ [] then some (.texts items) else none := by
  cases items with
  | nil => simp [unlessEmpty]
  | cons item items =>
      by_cases hname : other = name
      · simp [unlessEmpty, hname]
      · simp [unlessEmpty, hname, List.lookup_cons, beq_false_of_ne hname]

theorem ofDocument?_inJson (lax : Leniency) {event : AlertEvent} (hfinite : event.why.IsFinite) :
    ofDocument? lax (event.toDocument.inJson order) = some event := by
  have hnodup : ((([("rule_id", .text event.rule), ("user_id", .text event.user),
      ("tenant_id", .text event.tenant), ("date", writeDay event.day),
      ("category", .text event.category), ("priority", writeInt32 event.priority),
      ("severity", writeInt32 event.severity), ("locale", .text event.locale),
      ("message_id", .text event.messageId), ("message_text", .text event.text)] ++
        unlessEmpty "warnings" event.warnings ++
          [("why", event.why.toDocument)]) : List (String × Document)).map Prod.fst).Nodup := by
    rw [unlessEmpty]
    split
    · exact (by decide : (fieldNames.erase "warnings").Nodup)
    · exact (by decide : fieldNames.Nodup)
  obtain ⟨entries, hvalue, hlookup⟩ := exists_fields_inJson order _ hnodup
  have hwarnings : Fields.withDefault ⟨entries, false⟩ "warnings" [] (readList? lax asText?) =
      some event.warnings := by
    have hfound : entries.lookup "warnings" =
        (if event.warnings ≠ [] then some (.texts event.warnings) else none).map
          (inJson order) := by
      rw [hlookup]
      simp [List.lookup_append, lookup_unlessEmpty, List.lookup_cons]
    rw [Fields.withDefault, hfound]
    by_cases hwarnings : event.warnings = []
    · simp [hwarnings]
    · rw [if_pos hwarnings]
      exact readList?_texts lax event.warnings
  have hwhy : Fields.required ⟨entries, false⟩ "why" (Trace.ofDocument? lax) = some event.why := by
    have hfound : entries.lookup "why" = some (event.why.toDocument.inJson order) := by
      rw [hlookup]
      simp [List.lookup_append, lookup_unlessEmpty, List.lookup_cons]
    exact required_of_lookup hfound (Trace.ofDocument?_inJson lax hfinite)
  have hrule : Fields.required ⟨entries, false⟩ "rule_id" asText? = some event.rule :=
    required_of_lookup (hlookup "rule_id") rfl
  have huser : Fields.required ⟨entries, false⟩ "user_id" asText? = some event.user :=
    required_of_lookup (hlookup "user_id") rfl
  have htenant : Fields.required ⟨entries, false⟩ "tenant_id" asText? = some event.tenant :=
    required_of_lookup (hlookup "tenant_id") rfl
  have hday : Fields.required ⟨entries, false⟩ "date" readDay? = some event.day :=
    required_of_lookup (hlookup "date") (readDay?_writeDay event.day)
  have hcategory : Fields.required ⟨entries, false⟩ "category" asText? = some event.category :=
    required_of_lookup (hlookup "category") rfl
  have hpriority : Fields.required ⟨entries, false⟩ "priority" asInt32? = some event.priority :=
    required_of_lookup (hlookup "priority") (asInt32?_writeInt32 event.priority)
  have hseverity : Fields.required ⟨entries, false⟩ "severity" asInt32? = some event.severity :=
    required_of_lookup (hlookup "severity") (asInt32?_writeInt32 event.severity)
  have hlocale : Fields.required ⟨entries, false⟩ "locale" asText? = some event.locale :=
    required_of_lookup (hlookup "locale") rfl
  have hmessage : Fields.required ⟨entries, false⟩ "message_id" asText? = some event.messageId :=
    required_of_lookup (hlookup "message_id") rfl
  have htext : Fields.required ⟨entries, false⟩ "message_text" asText? = some event.text :=
    required_of_lookup (hlookup "message_text") rfl
  change ofDocument? lax ((ofFields _).inJson order) = some event
  rw [hvalue, ofDocument?, fields?_ofFields, Option.bind_eq_bind, Option.bind_some, hrule, huser,
    htenant, hday, hcategory, hpriority, hseverity, hlocale, hmessage, htext, hwarnings, hwhy]
  rfl

end AlertEvent

theorem SimulationMode.ofDocument?_name (lax : Leniency) (mode : SimulationMode) :
    SimulationMode.ofDocument? lax (.text mode.name) = some mode := by
  cases mode <;> rfl

namespace Simulation

/-- A simulation with no number in it that JSON cannot express. -/
structure IsExpressible (simulation : Simulation) : Prop where
  count : simulation.count < UInt64.size
  events : ∀ event ∈ simulation.events, event.why.IsFinite
  rules : ∀ rules, simulation.rules = some rules → ∀ entry ∈ rules, entry.IsExpressible

theorem ofDocument?_inJson (lax : Leniency) {simulation : Simulation}
    (hexpressible : simulation.IsExpressible) :
    ofDocument? lax (simulation.toDocument.inJson order) = some simulation := by
  obtain ⟨entries, hvalue, hlookup⟩ := exists_fields_inJson order
    ([("count", .int simulation.count),
        ("events", .list (simulation.events.map AlertEvent.toDocument)),
        ("mode", .text simulation.mode.name)] ++
      optionalField "rules" (fun rules => .list (rules.map RuleEntry.toDocument))
        simulation.rules)
    (by
      cases simulation.rules with
      | none => exact (by decide : ["count", "events", "mode"].Nodup)
      | some rules => exact (by decide : ["count", "events", "mode", "rules"].Nodup))
  have hcount : Fields.required ⟨entries, false⟩ "count" asCount? = some simulation.count := by
    apply required_of_lookup (hlookup "count")
    have hbelow := hexpressible.count
    have hrange : (0 : Int) ≤ simulation.count ∧ (simulation.count : Int) ≤ UInt64.size - 1 := by
      omega
    rw [inJson_int, asCount?, asNatBelow?, asIntWithin?, if_pos hrange, Option.map_some,
      Int.toNat_natCast]
  have hevents : Fields.required ⟨entries, false⟩ "events"
      (readList? lax (AlertEvent.ofDocument? lax)) = some simulation.events :=
    required_of_lookup (hlookup "events") (readList?_inJson order lax fun event hevent =>
      AlertEvent.ofDocument?_inJson lax (hexpressible.events event hevent))
  have hmode : Fields.required ⟨entries, false⟩ "mode" (SimulationMode.ofDocument? lax) =
      some simulation.mode :=
    required_of_lookup (hlookup "mode") (SimulationMode.ofDocument?_name lax simulation.mode)
  have hrules : Fields.optional ⟨entries, false⟩ "rules"
      (readList? lax (RuleEntry.ofDocument? lax)) = some simulation.rules := by
    apply optional_inJson order fun rules => .list (rules.map RuleEntry.toDocument)
    · simp [hlookup, lookup_optionalField, List.lookup_cons]
    · intro rules hrules
      have hentries := readList?_inJson order lax fun entry hentry =>
        RuleEntry.ofDocument?_inJson lax (hexpressible.rules rules hrules entry hentry)
      exact congrArg (Option.map some) hentries
  rw [toDocument, hvalue, ofDocument?, fields?_ofFields, Option.bind_eq_bind, Option.bind_some,
    hcount, hevents, hmode, hrules]
  rfl

end Simulation

namespace Report

/-- What is stored and reported of an evaluation is read back from its values in
JSON, in whatever order the fields stand there, as long as the numbers in it are
finite and fit into 64 bits: traces of any shape, what became of a rule with every
status and reason, alerts, simulations, and records of histories. -/
theorem parts_read_back (order : FieldOrder) (lax : Leniency) :
    (∀ trace : Trace, trace.IsFinite →
      Trace.ofDocument? lax (trace.toDocument.inJson order) = some trace) ∧
    (∀ entry : RuleEntry, entry.IsExpressible →
      RuleEntry.ofDocument? lax (entry.toDocument.inJson order) = some entry) ∧
    (∀ event : AlertEvent, event.why.IsFinite →
      AlertEvent.ofDocument? lax (event.toDocument.inJson order) = some event) ∧
    (∀ simulation : Simulation, simulation.IsExpressible →
      Simulation.ofDocument? lax (simulation.toDocument.inJson order) = some simulation) ∧
    ∀ record : HistoryRecord,
      HistoryRecord.ofDocument? (record.toDocument.inJson order) = some record :=
  ⟨fun _ => Trace.ofDocument?_inJson lax, fun _ => RuleEntry.ofDocument?_inJson lax,
    fun _ => AlertEvent.ofDocument?_inJson lax, fun _ => Simulation.ofDocument?_inJson lax,
    HistoryRecord.ofDocument?_inJson order⟩

def shortTrace : Trace :=
  .group .any true
    [.leaf ⟨"steps", .mean7, .less, .one 4000, some 3500.5, true, none⟩,
      .group .noneOf true
        [.leaf ⟨"sleep", .zscore28, .between, .many [-1, 1], none, false,
          some (.insufficient "3 of 28 days")⟩]]

def shortSimulation : Simulation where
  count := 0
  events := []
  mode := .dryRun
  rules := some
    [⟨"rest", 50, .suppressed (.cooldown .first 2), some shortTrace⟩,
      ⟨"steps", -1, .skipped "unknown metric", none⟩]

theorem parts_read_back_shortSimulation :
    shortTrace.IsFinite ∧
    Trace.ofDocument? .handed (shortTrace.toDocument.inJson .byName) = some shortTrace ∧
    shortSimulation.IsExpressible ∧
    Simulation.ofDocument? .handed (shortSimulation.toDocument.inJson .byName) =
      some shortSimulation := by
  have htrace : shortTrace.IsFinite := by decide +kernel
  have hsimulation : shortSimulation.IsExpressible := by
    refine ⟨by decide, List.forall_mem_nil _, ?_⟩
    rintro rules ⟨⟩
    rw [List.forall_mem_cons, List.forall_mem_singleton]
    refine ⟨⟨⟨by decide, by decide⟩, ?_⟩, ⟨trivial, ?_⟩⟩
    · rintro trace ⟨⟩
      exact htrace
    · rintro trace ⟨⟩
  obtain ⟨htraces, -, -, hsimulations, -⟩ := parts_read_back .byName .handed
  exact ⟨htrace, htraces shortTrace htrace, hsimulation,
    hsimulations shortSimulation hsimulation⟩

end Report

end MetricAlerts
