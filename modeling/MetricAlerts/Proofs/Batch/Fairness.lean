import MetricAlerts.Proofs.Batch.Rotation

/-!
# Turns in the order of the line

Who stands in the line of a rotation is served after those in front of it, and
after each of them once.  Nobody can get in between: a tenant that joins the
line goes to its end, and so does one that has had its turn.  A tenant that has
left the line is owed nothing, so what the others get until it comes back is
not bounded.
-/

namespace MetricAlerts

namespace Rotation

variable {rotation : Rotation Task} {tenant : String}

/-- What the turns among some calls answer. -/
def answers (rotation : Rotation Task) : List RotationCall → List (Option Task)
  | [] => []
  | .enqueue task :: calls => (rotation.enqueue task.tenant task).answers calls
  | .next :: calls => rotation.next.1 :: rotation.next.2.answers calls

/-- The tenants whose tasks are given out among some calls. -/
def served (rotation : Rotation Task) (calls : List RotationCall) : List String :=
  (rotation.answers calls).filterMap (Option.map Task.tenant)

/-- The oldest task of everyone in the line. -/
def heads (rotation : Rotation Task) : List (Option Task) :=
  rotation.line.map fun tenant => (rotation.jobsOf tenant).head?

@[simp]
theorem length_heads (rotation : Rotation Task) :
    rotation.heads.length = rotation.line.length :=
  List.length_map _

theorem InStep.heads_enqueue (hstep : rotation.InStep) (task : Task) :
    rotation.heads <+: (rotation.enqueue task.tenant task).heads := by
  have hline : rotation.line <+: (rotation.enqueue task.tenant task).line := by
    simp only [Rotation.enqueue]
    split
    · exact List.prefix_refl _
    · exact List.prefix_append ..
  have hsame : rotation.heads = rotation.line.map fun tenant =>
      ((rotation.enqueue task.tenant task).jobsOf tenant).head? := by
    apply List.map_congr_left
    intro tenant htenant
    have hjobs := (hstep.mem_line_iff tenant).1 htenant
    rw [jobsOf_enqueue]
    split
    · next hown =>
        subst hown
        rw [List.head?_append_of_ne_nil _ hjobs]
    · rfl
  rw [hsame]
  exact hline.map _

/-- A turn takes the first of the line and leaves the others in their places. -/
theorem InStep.heads_next (hstep : rotation.InStep) (hline : rotation.line ≠ []) :
    ∃ behind, rotation.heads = rotation.next.1 :: behind ∧ behind <+: rotation.next.2.heads := by
  rcases hstep.next_cases with
    ⟨hnil, -⟩ | ⟨tenant, line, task, queue, hcons, hjobs, htask, hnext, hfind, -⟩
  · exact absurd hnil hline
  have hnodup := hstep.nodup
  rw [hcons, List.nodup_cons] at hnodup
  refine ⟨line.map fun tenant => (rotation.jobsOf tenant).head?, ?_, ?_⟩
  · rw [heads, hcons, List.map_cons, hjobs, htask]
    rfl
  · have hbehind : line <+: rotation.next.2.line := by
      rw [hnext]
      split
      · exact List.prefix_refl _
      · exact List.prefix_append ..
    have hsame : (line.map fun tenant => (rotation.jobsOf tenant).head?) =
        line.map fun tenant => (rotation.next.2.jobsOf tenant).head? := by
      apply List.map_congr_left
      intro other hother
      have hne : other ≠ tenant := fun heq => hnodup.1 (heq ▸ hother)
      rw [jobsOf, jobsOf, hfind, if_neg hne]
    rw [hsame]
    exact hbehind.map _

theorem take_eq_of_prefix {α : Type} {front whole : List α} {count : Nat}
    (hwhole : front <+: whole) (hcount : count ≤ front.length) :
    whole.take count = front.take count := by
  obtain ⟨rest, rfl⟩ := hwhole
  exact List.take_append_of_le_length hcount

/-- As many turns as the line is long go by the line as it stands. -/
theorem InStep.take_answers (hstep : rotation.InStep) (calls : List RotationCall) {count : Nat}
    (hline : count ≤ rotation.line.length) (hcount : count ≤ (rotation.answers calls).length) :
    (rotation.answers calls).take count = rotation.heads.take count := by
  induction calls generalizing rotation count with
  | nil =>
      obtain rfl : count = 0 := Nat.le_zero.1 hcount
      rw [List.take_zero, List.take_zero]
  | cons call calls ih =>
      cases call with
      | enqueue task =>
          have hheads := hstep.heads_enqueue task
          have hlength := hheads.length_le
          rw [length_heads, length_heads] at hlength
          rw [← take_eq_of_prefix hheads (by rwa [length_heads])]
          exact ih (hstep.enqueue task.tenant task) (Nat.le_trans hline hlength) hcount
      | next =>
          cases count with
          | zero => rw [List.take_zero, List.take_zero]
          | succ count =>
              have hne : rotation.line ≠ [] := by
                rintro hnil
                rw [hnil] at hline
                cases hline
              obtain ⟨behind, hheads, hbehind⟩ := hstep.heads_next hne
              have hwidth := congrArg List.length hheads
              rw [length_heads, List.length_cons] at hwidth
              have hlength := hbehind.length_le
              rw [length_heads] at hlength
              have hleft : count ≤ behind.length := by omega
              rw [hheads, List.take_succ_cons, ← take_eq_of_prefix hbehind hleft]
              change (rotation.next.1 :: rotation.next.2.answers calls).take (count + 1) = _
              rw [List.take_succ_cons, ih hstep.next (Nat.le_trans hleft hlength)
                (Nat.le_of_succ_le_succ hcount)]

end Rotation

namespace Dispatch

variable {dispatch : Dispatch} {tasks : List Task} {tenant : String}

/-- The oldest task of everyone in the line is a task of that tenant. -/
theorem AccountsFor.heads_tenant (hdispatch : dispatch.AccountsFor tasks) :
    dispatch.rotation.heads.map (Option.map Task.tenant) = dispatch.rotation.line.map some := by
  rw [Rotation.heads, List.map_map]
  apply List.map_congr_left
  intro tenant htenant
  obtain ⟨task, queue, hjobs⟩ := List.exists_cons_of_ne_nil
    ((hdispatch.inStep.mem_line_iff tenant).1 htenant)
  have hown := hdispatch.tenant_eq (hjobs ▸ List.mem_cons_self)
  simp [hjobs, hown]

/-- As many turns as the line is long serve the tenants of the line in their
order. -/
theorem AccountsFor.take_answers_tenant (hdispatch : dispatch.AccountsFor tasks)
    (calls : List RotationCall) {count : Nat} (hline : count ≤ dispatch.rotation.line.length)
    (hcount : count ≤ (dispatch.rotation.answers calls).length) :
    ((dispatch.rotation.answers calls).take count).map (Option.map Task.tenant) =
      (dispatch.rotation.line.take count).map some := by
  rw [hdispatch.inStep.take_answers calls hline hcount, List.map_take, hdispatch.heads_tenant,
    List.map_take]

/-- While somebody in the line goes without a turn, nobody else has two. -/
theorem AccountsFor.nodup_served (hdispatch : dispatch.AccountsFor tasks)
    (htenant : tenant ∈ dispatch.rotation.line) {calls : List RotationCall}
    (hunserved : tenant ∉ dispatch.rotation.served calls) :
    (dispatch.rotation.served calls).Nodup := by
  have hshort : (dispatch.rotation.answers calls).length ≤ dispatch.rotation.line.length := by
    by_contra hlong
    apply hunserved
    have hall := hdispatch.take_answers_tenant calls (Nat.le_refl _) (Nat.le_of_not_le hlong)
    rw [List.take_length] at hall
    have hmem : some tenant ∈ dispatch.rotation.line.map some := List.mem_map_of_mem htenant
    rw [← hall] at hmem
    obtain ⟨answer, hanswer, hserved⟩ := List.mem_map.1 hmem
    exact List.mem_filterMap.2 ⟨answer, List.mem_of_mem_take hanswer, hserved⟩
  have hserved := hdispatch.take_answers_tenant calls hshort (Nat.le_refl _)
  rw [List.take_length] at hserved
  have hfront : dispatch.rotation.served calls =
      dispatch.rotation.line.take (dispatch.rotation.answers calls).length := by
    have hmap := congrArg (List.filterMap id) hserved
    rwa [List.filterMap_map, List.filterMap_map, Function.id_comp, Function.id_comp,
      List.filterMap_some] at hmap
  rw [hfront]
  exact (List.take_sublist ..).nodup hdispatch.inStep.nodup

/-- A tenant with more than one task goes back to the line after its turn. -/
theorem AccountsFor.mem_line_next (hdispatch : dispatch.AccountsFor tasks) {task : Task}
    (hgiven : dispatch.rotation.next.1 = some task)
    (hmore : 1 < (dispatch.rotation.jobsOf task.tenant).length) :
    task.tenant ∈ dispatch.rotation.next.2.line := by
  rcases hdispatch.inStep.next_cases with
    ⟨-, hnone⟩ | ⟨tenant, line, first, queue, -, hjobs, hfirst, hnext, -, -⟩
  · rw [hnone] at hgiven
    cases hgiven
  · rw [hgiven] at hfirst
    cases hfirst
    have hown : task.tenant = tenant := hdispatch.tenant_eq (hjobs ▸ List.mem_cons_self)
    rw [hown, hjobs, List.length_cons, Nat.lt_add_left_iff_pos] at hmore
    rw [hnext, if_neg (List.ne_nil_of_length_pos hmore), hown]
    exact List.mem_append_right _ List.mem_cons_self

/-- A tenant is given one task after the calls and another one after the calls
`between`, and none in the meantime. -/
structure Consecutive (calls between : List RotationCall) (first second : Task) : Prop where
  given : (run calls).rotation.next.1 = some first
  givenLater : (run (calls ++ .next :: between)).rotation.next.1 = some second
  sameTenant : second.tenant = first.tenant
  unserved : first.tenant ∉ (run calls).rotation.next.2.served between

/-- Whoever stands in the line is served when all in front have been served
once, in their order, whatever is handed in meanwhile.  So nobody else is served
twice while a tenant stands in the line; in particular not between two tasks of
a tenant that had more than the first one waiting when it was given that. -/
theorem answers_take_eq_tenants_take (calls : List RotationCall) :
    let rotation := (run calls).rotation
    (∀ later place tenant, rotation.tenants[place]? = some tenant →
      place < (rotation.answers later).length →
        (∃ task, (rotation.jobsOf tenant).head? = some task ∧ task.tenant = tenant ∧
          (rotation.answers later)[place]? = some (some task)) ∧
        ((rotation.answers later).take place).map (Option.map Task.tenant) =
          (rotation.tenants.take place).map some) ∧
    (∀ later, ∀ tenant ∈ rotation.tenants, tenant ∉ rotation.served later →
      (rotation.served later).Nodup) ∧
    ∀ between first second, Consecutive calls between first second →
      1 < (rotation.jobsOf first.tenant).length → (rotation.next.2.served between).Nodup := by
  intro rotation
  have hrun := accountsFor_run calls
  refine ⟨?_, ?_, ?_⟩
  · intro later place tenant hplace hturns
    obtain ⟨hline, htenant⟩ := List.getElem?_eq_some_iff.1 hplace
    refine ⟨?_, hrun.take_answers_tenant later (Nat.le_of_lt hline) (Nat.le_of_lt hturns)⟩
    have hmem : tenant ∈ rotation.line := htenant ▸ List.getElem_mem hline
    obtain ⟨task, queue, hjobs⟩ := List.exists_cons_of_ne_nil
      ((hrun.inStep.mem_line_iff tenant).1 hmem)
    refine ⟨task, congrArg List.head? hjobs, hrun.tenant_eq (hjobs ▸ List.mem_cons_self), ?_⟩
    have htake := congrArg (fun answers => answers[place]?) (hrun.inStep.take_answers later
      (Nat.succ_le_of_lt hline) (Nat.succ_le_of_lt hturns))
    simp only [List.getElem?_take_of_succ] at htake
    have hheads : rotation.heads[place]? = some (rotation.jobsOf tenant).head? := by
      rw [Rotation.heads, List.getElem?_map, show rotation.line[place]? = some tenant from hplace]
      rfl
    rw [htake, hheads, hjobs]
    rfl
  · intro later tenant htenant hunserved
    exact hrun.nodup_served htenant hunserved
  · intro between first second hconsecutive hmore
    have hmem := hrun.mem_line_next hconsecutive.given hmore
    exact hrun.next.nodup_served hmem hconsecutive.unserved

def numberedTask (tenant id : String) : Task :=
  ⟨⟨id⟩, tenant, "ada", Day.first, .evaluate, ⟨0, 0⟩⟩

/-- Nobody waits for a tenant that has left the line.  Between its last task
and the next one that it hands in, another tenant can be served twice. -/
theorem served_twice_while_away :
    let first := numberedTask "acme" "a"
    let second := numberedTask "acme" "d"
    let calls : List RotationCall := [.enqueue first]
    let between : List RotationCall :=
      [.enqueue (numberedTask "brio" "b"), .next, .enqueue (numberedTask "brio" "c"), .next,
        .enqueue second]
    Consecutive calls between first second ∧
      (run calls).rotation.next.2.served between = ["brio", "brio"] := by
  refine ⟨⟨?_, ?_, ?_, ?_⟩, ?_⟩ <;> decide +kernel

end Dispatch

end MetricAlerts
