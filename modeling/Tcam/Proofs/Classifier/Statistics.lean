import Tcam.Proofs.Classifier.History
import Tcam.Proofs.Table.Statistics

/-!
# Statistics of runs

The statistics of a table next to the history of its device and to what the calls of a
run return, with faults, delays and a stuck busy bit at any point of it
(`statistics_of_run`).  Errors are counted exactly.  Of the operations that the history
shows to be complete, one for each failure of the hardware may be missing.
-/

namespace Tcam.Classifier

open Table (Posted Charged)

variable {c : Classifier} {l : Lock (Table.State (Device c.table.geometry))}

/-- The error that a call returns, if it carries out an operation and that fails. -/
def error? (c : Classifier) (call : Call) (l : Lock (Table.State (Device c.table.geometry))) :
    Option Error := do
  let op ← call.operation?
  match (c.carryOut op).result l with
  | .ok _ => none
  | .error e => some e

/-- The errors that the calls of a run return, in order. -/
def errors (c : Classifier) :
    List Call → Lock (Table.State (Device c.table.geometry)) → List Error
  | [], _ => []
  | call :: calls, l => (c.error? call l).toList ++ c.errors calls (c.after call l)

section Calls

variable (hvalid : c.table.geometry.Valid)

include hvalid

/-- An operation that gives a result has counted all that it has executed. -/
theorem carryOut_tallied (hl : l.poisoned = false) (op : Operation) :
    Transaction.Ends c.table.pollLimit (c.carryOut op) l
      (fun _ s' => Posted l.content s' [] []) (fun e s' => Charged l.content [e] s') := by
  refine carryOut_ends hl (fun e h => ?_) fun m hm => ?_
  · exact Table.charged_of_throw (isRefusal_of_script h).not_retryable
  · refine (Table.tallied_of_basic hvalid (basic_script hm) l.content).mono ?_ ?_
    · exact fun _ _ h => h.idle
    · exact fun _ _ h => h.idle

/-- A call counts the error that it returns, unless it clears the history. -/
theorem after_charged (hl : l.poisoned = false) {call : Call} (hcall : call ≠ .clearHistory) :
    Charged l.content (c.error? call l).toList (c.after call l).content := by
  rcases after_cases c call l with ⟨op, hcalled, hop⟩ | ⟨hcalled, f, hf, hkept⟩
  · rw [hop]
    unfold error? Transaction.after Transaction.result
    rw [hcalled]
    rcases (carryOut_tallied hvalid hl op).cases with
      ⟨a, l', hrun, -, -, h⟩ | ⟨e, l', hrun, -, -, h⟩
    · simp only [Option.bind_eq_bind, Option.bind_some, hrun]
      exact h.charged
    · simp only [Option.bind_eq_bind, Option.bind_some, hrun]
      exact h
  · have hhistory := (hkept l.content.bus).2.resolve_left hcall
    rw [hf]
    unfold error?
    rw [hcalled]
    exact Posted.charged (.of_stats rfl fun k => congrArg k.executed hhistory)

/-- A run counts the errors that it returns. -/
theorem afterRun_charged (hl : l.poisoned = false) {calls : List Call}
    (hcalls : .clearHistory ∉ calls) :
    Charged l.content (c.errors calls l) (c.afterRun calls l).content := by
  induction calls generalizing l with
  | nil => exact (Posted.refl l.content).charged
  | cons call calls ih =>
      have hcall : call ≠ .clearHistory := fun h => hcalls (h ▸ List.mem_cons_self)
      have hrest : .clearHistory ∉ calls := fun h => hcalls (List.mem_cons_of_mem call h)
      exact (after_charged hvalid hl hcall).trans (ih (after_evolves hvalid hl call).1 hrest)

end Calls

/-- After a run of calls from a fresh device, the statistics have as many transport
errors and busy timeouts as calls returned.  No operation is counted that the history
does not show to be complete, and of those that it shows, no more are missing than there
were failures of the hardware.  Without such a failure none is missing. -/
theorem statistics_of_run (hvalid : c.table.geometry.validate = .ok ()) {calls : List Call}
    (hcalls : .clearHistory ∉ calls) :
    let l := Lock.ofContent (.ofBus (.fresh c.table.geometry))
    let errors := c.errors calls l
    let stats := (c.afterRun calls l).content.stats
    let log := (c.afterRun calls l).content.bus.history
    let missing (k : Counter) := k.executed log - k.value stats
    stats.transportErrors = errors.countP Error.isTransport ∧
    stats.busyTimeouts = errors.countP Error.isBusyTimeout ∧
    (∀ k : Counter, k.value stats ≤ k.executed log) ∧
    missing .flushes + missing .loads + missing .getNext + missing .reads ≤
      stats.transportErrors + stats.busyTimeouts ∧
    ((∀ e ∈ errors, e.isRetryable = false) → ∀ k : Counter, k.value stats = k.executed log) := by
  intro l errors stats log missing
  have hgeometry := Geometry.validate_eq_ok_iff.mp hvalid
  obtain ⟨left, hposted, hleft⟩ : Charged l.content errors (c.afterRun calls l).content :=
    afterRun_charged hgeometry rfl hcalls
  -- A fresh table has counted nothing, and its device has executed nothing.
  have hbalance (k : Counter) : k.executed log = k.value stats + left.count k := by
    have hfresh : k.value l.content.stats = 0 := by
      cases k <;> rfl
    have hempty : k.executed l.content.bus.history = 0 := rfl
    have h : k.executed log + k.value l.content.stats =
        k.executed l.content.bus.history + k.value stats + left.count k := hposted.balance k
    omega
  have htransport : stats.transportErrors = errors.countP Error.isTransport :=
    hposted.transportErrors.trans (Nat.zero_add _)
  have hbusy : stats.busyTimeouts = errors.countP Error.isBusyTimeout :=
    hposted.busyTimeouts.trans (Nat.zero_add _)
  refine ⟨htransport, hbusy, fun k => ?_, ?_, fun hcalm k => ?_⟩
  · exact hbalance k ▸ Nat.le_add_right _ _
  · have hmissing (k : Counter) : missing k = left.count k := by
      change k.executed log - k.value stats = left.count k
      rw [hbalance, Nat.add_sub_cancel_left]
    rw [hmissing, hmissing, hmissing, hmissing, ← Counter.length_eq_counts, htransport, hbusy,
      ← Error.countP_isRetryable]
    exact hleft
  · have hnone : errors.countP Error.isRetryable = 0 :=
      List.countP_eq_zero.mpr fun e he => Bool.eq_false_iff.mp (hcalm e he)
    obtain rfl := List.eq_nil_of_length_eq_zero (Nat.le_zero.mp (hnone ▸ hleft))
    exact (hbalance k).symm

/-- The last access of a load fails, after the key page has been loaded. -/
def uncountedSample : List Call :=
  [.failNthAccess 72, .configure 3#16 4#16 datagramSample]

/-- The load is complete on the device, and it is not counted. -/
theorem statistics_of_run_uncountedSample :
    let l := Lock.ofContent (.ofBus (.fresh ingressSample.table.geometry))
    let s := (ingressSample.afterRun uncountedSample l).content
    let missing (k : Counter) := k.executed s.bus.history - k.value s.stats
    ingressSample.table.geometry.validate = .ok () ∧ .clearHistory ∉ uncountedSample ∧
      (ingressSample.errors uncountedSample l).countP Error.isTransport = 1 ∧
      s.stats.transportErrors = 1 ∧ s.stats.loads = 0 ∧
      Counter.loads.executed s.bus.history = 1 ∧
      missing .flushes + missing .loads + missing .getNext + missing .reads ≤
        s.stats.transportErrors + s.stats.busyTimeouts := by
  have hcalls : .clearHistory ∉ uncountedSample := by
    simp [uncountedSample]
  obtain ⟨htransport, -, -, hmissing, -⟩ := statistics_of_run (c := ingressSample) rfl hcalls
  have herrors : (ingressSample.errors uncountedSample
      (.ofContent (.ofBus (.fresh ingressSample.table.geometry)))).countP Error.isTransport = 1 := by
    decide +kernel
  refine ⟨rfl, hcalls, herrors, ?_, by decide +kernel, by decide +kernel, ?_⟩
  · exact htransport.trans herrors
  · exact hmissing

end Tcam.Classifier
