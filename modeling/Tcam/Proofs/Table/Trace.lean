import Tcam.Proofs.Recorder
import Tcam.Proofs.Table.Composition

/-!
# The accesses of a session

Every session over a device without a pending fault makes a list of accesses, and
that list says what a fault would do: one that comes later changes nothing, and one
at the `k`-th access ends the session there, with the device as it was before that
access (`Traced`).  This holds of single accesses and is kept by all ways to put
sessions together, so it holds of every operation (`hasTrace_of_steps`).
-/

namespace Tcam

namespace Device

variable {g : Geometry} {d : Device g} {α : Type}

/-- The device with another pending fault, or with none. -/
def failing (failAt : Option Nat) (d : Device g) : Device g :=
  { d with failAt := failAt }

/-- The device with another count of accesses and another pending fault. -/
def metered (accesses : Nat) (failAt : Option Nat) (d : Device g) : Device g :=
  { d with accesses := accesses, failAt := failAt }

/-- What the access does does not depend on the count and on the pending fault. -/
def Unmetered (access : EStateM RegError (Device g) α) : Prop :=
  ∀ n failAt d, access (d.metered n failAt) = mapState (metered n failAt) (access d)

theorem perform_metered (n : Nat) (failAt : Option Nat) (c : Command) (d : Device g) :
    (d.metered n failAt).perform c = (d.perform c).metered n failAt := by
  obtain ⟨hindex, hslots, hdata⟩ := effect_congr { d with history := c :: d.history }
    { d.metered n failAt with history := c :: d.history } rfl rfl c
  rw [perform_eq c (d.metered n failAt), perform_eq c d]
  unfold perform metered at *
  simp only [hindex, hslots, hdata]

theorem unmetered_fetch (offset : RegOffset) : Unmetered (g := g) (fetch offset) := by
  intro n failAt d
  rcases fetch_kinds offset with h | h | ⟨i, -, h⟩ | h
  · rw [h, h]
    rfl
  · rw [h, h]
    rfl
  · rw [h, h]
    rfl
  · rw [h, h]
    rfl

theorem unmetered_store (offset : RegOffset) (value : Word) :
    Unmetered (g := g) (store offset value) := by
  intro n failAt d
  by_cases hstarts : Starts offset value
  · have hcommand : commandOf value (d.metered n failAt) = commandOf value d := rfl
    cases hd : commandOf value d with
    | error fault =>
        rw [store_of_fault hstarts hd, store_of_fault hstarts (hcommand.trans hd)]
        rfl
    | ok c =>
        rw [store_of_command hstarts hd, store_of_command hstarts (hcommand.trans hd),
          perform_metered]
        rfl
  · rcases store_kinds hstarts with h | ⟨-, h⟩ | ⟨i, -, h⟩ | h
    · rw [h, h]
      rfl
    · rw [h, h]
      rfl
    · rw [h, h]
      rfl
    · rw [h, h]
      rfl

end Device

namespace Table

open Session (onBus)

variable {t : Table} {α β : Type}

/-- The state with a recorder in front of the device. -/
def State.recorded {σ : Type} (log : List (Access σ)) (s : State σ) : State (Recorder σ) :=
  ⟨⟨s.bus, log⟩, s.phase, s.stats⟩

/-- The state with another pending fault of the device. -/
def State.failing {g : Geometry} (failAt : Option Nat) (s : State (Device g)) : State (Device g) :=
  { s with bus := s.bus.failing failAt }

/-- The outcome is a failed access. -/
def TransportFails {σ : Type} (r : EStateM.Result Error σ α) : Prop :=
  ∃ cause s, r = .error (.transport cause) s

/-- Run in `s`, where no fault is pending, the session makes the accesses `made`.
A fault that is pending later is still pending afterwards and makes no
difference.  A fault at one of the accesses ends the session there. -/
structure Traced (m : Script α) (s : State (Device t.geometry))
    (made : List (Access (Device t.geometry))) : Prop where
  recorded : ∀ log, m (Recorder (Device t.geometry)) (s.recorded log) =
    mapState (State.recorded (log ++ made)) (m (Device t.geometry) s)
  accesses : (endState (m (Device t.geometry) s)).bus.accesses = s.bus.accesses + made.length
  noFault : (endState (m (Device t.geometry) s)).bus.failAt = none
  errors : ¬TransportFails (m (Device t.geometry) s) →
    (endState (m (Device t.geometry) s)).stats.transportErrors = s.stats.transportErrors
  before : ∀ k access, made[k]? = some access → access.before.accesses = s.bus.accesses + k
  later : ∀ n, n ≤ s.bus.accesses ∨ s.bus.accesses + made.length < n →
    m (Device t.geometry) (s.failing (some n)) =
      mapState (State.failing (some n)) (m (Device t.geometry) s)
  failed : ∀ k access, made[k]? = some access → ∃ s',
    m (Device t.geometry) (s.failing (some (s.bus.accesses + k + 1))) =
        .error (.transport (.access access.block access.offset .injected)) s' ∧
      s'.bus = access.before.faulted ∧
      s'.stats.transportErrors = s.stats.transportErrors + 1

/-- The session makes accesses that can be listed, in any state without a fault. -/
def HasTrace (t : Table) (m : Script α) : Prop :=
  ∀ s : State (Device t.geometry), s.bus.failAt = none → ∃ made, Traced m s made

/-- A session that does not use the bus. -/
theorem hasTrace_of_silent {m : Script α} (x : Except Error α) (phase : Phase → Phase)
    (stats : Stats → Stats) (hstats : ∀ s, (stats s).transportErrors = s.transportErrors)
    (hm : ∀ {σ : Type} [RegisterBus σ] (s : State σ), m σ s = match x with
      | .ok a => .ok a ⟨s.bus, phase s.phase, stats s.stats⟩
      | .error e => .error e ⟨s.bus, phase s.phase, stats s.stats⟩) : HasTrace t m := by
  intro s hs
  refine ⟨[], ?_, ?_, ?_, ?_, nofun, ?_, nofun⟩
  · intro log
    rw [hm, hm, List.append_nil]
    cases x <;> rfl
  · rw [hm]
    cases x <;> rfl
  · rw [hm]
    cases x <;> exact hs
  · intro _
    rw [hm]
    cases x <;> exact hstats _
  · intro n _
    rw [hm, hm]
    cases x <;> rfl

theorem hasTrace_access {access : ∀ {σ : Type} [RegisterBus σ], EStateM RegError σ α}
    {offset : RegOffset} {x : EStateM RegError (Device t.geometry) α} (hx : Device.Unmetered x)
    (hdevice : ∀ d : Device t.geometry, access d =
      if d.FaultDue then .error (.access t.block offset .injected) d.faulted else x d.counted)
    (hrecorder : ∀ r : Recorder (Device t.geometry),
      access r = Recorder.pass t.block offset access r) : HasTrace t fun _ => onBus access := by
  intro s hs
  -- Unless the fault is due, the access does the same with any fault pending.
  have hrun (failAt : Option Nat) (hdue : failAt ≠ some (s.bus.accesses + 1)) :
      access (s.failing failAt).bus =
        mapState (Device.metered (s.bus.accesses + 1) failAt) (x s.bus) := by
    have hrest : ¬(s.failing failAt).bus.FaultDue := hdue
    rw [hdevice, if_neg hrest]
    exact hx (s.bus.accesses + 1) failAt s.bus
  have hcalm : access s.bus = mapState (Device.metered (s.bus.accesses + 1) none) (x s.bus) := by
    have hsame : (s.failing none).bus = s.bus := by
      rw [← hs]
      rfl
    have h := hrun none nofun
    rwa [hsame] at h
  refine ⟨[⟨t.block, offset, s.bus⟩], ?_, ?_, ?_, ?_, ?_, ?_, ?_⟩
  · intro log
    unfold onBus
    rw [hrecorder]
    unfold Recorder.pass State.recorded
    simp only
    cases access s.bus with
    | ok a d => rfl
    | error e d => rfl
  · unfold onBus
    rw [hcalm]
    cases x s.bus <;> rfl
  · unfold onBus
    rw [hcalm]
    cases x s.bus <;> rfl
  · unfold onBus
    rw [hcalm]
    cases x s.bus with
    | ok a d => exact fun _ => rfl
    | error e d => exact fun h => absurd ⟨e, _, rfl⟩ h
  · intro k access hk
    cases k with
    | zero =>
        obtain rfl := Option.some.inj hk
        rfl
    | succ k => simp at hk
  · intro n hn
    have hdue : some n ≠ some (s.bus.accesses + 1) := by
      simp only [List.length_singleton] at hn
      simp
      omega
    unfold onBus
    rw [hcalm, hrun (some n) hdue]
    cases x s.bus <;> rfl
  · intro k access hk
    cases k with
    | zero =>
        obtain rfl := Option.some.inj hk
        have hdue : (s.failing (some (s.bus.accesses + 1))).bus.FaultDue := rfl
        refine ⟨{ s with
          bus := s.bus.faulted
          stats := { s.stats with transportErrors := s.stats.transportErrors + 1 } }, ?_, rfl, rfl⟩
        unfold onBus
        rw [hdevice, if_pos hdue]
        rfl
    | succ k => simp at hk

/-- First `m`, then what follows its outcome. -/
theorem HasTrace.next {m : Script α} {m' : Script β} (onOk : α → Script β)
    (onError : Error → Script β) (hm : HasTrace t m) (hok : ∀ a, HasTrace t (onOk a))
    (herror : ∀ e, HasTrace t (onError e))
    (htransport : ∀ {σ : Type} [RegisterBus σ] cause (s : State σ),
      onError (.transport cause) σ s = .error (.transport cause) s)
    (hm' : ∀ {σ : Type} [RegisterBus σ] (s : State σ), m' σ s =
      match m σ s with
      | .ok a s' => onOk a σ s'
      | .error e s' => onError e σ s') : HasTrace t m' := by
  intro s hs
  obtain ⟨made, h⟩ := hm s hs
  -- What follows is one session, whatever the outcome of `m` is.
  obtain ⟨next, hnext, hfollows⟩ : ∃ next : Script β, HasTrace t next ∧
      ∀ {σ : Type} [RegisterBus σ] (f : State (Device t.geometry) → State σ) (s' : State σ),
        m σ s' = mapState f (m (Device t.geometry) s) →
          m' σ s' = next σ (f (endState (m (Device t.geometry) s))) := by
    cases hrun : m (Device t.geometry) s with
    | ok a s₁ =>
        refine ⟨onOk a, hok a, fun f s' h => ?_⟩
        rw [hm', h]
        rfl
    | error e s₁ =>
        refine ⟨onError e, herror e, fun f s' h => ?_⟩
        rw [hm', h]
        rfl
  generalize hs₁ : endState (m (Device t.geometry) s) = s₁ at *
  obtain ⟨made', h'⟩ := hnext s₁ (hs₁ ▸ h.noFault)
  have hself : m' (Device t.geometry) s = next (Device t.geometry) s₁ := by
    refine hfollows id s ?_
    cases m (Device t.geometry) s <;> rfl
  have haccesses : s₁.bus.accesses = s.bus.accesses + made.length := by
    rw [← hs₁, h.accesses]
  -- After a failed access nothing follows.
  have hbroken (hfails : TransportFails (m (Device t.geometry) s)) :
      ∃ cause, next (Device t.geometry) s₁ = .error (.transport cause) s₁ := by
    obtain ⟨cause, s₂, hrun⟩ := hfails
    rw [hrun] at hs₁
    obtain rfl : s₂ = s₁ := hs₁
    refine ⟨cause, ?_⟩
    rw [← hself, hm', hrun]
    exact htransport cause s₂
  refine ⟨made ++ made', ?_, ?_, ?_, ?_, ?_, ?_, ?_⟩
  · intro log
    rw [hfollows (State.recorded (log ++ made)) _ (h.recorded log), h'.recorded, hself,
      List.append_assoc]
  · rw [hself, h'.accesses, ← hs₁, h.accesses, List.length_append, Nat.add_assoc]
  · rw [hself]
    exact h'.noFault
  · intro hnot
    rw [hself] at hnot ⊢
    rw [h'.errors hnot, ← hs₁]
    refine h.errors fun hfails => hnot ?_
    obtain ⟨cause, hnext⟩ := hbroken hfails
    exact ⟨cause, s₁, hnext⟩
  · intro k access hk
    rw [List.getElem?_append] at hk
    by_cases hlt : k < made.length
    · rw [if_pos hlt] at hk
      exact h.before k access hk
    · rw [if_neg hlt] at hk
      rw [h'.before _ access hk, haccesses]
      omega
  · intro n hn
    rw [List.length_append] at hn
    rw [hfollows _ _ (h.later n (by omega)), h'.later n (by omega), hself]
  · intro k access hk
    rw [List.getElem?_append] at hk
    by_cases hlt : k < made.length
    · rw [if_pos hlt] at hk
      obtain ⟨s', hrun, hs'⟩ := h.failed k access hk
      refine ⟨s', ?_, hs'⟩
      rw [hm', hrun]
      exact htransport _ s'
    · rw [if_neg hlt] at hk
      obtain ⟨s', hrun, hbus, hcount⟩ := h'.failed _ access hk
      have hposition : s₁.bus.accesses + (k - made.length) + 1 = s.bus.accesses + k + 1 := by
        omega
      refine ⟨s', ?_, hbus, ?_⟩
      · rw [hfollows _ _ (h.later _ (Or.inr (by omega))), ← hposition]
        exact hrun
      · rw [hcount, ← hs₁, h.errors fun hfails => ?_]
        obtain ⟨cause, hnext⟩ := hbroken hfails
        have hlength := h'.accesses
        rw [hnext] at hlength
        have hnone : made'[k - made.length]? = none := by
          apply List.getElem?_eq_none
          change s₁.bus.accesses = _ at hlength
          omega
        exact nomatch hk.symm.trans hnone

theorem HasTrace.settled {m : Script α} (hm : HasTrace t m) :
    HasTrace t fun σ => (m σ).settled := by
  intro s hs
  obtain ⟨made, h⟩ := hm s hs
  refine ⟨made, ?_, ?_, ?_, ?_, h.before, ?_, ?_⟩
  · intro log
    rw [Session.settled_eq, Session.settled_eq, h.recorded]
    cases m (Device t.geometry) s <;> rfl
  · rw [Session.settled_eq, ← h.accesses]
    cases m (Device t.geometry) s <;> rfl
  · rw [Session.settled_eq, ← h.noFault]
    cases m (Device t.geometry) s <;> rfl
  · rw [Session.settled_eq]
    intro hnot
    have herrors := h.errors fun ⟨cause, s', hrun⟩ =>
      hnot ⟨cause, { s' with phase := .idle }, by rw [hrun]; rfl⟩
    rw [← herrors]
    cases m (Device t.geometry) s <;> rfl
  · intro n hn
    rw [Session.settled_eq, Session.settled_eq, h.later n hn]
    cases m (Device t.geometry) s <;> rfl
  · intro k access hk
    obtain ⟨s', hrun, hs'⟩ := h.failed k access hk
    refine ⟨{ s' with phase := .idle }, ?_, hs'⟩
    rw [Session.settled_eq, hrun]
    rfl

theorem hasTrace_read (offset : RegOffset) : HasTrace t fun _ => t.readRegister offset :=
  hasTrace_access (Device.unmetered_fetch offset)
    (fun d => d.readRegister_eq offset) (fun _ => rfl)

theorem hasTrace_write (offset : RegOffset) (value : Word) :
    HasTrace t fun _ => t.writeRegister offset value :=
  hasTrace_access (Device.unmetered_store offset value)
    (fun d => d.writeRegister_eq offset value) (fun _ => rfl)

theorem hasTrace_pure (a : α) : HasTrace t fun _ => pure a :=
  hasTrace_of_silent (.ok a) id id (fun _ => rfl) (fun _ => rfl)

theorem hasTrace_throw (e : Error) : HasTrace t (α := α) fun _ => throw e :=
  hasTrace_of_silent (.error e) id id (fun _ => rfl) (fun _ => rfl)

theorem HasTrace.bind {m : Script α} {f : α → Script β} (hm : HasTrace t m)
    (hf : ∀ a, HasTrace t (f a)) : HasTrace t fun σ => m σ >>= fun a => f a σ := by
  refine hm.next f (fun e _ => throw e) hf hasTrace_throw (fun _ _ => rfl) fun {σ} _ s => ?_
  change EStateM.bind (m σ) (fun a => f a σ) s = _
  unfold EStateM.bind
  cases m σ s <;> rfl

theorem HasTrace.catchMiss {m onMiss : Script α} (hm : HasTrace t m) (hmiss : HasTrace t onMiss) :
    HasTrace t fun σ => tryCatch (m σ) fun
      | .notFound _ => onMiss σ
      | e => throw e := by
  refine hm.next (fun a _ => pure a)
    (fun e σ => match e with
      | .notFound _ => onMiss σ
      | e => throw e) hasTrace_pure (fun e => ?_) (fun _ _ => rfl) fun {σ} _ s => ?_
  · cases e with
    | notFound i => exact hmiss
    | _ => exact hasTrace_throw _
  · change EStateM.tryCatch (m σ) _ s = _
    unfold EStateM.tryCatch
    cases m σ s with
    | ok a s' => rfl
    | error e s' => cases e <;> rfl

/-- The accesses of everything that is composed of single steps can be listed. -/
theorem hasTrace_of_steps {m : Script α} (h : Composed t.Step m) : HasTrace t m := by
  induction h with
  | part h =>
      cases h with
      | read offset => exact hasTrace_read offset
      | write offset value _ => exact hasTrace_write offset value
      | select =>
          unfold selectActionSubBlock RegisterBus.writeField
          simp only [onBus_bind]
          exact (hasTrace_read extensionRegister).bind fun _ => hasTrace_write extensionRegister _
      | count f hf => exact hasTrace_of_silent (.ok ()) id f hf (fun _ => rfl)
      | enter phase =>
          exact hasTrace_of_silent (.ok ()) (fun _ => phase) id (fun _ => rfl) (fun _ => rfl)
      | throw e _ => exact hasTrace_throw e
  | pure a => exact hasTrace_pure a
  | bind _ _ ihm ihf => exact ihm.bind ihf
  | catchMiss _ _ ihm ihmiss => exact ihm.catchMiss ihmiss
  | settled _ ih => exact ih.settled

end Table

end Tcam
